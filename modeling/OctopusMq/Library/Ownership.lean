import OctopusMq.Library.Threads

set_option autoImplicit false

/- Parts of the shared state that one thread alone changes: whatever the others do
meanwhile, its tasks work on such a part as if they ran one after the other. -/
namespace Concurrent

namespace Program

variable {σ lock ε ρ β : Type*}

/-- No step of the program changes the view. -/
def Keeps (view : σ → ρ) : Program σ lock ε → Prop
  | .done _ => True
  | .acquire _ next => next.Keeps view
  | .release _ next => next.Keeps view
  | .perform change next => ∀ state, view (change state) = view state ∧ (next state).Keeps view

/-- The program takes the view from `now` to `final`, whatever it finds besides. -/
def Leads (view : σ → ρ) : Program σ lock ε → ρ → ρ → Prop
  | .done _, now, final => now = final
  | .acquire _ next, now, final => next.Leads view now final
  | .release _ next, now, final => next.Leads view now final
  | .perform change next, now, final => ∀ state, view state = now →
      (next state).Leads view (view (change state)) final

/-- The program adds these items to the record, whatever it finds besides. -/
def Adds (record : σ → List β) : Program σ lock ε → List β → Prop
  | .done _, owed => owed = []
  | .acquire _ next, owed => next.Adds record owed
  | .release _ next, owed => next.Adds record owed
  | .perform change next, owed => ∀ state, ∃ now later, owed = now ++ later ∧
      record (change state) = record state ++ now ∧ (next state).Adds record later

theorem Adds.perform {record : σ → List β} {change : σ → σ} {next : σ → Program σ lock ε}
    {now later : List β} (adds : ∀ state, record (change state) = record state ++ now)
    (rest : ∀ state, (next state).Adds record later) :
    (Program.perform change next).Adds record (now ++ later) :=
  fun state => ⟨now, later, rfl, adds state, rest state⟩

/-- A step that leaves the record alone. -/
theorem Adds.pass {record : σ → List β} {change : σ → σ} {next : σ → Program σ lock ε}
    {owed : List β} (keeps : ∀ state, record (change state) = record state)
    (rest : ∀ state, (next state).Adds record owed) :
    (Program.perform change next).Adds record owed := by
  intro state
  refine ⟨[], owed, rfl, ?_, rest state⟩
  rw [keeps state, List.append_nil]

/-- The program adds some of these items to the record, in their order, or none. -/
def AddsSome (record : σ → List β) : Program σ lock ε → List β → Prop
  | .done _, _ => True
  | .acquire _ next, most => next.AddsSome record most
  | .release _ next, most => next.AddsSome record most
  | .perform change next, most => ∀ state, ∃ now later, (now ++ later).Sublist most ∧
      record (change state) = record state ++ now ∧ (next state).AddsSome record later

theorem AddsSome.pass {record : σ → List β} {change : σ → σ} {next : σ → Program σ lock ε}
    {most : List β} (keeps : ∀ state, record (change state) = record state)
    (rest : ∀ state, (next state).AddsSome record most) :
    (Program.perform change next).AddsSome record most := by
  intro state
  refine ⟨[], most, List.Sublist.refl most, ?_, rest state⟩
  rw [keeps state, List.append_nil]

theorem Keeps.addsSome {record : σ → List β} {program : Program σ lock ε}
    (keeps : program.Keeps record) (most : List β) : program.AddsSome record most := by
  induction program with
  | done fault => trivial
  | acquire mutex next ih => exact ih keeps
  | release mutex next ih => exact ih keeps
  | perform change next ih =>
      exact AddsSome.pass (fun state => (keeps state).1) fun state => ih state (keeps state).2

/-- A step that leaves the view alone. -/
theorem Leads.pass {view : σ → ρ} {change : σ → σ} {next : σ → Program σ lock ε} {now final : ρ}
    (keeps : ∀ state, view (change state) = view state)
    (rest : ∀ state, view state = now → (next state).Leads view now final) :
    (Program.perform change next).Leads view now final := by
  intro state same
  rw [keeps state, same]
  exact rest state same

end Program

/-- Something a program owes at a view of the shared state, and still owes from each
of its steps on. -/
structure Promise {σ ρ : Type*} (lock ε : Type*) (view : σ → ρ) (α : Type*) where
  holds : Program σ lock ε → ρ → α → Prop
  acquire : ∀ mutex next now final, holds (.acquire mutex next) now final → holds next now final
  release : ∀ mutex next now final, holds (.release mutex next) now final → holds next now final
  perform : ∀ change next state final, holds (.perform change next) (view state) final →
    holds (next state) (view (change state)) final

namespace Promise

variable {σ lock ε ρ β : Type*}

/-- A program owes the view it leads to. -/
def leads (view : σ → ρ) : Promise lock ε view ρ where
  holds program now final := program.Leads view now final
  acquire _ _ _ _ owes := owes
  release _ _ _ _ owes := owes
  perform _ _ state _ owes := owes state rfl

/-- A program owes the items it has not added yet, which are not many. Those of the
base have been there from the start. -/
def adds (record : σ → List β) (base : List β) (bound : Nat) :
    Promise lock ε record (List β) where
  holds program now final := base <+: now ∧
    ∃ owed, program.Adds record owed ∧ now ++ owed = final ∧ owed.length ≤ bound
  acquire _ _ _ _ owes := owes
  release _ _ _ _ owes := owes
  perform change next state final owes := by
    obtain ⟨old, owed, adds, all, few⟩ := owes
    obtain ⟨now, later, split, added, rest⟩ := adds state
    refine ⟨?_, later, rest, ?_, ?_⟩
    · rw [added]
      exact old.trans (List.prefix_append _ _)
    · rw [added, List.append_assoc, ← split, all]
    · rw [split, List.length_append] at few
      omega

/-- A program owes nothing but the order and the number of what it adds. -/
def addsSome (record : σ → List β) : Promise lock ε record (List β) where
  holds program now final := ∃ most, program.AddsSome record most ∧ (now ++ most).Sublist final
  acquire _ _ _ _ owes := owes
  release _ _ _ _ owes := owes
  perform change next state final owes := by
    obtain ⟨most, adds, within⟩ := owes
    obtain ⟨now, later, fewer, added, rest⟩ := adds state
    refine ⟨later, rest, ?_⟩
    rw [added, List.append_assoc]
    exact ((List.Sublist.refl _).append fewer).trans within

end Promise

/-- The task a label gives to a thread. -/
def Label.taskOf {θ τ : Type*} [DecidableEq θ] (thread : θ) : Label θ τ → Option τ
  | .start other task => if other = thread then some task else none
  | .advance _ => none

namespace Threads

variable {θ τ σ lock ε ρ α β : Type*} [DecidableEq θ] [DecidableEq lock]
  {view : σ → ρ} {promise : Promise lock ε view α} {mine : θ} {state : Threads θ σ lock ε}
  {final : α}

/-- A thread keeps a promise about a view that the others leave alone. -/
structure Owned (promise : Promise lock ε view α) (mine : θ) (state : Threads θ σ lock ε)
    (final : α) : Prop where
  own : promise.holds (state.program mine) (view state.shared) final
  others : ∀ other, other ≠ mine → (state.program other).Keeps view

omit [DecidableEq lock] in
theorem Owned.replace {shared : σ} {thread : θ} {next : Program σ lock ε} {after : α}
    (owned : Owned promise mine state final) (holder : lock → Option θ)
    (own : promise.holds (Function.update state.program thread next mine) (view shared) after)
    (keeps : thread ≠ mine → next.Keeps view) :
    Owned promise mine ⟨shared, holder, Function.update state.program thread next⟩ after := by
  refine ⟨own, ?_⟩
  intro other apart
  show (Function.update state.program thread next other).Keeps view
  by_cases same : other = thread
  · rw [same, Function.update_self]
    exact keeps fun equal => apart (same.trans equal)
  · rw [Function.update_of_ne same]
    exact owned.others other apart

theorem Owned.advance (owned : Owned promise mine state final) {thread : θ}
    (can : state.CanAdvance thread) : Owned promise mine (state.advance thread) final := by
  rcases advance_cases state thread can with ⟨mutex, next, here, _, step⟩ |
    ⟨mutex, next, here, step⟩ | ⟨change, next, here, step⟩
  · rw [step]
    apply owned.replace
    · by_cases same : mine = thread
      · have own := owned.own
        rw [same, here] at own
        rw [same, Function.update_self]
        exact promise.acquire mutex next _ _ own
      · rw [Function.update_of_ne same]
        exact owned.own
    · intro apart
      have keeps := owned.others thread apart
      rw [here] at keeps
      exact keeps
  · rw [step]
    apply owned.replace
    · by_cases same : mine = thread
      · have own := owned.own
        rw [same, here] at own
        rw [same, Function.update_self]
        exact promise.release mutex next _ _ own
      · rw [Function.update_of_ne same]
        exact owned.own
    · intro apart
      have keeps := owned.others thread apart
      rw [here] at keeps
      exact keeps
  · rw [step]
    apply owned.replace
    · by_cases same : mine = thread
      · have own := owned.own
        rw [same, here] at own
        rw [same, Function.update_self]
        exact promise.perform change next state.shared final own
      · have keeps := owned.others thread (Ne.symm same)
        rw [here] at keeps
        rw [Function.update_of_ne same, (keeps state.shared).1]
        exact owned.own
    · intro apart
      have keeps := owned.others thread apart
      rw [here] at keeps
      exact (keeps state.shared).2

section Run

variable {code : θ → τ → Program σ lock ε} {permits : σ → θ → τ → Prop} (after : α → τ → α)

/-- Over every run, the thread owes what its tasks amount to one after the other. -/
theorem Owned.run
    (begins : ∀ shared task, permits shared mine task → ∀ fault final,
      promise.holds (.done fault) (view shared) final →
        promise.holds (code mine task) (view shared) (after final task))
    (leaves : ∀ shared other task, permits shared other task → other ≠ mine →
      (code other task).Keeps view)
    (labels : List (Label θ τ)) (owned : Owned promise mine state final)
    (admitted : (machine code permits).Admits state labels) :
    Owned promise mine ((machine code permits).run state labels)
      ((labels.filterMap (Label.taskOf mine)).foldl after final) := by
  induction labels generalizing state final with
  | nil => exact owned
  | cons label rest ih =>
      cases label with
      | advance thread => exact ih (owned.advance admitted.1) admitted.2
      | start thread task =>
          obtain ⟨finished, permitted⟩ := admitted.1
          by_cases same : thread = mine
          · subst same
            rw [List.filterMap_cons_some
              (show Label.taskOf thread (.start thread task) = some task from
              if_pos rfl), List.foldl_cons]
            refine ih (owned.replace state.holder ?_ fun apart => absurd rfl apart) admitted.2
            rw [Function.update_self]
            have own := owned.own
            obtain ⟨fault, here⟩ := finished.eq_done
            rw [here] at own
            exact begins state.shared task permitted fault final own
          · rw [List.filterMap_cons_none (show Label.taskOf mine (.start thread task) = none from
              if_neg same)]
            refine ih (owned.replace state.holder ?_ fun _ =>
              leaves state.shared thread task permitted same) admitted.2
            rw [Function.update_of_ne (Ne.symm same)]
            exact owned.own

end Run

omit [DecidableEq θ] [DecidableEq lock] in
/-- A thread that is idle has kept its promise to lead to a view. -/
theorem Owned.view_of_finished {final : ρ}
    (owned : Owned (Promise.leads view : Promise lock ε view ρ) mine state final)
    (finished : (state.program mine).Finished) : view state.shared = final := by
  have own := owned.own
  obtain ⟨fault, here⟩ := finished.eq_done
  rw [here] at own
  exact own

omit [DecidableEq θ] [DecidableEq lock] in
/-- A thread that is idle has added all it owed. -/
theorem Owned.record_of_finished {record : σ → List β} {base final : List β} {bound : Nat}
    (owned : Owned (Promise.adds record base bound : Promise lock ε record (List β)) mine state
      final)
    (finished : (state.program mine).Finished) : record state.shared = final := by
  obtain ⟨_, owed, adds, all, _⟩ := owned.own
  obtain ⟨fault, here⟩ := finished.eq_done
  rw [here] at adds
  rw [← all, show owed = [] from adds, List.append_nil]

end Threads

end Concurrent
