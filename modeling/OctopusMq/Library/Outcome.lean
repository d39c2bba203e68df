import Mathlib.Data.List.Basic
import Mathlib.Tactic.TypeStar

set_option autoImplicit false

/- Imperative steps that change a state, emit effects and may end in a fault.
A fault keeps the state and the effects made before it: this is how an
exception leaves a procedure that has no transaction around it. -/
namespace Imperative

/-- The state a step leaves, the effects it made in order, and the fault that
ended it early, if any. -/
structure Outcome (σ β ε : Type*) where
  state : σ
  effects : List β
  fault : Option ε

namespace Outcome

variable {σ α β ε : Type*}

/-- Return normally from `state`. -/
def done (state : σ) : Outcome σ β ε := ⟨state, [], none⟩

/-- Make one effect and return normally. -/
def emit (state : σ) (effect : β) : Outcome σ β ε := ⟨state, [effect], none⟩

/-- Leave with `error`. -/
def throw (state : σ) (error : ε) : Outcome σ β ε := ⟨state, [], some error⟩

/-- Continue with `next` unless the first step ended in a fault. -/
def andThen (first : Outcome σ β ε) (next : σ → Outcome σ β ε) : Outcome σ β ε :=
  match first.fault with
  | some _ => first
  | none =>
      let second := next first.state
      ⟨second.state, first.effects ++ second.effects, second.fault⟩

/-- A loop over a list, left at the first fault. -/
def forEach (body : α → σ → Outcome σ β ε) : List α → σ → Outcome σ β ε
  | [], state => done state
  | item :: rest, state => (body item state).andThen (forEach body rest)

@[simp] theorem done_state (state : σ) : (done state : Outcome σ β ε).state = state := rfl
@[simp] theorem done_effects (state : σ) : (done state : Outcome σ β ε).effects = [] := rfl
@[simp] theorem done_fault (state : σ) : (done state : Outcome σ β ε).fault = none := rfl

@[simp] theorem emit_state (state : σ) (effect : β) :
    (emit state effect : Outcome σ β ε).state = state := rfl
@[simp] theorem emit_effects (state : σ) (effect : β) :
    (emit state effect : Outcome σ β ε).effects = [effect] := rfl
@[simp] theorem emit_fault (state : σ) (effect : β) :
    (emit state effect : Outcome σ β ε).fault = none := rfl

@[simp] theorem throw_state (state : σ) (error : ε) :
    (throw state error : Outcome σ β ε).state = state := rfl
@[simp] theorem throw_effects (state : σ) (error : ε) :
    (throw state error : Outcome σ β ε).effects = [] := rfl
@[simp] theorem throw_fault (state : σ) (error : ε) :
    (throw state error : Outcome σ β ε).fault = some error := rfl

theorem andThen_of_fault (first : Outcome σ β ε) (next : σ → Outcome σ β ε) (error : ε)
    (failed : first.fault = some error) : first.andThen next = first := by
  simp only [andThen, failed]

theorem andThen_of_ok (first : Outcome σ β ε) (next : σ → Outcome σ β ε)
    (ok : first.fault = none) :
    first.andThen next = ⟨(next first.state).state, first.effects ++ (next first.state).effects,
      (next first.state).fault⟩ := by
  simp only [andThen, ok]

@[simp] theorem done_andThen (state : σ) (next : σ → Outcome σ β ε) :
    (done state).andThen next = next state := rfl

theorem andThen_done (first : Outcome σ β ε) : first.andThen done = first := by
  cases failed : first.fault with
  | some error => exact andThen_of_fault first _ error failed
  | none =>
      rw [andThen_of_ok first _ failed, done_effects, List.append_nil, done_state, done_fault,
        ← failed]

theorem emit_andThen (state : σ) (effect : β) (next : σ → Outcome σ β ε) :
    (emit state effect).andThen next =
      ⟨(next state).state, effect :: (next state).effects, (next state).fault⟩ := rfl

theorem andThen_assoc (first : Outcome σ β ε) (second third : σ → Outcome σ β ε) :
    (first.andThen second).andThen third =
      first.andThen fun state => (second state).andThen third := by
  cases failed : first.fault with
  | some error =>
      rw [andThen_of_fault first _ error failed, andThen_of_fault first _ error failed,
        andThen_of_fault first _ error failed]
  | none =>
      rw [andThen_of_ok first _ failed, andThen_of_ok first _ failed]
      cases here : (second first.state).fault with
      | some error => rw [andThen_of_fault _ _ error rfl, andThen_of_fault _ third error here, here]
      | none =>
          rw [andThen_of_ok _ _ rfl, andThen_of_ok _ third here]
          simp only [List.append_assoc]

theorem andThen_fault_none_iff (first : Outcome σ β ε) (next : σ → Outcome σ β ε) :
    (first.andThen next).fault = none ↔
      first.fault = none ∧ (next first.state).fault = none := by
  cases failed : first.fault with
  | none => simp only [andThen_of_ok first next failed, true_and]
  | some error => simp only [andThen_of_fault first next error failed, failed, reduceCtorEq,
      false_and]

/-- The effects of the first part of a sequence are made whatever the second part does. -/
theorem mem_andThen_effects_of_left {first : Outcome σ β ε} {next : σ → Outcome σ β ε}
    {effect : β} (member : effect ∈ first.effects) : effect ∈ (first.andThen next).effects := by
  cases failed : first.fault with
  | none =>
      rw [andThen_of_ok first next failed]
      exact List.mem_append_left _ member
  | some error =>
      rw [andThen_of_fault first next error failed]
      exact member

@[simp] theorem forEach_nil (body : α → σ → Outcome σ β ε) (state : σ) :
    forEach body [] state = done state := rfl

@[simp] theorem forEach_cons (body : α → σ → Outcome σ β ε) (item : α) (rest : List α)
    (state : σ) :
    forEach body (item :: rest) state = (body item state).andThen (forEach body rest) := rfl

/-- A step leaves a state of `inv`, whether or not at a fault, makes good effects and
ends in no other than a fair fault. -/
structure Within (inv : σ → Prop) (good : β → Prop) (fair : ε → Prop)
    (outcome : Outcome σ β ε) : Prop where
  state : inv outcome.state
  effects : ∀ effect ∈ outcome.effects, good effect
  fault : ∀ error, outcome.fault = some error → fair error

section Within

variable {inv : σ → Prop} {good : β → Prop} {fair : ε → Prop}

theorem Within.done {state : σ} (holds : inv state) :
    Within inv good fair (Outcome.done state) :=
  ⟨holds, fun _ member => (nomatch member), fun _ failed => (nomatch failed)⟩

theorem Within.throw {state : σ} {error : ε} (holds : inv state) (thrown : fair error) :
    Within inv good fair (Outcome.throw state error) := by
  refine ⟨holds, fun _ member => (nomatch member), ?_⟩
  intro other failed
  cases failed
  exact thrown

theorem Within.andThen {first : Outcome σ β ε} {next : σ → Outcome σ β ε}
    (now : Within inv good fair first)
    (later : first.fault = none → Within inv good fair (next first.state)) :
    Within inv good fair (first.andThen next) := by
  cases here : first.fault with
  | some error =>
      rw [andThen_of_fault _ _ error here]
      exact now
  | none =>
      have rest := later here
      rw [andThen_of_ok _ _ here]
      refine ⟨rest.state, ?_, rest.fault⟩
      intro effect member
      rcases List.mem_append.mp member with before | behind
      · exact now.effects effect before
      · exact rest.effects effect behind

theorem Within.forEach {body : α → σ → Outcome σ β ε} (items : List α)
    (each : ∀ item ∈ items, ∀ state, inv state → Within inv good fair (body item state))
    {state : σ} (holds : inv state) : Within inv good fair (Outcome.forEach body items state) := by
  induction items generalizing state with
  | nil => exact Within.done holds
  | cons item rest ih =>
      have now := each item List.mem_cons_self state holds
      apply now.andThen
      intro ok
      exact ih (fun other member => each other (List.mem_cons_of_mem item member)) now.state

/-- A loop over positions, with an invariant that each iteration takes to the next one. -/
theorem Within.forEach_range' (reached : Nat → σ → Prop) (body : Nat → σ → Outcome σ β ε)
    (start count : Nat)
    (each : ∀ position, position < start + count → ∀ state, reached position state →
      Within inv good fair (body position state) ∧
        ((body position state).fault = none → reached (position + 1) (body position state).state))
    {state : σ} (begins : reached start state) (holds : inv state) :
    Within inv good fair (Outcome.forEach body (List.range' start count) state) ∧
      ((Outcome.forEach body (List.range' start count) state).fault = none →
        reached (start + count) (Outcome.forEach body (List.range' start count) state).state) := by
  induction count generalizing start state with
  | zero => exact ⟨Within.done holds, fun _ => begins⟩
  | succ count ih =>
      obtain ⟨now, next⟩ := each start (by omega) state begins
      rw [List.range'_succ, forEach_cons]
      cases here : (body start state).fault with
      | some error =>
          rw [andThen_of_fault _ _ error here]
          refine ⟨now, ?_⟩
          intro ok
          rw [here] at ok
          cases ok
      | none =>
          have bound : start + (count + 1) = start + 1 + count := by omega
          have later := ih (start + 1) (fun position inside => each position (by omega)) (next here)
            now.state
          rw [bound]
          refine ⟨?_, ?_⟩
          · exact now.andThen fun _ => later.1
          · intro ok
            rw [andThen_of_ok _ _ here] at ok ⊢
            exact later.2 ok

theorem Within.forEach_range (reached : Nat → σ → Prop) (body : Nat → σ → Outcome σ β ε)
    (count : Nat)
    (each : ∀ position, position < count → ∀ state, reached position state →
      Within inv good fair (body position state) ∧
        ((body position state).fault = none → reached (position + 1) (body position state).state))
    {state : σ} (begins : reached 0 state) (holds : inv state) :
    Within inv good fair (Outcome.forEach body (List.range count) state) ∧
      ((Outcome.forEach body (List.range count) state).fault = none →
        reached count (Outcome.forEach body (List.range count) state).state) := by
  have whole := Within.forEach_range' reached body 0 count
    (fun position inside => each position (by omega)) begins holds
  rwa [← List.range_eq_range', Nat.zero_add] at whole

end Within

/-- A loop invariant: what every iteration keeps, the loop keeps, also when it is left early. -/
theorem forEach_invariant (inv : σ → Prop) (body : α → σ → Outcome σ β ε) (items : List α)
    (keep : ∀ item ∈ items, ∀ state, inv state → inv (body item state).state)
    (state : σ) (start : inv state) : inv (forEach body items state).state := by
  have within : Within inv (fun _ => True) (fun _ => True) (forEach body items state) := by
    apply Within.forEach items _ start
    intro item member reached holds
    exact ⟨keep item member reached holds, fun _ _ => trivial, fun _ _ => trivial⟩
  exact within.state

/-- What holds of every effect of every iteration holds of every effect of the loop. -/
theorem forEach_effects (good : β → Prop) (body : α → σ → Outcome σ β ε) (items : List α)
    (each : ∀ item ∈ items, ∀ state, ∀ effect ∈ (body item state).effects, good effect)
    (state : σ) : ∀ effect ∈ (forEach body items state).effects, good effect := by
  have within : Within (fun _ => True) good (fun _ => True) (forEach body items state) := by
    refine Within.forEach items ?_ trivial
    intro item member reached _
    exact ⟨trivial, each item member reached, fun _ _ => trivial⟩
  exact within.effects

/-- What a loop that returns lets an observer see is what its iterations do, in order. -/
theorem forEach_observe {γ : Type*} (inv : σ → Prop) (observe : β → Option γ)
    (seen : α → List γ) (body : α → σ → Outcome σ β ε) (items : List α)
    (each : ∀ item ∈ items, ∀ state, inv state → (body item state).fault = none →
      inv (body item state).state ∧ (body item state).effects.filterMap observe = seen item)
    (state : σ) (start : inv state) (ok : (forEach body items state).fault = none) :
    inv (forEach body items state).state ∧
      (forEach body items state).effects.filterMap observe = items.flatMap seen := by
  induction items generalizing state with
  | nil => exact ⟨start, rfl⟩
  | cons item rest ih =>
      rw [forEach_cons, andThen_fault_none_iff] at ok
      have now := each item (by simp) state start ok.1
      have later := ih (fun other member => each other (by simp [member])) _ now.1 ok.2
      rw [forEach_cons, andThen_of_ok _ _ ok.1]
      refine ⟨later.1, ?_⟩
      rw [List.filterMap_append, now.2, later.2, List.flatMap_cons]

/-- A loop whose iterations leave the state as it is and make one effect each. -/
theorem forEach_emit (effect : α → β) (body : α → σ → Outcome σ β ε) (items : List α) (state : σ)
    (each : ∀ item ∈ items, body item state = emit state (effect item)) :
    forEach body items state = ⟨state, items.map effect, none⟩ := by
  induction items with
  | nil => rfl
  | cons item rest ih =>
      have later := ih fun other member => each other (List.mem_cons_of_mem item member)
      rw [forEach_cons, each item List.mem_cons_self, andThen_of_ok _ _ (emit_fault _ _),
        emit_state, later]
      rfl

/-- A loop whose iterations fault by their items alone returns exactly if each of them does. -/
theorem forEach_fault_none_iff (inv : σ → Prop) (returns : α → Prop)
    (body : α → σ → Outcome σ β ε) (items : List α)
    (each : ∀ item ∈ items, ∀ state, inv state →
      inv (body item state).state ∧ ((body item state).fault = none ↔ returns item))
    (state : σ) (start : inv state) :
    (forEach body items state).fault = none ↔ ∀ item ∈ items, returns item := by
  induction items generalizing state with
  | nil => simp
  | cons item rest ih =>
      obtain ⟨kept, now⟩ := each item List.mem_cons_self state start
      have later := ih (fun other member => each other (List.mem_cons_of_mem item member)) _ kept
      rw [forEach_cons, andThen_fault_none_iff, now, later, List.forall_mem_cons]

/-- A loop is that of any body that agrees with its own on the items. -/
theorem forEach_congr {body other : α → σ → Outcome σ β ε} (items : List α)
    (same : ∀ item ∈ items, ∀ state, other item state = body item state) (state : σ) :
    forEach other items state = forEach body items state := by
  induction items generalizing state with
  | nil => rfl
  | cons item rest ih =>
      have tail : forEach other rest = forEach body rest := by
        funext next
        exact ih (fun later member => same later (by simp [member])) next
      rw [forEach_cons, forEach_cons, same item (by simp), tail]

/-- What an observer notes of the iterations a loop makes, the one at which it is
left included. -/
def trace {γ : Type*} (note : α → σ → List γ) (body : α → σ → Outcome σ β ε) :
    List α → σ → List γ
  | [], _ => []
  | item :: rest, state =>
      note item state ++
        match (body item state).fault with
        | none => trace note body rest (body item state).state
        | some _ => []

/-- Notes that account for the effects of every iteration account for those of the loop. -/
theorem forEach_effects_eq_trace {γ δ : Type*} (observe : β → Option δ) (render : γ → δ)
    (note : α → σ → List γ) (body : α → σ → Outcome σ β ε) (items : List α)
    (each : ∀ item ∈ items, ∀ state,
      (body item state).effects.filterMap observe = (note item state).map render)
    (state : σ) :
    (forEach body items state).effects.filterMap observe =
      (trace note body items state).map render := by
  induction items generalizing state with
  | nil => rfl
  | cons item rest ih =>
      have now := each item List.mem_cons_self state
      rw [forEach_cons, trace, List.map_append, ← now]
      cases failed : (body item state).fault with
      | none =>
          rw [andThen_of_ok _ _ failed, List.filterMap_append,
            ih (fun other member => each other (List.mem_cons_of_mem item member))]
      | some error => rw [andThen_of_fault _ _ error failed, List.map_nil, List.append_nil]

/-- What holds of the notes of every iteration, as long as an invariant of the
loop does, holds of the notes of the loop. -/
theorem forall_mem_trace {γ : Type*} (inv : σ → Prop) (good : γ → Prop)
    (note : α → σ → List γ) (body : α → σ → Outcome σ β ε) (items : List α)
    (each : ∀ item ∈ items, ∀ state, inv state →
      inv (body item state).state ∧ ∀ noted ∈ note item state, good noted)
    (state : σ) (start : inv state) : ∀ noted ∈ trace note body items state, good noted := by
  induction items generalizing state with
  | nil =>
      intro noted member
      cases member
  | cons item rest ih =>
      intro noted member
      have now := each item List.mem_cons_self state start
      rw [trace] at member
      rcases List.mem_append.mp member with here | later
      · exact now.2 noted here
      · cases failed : (body item state).fault with
        | none =>
            rw [failed] at later
            exact ih (fun other inside => each other (List.mem_cons_of_mem item inside)) _ now.1
              noted later
        | some error =>
            rw [failed] at later
            cases later

/-- The iterations of a loop make effects and faults that do not depend on the state. -/
structure Uniform (body : α → σ → Outcome σ β ε) (effects : α → List β)
    (fault : α → Option ε) : Prop where
  effects_eq : ∀ item state, (body item state).effects = effects item
  fault_eq : ∀ item state, (body item state).fault = fault item

section Uniform

variable {body : α → σ → Outcome σ β ε} {effects : α → List β} {fault : α → Option ε}

theorem Uniform.fault_none_iff (uniform : Uniform body effects fault) (items : List α)
    (state : σ) :
    (forEach body items state).fault = none ↔ ∀ item ∈ items, fault item = none := by
  induction items generalizing state with
  | nil => simp
  | cons item rest ih =>
      rw [forEach_cons, andThen_fault_none_iff, ih, uniform.fault_eq]
      simp only [List.mem_cons, forall_eq_or_imp]

theorem Uniform.effects_of_ok (uniform : Uniform body effects fault) (items : List α)
    (state : σ) (ok : ∀ item ∈ items, fault item = none) :
    (forEach body items state).effects = items.flatMap effects := by
  induction items generalizing state with
  | nil => rfl
  | cons item rest ih =>
      have now : (body item state).fault = none := by
        rw [uniform.fault_eq]
        exact ok item (by simp)
      rw [forEach_cons, andThen_of_ok _ _ now, uniform.effects_eq, List.flatMap_cons,
        ih _ (fun other member => ok other (by simp [member]))]

/-- At the first faulty item the loop has made the effects up to and including it. -/
theorem Uniform.stop (uniform : Uniform body effects fault) (before after : List α) (item : α)
    (error : ε) (state : σ) (ok : ∀ other ∈ before, fault other = none)
    (failed : fault item = some error) :
    (forEach body (before ++ item :: after) state).fault = some error ∧
      (forEach body (before ++ item :: after) state).effects =
        before.flatMap effects ++ effects item := by
  induction before generalizing state with
  | nil =>
      have now : (body item state).fault = some error := by rw [uniform.fault_eq, failed]
      rw [List.nil_append, forEach_cons, andThen_of_fault _ _ error now]
      exact ⟨now, by simp [uniform.effects_eq]⟩
  | cons first rest ih =>
      have now : (body first state).fault = none := by
        rw [uniform.fault_eq]
        exact ok first (by simp)
      have later := ih (body first state).state (fun other member => ok other (by simp [member]))
      rw [List.cons_append, forEach_cons, andThen_of_ok _ _ now]
      refine ⟨later.1, ?_⟩
      simp only [later.2, uniform.effects_eq, List.flatMap_cons, List.append_assoc]

/-- Either no item is faulty, or one comes first. -/
theorem firstFault (fault : α → Option ε) (items : List α) :
    (∀ item ∈ items, fault item = none) ∨
      ∃ before item after error, items = before ++ item :: after ∧
        (∀ other ∈ before, fault other = none) ∧ fault item = some error := by
  induction items with
  | nil => exact Or.inl (by simp)
  | cons first rest ih =>
      cases now : fault first with
      | some error => exact Or.inr ⟨[], first, rest, error, rfl, by simp, now⟩
      | none =>
          rcases ih with ok | ⟨before, item, after, error, split, ok, failed⟩
          · exact Or.inl (by simp only [List.mem_cons, forall_eq_or_imp]; exact ⟨now, ok⟩)
          · refine Or.inr ⟨first :: before, item, after, error, ?_, ?_, failed⟩
            · rw [split, List.cons_append]
            · simp only [List.mem_cons, forall_eq_or_imp]
              exact ⟨now, ok⟩

/-- The fault of a loop is that of its first faulty item. -/
theorem Uniform.fault_some_iff (uniform : Uniform body effects fault) (items : List α)
    (state : σ) (error : ε) :
    (forEach body items state).fault = some error ↔
      ∃ before item after, items = before ++ item :: after ∧
        (∀ other ∈ before, fault other = none) ∧ fault item = some error := by
  refine ⟨?_, ?_⟩
  · intro failed
    rcases firstFault fault items with ok | ⟨before, item, after, first, split, ok, now⟩
    · rw [(uniform.fault_none_iff items state).mpr ok] at failed
      cases failed
    · refine ⟨before, item, after, split, ok, ?_⟩
      rw [split, (uniform.stop before after item first state ok now).1] at failed
      rw [now, failed]
  · intro found
    obtain ⟨before, item, after, split, ok, now⟩ := found
    rw [split]
    exact (uniform.stop before after item error state ok now).1

/-- Two loops whose iterations make the same effects and faults make the same ones as a whole. -/
theorem Uniform.agree {τ : Type*} {other : α → τ → Outcome τ β ε}
    (uniform : Uniform body effects fault) (same : Uniform other effects fault)
    (items : List α) (state : σ) (state' : τ) :
    (forEach body items state).effects = (forEach other items state').effects ∧
      (forEach body items state).fault = (forEach other items state').fault := by
  induction items generalizing state state' with
  | nil => exact ⟨rfl, rfl⟩
  | cons item rest ih =>
      simp only [forEach_cons]
      cases failed : fault item with
      | some error =>
          have left : (body item state).fault = some error := by rw [uniform.fault_eq, failed]
          have right : (other item state').fault = some error := by rw [same.fault_eq, failed]
          rw [andThen_of_fault _ _ error left, andThen_of_fault _ _ error right]
          exact ⟨by rw [uniform.effects_eq, same.effects_eq], by rw [left, right]⟩
      | none =>
          have left : (body item state).fault = none := by rw [uniform.fault_eq, failed]
          have right : (other item state').fault = none := by rw [same.fault_eq, failed]
          have tail := ih (body item state).state (other item state').state
          rw [andThen_of_ok _ _ left, andThen_of_ok _ _ right]
          exact ⟨by rw [tail.1, uniform.effects_eq, same.effects_eq], tail.2⟩

end Uniform

end Outcome

end Imperative
