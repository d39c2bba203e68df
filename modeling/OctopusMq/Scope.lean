import OctopusMq.TopicMatching

set_option autoImplicit false

namespace OctopusMq

open Scope in
/-- Class `scope`. The stored token vectors are levels of accepted filters. -/
structure Scope where
  scope : List (List Text)
  isGlobalWildcard : Bool
  tokenized : ∀ tokens ∈ scope, tokens ≠ [] ∧ LevelsAccepted tokens

namespace Scope

theorem accepted_of_tokenizeTopicFilter {topicFilter : Text} {tokens : List Text}
    (tokenized : tokenizeTopicFilter topicFilter = .ok tokens) (nonempty : tokens ≠ []) :
    tokens ≠ [] ∧ LevelsAccepted tokens := by
  rw [tokenizeTopicFilter_eq] at tokenized
  have same := Except.ok.inj tokenized
  by_cases good : Accepted topicFilter
  · rw [if_pos good] at same
    exact ⟨nonempty, same ▸ good.2⟩
  · rw [if_neg good] at same
    exact absurd same.symm nonempty

/-- `scope()`. -/
def global : Scope := ⟨[], true, by simp⟩

/-- The state of both other constructors before their body runs. -/
def blank : Scope := ⟨[], false, by simp⟩

/-- `_scope.push_back(tokens)`. -/
def push (self : Scope) (tokens : List Text) (good : tokens ≠ [] ∧ LevelsAccepted tokens) :
    Scope :=
  { self with
    scope := self.scope ++ [tokens]
    tokenized := by
      intro other member
      rcases List.mem_append.mp member with old | new
      · exact self.tokenized other old
      · rw [List.mem_singleton.mp new]
        exact good }

/-- `scope(const string &)`. -/
def ofString (scopeString : Text) : Except Fault Scope :=
  if scopeString = hashSign then .ok { blank with isGlobalWildcard := true }
  else
    match tokenized : tokenizeTopicFilter scopeString with
    | .error fault => .error fault
    | .ok tokens =>
        if nonempty : tokens ≠ [] then
          .ok (blank.push tokens (accepted_of_tokenizeTopicFilter tokenized nonempty))
        else .error (.invalidTopicFilter scopeString)

/-- The loop of `scope(const std::vector<string> &)`. -/
def ofVectorFrom (self : Scope) : List Text → Except Fault Scope
  | [] => .ok self
  | scopeString :: rest =>
      if scopeString = hashSign then .ok { self with isGlobalWildcard := true }
      else
        match tokenized : tokenizeTopicFilter scopeString with
        | .error fault => .error fault
        | .ok tokens =>
            if nonempty : tokens ≠ [] then
              ofVectorFrom
                (self.push tokens (accepted_of_tokenizeTopicFilter tokenized nonempty)) rest
            else .error (.invalidTopicFilter scopeString)

/-- `scope(const std::vector<string> &)`. -/
def ofVector (scopeVector : List Text) : Except Fault Scope := ofVectorFrom blank scopeVector

/-- The loop of `includes` over the stored filters, left at the first match. -/
def includesAny (topicTokens : List Text) : List (List Text) → Except Fault Bool
  | [] => .ok false
  | filterTokens :: rest =>
      match compareTopics filterTokens topicTokens with
      | .error fault => .error fault
      | .ok true => .ok true
      | .ok false => includesAny topicTokens rest

def includes (self : Scope) (topic : Text) : Except Fault Bool :=
  if self.isGlobalWildcard then .ok true
  else
    match tokenizeTopic topic with
    | .error fault => .error fault
    | .ok topicTokens =>
        if topicTokens.isEmpty then .ok false else includesAny topicTokens self.scope

/-- A stored filter overreads the topic, and none before it ends the loop with a match. -/
def ScopeOverreads (self : Scope) (topic : Text) : Prop :=
  self.isGlobalWildcard = false ∧ TopicName topic ∧
    ∃ before tokens after, self.scope = before ++ tokens :: after ∧
      (∀ earlier ∈ before, ¬ TokensDeliver earlier (levels topic)) ∧
      TokensOverread tokens (levels topic)

theorem includes_eq (self : Scope) (topic : Text) :
    self.includes topic =
      if self.isGlobalWildcard then .ok true
      else if TopicName topic then includesAny (levels topic) self.scope
      else .ok false := by
  unfold includes
  rw [tokenizeTopic_eq]
  by_cases name : TopicName topic
  · simp [name, levels_ne_nil]
  · simp [name]

/-- The loop of `includes` reads out of range exactly at a filter that overreads
before any filter delivers. The induction is on the stored filters. -/
theorem includesAny_outOfRange_iff (topicTokens : List Text) (filters : List (List Text))
    (accepted : ∀ tokens ∈ filters, LevelsAccepted tokens)
    (plain : ∀ level ∈ topicTokens, level ≠ hashSign) :
    includesAny topicTokens filters = .error .outOfRange ↔
      ∃ before tokens after, filters = before ++ tokens :: after ∧
        (∀ earlier ∈ before, ¬ TokensDeliver earlier topicTokens) ∧
        TokensOverread tokens topicTokens := by
  induction filters with
  | nil => simp [includesAny]
  | cons first rest ih =>
      have compared := compareTopics_cases (accepted first (by simp)) plain
      have tail := ih (fun tokens member => accepted tokens (by simp [member]))
      rw [Segments.exists_split_cons, ← tail]
      by_cases overreads : TokensOverread first topicTokens
      · simp only [includesAny, compared.2.1.mpr overreads, overreads, true_or]
      · by_cases delivers : TokensDeliver first topicTokens
        · simp only [includesAny, compared.1.mpr delivers, overreads, delivers, not_true_eq_false,
            false_and, or_self, reduceCtorEq]
        · simp only [includesAny, compared.2.2.mpr ⟨delivers, overreads⟩, overreads, delivers,
            not_false_eq_true, true_and, false_or]

/-- A comparison with stored filters has no other fault. The induction is on them. -/
theorem includesAny_fault (topicTokens : List Text) (filters : List (List Text))
    (accepted : ∀ tokens ∈ filters, LevelsAccepted tokens)
    (plain : ∀ level ∈ topicTokens, level ≠ hashSign) (fault : Fault)
    (failed : includesAny topicTokens filters = .error fault) : fault = .outOfRange := by
  induction filters with
  | nil => cases failed
  | cons first rest ih =>
      have compared := compareTopics_cases (accepted first (by simp)) plain
      unfold includesAny at failed
      by_cases delivers : TokensDeliver first topicTokens
      · rw [compared.1.mpr delivers] at failed
        cases failed
      · by_cases overreads : TokensOverread first topicTokens
        · rw [compared.2.1.mpr overreads] at failed
          exact (Except.error.inj failed).symm
        · rw [compared.2.2.mpr ⟨delivers, overreads⟩] at failed
          exact ih (fun tokens member => accepted tokens (by simp [member])) failed

theorem includes_fault (self : Scope) (topic : Text) (fault : Fault)
    (failed : self.includes topic = .error fault) : fault = .outOfRange := by
  rw [includes_eq] at failed
  by_cases wildcard : self.isGlobalWildcard = true
  · rw [if_pos wildcard] at failed
    cases failed
  · rw [if_neg wildcard] at failed
    by_cases name : TopicName topic
    · rw [if_pos name] at failed
      exact includesAny_fault (levels topic) self.scope
        (fun tokens member => (self.tokenized tokens member).2) name.plain fault failed
    · rw [if_neg name] at failed
      cases failed

theorem includes_outOfRange_iff (self : Scope) (topic : Text) :
    self.includes topic = .error .outOfRange ↔ self.ScopeOverreads topic := by
  rw [includes_eq, ScopeOverreads]
  by_cases wildcard : self.isGlobalWildcard = true
  · simp [wildcard]
  · have local_ : self.isGlobalWildcard = false := by simpa using wildcard
    by_cases name : TopicName topic
    · simp only [local_, Bool.false_eq_true, ↓reduceIte, name, true_and]
      exact includesAny_outOfRange_iff (levels topic) self.scope
        (fun tokens member => (self.tokenized tokens member).2) name.plain
    · simp [local_, name]

end Scope

end OctopusMq
