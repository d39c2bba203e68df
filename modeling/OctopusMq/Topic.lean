import OctopusMq.Text

set_option autoImplicit false

/- The static functions of class `scope`: tokenizing topics and topic filters
and comparing the tokens. -/
namespace OctopusMq.Scope

/-- `hash_sign[0]`, `plus_sign[0]` and `slash_sign[0]`. -/
def hash : UInt8 := 35
def plus : UInt8 := 43
def slash : UInt8 := 47

def hashSign : Text := [hash]
def plusSign : Text := [plus]
def slashSign : Text := [slash]

/-- The loop both tokenizers share. `first` is the index of the start of a
token, `second` the index of its end; `rejects` is the check of the token.
Every iteration moves `first` forward, so the bound `fuel` is never reached. -/
def tokenizeFrom (text : Text) (rejects : Text → Nat → Bool) :
    Nat → Nat → List Text → Except Fault (List Text)
  | 0, _, _ => .error .unfinished
  | fuel + 1, first, tokens =>
      if first ≤ text.length then
        let second := (findFirstOf text slash first).getD text.length
        match substr text first (second - first) with
        | .error fault => .error fault
        | .ok token =>
            if rejects token second then .ok []
            else tokenizeFrom text rejects fuel (second + 1) (tokens ++ [token])
      else .ok tokens

/-- The check inside the loop of `tokenize_topic_filter`: a hash sign that is
not the final token, or a wildcard inside a longer token. -/
def rejectsToken (topicFilter token : Text) (second : Nat) : Bool :=
  (token == hashSign && second != topicFilter.length) ||
    (token != hashSign && token != plusSign &&
      ((findFirstOf token hash 0).isSome || (findFirstOf token plus 0).isSome))

/-- An empty vector stands for an invalid filter. -/
def tokenizeTopicFilter (topicFilter : Text) : Except Fault (List Text) :=
  if topicFilter.isEmpty then .ok []
  else if topicFilter = hashSign ∨ topicFilter = plusSign then .ok [topicFilter]
  else tokenizeFrom topicFilter (rejectsToken topicFilter) (topicFilter.length + 2) 0 []

/-- An empty vector stands for a string that is no topic name. -/
def tokenizeTopic (topic : Text) : Except Fault (List Text) :=
  if topic.isEmpty then .ok []
  else if (findFirstOf topic hash 0).isSome ∨ (findFirstOf topic plus 0).isSome then .ok []
  else tokenizeFrom topic (fun _ _ => false) (topic.length + 2) 0 []

/-- The loop of `compare_topics`: `i` counts the filter tokens that agree. -/
def agreeingFrom (topic : List Text) : List Text → Nat → Except Fault Nat
  | [], i => .ok i
  | filterToken :: rest, i =>
      match topic[i]? with
      | none => .error .outOfRange
      | some token =>
          if filterToken = token ∨ filterToken = plusSign then agreeingFrom topic rest (i + 1)
          else .ok i

/-- Both vectors are read by index, without a check. -/
def compareTopics (filter topic : List Text) : Except Fault Bool :=
  if filter.length = 1 ∧ filter.head? = some hashSign then .ok true
  else if topic.length < filter.length then .ok false
  else
    match agreeingFrom topic filter 0 with
    | .error fault => .error fault
    | .ok i =>
        -- The guard is about the topic, the index goes into the filter.
        if i < topic.length then
          match filter[i]? with
          | none => .error .outOfRange
          | some token => if token ≠ hashSign then .ok false else .ok true
        else .ok true

def validTopicFilter (topicFilter : Text) : Except Fault Bool :=
  if topicFilter = hashSign ∨ topicFilter = plusSign ∨ topicFilter = slashSign then .ok true
  else
    match tokenizeTopicFilter topicFilter with
    | .error fault => .error fault
    | .ok tokens => .ok (!tokens.isEmpty)

def matchesFilter (filter topic : Text) : Except Fault Bool :=
  if filter = hashSign then .ok true
  else
    match tokenizeTopicFilter filter with
    | .error fault => .error fault
    | .ok filterTokens =>
        match tokenizeTopic topic with
        | .error fault => .error fault
        | .ok topicTokens =>
            if filterTokens.isEmpty ∨ topicTokens.isEmpty then .ok false
            else compareTopics filterTokens topicTokens

example : matchesFilter (bytes "home/+/#") (bytes "home/hall/lamp/state") = .ok true := by decide

end OctopusMq.Scope
