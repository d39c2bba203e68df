import OctopusMq.Message
import OctopusMq.Library.OrderedTable
import Mathlib.Data.List.Lex

set_option autoImplicit false

namespace OctopusMq

open OrderedTable

/-- Class `broker::subscription`. -/
structure Subscription where
  topicFilter : Text
  con : Connection
  qosValue : Qos
  rapValue : Rap
  nlValue : Nl
deriving DecidableEq, Repr

namespace Subscription

/-- The MQTT v3 constructor. -/
def v3 (topicFilter : Text) (con : Connection) (options : SubscribeOptions) : Subscription :=
  ⟨topicFilter, con, options.qos, .dont, .no⟩

/-- The MQTT v5 constructor. -/
def v5 (topicFilter : Text) (con : Connection) (options : SubscribeOptions) : Subscription :=
  ⟨topicFilter, con, options.qos, options.rap, options.nl⟩

/-- The topic index orders filters by their bytes. -/
def rank (sub : Subscription) : List Nat := sub.topicFilter.map UInt8.toNat

/-- The composite key of the unique index. -/
def key (sub : Subscription) : Connection × Text := (sub.con, sub.topicFilter)

end Subscription

/-- `subscription_container`: listed by the topic index, unique in connection
and filter. -/
abbrev SubscriptionContainer := Table Subscription.rank Subscription.key

end OctopusMq
