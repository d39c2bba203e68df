import OctopusMq.Session
import OctopusMq.Subscribing
import OctopusMq.Delivery
import OctopusMq.FanOut
import OctopusMq.Lifecycle
import OctopusMq.CloseRace
import OctopusMq.Library.Ledger
import OctopusMq.Queue
import OctopusMq.Routing
import OctopusMq.TopicGrammar
import OctopusMq.Widening
import OctopusMq.ScopeLists
import OctopusMq.SentThrough
import OctopusMq.InvalidTopics
import OctopusMq.Conversation
import OctopusMq.NoLocal
import OctopusMq.Address
import OctopusMq.Error
import OctopusMq.Json
import OctopusMq.AdapterSettings
import OctopusMq.Settings
import OctopusMq.Listeners
import OctopusMq.Teardown
import OctopusMq.FailedDrain
import OctopusMq.Bindings
import OctopusMq.PhySetters
import OctopusMq.Decimal
import OctopusMq.AddressText
import OctopusMq.AddressRoundTrip
import OctopusMq.Control
import OctopusMq.StartUp
import OctopusMq.Library.LockInvariant
import OctopusMq.Library.LockOrder
import OctopusMq.Routines
import OctopusMq.Undisturbed
import OctopusMq.LockDiscipline
import OctopusMq.InterleavedRouting
import OctopusMq.Library.Register
import OctopusMq.SubscriptionHistory
import OctopusMq.Library.Ownership
import OctopusMq.Answers
import OctopusMq.InterleavedTables
import OctopusMq.Provenance
import OctopusMq.InterleavedOrder
import OctopusMq.Library.Linearization
import OctopusMq.Linearizable
import OctopusMq.Delivered
import OctopusMq.Closed
