import LazyHub.Scenario.Cells
import LazyHub.Scenario.Facts
import LazyHub.Scenario.Feed
import LazyHub.Scenario.Hub
import LazyHub.Scenario.Pool
import LazyHub.Scenario.Power
import LazyHub.Scenario.Provider
import LazyHub.Scenario.Subscribers
import LazyHub.Scenario.Threads
import LazyHub.Proofs.Feed.Transition
import LazyHub.Proofs.Feed.Outlets
import LazyHub.Proofs.Feed.Balance
import LazyHub.Proofs.Feed.Lifetime
import LazyHub.Proofs.Hub.Transition
import LazyHub.Proofs.Hub.Sound
import LazyHub.Proofs.Hub.Activation
import LazyHub.Proofs.Gate
import LazyHub.Proofs.Feed.Pushes
import LazyHub.Proofs.Feed.Payload
import LazyHub.Proofs.Feed.Ledger
import LazyHub.Proofs.Feed.Epochs
import LazyHub.Proofs.Delivery.WorkerPool
import LazyHub.Proofs.Hub.Routing
import LazyHub.Proofs.Hub.Workers
import LazyHub.Proofs.Hub.Delivery
import LazyHub.Proofs.Hub.Draining
import LazyHub.Proofs.Feed.Calls
import LazyHub.Proofs.Feed.Pulls
import LazyHub.Proofs.Feed.Activations
import LazyHub.Proofs.Hub.Feeds
import LazyHub.Proofs.Hub.Calls
import LazyHub.Proofs.Hub.Operations
import LazyHub.Proofs.Hub.Silence
import LazyHub.Proofs.Hub.Baseline
import LazyHub.Proofs.Hub.Reading
import LazyHub.Proofs.World.Leases
import LazyHub.Proofs.World.Freshness
import LazyHub.Proofs.Hub.Traceless
import LazyHub.Proofs.Power.Monitor
import LazyHub.Proofs.Power.Battery
import LazyHub.Proofs.Session.Delivering
import LazyHub.Proofs.Session.StartingOver
import LazyHub.Proofs.Delivery.Order
import LazyHub.Proofs.Sending
import LazyHub.Proofs.Session.Tokens
import LazyHub.Proofs.Hub.Containment
import LazyHub.Proofs.Power.Charge
import LazyHub.Proofs.Power.Record
import LazyHub.Proofs.Hub.LastOwner
import LazyHub.Proofs.World.Assembly
import LazyHub.Proofs.Lending
