import UseCaseEngine.Example.Bakery
import UseCaseEngine.Example.Cart
import UseCaseEngine.Example.Detour
import UseCaseEngine.Example.Greeter
import UseCaseEngine.Example.Inn
import UseCaseEngine.Example.Kitchen
import UseCaseEngine.Example.Office
import UseCaseEngine.Example.Porter
import UseCaseEngine.Example.Postroom
import UseCaseEngine.Example.School
import UseCaseEngine.Example.Shop
import UseCaseEngine.Example.Store
import UseCaseEngine.Run.Delivery
import UseCaseEngine.Model.Build
import UseCaseEngine.Model.Reference
import UseCaseEngine.Script.Session
import UseCaseEngine.Settings
import UseCaseEngine.Tracing
import UseCaseEngine.Proofs.Placement
import UseCaseEngine.Proofs.Validity
import UseCaseEngine.Proofs.Graph
import UseCaseEngine.Proofs.Asking
import UseCaseEngine.Proofs.Positions
import UseCaseEngine.Proofs.Turns
import UseCaseEngine.Proofs.Journal
import UseCaseEngine.Proofs.Effects
import UseCaseEngine.Proofs.Undisturbed
import UseCaseEngine.Proofs.Account
import UseCaseEngine.Proofs.Reach
import UseCaseEngine.Proofs.Settling
import UseCaseEngine.Proofs.WellFormed
import UseCaseEngine.Proofs.Inclusion
import UseCaseEngine.Proofs.Continuation
import UseCaseEngine.Proofs.Valuation
import UseCaseEngine.Proofs.Recovery
import UseCaseEngine.Proofs.Course
import UseCaseEngine.Proofs.Sequence
import UseCaseEngine.Proofs.Resolutions
import UseCaseEngine.Proofs.Isolation
import UseCaseEngine.Proofs.Publishing
import UseCaseEngine.Proofs.Unseen
import UseCaseEngine.Proofs.Inspection
import UseCaseEngine.Proofs.Nesting
import UseCaseEngine.Proofs.Walks
import UseCaseEngine.Proofs.Stopping
import UseCaseEngine.Proofs.Untriggered
import UseCaseEngine.Proofs.Quiescence
import UseCaseEngine.Proofs.Custody
import UseCaseEngine.Proofs.Counting
import UseCaseEngine.Proofs.Service
import UseCaseEngine.Proofs.Shutdown
import UseCaseEngine.Proofs.Feeding
import UseCaseEngine.Proofs.Tally
import UseCaseEngine.Proofs.Traced
import UseCaseEngine.Proofs.Rounds
import UseCaseEngine.Proofs.Routing
import UseCaseEngine.Proofs.Afresh
import UseCaseEngine.Proofs.Stations
import UseCaseEngine.Proofs.Shopping
import UseCaseEngine.Proofs.Derivation
import UseCaseEngine.Proofs.Preemption
import UseCaseEngine.Proofs.Targets
import UseCaseEngine.Proofs.Departure
import UseCaseEngine.Proofs.Binding
import UseCaseEngine.Proofs.Lineage
import UseCaseEngine.Proofs.Rejection
import UseCaseEngine.Proofs.Repetition
