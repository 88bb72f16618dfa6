import Coordination.FinMap
import Coordination.Identifier
import Coordination.Notification
import Coordination.OpenFlags
import Coordination.Failure
import Coordination.Path
import Coordination.Store
import Coordination.Lease
import Coordination.Handle
import Coordination.Text.Utf8
import Coordination.Text.Hex
import Coordination.Text.Scan
import Coordination.Text.Json
import Coordination.Text.Toml
import Coordination.Lock.Mode
import Coordination.Lock.State
import Coordination.Lock.Table
import Coordination.Tree.Record
import Coordination.Tree.Basic
import Coordination.Tree.Recovery
import Coordination.Wire.Integer
import Coordination.Wire.Reader
import Coordination.Wire.Message
import Coordination.Wire.Opcode
import Coordination.Wire.Frame
import Coordination.Delivery.Command
import Coordination.Delivery.Router
import Coordination.Delivery.Schedule
import Coordination.Coordinator.State
import Coordination.Coordinator.Operations
import Coordination.Coordinator.Basic
import Coordination.Endpoint.FrontDoor
import Coordination.Endpoint.Service
import Coordination.Endpoint.Server
import Coordination.Settings.Address
import Coordination.Settings.Basic
import Coordination.Settings.Options
import Coordination.Main
import Coordination.Proofs.Lock.Discipline
import Coordination.Proofs.Lock.Order
import Coordination.Proofs.Lock.Table
import Coordination.Proofs.Lock.Service
import Coordination.Proofs.Lease.Table
import Coordination.Proofs.Lease.History
import Coordination.Proofs.Path
import Coordination.Proofs.Tree.Shape
import Coordination.Proofs.Coordinator.Program
import Coordination.Proofs.Coordinator.Stages
import Coordination.Proofs.Coordinator.Invariant
import Coordination.Proofs.Coordinator.Locks
import Coordination.Proofs.Coordinator.Endings
import Coordination.Proofs.Coordinator.Creation
import Coordination.Proofs.Coordinator.Primitives
import Coordination.Proofs.Coordinator.Calls
import Coordination.Proofs.Coordinator.Requests
import Coordination.Proofs.Coordinator.Runs
import Coordination.Proofs.Coordinator.Safety
import Coordination.Proofs.Coordinator.Atomicity
import Coordination.Proofs.Coordinator.Turnover
import Coordination.Proofs.Coordinator.Tenure
import Coordination.Proofs.Coordinator.Fairness
import Coordination.Proofs.Coordinator.StoreIndependence
import Coordination.Proofs.Coordinator.SessionEnd
import Coordination.Proofs.Text.Utf8
import Coordination.Proofs.Wire.Reader
import Coordination.Proofs.Tree.Record
import Coordination.Proofs.Path.Grammar
import Coordination.Proofs.Tree.Records
import Coordination.Proofs.Tree.Loading
import Coordination.Proofs.Tree.Rebuild
import Coordination.Proofs.Tree.Reload
import Coordination.Proofs.Tree.Listing
import Coordination.Proofs.Tree.Changes
import Coordination.Proofs.Coordinator.Persistence
import Coordination.Proofs.Delivery.Lanes
import Coordination.Proofs.Delivery.History
import Coordination.Proofs.Delivery.Ledger
import Coordination.Proofs.Delivery.Flush
import Coordination.Proofs.Delivery.Lineup
import Coordination.Proofs.Delivery.Order
import Coordination.Proofs.Coordinator.HandleViews
import Coordination.Proofs.Coordinator.Reports
import Coordination.Proofs.Coordinator.Passage
import Coordination.Proofs.Coordinator.Fencing
import Coordination.Proofs.Coordinator.Ephemeral
import Coordination.Proofs.Coordinator.Expiry
import Coordination.Proofs.Coordinator.Journal
import Coordination.Proofs.Coordinator.Retirement
import Coordination.Proofs.Coordinator.HandleEvents
import Coordination.Proofs.Coordinator.Allocation
import Coordination.Proofs.Coordinator.Staleness
import Coordination.Proofs.Wire.Frame
import Coordination.Proofs.Wire.Stream
import Coordination.Proofs.Wire.Delimited
import Coordination.Proofs.Wire.Message
import Coordination.Proofs.Wire.Length
import Coordination.Proofs.Endpoint.FrontDoor
import Coordination.Proofs.Coordinator.TextSizes
import Coordination.Proofs.Endpoint.Room
import Coordination.Proofs.Coordinator.Imprint
import Coordination.Proofs.Coordinator.Independence
import Coordination.Proofs.Coordinator.Reaping
import Coordination.Proofs.Coordinator.SessionEndLocks
import Coordination.Proofs.Coordinator.SessionEndOrder
