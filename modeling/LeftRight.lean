import LeftRight.Config.Decoding
import LeftRight.Interleaving
import LeftRight.OrderedSet.Key
import LeftRight.OrderedSet.Rigged
import LeftRight.Session.Gate
import LeftRight.Session.Keys
import LeftRight.Session.Set
import LeftRight.Workload
import LeftRight.Proofs.Occupancy
import LeftRight.Proofs.Exclusion
import LeftRight.Proofs.Lawful
import LeftRight.Proofs.Linearizability
import LeftRight.Proofs.Writes
import LeftRight.Proofs.Bystanders
import LeftRight.Proofs.Convergence
import LeftRight.Proofs.SingleCopy
import LeftRight.Proofs.Unwinding
import LeftRight.Proofs.Accounts
import LeftRight.Proofs.Draining
import LeftRight.Proofs.Attendance
import LeftRight.Proofs.Toggling
import LeftRight.Proofs.Outlasting
import LeftRight.Proofs.Patience
import LeftRight.Proofs.Stranding
import LeftRight.Proofs.Showing
import LeftRight.Proofs.Uninterrupted
import LeftRight.Proofs.Resting
import LeftRight.Proofs.Census
import LeftRight.Proofs.Pauses
import LeftRight.Proofs.Alike
import LeftRight.Proofs.OtherSlots
import LeftRight.Proofs.OtherVisitors
import LeftRight.Proofs.Sharding
import LeftRight.Proofs.Faultless
import LeftRight.Proofs.Ascending
import LeftRight.Proofs.Stored
import LeftRight.Proofs.Calls
import LeftRight.Proofs.DisjointWriters
import LeftRight.Proofs.Workloads
import LeftRight.Proofs.Histories
import LeftRight.Proofs.Bulk
import LeftRight.Proofs.Interchangeable
import LeftRight.Proofs.Refusals
import LeftRight.Proofs.BrokenWrites
import LeftRight.Proofs.Canonical
import LeftRight.Proofs.Backoffs
import LeftRight.Proofs.Phases
import LeftRight.Proofs.Restarts
import LeftRight.Proofs.Ledger
import LeftRight.Proofs.Outstanding
import LeftRight.Proofs.Reckoning
import LeftRight.Proofs.Construction
import LeftRight.Proofs.Readings
import LeftRight.Proofs.RoundTrip
import LeftRight.Proofs.ThreadHashes
import LeftRight.Proofs.Tickets
