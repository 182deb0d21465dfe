import LockFree.Counters.Contest
import LockFree.Counters.Session
import LockFree.Counters.SettingsDocument
import LockFree.Queue.Contest
import LockFree.Queue.Session
import LockFree.Proofs.Counters.Tenure
import LockFree.Proofs.Counters.Failure
import LockFree.Proofs.Counters.Resolution
import LockFree.Proofs.Counters.Lifecycle
import LockFree.Proofs.Counters.Ownership
import LockFree.Proofs.Counters.AuditTrail
import LockFree.Proofs.Counters.Choice
import LockFree.Proofs.Counters.Reuse
import LockFree.Proofs.Counters.LastWriter
import LockFree.Proofs.Counters.Proposals
import LockFree.Proofs.Counters.Construction
import LockFree.Proofs.Counters.Bounds
import LockFree.Proofs.Counters.SettingsEntries
import LockFree.Proofs.Counters.WrittenSettings
import LockFree.Proofs.Queue.Refinement
import LockFree.Proofs.Queue.Drops
import LockFree.Proofs.Queue.Isolation
import LockFree.Proofs.Queue.Display
import LockFree.Proofs.Queue.Interleaving
import LockFree.Proofs.Queue.Counts
import LockFree.Proofs.Toml.Integers
import LockFree.Proofs.Toml.Keys
