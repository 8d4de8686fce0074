import OrderFlow.Config.Text
import OrderFlow.Pipeline.Basic
import OrderFlow.Proofs.Attempt
import OrderFlow.Proofs.Store.Progress
import OrderFlow.Proofs.Store.Calls
import OrderFlow.Proofs.Store.Orderly
import OrderFlow.Proofs.Store.Serial
import OrderFlow.Proofs.Store.History
import OrderFlow.Proofs.Store.Lease
import OrderFlow.Proofs.Store.Settled
import OrderFlow.Proofs.Store.Undo
import OrderFlow.Proofs.Call
import OrderFlow.Proofs.Operations
import OrderFlow.Proofs.Transact
import OrderFlow.Proofs.Stages
import OrderFlow.Proofs.Atomicity
import OrderFlow.Proofs.Run.Action
import OrderFlow.Proofs.Run.Step
import OrderFlow.Proofs.Run.Effect
import OrderFlow.Proofs.Run.Sound
import OrderFlow.Proofs.Run.Letters
import OrderFlow.Proofs.Run.Counts
import OrderFlow.Proofs.Run.Once
import OrderFlow.Proofs.Run.Covered
import OrderFlow.Proofs.Run.Outbox
import OrderFlow.Proofs.Transport
import OrderFlow.Proofs.Announcement
import OrderFlow.Proofs.Around
import OrderFlow.Proofs.Run.Mail
import OrderFlow.Proofs.Run.Whole
import OrderFlow.Proofs.Run.Turn
import OrderFlow.Proofs.Run.Lockstep
import OrderFlow.Proofs.Run.Transit
import OrderFlow.Proofs.Steady
import OrderFlow.Proofs.Run.Machine
import OrderFlow.Proofs.Run.Served
import OrderFlow.Proofs.Run.Routes
import OrderFlow.Proofs.Correlation
import OrderFlow.Proofs.Run.Unannounced
import OrderFlow.Proofs.Run.Memory
import OrderFlow.Proofs.Run.Relay
import OrderFlow.Proofs.Store.Coherent
import OrderFlow.Proofs.Instant
import OrderFlow.Proofs.Listing
import OrderFlow.Proofs.Store.Reads
import OrderFlow.Proofs.Lifecycle
import OrderFlow.Proofs.Sole
import OrderFlow.Proofs.Run.Cycle
import OrderFlow.Proofs.Receipts
import OrderFlow.Proofs.Waiting
import OrderFlow.Proofs.Claiming
import OrderFlow.Proofs.Run.Report
import OrderFlow.Proofs.Backoff
import OrderFlow.Proofs.Run.Dealing
import OrderFlow.Proofs.Run.Schedule
import OrderFlow.Proofs.Encodings
import OrderFlow.Proofs.Stored
import OrderFlow.Proofs.Transitions
import OrderFlow.Proofs.Pages
import OrderFlow.Proofs.Store.Scan
import OrderFlow.Proofs.Store.Ownership
import OrderFlow.Proofs.Store.Exclusive
import OrderFlow.Proofs.Shift
import OrderFlow.Proofs.Run.AtRest
import OrderFlow.Proofs.Run.Progress
import OrderFlow.Proofs.Run.Completion
