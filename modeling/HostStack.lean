import HostStack.Config.Writing
import HostStack.Session.Report
import HostStack.Proofs.Heap.Balance
import HostStack.Proofs.Ownership.Leaves
import HostStack.Proofs.Ownership.Trade
import HostStack.Proofs.Access.Effect
import HostStack.Proofs.Access.Trade
import HostStack.Proofs.Session.Ownership
import HostStack.Proofs.Heap.Reach
import HostStack.Proofs.Session.Accounting
import HostStack.Proofs.Session.Release
import HostStack.Access.Program
import HostStack.Proofs.Stack.Bounded
import HostStack.Proofs.Stack.Depth
import HostStack.Proofs.Session.Extraction
import HostStack.Proofs.Access.Log
import HostStack.Proofs.Access.Replay
import HostStack.Proofs.Heap.Undo
import HostStack.Proofs.Access.Erasure
import HostStack.Proofs.Config.Outcome
import HostStack.Proofs.Config.RoundTrip
import HostStack.Proofs.Config.SizeOnly
import HostStack.Proofs.Access.Recording
import HostStack.Proofs.Stack.Shape
import HostStack.Proofs.Access.Payloads
import HostStack.Proofs.Heap.Order
import HostStack.Proofs.Session.Emptying
import HostStack.Proofs.ScriptHash.Grammar
import HostStack.Proofs.ScriptHash.RoundTrip
import HostStack.Proofs.ScriptHash.Order
import HostStack.Proofs.Heap.Loss
import HostStack.Proofs.Access.Removal
import HostStack.Proofs.Access.ArrayRemoval
import HostStack.Proofs.Item.Equality
import HostStack.Proofs.Session.Items
import HostStack.Proofs.Session.Equality
import HostStack.Proofs.Access.PlainItems
import HostStack.Proofs.Access.Scalars
import HostStack.Proofs.Access.Programs
import HostStack.Proofs.Access.ArrayRoundTrip
import HostStack.Access.Clone
import HostStack.Proofs.Access.Clone
import HostStack.Proofs.Session.Slots
import HostStack.Proofs.Session.Snapshots
import HostStack.Proofs.Access.Asking
import HostStack.Proofs.Session.Refusals
