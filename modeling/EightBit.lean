import EightBit.Address.Basic
import EightBit.Address.Range
import EightBit.Arithmetic.Binary
import EightBit.Arithmetic.Decimal
import EightBit.Arithmetic.Shift
import EightBit.Bus.Access
import EightBit.Bus.Basic
import EightBit.Bus.Copy
import EightBit.Bus.Dispatch
import EightBit.Bus.Layout
import EightBit.Event
import EightBit.Execution.Compute
import EightBit.Execution.Locate
import EightBit.Execution.Operation
import EightBit.Execution.Stack
import EightBit.Fault
import EightBit.Form.Basic
import EightBit.Form.Machine
import EightBit.Interrupt.Basic
import EightBit.Machine.Basic
import EightBit.Machine.Config
import EightBit.Machine.Run
import EightBit.Machine.SaveState
import EightBit.Opcode.Listing
import EightBit.Opcode.Mnemonic
import EightBit.Opcode.Mode
import EightBit.Opcode.Table
import EightBit.Peripheral.Basic
import EightBit.Peripheral.Stock
import EightBit.Processor
import EightBit.Region.Basic
import EightBit.Region.Kind
import EightBit.Register.File
import EightBit.Register.Status
import EightBit.Text.Hex
import EightBit.Text.Hidden
import EightBit.Text.Quoted
import EightBit.Transaction
import EightBit.Proofs.Outcome
import EightBit.Proofs.Address.Range
import EightBit.Proofs.Opcode.Pieces
import EightBit.Proofs.Region.Contents
import EightBit.Proofs.Bus.Access
import EightBit.Proofs.Bus.Spans
import EightBit.Proofs.Bus.Layout
import EightBit.Proofs.Bus.Sound
import EightBit.Proofs.Machine.Restore
import EightBit.Proofs.Machine.RoundTrip
import EightBit.Proofs.Execution.Fetch
import EightBit.Proofs.Machine.Trace
import EightBit.Proofs.Register.Settled
import EightBit.Proofs.Machine.Reachable
import EightBit.Proofs.Machine.Run
import EightBit.Proofs.Bus.Simulation
import EightBit.Proofs.Machine.Twins
import EightBit.Proofs.Bus.Copy
import EightBit.Proofs.Bus.Service
import EightBit.Proofs.Bus.History
import EightBit.Proofs.Bus.Banks
import EightBit.Proofs.Bus.Requests
import EightBit.Proofs.Transaction.Trace
import EightBit.Proofs.Bus.Mapped
import EightBit.Proofs.Bus.Flat
import EightBit.Proofs.Processor.Step
import EightBit.Proofs.Processor.Calls
import EightBit.Proofs.Processor.Latch
import EightBit.Proofs.Arithmetic.Checked
import EightBit.Proofs.Execution.Cost
import EightBit.Proofs.Processor.Checked
import EightBit.Proofs.Machine.Mapped
import EightBit.Proofs.Machine.Commands
import EightBit.Proofs.Bus.Canonical
import EightBit.Proofs.Execution.Accesses
import EightBit.Proofs.Bus.Noticed
import EightBit.Proofs.Machine.Hits
import EightBit.Proofs.Machine.Steps
import EightBit.Proofs.Machine.Iterated
import EightBit.Proofs.Machine.Idling
import EightBit.Proofs.Machine.Slices
import EightBit.Proofs.Bus.View
import EightBit.Proofs.Bus.Meter
import EightBit.Proofs.Machine.View
import EightBit.Proofs.Machine.Orders
import EightBit.Proofs.Machine.Time
import EightBit.Proofs.Transaction.Written
import EightBit.Proofs.Processor.BreakMark
import EightBit.Proofs.Machine.Observers
import EightBit.Proofs.Machine.Lines
import EightBit.Proofs.Transaction.Yields
import EightBit.Proofs.Execution.Performed
import EightBit.Proofs.Processor.Cycles
import EightBit.Proofs.Machine.Lockup
import EightBit.Proofs.Execution.Flags
import EightBit.Proofs.Execution.Halves
import EightBit.Proofs.Arithmetic.Chain
import EightBit.Proofs.Arithmetic.BinaryChain
import EightBit.Proofs.Arithmetic.DecimalChain
import EightBit.Proofs.Execution.Addressing
import EightBit.Proofs.Execution.Rewrites
import EightBit.Proofs.Execution.Stack
import EightBit.Proofs.Execution.Stores
import EightBit.Proofs.Bus.Footprint
import EightBit.Proofs.Bus.Layers
import EightBit.Proofs.Processor.WriteFrame
import EightBit.Proofs.Processor.AccessBudget
import EightBit.Proofs.Bus.Stack
import EightBit.Proofs.Processor.HandlerReturn
import EightBit.Proofs.Processor.Subroutines
import EightBit.Proofs.Bus.Bytewise
import EightBit.Proofs.Execution.MaskedStores
import EightBit.Proofs.Execution.AndRotate
import EightBit.Proofs.Machine.MemoryMap
import EightBit.Proofs.Processor.Listing
import EightBit.Proofs.Form.Faithful
