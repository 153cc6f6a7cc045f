import EightBit.Machine.Basic
import EightBit.Proofs.Bus.Access
import EightBit.Proofs.Execution.Fetch

/-
Tracing. A machine that traces looks at the instruction before it runs it. Where that crashes over
storage, running the instruction crashes in the same way, so tracing only adds to the log.
-/

namespace EightBit

/-- Counting from the next address counts one less. -/
theorem Address.add_succ (address : Address) (index : Nat) :
    address + UInt16.ofNat (index + 1) = address.next + UInt16.ofNat index := by
  rw [UInt16.ofNat_add, UInt16.add_comm (UInt16.ofNat index), ← UInt16.add_assoc]
  rfl

namespace Listing

/-- The bytes from an address on, as a listing looks at them. -/
def bytesAt (peek : Address → Except Crash UInt8) (address : Address) (count : Nat) :
    Except Crash (List UInt8) :=
  (List.range count).mapM fun index => peek (address + UInt16.ofNat index)

/-- The first byte of a row is looked at first. -/
theorem bytesAt_succ (peek : Address → Except Crash UInt8) (address : Address) (count : Nat) :
    bytesAt peek address (count + 1) = do
      let first ← peek address
      let rest ← bytesAt peek address.next count
      return first :: rest := by
  have start : address + UInt16.ofNat 0 = address := UInt16.add_zero address
  have moved : (fun index => peek (address + UInt16.ofNat index)) ∘ Nat.succ =
      fun index => peek (address.next + UInt16.ofNat index) := by
    funext index
    exact congrArg peek (address.add_succ index)
  rw [bytesAt, List.range_succ_eq_map, List.mapM_cons, List.mapM_map, start, moved]
  rfl

/-- A row has as many bytes as were asked for. -/
theorem length_of_bytesAt {peek : Address → Except Crash UInt8} {address : Address} {count : Nat}
    {bytes : List UInt8} (seen : bytesAt peek address count = .ok bytes) :
    bytes.length = count := by
  induction count generalizing address bytes with
  | zero =>
      cases seen
      rfl
  | succ count ih =>
      rw [bytesAt_succ] at seen
      obtain ⟨first, _, rest⟩ := Outcome.bind_eq_ok_iff.mp seen
      obtain ⟨others, shown, same⟩ := Outcome.bind_eq_ok_iff.mp rest
      cases same
      exact congrArg (· + 1) (ih shown)

/-- A mode that has all its operand bytes can write its operand. -/
theorem operandText?_isSome (address : Address) (mode : Mode) {operand : List UInt8}
    (full : operand.length = mode.operandSize) :
    (operandText? (some address) mode operand).isSome := by
  match operand, full with
  | [], full => cases mode <;> first | rfl | cases full
  | [low], full => cases mode <;> first | rfl | cases full
  | _ :: _ :: _, _ => cases mode <;> rfl

/-- The line shows the instruction whose opcode is at the address, with all operand bytes. -/
structure Shows (peek : Address → Except Crash UInt8) (address : Address) (text : String)
    (length : Nat) (opcode : UInt8) (operand : List UInt8) : Prop where
  seen : peek address = .ok opcode
  shown : text = line address (opcode :: operand)
  size : length = (Instruction.ofOpcode opcode).length
  full : operand.length = (Instruction.ofOpcode opcode).mode.operandSize
  written : (operandText? (some address) (Instruction.ofOpcode opcode).mode operand).isSome

/-- A line is made from the bytes at its address, as many as the opcode wants. -/
theorem lineAt_bytes {peek : Address → Except Crash UInt8} {address : Address} {text : String}
    {length : Nat} (listed : lineAt peek address = .ok (text, length)) :
    ∃ opcode operand, peek address = .ok opcode ∧ length = (Instruction.ofOpcode opcode).length ∧
      operand.length = (Instruction.ofOpcode opcode).mode.operandSize ∧
      bytesAt peek address length = .ok (opcode :: operand) ∧
      text = line address (opcode :: operand) := by
  obtain ⟨opcode, first, rest⟩ := Outcome.bind_eq_ok_iff.mp listed
  obtain ⟨bytes, seen, same⟩ := Outcome.bind_eq_ok_iff.mp rest
  cases same
  have size : (Instruction.ofOpcode opcode).length =
      (Instruction.ofOpcode opcode).mode.operandSize + 1 := Nat.add_comm ..
  change bytesAt peek address (Instruction.ofOpcode opcode).length = .ok bytes at seen
  have cut := seen
  rw [size, bytesAt_succ, first, Outcome.bind_ok] at cut
  obtain ⟨operand, others, same⟩ := Outcome.bind_eq_ok_iff.mp cut
  cases same
  exact ⟨opcode, operand, first, rfl, length_of_bytesAt others, seen, rfl⟩

/-- No line is cut short. -/
theorem lineAt_shows {peek : Address → Except Crash UInt8} {address : Address} {text : String}
    {length : Nat} (listed : lineAt peek address = .ok (text, length)) :
    ∃ opcode operand, Shows peek address text length opcode operand := by
  obtain ⟨opcode, operand, first, size, full, _, shown⟩ := lineAt_bytes listed
  exact ⟨opcode, operand, first, shown, size, full, operandText?_isSome _ _ full⟩

end Listing

namespace Bus

variable {D : Type} [Peripheral D]

/-- A transaction over storage reads what a listing sees. -/
theorem run_read {α : Type} {bus : Bus D} (storage : bus.StorageOnly) (address : Address)
    (next : UInt8 → Transaction α) :
    (Transaction.read address next).run bus =
      (bus.peek address >>= fun value => (next value).run (bus.notice .read address value)) := by
  have served : Memory.read bus address = _ := read_storage storage address
  rw [Transaction.run, served]
  cases bus.peek address with
  | error crash => rfl
  | ok value => rfl

/-- Where storage cannot be looked at, a transaction that reads the same bytes crashes. -/
theorem run_crashes {α : Type} {bus : Bus D} (storage : bus.StorageOnly) {count : Nat}
    {address : Address} {act : Transaction α} (fetches : act.Fetches count address)
    {crash : Crash} (crashes : Listing.bytesAt bus.peek address count = .error crash) :
    act.run bus = .error crash := by
  induction count generalizing act address bus with
  | zero => cases crashes
  | succ count ih =>
      cases act with
      | read first next =>
          obtain ⟨rfl, rest⟩ := fetches
          rw [Listing.bytesAt_succ] at crashes
          rw [run_read storage]
          cases seen : bus.peek first with
          | error other =>
              rw [seen] at crashes
              cases crashes
              rfl
          | ok value =>
              rw [seen, Outcome.bind_ok, Outcome.bind_eq_error_iff] at crashes
              obtain later | ⟨_, _, kept⟩ := crashes
              · exact ih (storage.notice .read first value) (rest value) (by rwa [notice_peek])
              · cases kept
      | done result => exact fetches.elim
      | write place value next => exact fetches.elim
      | report event next => exact fetches.elim

end Bus

namespace Machine

variable {D : Type} [Peripheral D]

/-- Looking at the next instruction crashes only where running it crashes in the same way. -/
def Traceable (machine : Machine D) : Prop :=
  ∀ crash, Listing.lineAt machine.bus.peek machine.processor.registers.pc = .error crash →
    machine.processor.step.run machine.bus = .error crash

/-- The step fetches the very bytes that its listing shows. -/
theorem traceable_of_storage {machine : Machine D} (storage : machine.bus.StorageOnly) :
    machine.Traceable := by
  intro crash crashes
  obtain ⟨next, step, fetches⟩ := machine.processor.step_fetches
  rw [step, Bus.run_read storage]
  rw [Listing.lineAt] at crashes
  cases seen : machine.bus.peek machine.processor.registers.pc with
  | error other =>
      rw [seen] at crashes
      cases crashes
      rfl
  | ok opcode =>
      rw [seen, Outcome.bind_ok, Outcome.bind_eq_error_iff] at crashes
      obtain shown | ⟨_, _, kept⟩ := crashes
      · have bytes : Listing.bytesAt machine.bus.peek machine.processor.registers.pc
            ((Instruction.ofOpcode opcode).mode.operandSize + 1) = .error crash := by
          rw [← shown, Instruction.length, Nat.add_comm]
          rfl
        rw [Listing.bytesAt_succ, seen, Outcome.bind_ok, Outcome.bind_eq_error_iff] at bytes
        obtain later | ⟨_, _, kept⟩ := bytes
        · exact Bus.run_crashes (storage.notice .read _ opcode) (fetches opcode)
            (by rwa [Bus.notice_peek])
        · cases kept
      · cases kept

/-- A step apart from tracing. -/
def advance (machine : Machine D) : Except Crash (Except Fault Nat × Machine D) := do
  let (result, machine) ← machine.transact Processor.step
  match result with
  | .ok cycles => return (.ok cycles, (machine.tick cycles).sampleLines)
  | .error fault => return (.error fault, machine)

/-- Where an instruction can be traced, tracing adds to the log only. -/
theorem step_eq_advance {machine : Machine D} (traceable : machine.Traceable) :
    ∃ log, machine.step = advance { machine with bus := { machine.bus with log } } := by
  obtain ⟨processor, bus, irqLines, nmiLines, trace⟩ := machine
  cases trace with
  | false => exact ⟨bus.log, rfl⟩
  | true =>
      have unfolded : step ⟨processor, bus, irqLines, nmiLines, true⟩ =
          (Listing.lineAt bus.peek processor.registers.pc >>= fun shown =>
            advance ⟨processor, bus.report (.instruction shown.1), irqLines, nmiLines, true⟩) := by
        rw [step, traceInstruction]
        cases Listing.lineAt bus.peek processor.registers.pc with
        | error crash => rfl
        | ok shown => rfl
      rw [unfolded]
      cases shown : Listing.lineAt bus.peek processor.registers.pc with
      | error crash =>
          have crashes : processor.step.run bus = .error crash := traceable crash shown
          refine ⟨bus.log, ?_⟩
          rw [advance, transact, crashes]
          rfl
      | ok line => exact ⟨_, rfl⟩

end Machine

end EightBit
