import EightBit.Proofs.Execution.Addressing
import EightBit.Proofs.Execution.Flags
import EightBit.Proofs.Processor.Cycles

/-
The accesses of the instructions that change a byte in memory. They find the address once, read the
byte once, write it back as it was and then write the result; what follows in the accumulator makes
no further access.
-/

namespace EightBit

open Transaction

namespace Mnemonic

/-- The instructions that leave their result where the operand was, the undocumented ones included
that go on with the result in the accumulator. -/
def rewriters : List Mnemonic := inPlace ++ [slo, rla, sre, rra, dcp, isb]

/-- The byte that replaces a byte, and the carry flag after that. -/
def replaced (carry : Bool) (value : Nat) : Mnemonic → Nat × Bool
  | asl | slo => (2 * value % 256, decide (128 ≤ value))
  | rol | rla => ((2 * value + carry.toNat) % 256, decide (128 ≤ value))
  | lsr | sre => (value / 2, decide (value % 2 = 1))
  | ror | rra => (value / 2 + 128 * carry.toNat, decide (value % 2 = 1))
  | inc | isb => ((value + 1) % 256, carry)
  | dec | dcp => ((value + 255) % 256, carry)
  | _ => (value, carry)

/-- What the instruction goes on to do with the byte that it made. -/
def combine : Mnemonic → Registers → UInt8 → Registers
  | slo => Registers.orA
  | rla => Registers.andA
  | sre => Registers.xorA
  | rra => Registers.addToA
  | dcp => Registers.compareA
  | isb => Registers.subtractFromA
  | _ => Registers.ignore

/-- The instruction makes the result from the byte and from carry; zero and negative describe it,
and no other flag changes. -/
structure Makes (mnemonic : Mnemonic) (before : Status) (value result : UInt8) (after : Status) :
    Prop where
  byte : result.toNat = (mnemonic.replaced before.carry value.toNat).1
  carry : after.carry = (mnemonic.replaced before.carry value.toNat).2
  describes : after.Describes result
  others : after = { before with
    carry := after.carry
    zero := after.zero
    negative := after.negative }

end Mnemonic

namespace Instruction

/-- What an instruction that changes a byte makes of the registers, with its accesses after the one
to the opcode. -/
structure RewriteLaw (instruction : Instruction) (registers : Registers)
    (accesses : List WatchHit) (after : Registers) : Prop where
  memory : instruction.mode ≠ .accumulator →
    ∃ fetches location found address value result status,
      instruction.mode.Located registers fetches location found ∧
        location.operand = .memory address ∧
        accesses = fetches ++
          [⟨.read, address, value⟩, ⟨.write, address, value⟩, ⟨.write, address, result⟩] ∧
        instruction.mnemonic.Makes registers.p value result status ∧
        after = instruction.mnemonic.combine { found with p := status } result
  accumulator : instruction.mode = .accumulator →
    accesses = [] ∧ ∃ result status,
      instruction.mnemonic.Makes registers.p registers.a result status ∧
        after = { registers with a := result, p := status }

end Instruction

namespace Arithmetic

/-- A shift to the left doubles, and drops what leaves the byte. -/
theorem toNat_shiftLeft (value : UInt8) (fill : Bool) :
    (shiftLeft value fill).1.toNat = (2 * value.toNat + fill.toNat) % 256 := UInt8.toNat_ofNat'

/-- A shift to the right halves, and fills from the top. -/
theorem toNat_shiftRight (value : UInt8) (fill : Bool) :
    (shiftRight value fill).1.toNat = value.toNat / 2 + 128 * fill.toNat := by
  have below := value.toNat_lt
  have bit := fill.toNat_le
  apply UInt8.toNat_ofNat_of_lt'
  change _ < 256
  omega

/-- A decrement goes from zero to the top of the byte. -/
theorem toNat_decrement (value : UInt8) : (value - 1).toNat = (value.toNat + 255) % 256 := by
  rw [UInt8.toNat_sub, Nat.add_comm]
  rfl

end Arithmetic

namespace Mnemonic

open Arithmetic

variable {mnemonic : Mnemonic}

/-- It is enough to know the byte and the carry; the flags describe the byte. -/
theorem Makes.of_describe {status : Status} {value result : UInt8} {carry : Bool}
    (byte : result.toNat = (mnemonic.replaced status.carry value.toNat).1)
    (leaves : carry = (mnemonic.replaced status.carry value.toNat).2) :
    mnemonic.Makes status value result ({ status with carry }.describe result) :=
  ⟨byte, leaves, Status.describes_describe _ _, rfl⟩

/-- The mnemonics that rewrite modify their operand by the rule in numbers. -/
theorem operation_rewrites (rewrites : mnemonic ∈ rewriters) :
    ∃ change : Modification, mnemonic.operation = .modify change mnemonic.combine ∧
      ∀ status value,
        mnemonic.Makes status value (change status value).1 (change status value).2 := by
  cases mnemonic with
  | asl | slo =>
      exact ⟨_, rfl, fun status value => .of_describe (toNat_shiftLeft value false) rfl⟩
  | rol | rla =>
      exact ⟨_, rfl, fun status value => .of_describe (toNat_shiftLeft value status.carry) rfl⟩
  | lsr | sre =>
      exact ⟨_, rfl, fun status value => .of_describe (toNat_shiftRight value false) rfl⟩
  | ror | rra =>
      exact ⟨_, rfl, fun status value => .of_describe (toNat_shiftRight value status.carry) rfl⟩
  | inc | isb => exact ⟨_, rfl, fun status value => .of_describe (UInt8.toNat_add value 1) rfl⟩
  | dec | dcp => exact ⟨_, rfl, fun status value => .of_describe (toNat_decrement value) rfl⟩
  | _ => exact absurd rewrites (by decide)

/-- The documented mnemonics keep the result in the operand. -/
theorem combine_inPlace (documented : mnemonic ∈ inPlace) :
    mnemonic.combine = Registers.ignore := by
  cases mnemonic <;> first
    | rfl
    | exact absurd documented (by decide)

end Mnemonic

/-- The accumulator is found without a read. -/
theorem Mode.Finds.in_accumulator {registers : Registers} {reads : List WatchHit}
    {location : Location} (found : Mode.accumulator.Finds registers reads location) :
    reads = [] ∧ location.operand = .accumulator := by
  cases found
  exact ⟨rfl, rfl⟩

namespace Instruction

/-- An instruction that changes a byte runs and has an operand, and leaves the accumulator to the
documented shifts and rotations. -/
structure Rewriting (instruction : Instruction) : Prop where
  valid : instruction.isValid
  operand : instruction.mode = .accumulator ∨ instruction.mode.Addressed
  shifts : instruction.mode = .accumulator → instruction.mnemonic ∈ Mnemonic.inPlace

/-- The entries of the table that rewrite are of that kind. -/
theorem ofOpcode_rewriting {opcode : UInt8}
    (rewrites : (ofOpcode opcode).mnemonic ∈ Mnemonic.rewriters) :
    (ofOpcode opcode).Rewriting := by
  revert rewrites
  refine ofOpcode_forall (fun instruction => instruction.mnemonic ∈ Mnemonic.rewriters →
    instruction.Rewriting) (fun high low rewrites => ⟨?_, ?_, ?_⟩) opcode
  · revert high low
    decide
  · revert high low
    decide
  · revert high low
    decide

/-- What was performed obeys the law of instructions that rewrite. -/
theorem RewriteLaw.of_performed {instruction : Instruction} {registers after : Registers}
    {accesses : List WatchHit} {extra : Nat}
    (rewrites : instruction.mnemonic ∈ Mnemonic.rewriters) (rewriting : instruction.Rewriting)
    (performed : Operation.Performed instruction.mode registers instruction.mnemonic.operation
      accesses after extra) : instruction.RewriteLaw registers accesses after := by
  obtain ⟨change, operation, makes⟩ := Mnemonic.operation_rewrites rewrites
  rw [operation] at performed
  cases performed with
  | @modify _ _ reads uses location result changed found modified =>
      have uses := Operation.modified_of_yields modified
      constructor
      · intro elsewhere
        obtain ⟨place, operand⟩ := found.addressed (rewriting.operand.resolve_left elsewhere)
        rcases uses with ⟨none, _⟩ | ⟨address, value, named, rfl, rfl, rfl⟩
        · cases operand.symm.trans none
        · exact ⟨reads, location, _, address, value, _, _, found.located, named, rfl,
            makes registers.p value, rfl⟩
      · intro accumulator
        rw [Mnemonic.combine_inPlace (rewriting.shifts accumulator)]
        rw [accumulator] at found uses
        obtain ⟨rfl, operand⟩ := found.in_accumulator
        rw [Mode.pass_none rfl] at uses
        rcases uses with ⟨_, rfl, rfl, rfl⟩ | ⟨_, _, named, _⟩
        · exact ⟨rfl, _, _, makes registers.p registers.a, rfl⟩
        · cases operand.symm.trans named

end Instruction

/-- Whatever the registers hold and whatever the memory answers, an instruction that changes a byte
in memory reads it once and writes it twice, and one that changes the accumulator accesses nothing
but its opcode. In a memory that answers it always comes to its end. -/
theorem rewriting_reads_once_writes_twice {M : Type} [Memory M] {processor : Processor}
    {memory fetched : M} {opcode : UInt8}
    (read : Memory.read memory processor.registers.pc = .ok (opcode, fetched))
    (rewrites : (Instruction.ofOpcode opcode).mnemonic ∈ Mnemonic.rewriters) :
    (∀ after spent middle,
      ((Instruction.ofOpcode opcode).execute processor.registers).run fetched =
          .ok ((after, spent), middle) →
        (Instruction.ofOpcode opcode).RewriteLaw
            { processor.registers with pc := processor.registers.pc.next }
            (((Instruction.ofOpcode opcode).execute processor.registers).accesses fetched) after ∧
          processor.step.accesses memory = ⟨.read, processor.registers.pc, opcode⟩ ::
            (((Instruction.ofOpcode opcode).execute processor.registers).accesses fetched ++
              { processor with registers := after }.serve.accesses middle)) ∧
    ∀ answering : M → Prop, Memory.Answers answering → answering memory →
      ∃ after spent middle,
        ((Instruction.ofOpcode opcode).execute processor.registers).run fetched =
          .ok ((after, spent), middle) := by
  have rewriting := Instruction.ofOpcode_rewriting rewrites
  constructor
  · intro after spent middle executed
    obtain ⟨extra, _, performed⟩ := Instruction.performed_of_yields (yields_of_run executed)
    exact ⟨.of_performed rewrites rewriting performed,
      Processor.accesses_step read rewriting.valid executed⟩
  · intro answering answers ready
    obtain ⟨value, later, answer, still⟩ := answers.read ready processor.registers.pc
    cases read.symm.trans answer
    exact Instruction.execute_answered answers _ processor.registers still

/-- An undocumented shift of the byte 0x12, which is combined with an empty accumulator. -/
theorem rewriting_reads_once_writes_twice_combined :
    ∃ after,
      Processor.initial.step.accesses (Ticker.mk 0x0f) =
          [⟨.read, 0x0000, 0x0f⟩, ⟨.read, 0x0001, 0x10⟩, ⟨.read, 0x0002, 0x11⟩,
            ⟨.read, 0x1110, 0x12⟩, ⟨.write, 0x1110, 0x12⟩, ⟨.write, 0x1110, 0x24⟩] ∧
        after.a = 0x24 ∧
        (Instruction.ofOpcode 0x0f).RewriteLaw { Registers.initial with pc := 1 }
          [⟨.read, 0x0001, 0x10⟩, ⟨.read, 0x0002, 0x11⟩, ⟨.read, 0x1110, 0x12⟩,
            ⟨.write, 0x1110, 0x12⟩, ⟨.write, 0x1110, 0x24⟩] after ∧
        ∃ outcome, ((Instruction.ofOpcode 0x0f).execute Registers.initial).run (Ticker.mk 0x10) =
          .ok outcome := by
  have read : Memory.read (Ticker.mk 0x0f) Processor.initial.registers.pc =
    .ok (0x0f, Ticker.mk 0x10) := rfl
  have executed : ((Instruction.ofOpcode 0x0f).execute Registers.initial).run (Ticker.mk 0x10) =
    .ok (({ Registers.initial with pc := 3 }.orA 0x24, 6), Ticker.mk 0x13) := rfl
  obtain ⟨law, total⟩ := rewriting_reads_once_writes_twice read (by decide)
  obtain ⟨rewrites, order⟩ := law _ _ _ executed
  obtain ⟨after, spent, middle, served⟩ := total _ Ticker.answers trivial
  exact ⟨_, order, rfl, rewrites, _, served⟩

end EightBit
