import EightBit.Opcode.Listing
import EightBit.Processor
import EightBit.Proofs.Opcode.Handlers

/-
The bytes of an instruction. A step reads the opcode and then all operand bytes, in order, before
it makes any other access.
-/

namespace EightBit

namespace Transaction

variable {α β : Type}

/-- The transaction starts by reading that many bytes in a row. -/
def Fetches : Nat → Address → Transaction α → Prop
  | 0, _, _ => True
  | count + 1, address, read first next =>
      first = address ∧ ∀ value, (next value).Fetches count address.next
  | _ + 1, _, _ => False

/-- What is fetched first is fetched first in a sequence. -/
theorem Fetches.bind {count : Nat} {address : Address} {act : Transaction α}
    (fetches : act.Fetches count address) (follow : α → Transaction β) :
    (act >>= follow).Fetches count address := by
  induction count generalizing act address with
  | zero => trivial
  | succ count ih =>
      cases act with
      | read first next => exact ⟨fetches.1, fun value => ih (fetches.2 value)⟩
      | done result => exact fetches.elim
      | write place value next => exact fetches.elim
      | report event next => exact fetches.elim

end Transaction

open Transaction

/-- A fetch reads the byte at the program counter. -/
theorem fetch_fetches (registers : Registers) : (fetch registers).Fetches 1 registers.pc :=
  ⟨rfl, fun _ => trivial⟩

/-- An address is fetched from two bytes in a row. -/
theorem fetchAddress_fetches (registers : Registers) :
    (fetchAddress registers).Fetches 2 registers.pc :=
  ⟨rfl, fun _ => ⟨rfl, fun _ => trivial⟩⟩

/-- An immediate operand is only located; the operation reads it. -/
theorem Mode.locate_fetches {mode : Mode} (elsewhere : mode ≠ .immediate) (registers : Registers) :
    (mode.locate registers).Fetches mode.operandSize registers.pc := by
  cases mode with
  | accumulator => trivial
  | implied => trivial
  | immediate => exact absurd rfl elsewhere
  | zeroPage => exact (fetch_fetches registers).bind _
  | zeroPageX => exact (fetch_fetches registers).bind _
  | zeroPageY => exact (fetch_fetches registers).bind _
  | relative => exact (fetch_fetches registers).bind _
  | absolute => exact (fetchAddress_fetches registers).bind _
  | absoluteX => exact (fetchAddress_fetches registers).bind _
  | absoluteY => exact (fetchAddress_fetches registers).bind _
  | indirect => exact (fetchAddress_fetches registers).bind _
  | indexedIndirect => exact (fetch_fetches registers).bind _
  | indirectIndexed => exact (fetch_fetches registers).bind _

namespace Operation

/-- The operation starts by finding its operand. -/
def locates : Operation → Bool
  | consume _ | modify .. | store _ | storeMasked .. | branch .. | jump | call => true
  | compute _ | returnFromCall | returnFromInterrupt | interrupt | push _ | pull _ | halt => false

/-- The operation reads its operand right after finding it. -/
def consumes : Operation → Bool
  | consume _ => true
  | _ => false

/-- The operation reads every operand byte of the mode. -/
def Takes (operation : Operation) (mode : Mode) : Prop :=
  mode.operandSize = 0 ∨
    operation.locates = true ∧ (mode = .immediate → operation.consumes = true)

instance (operation : Operation) (mode : Mode) : Decidable (operation.Takes mode) :=
  inferInstanceAs (Decidable (_ ∨ _))

/-- An operation starts by fetching the operand bytes of its mode. -/
theorem perform_fetches {operation : Operation} {mode : Mode} (takes : operation.Takes mode)
    (registers : Registers) :
    (operation.perform mode registers).Fetches mode.operandSize registers.pc := by
  rcases takes with none | ⟨locates, reads⟩
  · rw [none]
    trivial
  · by_cases immediate : mode = .immediate
    · subst immediate
      cases operation with
      | consume use => exact ⟨rfl, fun _ => trivial⟩
      | _ => cases reads rfl
    · have found := Mode.locate_fetches immediate registers
      cases operation with
      | consume use => exact found.bind _
      | modify change use => exact found.bind _
      | store source => exact found.bind _
      | storeMasked source keep => exact found.bind _
      | branch flag on => exact found.bind _
      | jump => exact found.bind _
      | call => exact found.bind _
      | _ => cases locates

end Operation

namespace Instruction

/-- Every entry of the table joins an operation with a mode that it takes. -/
theorem ofOpcode_takes (opcode : UInt8) :
    (ofOpcode opcode).mnemonic.operation.Takes (ofOpcode opcode).mode :=
  ofOpcode_forall (fun instruction => instruction.mnemonic.operation.Takes instruction.mode)
    (by decide) opcode

/-- What locks up the processor has no operand. -/
theorem ofOpcode_invalid (opcode : UInt8) : (ofOpcode opcode).isValid = true ∨
    (ofOpcode opcode).mode.operandSize = 0 :=
  ofOpcode_forall (fun instruction =>
    instruction.isValid = true ∨ instruction.mode.operandSize = 0) (by decide) opcode

/-- An instruction starts by fetching its operand bytes in a row. -/
theorem execute_fetches (opcode : UInt8) (registers : Registers) :
    ((ofOpcode opcode).execute registers).Fetches (ofOpcode opcode).mode.operandSize
      registers.pc.next := by
  rw [execute_ofOpcode]
  exact (Operation.perform_fetches (ofOpcode_takes opcode)
    { registers with pc := registers.pc.next }).bind _

end Instruction

/-- A step reads the opcode at the program counter and then all operand bytes. -/
theorem Processor.step_fetches (processor : Processor) :
    ∃ next, processor.step = .read processor.registers.pc next ∧ ∀ opcode,
      (next opcode).Fetches (Instruction.ofOpcode opcode).mode.operandSize
        processor.registers.pc.next := by
  refine ⟨_, rfl, fun opcode => ?_⟩
  change Fetches _ _ (if (Instruction.ofOpcode opcode).isValid = true then _ else _)
  split
  · exact (Instruction.execute_fetches opcode processor.registers).bind _
  · rename_i invalid
    rw [(Instruction.ofOpcode_invalid opcode).resolve_left invalid]
    trivial

end EightBit
