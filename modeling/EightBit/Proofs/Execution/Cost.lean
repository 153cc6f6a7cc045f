import EightBit.Proofs.Execution.Fetch
import EightBit.Proofs.Outcome

/-
The cost of a step. An instruction takes two to eight cycles, penalties counted in, and the handler
that may be entered after it takes seven more.
-/

namespace EightBit

open Transaction

/-- A page is crossed once at most. -/
theorem Location.penalty_le (location : Location) : location.penalty ≤ 1 :=
  location.pageCrossed.toNat_le

namespace Operation

/-- The most cycles that an operation adds to the base cost. -/
def maxExtra : Operation → Nat
  | consume _ => 1
  | branch .. => 2
  | _ => 0

/-- No operation costs more than its limit beyond the base cost. -/
theorem perform_extra (operation : Operation) (mode : Mode) (registers : Registers) :
    (operation.perform mode registers).Ensures fun after => after.2 ≤ operation.maxExtra := by
  have located := ensures_true (mode.locate registers)
  cases operation with
  | consume use =>
      apply located.bind
      intro ⟨location, found⟩ _
      exact (ensures_true (location.operand.read found)).bind fun _ _ => location.penalty_le
  | modify change use =>
      apply located.bind
      intro ⟨location, found⟩ _
      exact (ensures_true (modifyOperand change location.operand found)).bind
        fun _ _ => Nat.le_refl 0
  | store source =>
      apply located.bind
      intro ⟨location, found⟩ _
      exact (ensures_true (location.operand.write _ found)).bind fun _ _ => Nat.le_refl 0
  | storeMasked source keep =>
      apply located.bind
      intro ⟨⟨operand, crossed⟩, found⟩ _
      cases operand with
      | accumulator => exact Nat.le_refl 0
      | memory address => exact Nat.le_refl 0
  | compute change => exact Nat.le_refl 0
  | branch flag on =>
      apply located.bind
      intro ⟨location, found⟩ _
      have penalty := location.penalty_le
      dsimp only
      split
      · change 1 + location.penalty ≤ 2
        omega
      · exact Nat.zero_le 2
  | jump => exact located.bind fun _ _ => Nat.le_refl 0
  | call => exact located.bind fun _ _ => Nat.le_refl 0
  | returnFromCall => exact fun _ _ => Nat.le_refl 0
  | returnFromInterrupt => exact fun _ _ _ => Nat.le_refl 0
  | interrupt => exact fun _ _ => Nat.le_refl 0
  | push source => exact Nat.le_refl 0
  | pull use => exact fun _ => Nat.le_refl 0
  | halt => exact Nat.le_refl 0

end Operation

namespace Instruction

/-- The table leaves room for every penalty. -/
theorem ofOpcode_cost (opcode : UInt8) : (ofOpcode opcode).isValid = true →
    2 ≤ (ofOpcode opcode).cycles ∧
      (ofOpcode opcode).cycles + (ofOpcode opcode).mnemonic.operation.maxExtra ≤ 8 :=
  ofOpcode_forall (fun instruction => instruction.isValid = true → 2 ≤ instruction.cycles ∧
    instruction.cycles + instruction.mnemonic.operation.maxExtra ≤ 8) (by decide) opcode

/-- A valid instruction costs two to eight cycles. -/
theorem execute_cost {opcode : UInt8} (valid : (ofOpcode opcode).isValid = true)
    (registers : Registers) :
    ((ofOpcode opcode).execute registers).Ensures fun after => 2 ≤ after.2 ∧ after.2 ≤ 8 := by
  obtain ⟨least, most⟩ := ofOpcode_cost opcode valid
  rw [execute_ofOpcode]
  apply ((ofOpcode opcode).mnemonic.operation.perform_extra (ofOpcode opcode).mode _).bind
  intro ⟨after, extra⟩ bound
  change 2 ≤ _ + extra ∧ _ + extra ≤ 8
  change extra ≤ _ at bound
  omega

end Instruction

namespace Processor

/-- A reset costs seven cycles. -/
theorem reset_cost (processor : Processor) :
    processor.reset.Ensures fun after => after.1 = Interrupt.cycles :=
  (ensures_true (Interrupt.reset.enter processor.registers)).bind fun _ _ => rfl

/-- The cycles are counted. -/
theorem reset_clock (processor : Processor) :
    processor.reset.Ensures fun after =>
      after.2.cycles = processor.cycles + UInt64.ofNat after.1 :=
  (ensures_true (Interrupt.reset.enter processor.registers)).bind fun _ _ => rfl

/-- Entering a handler costs seven cycles, and entering none costs nothing. -/
theorem serve_cost (processor : Processor) :
    processor.serve.Ensures fun after => after.1 = 0 ∨ after.1 = 7 := by
  unfold serve
  split
  · exact .inl rfl
  · rename_i interrupt _
    exact (ensures_true (interrupt.enter processor.registers)).bind fun _ _ => .inr rfl

/-- What a step may return. -/
def Charged : Except Fault Nat → Prop
  | .ok cycles => 2 ≤ cycles ∧ cycles ≤ 15
  | .error fault => ∃ opcode pc, fault = .invalidOpcode opcode pc

/-- A step that succeeds costs an instruction and perhaps an entry. -/
theorem step_charged (processor : Processor) :
    processor.step.Ensures fun outcome => Charged outcome.1 := by
  intro opcode
  change Transaction.Ensures _ (if (Instruction.ofOpcode opcode).isValid = true then _ else _)
  split
  · rename_i valid
    apply (Instruction.execute_cost valid processor.registers).bind
    intro ⟨registers, spent⟩ cost
    apply ({ processor with registers }.serve_cost).bind
    intro ⟨served, after⟩ entry
    change 2 ≤ spent ∧ spent ≤ 8 at cost
    change served = 0 ∨ served = 7 at entry
    change 2 ≤ spent + served ∧ spent + served ≤ 15
    omega
  · exact ⟨opcode, processor.registers.pc, rfl⟩

end Processor

end EightBit
