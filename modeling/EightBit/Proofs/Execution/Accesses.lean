import EightBit.Proofs.Execution.Fetch
import EightBit.Proofs.Transaction.Accesses

/-
The number of accesses that a step makes. The operand is found by at most four accesses and used by
at most three, no instruction needs more than seven in all, and the entry into a handler adds five.
-/

namespace EightBit

open Transaction

namespace Operand

/-- The accumulator is used without any access. -/
def accesses : Operand → Nat
  | accumulator => 0
  | memory _ => 1

/-- Reading an operand takes the accesses that its place takes. -/
theorem read_atMost (operand : Operand) (registers : Registers) :
    AtMost operand.accesses (operand.read registers) := by
  cases operand with
  | accumulator => exact .done
  | memory address => exact .read fun _ => .done

/-- Writing an operand takes the accesses that its place takes. -/
theorem write_atMost (operand : Operand) (value : UInt8) (registers : Registers) :
    AtMost operand.accesses (operand.write value registers) := by
  cases operand with
  | accumulator => exact .done
  | memory address => exact .write .done

end Operand

namespace Mode

/-- The accesses that find the operand. -/
def accesses : Mode → Nat
  | accumulator | implied | immediate => 0
  | zeroPage | zeroPageX | zeroPageY | relative => 1
  | absolute | absoluteX | absoluteY => 2
  | indexedIndirect | indirectIndexed => 3
  | indirect => 4

/-- The accesses that use the operand once. -/
def operandAccesses : Mode → Nat
  | accumulator | implied => 0
  | _ => 1

/-- A mode makes as many accesses as it is charged for at most. -/
theorem locate_atMost (mode : Mode) (registers : Registers) :
    AtMost mode.accesses (mode.locate registers) := by
  cases mode with
  | accumulator => exact .done
  | implied => exact .done
  | immediate => exact .done
  | zeroPage => exact .read fun _ => .done
  | zeroPageX => exact .read fun _ => .done
  | zeroPageY => exact .read fun _ => .done
  | relative => exact .read fun _ => .done
  | absolute => exact .read fun _ => .read fun _ => .done
  | absoluteX => exact .read fun _ => .read fun _ => .done
  | absoluteY => exact .read fun _ => .read fun _ => .done
  | indirect => exact .read fun _ => .read fun _ => .read fun _ => .read fun _ => .done
  | indexedIndirect => exact .read fun _ => .read fun _ => .read fun _ => .done
  | indirectIndexed => exact .read fun _ => .read fun _ => .read fun _ => .done

/-- The place that a mode finds is of the kind that the mode is charged for. -/
theorem locate_operand (mode : Mode) (registers : Registers) :
    (mode.locate registers).Ensures fun found =>
      found.1.operand.accesses = mode.operandAccesses := by
  cases mode with
  | accumulator => rfl
  | implied => rfl
  | immediate => rfl
  | zeroPage => exact fun _ => rfl
  | zeroPageX => exact fun _ => rfl
  | zeroPageY => exact fun _ => rfl
  | relative => exact fun _ => rfl
  | absolute => exact fun _ _ => rfl
  | absoluteX => exact fun _ _ => rfl
  | absoluteY => exact fun _ _ => rfl
  | indirect => exact fun _ _ _ _ => rfl
  | indexedIndirect => exact fun _ _ _ => rfl
  | indirectIndexed => exact fun _ _ _ => rfl

/-- The operand is found, and then used as the operand of its mode. -/
theorem locate_use (mode : Mode) (registers : Registers) (count : Nat → Nat) {β : Type}
    {use : Location × Registers → Transaction β}
    (used : ∀ location found, AtMost (count location.operand.accesses) (use (location, found))) :
    AtMost (mode.accesses + count mode.operandAccesses) (mode.locate registers >>= use) := by
  refine (mode.locate_atMost registers).bind (mode.locate_operand registers) ?_
  intro ⟨location, found⟩ same
  rw [← same]
  exact used location found

end Mode

/-- The status and the program counter are pushed, and the vector is read; a reset only reads. -/
theorem Interrupt.enter_atMost (interrupt : Interrupt) (registers : Registers) :
    AtMost 5 (interrupt.enter registers) := by
  cases interrupt with
  | reset => exact .read fun _ => .read fun _ => .done
  | nmi => exact .write (.write (.write (.read fun _ => .read fun _ => .done)))
  | irq => exact .write (.write (.write (.read fun _ => .read fun _ => .done)))
  | break_ => exact .write (.write (.write (.read fun _ => .read fun _ => .done)))

namespace Operation

/-- The accesses that an operation makes in a mode, those that find the operand included. -/
def accesses (mode : Mode) : Operation → Nat
  | consume _ | store _ | storeMasked .. => mode.accesses + mode.operandAccesses
  | modify .. => mode.accesses + 3 * mode.operandAccesses
  | branch .. | jump => mode.accesses
  | call => mode.accesses + 2
  | compute _ | halt => 0
  | push _ | pull _ => 1
  | returnFromCall => 2
  | returnFromInterrupt => 3
  | interrupt => 5

/-- A modification reads once and writes twice at most. -/
theorem modifyOperand_atMost (change : Modification) (operand : Operand) (registers : Registers) :
    AtMost (3 * operand.accesses) (modifyOperand change operand registers) := by
  cases operand with
  | accumulator => exact .done
  | memory address => exact .read fun _ => .write (.write .done)

/-- An operation makes as many accesses as it is charged for at most. -/
theorem perform_atMost (operation : Operation) (mode : Mode) (registers : Registers) :
    AtMost (operation.accesses mode) (operation.perform mode registers) := by
  have located := mode.locate_atMost registers
  cases operation with
  | consume use =>
      exact mode.locate_use registers id fun location found =>
        (location.operand.read_atMost found).finish fun _ => .done
  | modify change use =>
      exact mode.locate_use registers (3 * ·) fun location found =>
        (modifyOperand_atMost change location.operand found).finish fun _ => .done
  | store source =>
      exact mode.locate_use registers id fun location found =>
        (location.operand.write_atMost _ found).finish fun _ => .done
  | storeMasked source keep =>
      refine mode.locate_use registers id ?_
      intro ⟨operand, crossed⟩ found
      cases operand with
      | accumulator => exact .done
      | memory address => exact .write .done
  | compute change => exact .done
  | branch flag on =>
      refine located.finish ?_
      intro ⟨location, found⟩
      dsimp only
      split
      · exact .done
      · exact .done
  | jump => exact located.finish fun _ => .done
  | call => exact located.bind (ensures_true _) fun _ _ => .write (.write .done)
  | returnFromCall => exact .read fun _ => .read fun _ => .done
  | returnFromInterrupt => exact .read fun _ => .read fun _ => .read fun _ => .done
  | interrupt =>
      exact (Interrupt.break_.enter_atMost _).finish fun _ => .done
  | push source => exact .write .done
  | pull use => exact .read fun _ => .done
  | halt => exact .done

end Operation

namespace Instruction

/-- The opcode itself is read before the instruction is executed. -/
theorem ofOpcode_accesses (opcode : UInt8) :
    (ofOpcode opcode).mnemonic.operation.accesses (ofOpcode opcode).mode ≤ 6 :=
  ofOpcode_forall (fun instruction =>
    instruction.mnemonic.operation.accesses instruction.mode ≤ 6) (by decide) opcode

/-- An instruction makes the accesses of its operation, and none besides. -/
theorem execute_atMost_operation (opcode : UInt8) (registers : Registers) :
    AtMost ((ofOpcode opcode).mnemonic.operation.accesses (ofOpcode opcode).mode)
      ((ofOpcode opcode).execute registers) := by
  rw [execute_ofOpcode]
  exact ((ofOpcode opcode).mnemonic.operation.perform_atMost (ofOpcode opcode).mode
    { registers with pc := registers.pc.next }).finish fun _ => .done

/-- No instruction makes more than six accesses after its opcode. -/
theorem execute_atMost (opcode : UInt8) (registers : Registers) :
    AtMost 6 ((ofOpcode opcode).execute registers) :=
  (execute_atMost_operation opcode registers).mono (ofOpcode_accesses opcode)

end Instruction

namespace Processor

/-- Entering a handler takes three pushes and two reads of the vector at most. -/
theorem serve_atMost (processor : Processor) : AtMost 5 processor.serve := by
  unfold serve
  split
  · exact .done
  · rename_i interrupt _
    exact .report ((interrupt.enter_atMost processor.registers).finish fun _ => .done)

/-- A step makes at most twelve accesses. -/
theorem step_atMost (processor : Processor) : AtMost 12 processor.step := by
  refine .read fun opcode => ?_
  change AtMost (6 + 5) (if (Instruction.ofOpcode opcode).isValid = true then _ else _)
  split
  · refine (Instruction.execute_atMost opcode processor.registers).bind (ensures_true _) ?_
    intro ⟨registers, spent⟩ _
    exact { processor with registers }.serve_atMost.finish fun _ => .done
  · exact .report .done

end Processor

end EightBit
