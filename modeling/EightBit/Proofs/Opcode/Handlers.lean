import EightBit.Execution.Operation

/-
The table names a mnemonic and a mode twice, once for listings and once for the execution. In every
entry both columns say the same.
-/

namespace EightBit.Instruction

/-- Every opcode is in the table. -/
theorem ofOpcode_forall (property : Instruction → Prop)
    (every : ∀ high low : Fin 16, property ((table.get high).get low)) (opcode : UInt8) :
    property (ofOpcode opcode) := every _ _

/-- What is executed is what is listed, the operation of the mnemonic on the operand of the mode. -/
theorem ofOpcode_handler (opcode : UInt8) :
    (ofOpcode opcode).handler = ⟨(ofOpcode opcode).mnemonic, (ofOpcode opcode).mode⟩ :=
  ofOpcode_forall
    (fun instruction => instruction.handler = ⟨instruction.mnemonic, instruction.mode⟩)
    (by decide) opcode

/-- The execution in terms of the columns that a listing shows. -/
theorem execute_ofOpcode (opcode : UInt8) (registers : Registers) :
    (ofOpcode opcode).execute registers =
      (ofOpcode opcode).mnemonic.operation.perform (ofOpcode opcode).mode
          { registers with pc := registers.pc.next } >>= fun outcome =>
        pure (outcome.1, (ofOpcode opcode).cycles + outcome.2) := by
  rw [execute, ofOpcode_handler]

end EightBit.Instruction
