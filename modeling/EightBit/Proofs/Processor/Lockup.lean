import EightBit.Proofs.Processor.Step
import EightBit.Proofs.Transaction.Accesses

/-
Opcodes that lock up the processor. A step that reads one of them is over with that read, and
nothing of the processor has changed.
-/

namespace EightBit

open Transaction

namespace Instruction

/-- The twelve opcodes that lock up the processor, all in one column of the table. -/
def lockups : List UInt8 :=
  [0x02, 0x12, 0x22, 0x32, 0x42, 0x52, 0x62, 0x72, 0x92, 0xb2, 0xd2, 0xf2]

/-- Twelve opcodes lock up the processor, and no other one does. -/
theorem isValid_eq_false_iff (opcode : UInt8) :
    (ofOpcode opcode).isValid = false ↔ opcode ∈ lockups := by
  have every : ∀ index : Fin 256,
      (ofOpcode (.ofFin index)).isValid = false ↔ UInt8.ofFin index ∈ lockups := by
    decide +kernel
  exact every opcode.toFin

end Instruction

namespace Processor

variable {M : Type} [Memory M]

/-- A step that reads this opcode fails just if the opcode locks up the processor. The failure names
the opcode and its place; the processor stays as it is, and the memory has seen this read only. -/
structure LockupLaw (processor : Processor) (memory : M) (opcode : UInt8) (fetched : M) :
    Prop where
  halted : opcode ∈ Instruction.lockups →
    processor.step.run memory =
        .ok ((.error (.invalidOpcode opcode processor.registers.pc), processor),
          Memory.report fetched (.halted opcode processor.registers.pc)) ∧
      processor.step.accesses memory = [⟨.read, processor.registers.pc, opcode⟩]
  failed : ∀ fault after later,
    processor.step.run memory = .ok ((.error fault, after), later) → opcode ∈ Instruction.lockups

/-- Whatever the processor and the memory are, an opcode that is read at the program counter locks
up the processor or is executed. -/
theorem lockup_law {processor : Processor} {memory fetched : M} {opcode : UInt8}
    (read : Memory.read memory processor.registers.pc = .ok (opcode, fetched)) :
    processor.LockupLaw memory opcode fetched where
  halted lockup := by
    have invalid : ¬(Instruction.ofOpcode opcode).isValid = true := by
      rw [(Instruction.isValid_eq_false_iff opcode).mpr lockup]
      exact Bool.false_ne_true
    constructor
    · rw [step_fetch, run, read]
      dsimp only
      rw [if_neg invalid]
      rfl
    · rw [step_fetch, accesses_read read, if_neg invalid]
      rfl
  failed fault after later served := by
    have stepped := run_step served
    generalize takenIn (processor.step.trace memory) = taken at stepped
    cases stepped with
    | halted other invalid =>
        cases read.symm.trans other
        exact (Instruction.isValid_eq_false_iff opcode).mp invalid

end Processor

end EightBit
