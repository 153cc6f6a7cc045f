import EightBit.Proofs.Execution.Accesses
import EightBit.Proofs.Processor.WriteFrame

/-
The accesses of a step against its cycles. A cycle leaves room for one access: the table charges
each instruction at least for its opcode and for all accesses of its operation, and the entry into a
handler makes five in seven cycles. So a step never makes more accesses than it takes cycles.
-/

namespace EightBit

open Transaction

/-- The accesses that enter the handler of the request that is taken, if one is taken. -/
inductive Interrupt.Enters (registers : Registers) : List Interrupt → List WatchHit → Prop
  | none : Enters registers [] []
  | handler {interrupt : Interrupt} {entry : List WatchHit} {handled : Registers}
      (yields : (interrupt.enter registers).Yields entry handled) :
      Enters registers [interrupt] entry

/-- The status and the program counter are pushed, and the two bytes of the vector are read. -/
theorem Interrupt.Enters.length_le {registers : Registers} {taken : List Interrupt}
    {entry : List WatchHit} (enters : Enters registers taken entry) :
    entry.length ≤ 5 * taken.length := by
  cases enters with
  | none => exact Nat.le_refl 0
  | @handler interrupt _ _ yields =>
      exact (interrupt.enter_atMost registers).length_of_yields yields

namespace Instruction

/-- The base cost pays for the read of the opcode and for every access of the operation. -/
theorem ofOpcode_affords (opcode : UInt8) : (ofOpcode opcode).isValid = true →
    1 + (ofOpcode opcode).mnemonic.operation.accesses (ofOpcode opcode).mode ≤
      (ofOpcode opcode).cycles :=
  ofOpcode_forall (fun instruction => instruction.isValid = true →
    1 + instruction.mnemonic.operation.accesses instruction.mode ≤ instruction.cycles)
    (by decide) opcode

/-- Penalties only add to the cost. -/
theorem affords_of_yields {opcode : UInt8} (valid : (ofOpcode opcode).isValid = true)
    {registers after : Registers} {uses : List WatchHit} {spent : Nat}
    (yields : ((ofOpcode opcode).execute registers).Yields uses (after, spent)) :
    1 + uses.length ≤ spent := by
  have within := (execute_atMost_operation opcode registers).length_of_yields yields
  have paid := ofOpcode_affords opcode valid
  obtain ⟨extra, total, _⟩ := performed_of_yields yields
  omega

end Instruction

namespace Processor

variable {M : Type} [Memory M]

/-- A step reads its opcode, makes the accesses of the instruction and then those of the entry into
a handler, if a request is taken. Its cycles pay for each part. -/
def Pays (processor : Processor) (memory : M) (cycles : Nat) : Prop :=
  ∃ opcode uses entry registers spent,
    processor.step.accesses memory = ⟨.read, processor.registers.pc, opcode⟩ :: (uses ++ entry) ∧
      ((Instruction.ofOpcode opcode).execute processor.registers).Yields uses (registers, spent) ∧
      Interrupt.Enters registers (takenIn (processor.step.trace memory)) entry ∧
      1 + uses.length ≤ spent ∧
      cycles = spent + 7 * (takenIn (processor.step.trace memory)).length

/-- An instruction and the entry after it make no more accesses than they cost. -/
theorem Executes.pays {processor : Processor} {memory middle : M} {registers : Registers}
    {spent : Nat} (executes : processor.Executes memory registers spent middle)
    (enters : Interrupt.Enters registers (takenIn (processor.step.trace memory))
      ({ processor with registers }.serve.accesses middle)) :
    processor.Pays memory (spent + 7 * (takenIn (processor.step.trace memory)).length) := by
  obtain ⟨opcode, fetched, read, valid, executed⟩ := executes
  have yields := yields_of_run executed
  exact ⟨opcode, _, _, registers, spent, accesses_step read valid executed, yields, enters,
    Instruction.affords_of_yields valid yields, rfl⟩

/-- Whatever the memory answers, a step that succeeds pays for its accesses. -/
theorem pays_of_run {processor after : Processor} {memory later : M} {cycles : Nat}
    (served : processor.step.run memory = .ok ((.ok cycles, after), later)) :
    processor.Pays memory cycles := by
  generalize order : takenIn (processor.step.trace memory) = taken
  have stepped := run_step served
  rw [order] at stepped
  cases stepped with
  | @plain registers spent middle executes idle =>
      have enters : Interrupt.Enters registers (takenIn (processor.step.trace memory))
          ({ processor with registers }.serve.accesses later) := by
        rw [order, serve_idle idle]
        exact .none
      have pays := executes.pays enters
      rwa [order] at pays
  | @taken registers handler spent middle later interrupt executes chosen entered =>
      have enters : Interrupt.Enters registers (takenIn (processor.step.trace memory))
          ({ processor with registers }.serve.accesses middle) := by
        rw [order]
        exact .handler (yields_serve chosen entered)
      have pays := executes.pays enters
      rwa [order] at pays

/-- A step makes no more accesses than it takes cycles. -/
theorem Pays.length_le {processor : Processor} {memory : M} {cycles : Nat}
    (pays : processor.Pays memory cycles) : (processor.step.accesses memory).length ≤ cycles := by
  obtain ⟨opcode, uses, entry, registers, spent, order, _, enters, paid, total⟩ := pays
  have few := enters.length_le
  rw [order, List.length_cons, List.length_append]
  omega

/-- A step that succeeds on any memory makes at least one access and at most twelve, and no more
than it takes cycles: the read of the opcode first, then those of the instruction, and those of the
entry into a handler last. -/
theorem step_accesses_within_cycles {processor after : Processor} {memory later : M} {cycles : Nat}
    (served : processor.step.run memory = .ok ((.ok cycles, after), later)) :
    processor.Pays memory cycles ∧
      1 ≤ (processor.step.accesses memory).length ∧
      (processor.step.accesses memory).length ≤ cycles ∧
      (processor.step.accesses memory).length ≤ 12 := by
  have pays := pays_of_run served
  refine ⟨pays, ?_, pays.length_le, processor.step_atMost.length_accesses memory⟩
  obtain ⟨opcode, uses, entry, _, _, order, _⟩ := pays
  rw [order, List.length_cons]
  exact Nat.le_add_left 1 _

/-- A shift in place through a pointer, and the entry into the handler of a request after it: twelve
accesses, the most that there can be, in fifteen cycles. -/
theorem step_accesses_within_cycles_full :
    ∃ after, (initial.request .nmi).step.run (Ticker.mk 0x03) =
        .ok ((.ok 15, after), Ticker.mk 0x0a) ∧
      ((initial.request .nmi).step.accesses (Ticker.mk 0x03)).length = 12 ∧
      (initial.request .nmi).Pays (Ticker.mk 0x03) 15 ∧
      1 ≤ ((initial.request .nmi).step.accesses (Ticker.mk 0x03)).length ∧
      ((initial.request .nmi).step.accesses (Ticker.mk 0x03)).length ≤ 15 ∧
      ((initial.request .nmi).step.accesses (Ticker.mk 0x03)).length ≤ 12 := by
  have served : (initial.request .nmi).step.run (Ticker.mk 0x03) = .ok ((.ok 15, _),
    Ticker.mk 0x0a) := rfl
  exact ⟨_, served, rfl, step_accesses_within_cycles served⟩

end Processor

end EightBit
