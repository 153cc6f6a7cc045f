import EightBit.Processor
import EightBit.Proofs.Transaction.Trace

/-
A step of the processor in two halves: an instruction, and the entry into the handler of the request
that may be taken then. Neither half reports anything by itself, so the report between them tells
which request was taken.
-/

namespace EightBit

open Transaction

/-- Finding an operand is silent. -/
theorem Mode.locate_silent (mode : Mode) (registers : Registers) :
    (mode.locate registers).Silent := by
  cases mode with
  | accumulator => trivial
  | implied => trivial
  | immediate => trivial
  | zeroPage => exact fun _ => trivial
  | zeroPageX => exact fun _ => trivial
  | zeroPageY => exact fun _ => trivial
  | relative => exact fun _ => trivial
  | absolute => exact fun _ _ => trivial
  | absoluteX => exact fun _ _ => trivial
  | absoluteY => exact fun _ _ => trivial
  | indirect => exact fun _ _ _ _ => trivial
  | indexedIndirect => exact fun _ _ _ => trivial
  | indirectIndexed => exact fun _ _ _ => trivial

theorem Operand.read_silent (operand : Operand) (registers : Registers) :
    (operand.read registers).Silent := by
  cases operand with
  | accumulator => trivial
  | memory address => exact fun _ => trivial

theorem Operand.write_silent (operand : Operand) (value : UInt8) (registers : Registers) :
    (operand.write value registers).Silent := by
  cases operand with
  | accumulator => trivial
  | memory address => trivial

namespace Operation

theorem modifyOperand_silent (change : Modification) (operand : Operand) (registers : Registers) :
    (modifyOperand change operand registers).Silent := by
  cases operand with
  | accumulator => trivial
  | memory address => exact fun _ => trivial

/-- Every operation is silent. -/
theorem perform_silent (operation : Operation) (mode : Mode) (registers : Registers) :
    (operation.perform mode registers).Silent := by
  have located := mode.locate_silent registers
  cases operation with
  | consume use =>
      apply located.bind
      intro ⟨location, found⟩
      exact (location.operand.read_silent found).bind fun value => trivial
  | modify change use =>
      apply located.bind
      intro ⟨location, found⟩
      exact (modifyOperand_silent change location.operand found).bind fun _ => trivial
  | store source =>
      apply located.bind
      intro ⟨location, found⟩
      exact (location.operand.write_silent _ found).bind fun _ => trivial
  | storeMasked source keep =>
      apply located.bind
      intro ⟨⟨operand, crossed⟩, found⟩
      cases operand with
      | accumulator => trivial
      | memory address => trivial
  | compute change => trivial
  | branch flag on =>
      apply located.bind
      intro ⟨location, found⟩
      dsimp only
      split
      · trivial
      · trivial
  | jump => exact located.bind fun _ => trivial
  | call => exact located.bind fun _ => trivial
  | returnFromCall => exact fun _ _ => trivial
  | returnFromInterrupt => exact fun _ _ _ => trivial
  | interrupt => exact fun _ _ => trivial
  | push source => trivial
  | pull use => exact fun _ => trivial
  | halt => trivial

end Operation

/-- Every instruction is silent. -/
theorem Instruction.execute_silent (instruction : Instruction) (registers : Registers) :
    (instruction.execute registers).Silent :=
  (Operation.perform_silent instruction.handler.runs.operation instruction.handler.mode _).bind
    fun _ => trivial

/-- Entering a handler is silent by itself. -/
theorem Interrupt.enter_silent (interrupt : Interrupt) (registers : Registers) :
    (interrupt.enter registers).Silent := by
  cases interrupt with
  | reset => exact fun _ _ => trivial
  | nmi => exact fun _ _ => trivial
  | irq => exact fun _ _ => trivial
  | break_ => exact fun _ _ => trivial

/-- The request that a report says is taken. -/
def Event.taken? : Event → Option Interrupt
  | .servicing interrupt _ => some interrupt
  | _ => none

/-- The requests that are taken from the latch on the way. -/
def takenIn (actions : List Action) : List Interrupt :=
  (actions.filterMap Action.event?).filterMap Event.taken?

/-- What is taken in two parts is taken in the first and then in the second. -/
@[simp] theorem takenIn_append (first second : List Action) :
    takenIn (first ++ second) = takenIn first ++ takenIn second := by
  simp only [takenIn, List.filterMap_append]

/-- What is silent takes no request. -/
theorem takenIn_silent {α M : Type} [Memory M] {act : Transaction α} (silent : act.Silent)
    (memory : M) : takenIn (act.trace memory) = [] := by
  rw [takenIn, silent.trace memory, List.filterMap_nil]

namespace Processor

variable {M : Type} [Memory M]

/-- The instruction at the program counter leaves the registers and the memory so. -/
def Executes (processor : Processor) (memory : M) (registers : Registers) (spent : Nat)
    (middle : M) : Prop :=
  ∃ opcode fetched, Memory.read memory processor.registers.pc = .ok (opcode, fetched) ∧
    (Instruction.ofOpcode opcode).isValid ∧
      ((Instruction.ofOpcode opcode).execute processor.registers).run fetched =
        .ok ((registers, spent), middle)

/-- The ways in which a step ends that does not crash: its result, the processor and the memory
after it, and the requests it takes. -/
inductive Stepped (processor : Processor) (memory : M) :
    Except Fault Nat → Processor → M → List Interrupt → Prop
  | halted {opcode : UInt8} {fetched : M}
      (read : Memory.read memory processor.registers.pc = .ok (opcode, fetched))
      (invalid : (Instruction.ofOpcode opcode).isValid = false) :
      Stepped processor memory (.error (.invalidOpcode opcode processor.registers.pc)) processor
        (Memory.report fetched (.halted opcode processor.registers.pc)) []
  | plain {registers : Registers} {spent : Nat} {middle : M}
      (executes : processor.Executes memory registers spent middle)
      (idle : processor.pending.next? registers.p = none) :
      Stepped processor memory (.ok spent) ({ processor with registers }.spend spent) middle []
  | taken {registers handler : Registers} {spent : Nat} {middle later : M} {interrupt : Interrupt}
      (executes : processor.Executes memory registers spent middle)
      (chosen : processor.pending.next? registers.p = some interrupt)
      (entered : (interrupt.enter registers).run
        (Memory.report middle (.servicing interrupt registers.pc)) = .ok (handler, later)) :
      Stepped processor memory (.ok (spent + Interrupt.cycles))
        (spend ⟨handler, processor.cycles, processor.pending.afterTaking interrupt⟩
          (spent + Interrupt.cycles)) later [interrupt]

/-- Without a request that may be taken nothing is done. -/
theorem serve_idle {processor : Processor}
    (idle : processor.pending.next? processor.registers.p = none) :
    processor.serve = .done (0, processor) := by
  rw [serve, idle]
  rfl

/-- A request that is taken is reported and then entered. -/
theorem serve_taken {processor : Processor} {interrupt : Interrupt}
    (chosen : processor.pending.next? processor.registers.p = some interrupt) :
    processor.serve = .report (.servicing interrupt processor.registers.pc)
      (interrupt.enter processor.registers >>= fun handler =>
        .done (Interrupt.cycles,
          ⟨handler, processor.cycles, processor.pending.afterTaking interrupt⟩)) := by
  rw [serve, chosen]
  rfl

/-- A step reads its opcode, executes it and then serves the latch, unless the opcode locks up. -/
theorem step_fetch (processor : Processor) :
    processor.step = .read processor.registers.pc fun opcode =>
      if (Instruction.ofOpcode opcode).isValid then
        (Instruction.ofOpcode opcode).execute processor.registers >>= fun (registers, spent) =>
          { processor with registers }.serve >>= fun (served, handed) =>
            .done (.ok (spent + served), handed.spend (spent + served))
      else
        .report (.halted opcode processor.registers.pc)
          (.done (.error (.invalidOpcode opcode processor.registers.pc), processor)) := rfl

/-- The second half of a step, after the instruction. -/
theorem run_serve {processor handed : Processor} {registers : Registers} {memory middle later : M}
    {spent served : Nat} (executes : processor.Executes memory registers spent middle)
    (handled : { processor with registers }.serve.run middle = .ok ((served, handed), later)) :
    Stepped processor memory (.ok (spent + served)) (handed.spend (spent + served)) later
      (takenIn ({ processor with registers }.serve.trace middle)) := by
  cases chosen : processor.pending.next? registers.p with
  | none =>
      rw [serve_idle chosen] at handled ⊢
      cases handled
      exact .plain executes chosen
  | some interrupt =>
      rw [serve_taken chosen, run] at handled
      obtain ⟨handler, stop, entered, rest⟩ := run_bind_eq_ok_iff.mp handled
      cases rest
      have silent : takenIn ((interrupt.enter registers).trace
          (Memory.report middle (.servicing interrupt registers.pc))) = [] :=
        takenIn_silent (interrupt.enter_silent registers) _
      have order : takenIn ({ processor with registers }.serve.trace middle) = [interrupt] := by
        rw [serve_taken chosen, trace, trace_bind _ _ entered]
        change interrupt :: takenIn (_ ++ _) = _
        rw [takenIn_append, silent]
        rfl
      rw [order]
      exact .taken executes chosen entered

/-- Whatever the memory answers, a step ends in one of these ways. -/
theorem run_step {processor after : Processor} {memory later : M} {result : Except Fault Nat}
    (served : processor.step.run memory = .ok ((result, after), later)) :
    Stepped processor memory result after later (takenIn (processor.step.trace memory)) := by
  rw [step_fetch, run] at served
  rw [step_fetch, trace]
  cases read : Memory.read memory processor.registers.pc with
  | error crash =>
      rw [read] at served
      cases served
  | ok outcome =>
      obtain ⟨opcode, fetched⟩ := outcome
      rw [read] at served
      dsimp only at served ⊢
      by_cases valid : (Instruction.ofOpcode opcode).isValid
      · rw [if_pos valid] at served ⊢
        obtain ⟨⟨registers, spent⟩, middle, executed, rest⟩ := run_bind_eq_ok_iff.mp served
        obtain ⟨⟨extra, handed⟩, last, handled, rest⟩ := run_bind_eq_ok_iff.mp rest
        cases rest
        have silent := takenIn_silent
          ((Instruction.ofOpcode opcode).execute_silent processor.registers) fetched
        rw [trace_bind _ _ executed, trace_bind _ _ handled]
        change Stepped processor memory _ _ _ (takenIn (_ ++ (_ ++ [])))
        rw [takenIn_append, silent, List.nil_append, List.append_nil]
        exact run_serve ⟨opcode, fetched, read, valid, executed⟩ handled
      · rw [if_neg valid] at served ⊢
        cases served
        exact .halted read (Bool.eq_false_iff.mpr valid)

/-- An instruction after which no request may be taken is a step. -/
theorem Executes.step {processor : Processor} {memory middle : M} {registers : Registers}
    {spent : Nat} (executes : processor.Executes memory registers spent middle)
    (idle : processor.pending.next? registers.p = none) :
    processor.step.run memory =
      .ok ((.ok spent, { processor with registers }.spend spent), middle) := by
  obtain ⟨opcode, fetched, read, valid, executed⟩ := executes
  have handled : { processor with registers }.serve.run middle =
      .ok ((0, { processor with registers }), middle) := by
    rw [serve_idle idle]
    rfl
  rw [step_fetch, run, read]
  dsimp only
  rw [if_pos valid]
  exact run_bind_eq_ok_iff.mpr
    ⟨_, _, executed, run_bind_eq_ok_iff.mpr ⟨_, _, handled, rfl⟩⟩

/-- An instruction and the entry into a handler are a step. -/
theorem Executes.step_taken {processor : Processor} {memory middle later : M}
    {registers handler : Registers} {spent : Nat} {interrupt : Interrupt}
    (executes : processor.Executes memory registers spent middle)
    (chosen : processor.pending.next? registers.p = some interrupt)
    (entered : (interrupt.enter registers).run
      (Memory.report middle (.servicing interrupt registers.pc)) = .ok (handler, later)) :
    processor.step.run memory =
      .ok ((.ok (spent + Interrupt.cycles),
        spend ⟨handler, processor.cycles, processor.pending.afterTaking interrupt⟩
          (spent + Interrupt.cycles)), later) := by
  obtain ⟨opcode, fetched, read, valid, executed⟩ := executes
  have handled : { processor with registers }.serve.run middle =
      .ok ((Interrupt.cycles,
        ⟨handler, processor.cycles, processor.pending.afterTaking interrupt⟩), later) := by
    rw [serve_taken chosen, run]
    exact run_bind_eq_ok_iff.mpr ⟨_, _, entered, rfl⟩
  rw [step_fetch, run, read]
  dsimp only
  rw [if_pos valid]
  exact run_bind_eq_ok_iff.mpr
    ⟨_, _, executed, run_bind_eq_ok_iff.mpr ⟨_, _, handled, rfl⟩⟩

end Processor

end EightBit
