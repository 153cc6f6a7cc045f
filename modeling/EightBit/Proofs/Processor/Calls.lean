import EightBit.Proofs.Processor.Step

/-
Calls on a processor, one after the other, over any memory. The history of the calls records what
each one finds and what it leaves; a crash ends it.
-/

namespace EightBit.Processor

open Transaction

/-- What is called on a processor from outside. -/
inductive Call where
  | step
  | reset
  | request (interrupt : Interrupt)
  | withdraw (interrupt : Interrupt)
  | restore (image : ProcessorImage)
  deriving DecidableEq

/-- What a call returns. -/
inductive Reply where
  | stepped (result : Except Fault Nat)
  | reset (cycles : Nat)
  | done

/-- A call as a transaction that ends with a reply. -/
def answer (processor : Processor) : Call → Transaction (Reply × Processor)
  | .step => do
      let (result, after) ← processor.step
      return (.stepped result, after)
  | .reset => do
      let (cycles, after) ← processor.reset
      return (.reset cycles, after)
  | .request interrupt => do
      Transaction.note (.requested interrupt processor.registers.pc)
      return (.done, processor.request interrupt)
  | .withdraw interrupt => return (.done, processor.withdraw interrupt)
  | .restore image => return (.done, .ofImage image)

/-- A call that was answered: the processor and the memory it found, and what it left. -/
structure Moment (M : Type) where
  call : Call
  before : Processor
  memory : M
  reply : Reply
  after : Processor
  later : M

variable {M : Type} [Memory M]

/-- The calls are made one after the other, up to a crash. -/
def history (processor : Processor) (memory : M) : List Call → List (Moment M)
  | [] => []
  | call :: calls =>
      match (processor.answer call).run memory with
      | .error _ => []
      | .ok ((reply, after), later) =>
          ⟨call, processor, memory, reply, after, later⟩ :: history after later calls

namespace Moment

/-- The requests that the call takes from the latch. -/
def taken (moment : Moment M) : List Interrupt :=
  takenIn ((moment.before.answer moment.call).trace moment.memory)

/-- The moment is an answer of the processor. -/
def Genuine (moment : Moment M) : Prop :=
  (moment.before.answer moment.call).run moment.memory =
    .ok ((moment.reply, moment.after), moment.later)

end Moment

/-- Every moment of a history is an answer of its processor. -/
theorem genuine_of_history {processor : Processor} {memory : M} {calls : List Call}
    {moment : Moment M} (member : moment ∈ history processor memory calls) : moment.Genuine := by
  induction calls generalizing processor memory with
  | nil => cases member
  | cons call calls ih =>
      rw [history] at member
      split at member
      · cases member
      · rename_i reply after later answered
        rcases List.mem_cons.mp member with rfl | rest
        · exact answered
        · exact ih rest

/-- A call of a step does what the step does. -/
theorem trace_answer_step {processor : Processor} {memory later : M}
    {outcome : Except Fault Nat × Processor}
    (served : processor.step.run memory = .ok (outcome, later)) :
    (processor.answer .step).trace memory = processor.step.trace memory :=
  (trace_bind _ _ served).trans (List.append_nil _)

/-- Only a step replies with the result of one. -/
theorem Moment.Genuine.call_step {moment : Moment M} (genuine : moment.Genuine)
    {result : Except Fault Nat} (replied : moment.reply = .stepped result) :
    moment.call = .step := by
  obtain ⟨call, before, memory, reply, after, later⟩ := moment
  cases replied
  cases call with
  | step => rfl
  | reset =>
      obtain ⟨outcome, last, served, rest⟩ := run_bind_eq_ok_iff.mp genuine
      cases rest
  | request interrupt => cases genuine
  | withdraw interrupt => cases genuine
  | restore image => cases genuine

/-- A step that was called has run, and its result is the reply. -/
theorem Moment.Genuine.run_step {moment : Moment M} (genuine : moment.Genuine)
    (call : moment.call = .step) :
    ∃ result, moment.reply = .stepped result ∧
      moment.before.step.run moment.memory = .ok ((result, moment.after), moment.later) := by
  obtain ⟨_, before, memory, reply, after, later⟩ := moment
  cases call
  obtain ⟨⟨result, handed⟩, last, served, rest⟩ := run_bind_eq_ok_iff.mp genuine
  cases rest
  exact ⟨result, rfl, served⟩

/-- A step replies with its result. -/
theorem Moment.Genuine.reply_step {moment : Moment M} (genuine : moment.Genuine)
    (call : moment.call = .step) : ∃ result, moment.reply = .stepped result := by
  obtain ⟨result, replied, _⟩ := genuine.run_step call
  exact ⟨result, replied⟩

/-- A step is answered in one of the ways in which a step ends. -/
theorem Moment.Genuine.stepped {moment : Moment M} (genuine : moment.Genuine)
    {result : Except Fault Nat} (replied : moment.reply = .stepped result) :
    Stepped moment.before moment.memory result moment.after moment.later moment.taken := by
  have call := genuine.call_step replied
  obtain ⟨reached, same, served⟩ := genuine.run_step call
  cases replied.symm.trans same
  rw [Moment.taken, call, trace_answer_step served]
  exact Processor.run_step served

/-- A request changes the latch by itself. -/
theorem Moment.Genuine.after_request {moment : Moment M} (genuine : moment.Genuine)
    {interrupt : Interrupt} (call : moment.call = .request interrupt) :
    moment.after = moment.before.request interrupt := by
  obtain ⟨_, before, memory, reply, after, later⟩ := moment
  cases call
  have answered : Except.ok ((Reply.done, before.request interrupt),
      Memory.report memory (.requested interrupt before.registers.pc)) =
    .ok ((reply, after), later) := genuine
  cases answered
  rfl

/-- Withdrawing a request changes the latch by itself. -/
theorem Moment.Genuine.after_withdraw {moment : Moment M} (genuine : moment.Genuine)
    {interrupt : Interrupt} (call : moment.call = .withdraw interrupt) :
    moment.after = moment.before.withdraw interrupt := by
  obtain ⟨_, before, memory, reply, after, later⟩ := moment
  cases call
  have answered : Except.ok ((Reply.done, before.withdraw interrupt), memory) =
    .ok ((reply, after), later) := genuine
  cases answered
  rfl

/-- A restore leaves the processor of its image, whatever was there. -/
theorem Moment.Genuine.after_restore {moment : Moment M} (genuine : moment.Genuine)
    {image : ProcessorImage} (call : moment.call = .restore image) :
    moment.after = .ofImage image := by
  obtain ⟨_, before, memory, reply, after, later⟩ := moment
  cases call
  have answered : Except.ok ((Reply.done, ofImage image), memory) =
    .ok ((reply, after), later) := genuine
  cases answered
  rfl

/-- No request survives a reset. -/
theorem Moment.Genuine.pending_reset {moment : Moment M} (genuine : moment.Genuine)
    (call : moment.call = .reset) : moment.after.pending = .none := by
  obtain ⟨_, before, memory, reply, after, later⟩ := moment
  cases call
  obtain ⟨⟨cycles, handed⟩, last, served, rest⟩ := run_bind_eq_ok_iff.mp genuine
  cases rest
  change before.reset.run memory = _ at served
  obtain ⟨registers, middle, _, noted⟩ := run_bind_eq_ok_iff.mp served
  cases noted
  rfl

/-- Only a step takes a request. -/
theorem Moment.Genuine.taken_other {moment : Moment M} (genuine : moment.Genuine)
    (other : moment.call ≠ .step) : moment.taken = [] := by
  obtain ⟨call, before, memory, reply, after, later⟩ := moment
  cases call with
  | step => exact absurd rfl other
  | reset =>
      obtain ⟨⟨cycles, handed⟩, last, served, rest⟩ := run_bind_eq_ok_iff.mp genuine
      obtain ⟨registers, middle, entered, _⟩ := run_bind_eq_ok_iff.mp served
      have silent := takenIn_silent (Interrupt.reset.enter_silent before.registers) memory
      change takenIn (Transaction.trace (before.reset >>= _) memory) = []
      rw [trace_bind _ _ served, takenIn_append]
      change takenIn (Transaction.trace (Interrupt.reset.enter before.registers >>= _) memory) ++
        [] = []
      rw [trace_bind _ _ entered, takenIn_append, silent]
      rfl
  | request interrupt => rfl
  | withdraw interrupt => rfl
  | restore image => rfl

end EightBit.Processor
