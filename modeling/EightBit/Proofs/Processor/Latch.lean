import EightBit.Proofs.Processor.Calls
import EightBit.Proofs.Transaction.Answers

/-
The latch of requests. A request waits until a step takes it, until it is withdrawn, or until all
requests are dropped; a step takes the most urgent request that the status allows, and no other.
-/

namespace EightBit

namespace Pending

/-- A waiting request may be taken unless it is masked. -/
def mayTake (pending : Pending) (status : Status) (interrupt : Interrupt) : Bool :=
  pending.contains interrupt && !(interrupt == .irq && status.interruptDisable)

/-- The request that is taken is the first in order of urgency that may be taken. -/
theorem next?_eq_find? (pending : Pending) (status : Status) :
    pending.next? status =
      [Interrupt.reset, .nmi, .break_, .irq].find? (pending.mayTake status) := by
  have same : pending.mayTake status = fun interrupt =>
      pending.contains interrupt && !(status.interruptDisable && interrupt.isMaskable) := by
    funext interrupt
    rw [mayTake, Interrupt.isMaskable, Bool.and_comm (interrupt == .irq)]
  rw [same, next?, toList, List.find?_filter]
  simp only [Interrupt.priority, Bool.decide_and, Bool.decide_eq_true]

/-- Only a request that waits is taken. -/
theorem contains_of_next? {pending : Pending} {status : Status} {interrupt : Interrupt}
    (chosen : pending.next? status = some interrupt) : pending.mayTake status interrupt := by
  rw [next?_eq_find?] at chosen
  exact List.find?_some chosen

@[simp] theorem contains_none (kind : Interrupt) : none.contains kind = false := by
  cases kind <;> rfl

/-- A request waits after it was raised, and so do those that waited before. -/
@[simp] theorem contains_raise (pending : Pending) (interrupt kind : Interrupt) :
    (pending.raise interrupt).contains kind = (pending.contains kind || kind == interrupt) := by
  cases interrupt <;> cases kind <;> simp [raise, put, contains]

/-- A request no longer waits after it was cleared, and the others still do. -/
@[simp] theorem contains_clear (pending : Pending) (interrupt kind : Interrupt) :
    (pending.clear interrupt).contains kind = (pending.contains kind && kind != interrupt) := by
  cases interrupt <;> cases kind <;> simp [clear, put, contains]

/-- What was taken no longer waits, and after a reset nothing does. -/
theorem contains_afterTaking (pending : Pending) (interrupt kind : Interrupt) :
    (pending.afterTaking interrupt).contains kind =
      (pending.contains kind && kind != interrupt && interrupt != .reset) := by
  by_cases reset : interrupt = .reset
  · simp [afterTaking, reset]
  · simp [afterTaking, reset]

end Pending

namespace Processor

variable {M : Type} [Memory M]

/-- An instruction leaves one outcome. -/
theorem Executes.unique {processor : Processor} {memory middle later : M}
    {registers others : Registers} {spent cost : Nat}
    (first : processor.Executes memory registers spent middle)
    (second : processor.Executes memory others cost later) :
    registers = others ∧ spent = cost ∧ middle = later := by
  obtain ⟨opcode, fetched, read, _, executed⟩ := first
  obtain ⟨again, refetched, reread, _, repeated⟩ := second
  cases read.symm.trans reread
  cases executed.symm.trans repeated
  exact ⟨rfl, rfl, rfl⟩

/-- After the instruction the first request that may be taken is entered, once, in seven cycles; if
there is none, the latch stays as it is. -/
def Serves (before : Processor) (registers : Registers) (middle : M) (taken : List Interrupt)
    (extra : Nat) (after : Processor) (later : M) : Prop :=
  match [Interrupt.reset, .nmi, .break_, .irq].find? (before.pending.mayTake registers.p) with
  | some interrupt =>
      taken = [interrupt] ∧ extra = 7 ∧
        (interrupt.enter registers).run
          (Memory.report middle (.servicing interrupt registers.pc)) =
            .ok (after.registers, later) ∧
        after.pending = if interrupt = .reset then .none else before.pending.clear interrupt
  | none =>
      taken = [] ∧ extra = 0 ∧ after.registers = registers ∧ later = middle ∧
        after.pending = before.pending

namespace Moment

/-- What a call may do to the latch. -/
structure Lawful (moment : Moment M) : Prop where
  /-- A request leaves the latch when it is taken or withdrawn, or when all of them are dropped. -/
  leaves : ∀ kind, moment.before.pending.contains kind = true →
    moment.after.pending.contains kind = false →
      kind ∈ moment.taken ∨ moment.call = .withdraw kind ∨ moment.call = .reset ∨
        (∃ image, moment.call = .restore image) ∨ Interrupt.reset ∈ moment.taken
  /-- A request waits beside those that waited before. -/
  requested : ∀ interrupt, moment.call = .request interrupt → ∀ kind,
    moment.after.pending.contains kind =
      (moment.before.pending.contains kind || kind == interrupt)
  /-- The others go on waiting. -/
  withdrawn : ∀ interrupt, moment.call = .withdraw interrupt → ∀ kind,
    moment.after.pending.contains kind =
      (moment.before.pending.contains kind && kind != interrupt)
  dropped : moment.call = .reset → moment.after.pending = .none
  /-- Afterwards the requests of the image wait, whatever waited before. -/
  restored : ∀ image, moment.call = .restore image →
    moment.after.pending = .ofByte image.pending
  /-- What is taken was waiting, and waits no longer. -/
  once : ∀ kind ∈ moment.taken, moment.before.pending.contains kind = true ∧
    moment.after.pending.contains kind = false
  /-- Only a step takes a request. -/
  other : moment.call ≠ .step → moment.taken = []
  succeeded : ∀ cycles, moment.reply = .stepped (.ok cycles) →
    ∃ registers spent middle extra, moment.before.Executes moment.memory registers spent middle ∧
      Serves moment.before registers middle moment.taken extra moment.after moment.later ∧
        cycles = spent + extra ∧ moment.after.cycles = moment.before.cycles + UInt64.ofNat cycles
  failed : ∀ fault, moment.reply = .stepped (.error fault) →
    moment.taken = [] ∧ moment.after = moment.before
  /-- The next step that succeeds takes a non-maskable request, unless a reset goes first. -/
  nmi : ∀ cycles, moment.reply = .stepped (.ok cycles) →
    moment.before.pending.contains .nmi = true → moment.before.pending.contains .reset = false →
      moment.taken = [.nmi]
  /-- No step whose instruction leaves maskable requests disabled takes one. -/
  masked : ∀ registers spent middle, moment.before.Executes moment.memory registers spent middle →
    registers.p.interruptDisable = true → Interrupt.irq ∉ moment.taken

end Moment

namespace Stepped

variable {before after : Processor} {memory later : M} {result : Except Fault Nat}
  {taken : List Interrupt}

/-- In a step a request leaves the latch only when it is taken, or dropped by a reset. -/
theorem leaves (stepped : Stepped before memory result after later taken) {kind : Interrupt}
    (waits : before.pending.contains kind = true) (gone : after.pending.contains kind = false) :
    kind ∈ taken ∨ Interrupt.reset ∈ taken := by
  cases stepped with
  | halted read invalid => simp [waits] at gone
  | plain executes idle => simp [spend, waits] at gone
  | @taken registers handler spent middle _ interrupt executes chosen entered =>
      rw [spend, Pending.contains_afterTaking, waits] at gone
      by_cases same : kind = interrupt
      · exact .inl (List.mem_singleton.mpr same)
      · have reset : interrupt = .reset := by simpa [same] using gone
        exact .inr (List.mem_singleton.mpr reset.symm)

/-- What a step takes was waiting before, and waits no longer. -/
theorem once (stepped : Stepped before memory result after later taken) {kind : Interrupt}
    (member : kind ∈ taken) :
    before.pending.contains kind = true ∧ after.pending.contains kind = false := by
  cases stepped with
  | halted read invalid => cases member
  | plain executes idle => cases member
  | @taken registers handler spent middle _ interrupt executes chosen entered =>
      cases List.mem_singleton.mp member
      have may := Pending.contains_of_next? chosen
      rw [Pending.mayTake, Bool.and_eq_true] at may
      refine ⟨may.1, ?_⟩
      rw [spend, Pending.contains_afterTaking]
      simp

/-- A step that fails takes nothing and changes nothing. -/
theorem failed {fault : Fault} (stepped : Stepped before memory (.error fault) after later taken) :
    taken = [] ∧ after = before := by
  cases stepped
  exact ⟨rfl, rfl⟩

/-- A step that succeeds executes an instruction and then serves the latch. -/
theorem succeeded {cycles : Nat} (stepped : Stepped before memory (.ok cycles) after later taken) :
    ∃ registers spent middle extra, before.Executes memory registers spent middle ∧
      Serves before registers middle taken extra after later ∧
        cycles = spent + extra ∧ after.cycles = before.cycles + UInt64.ofNat cycles := by
  cases stepped with
  | @plain registers spent middle executes idle =>
      refine ⟨registers, cycles, later, 0, executes, ?_, rfl, rfl⟩
      rw [Pending.next?_eq_find?] at idle
      rw [Serves, idle]
      exact ⟨rfl, rfl, rfl, rfl, rfl⟩
  | @taken registers handler spent middle _ interrupt executes chosen entered =>
      refine ⟨registers, spent, middle, 7, executes, ?_, rfl, rfl⟩
      rw [Pending.next?_eq_find?] at chosen
      rw [Serves, chosen]
      exact ⟨rfl, rfl, entered, rfl⟩

/-- A step that succeeds takes a waiting request that cannot be masked, unless a reset goes first.
-/
theorem nmi {cycles : Nat} (stepped : Stepped before memory (.ok cycles) after later taken)
    (waits : before.pending.contains .nmi = true)
    (free : before.pending.contains .reset = false) : taken = [.nmi] := by
  obtain ⟨registers, spent, middle, extra, executes, serves, _⟩ := stepped.succeeded
  have reset : ¬before.pending.mayTake registers.p .reset := by simp [Pending.mayTake, free]
  have chosen : before.pending.mayTake registers.p .nmi := by simp [Pending.mayTake, waits]
  rw [Serves, List.find?_cons_of_neg reset, List.find?_cons_of_pos chosen] at serves
  exact serves.1

/-- Behind an instruction that leaves maskable requests disabled none is taken. -/
theorem masked (stepped : Stepped before memory result after later taken) {registers : Registers}
    {spent : Nat} {middle : M} (executes : before.Executes memory registers spent middle)
    (disabled : registers.p.interruptDisable = true) : Interrupt.irq ∉ taken := by
  cases stepped with
  | halted read invalid => exact List.not_mem_nil
  | plain others idle => exact List.not_mem_nil
  | @taken others handler cost last _ interrupt again chosen entered =>
      obtain ⟨rfl, _, _⟩ := executes.unique again
      have may := Pending.contains_of_next? chosen
      intro member
      cases List.mem_singleton.mp member
      simp [Pending.mayTake, disabled] at may

end Stepped

namespace Moment

variable {moment : Moment M}

/-- Nothing but a step takes requests, and what the other calls drop is what they say. -/
theorem Genuine.leaves (genuine : moment.Genuine) {kind : Interrupt}
    (waits : moment.before.pending.contains kind = true)
    (gone : moment.after.pending.contains kind = false) :
    kind ∈ moment.taken ∨ moment.call = .withdraw kind ∨ moment.call = .reset ∨
      (∃ image, moment.call = .restore image) ∨ Interrupt.reset ∈ moment.taken := by
  cases call : moment.call with
  | step =>
      obtain ⟨result, replied⟩ := genuine.reply_step call
      rcases (genuine.stepped replied).leaves waits gone with taken | dropped
      · exact .inl taken
      · exact .inr (.inr (.inr (.inr dropped)))
  | reset => exact .inr (.inr (.inl rfl))
  | request interrupt =>
      rw [genuine.after_request call, Processor.request, Pending.contains_raise, waits] at gone
      cases gone
  | withdraw interrupt =>
      rw [genuine.after_withdraw call, Processor.withdraw, Pending.contains_clear, waits] at gone
      have same : kind = interrupt := by simpa using gone
      exact .inr (.inl (congrArg Call.withdraw same.symm))
  | restore image => exact .inr (.inr (.inr (.inl ⟨image, rfl⟩)))

/-- Every call does to the latch what it may do. -/
theorem Genuine.lawful (genuine : moment.Genuine) : moment.Lawful where
  leaves kind waits gone := genuine.leaves waits gone
  requested interrupt call kind := by
    rw [genuine.after_request call, Processor.request, Pending.contains_raise]
  withdrawn interrupt call kind := by
    rw [genuine.after_withdraw call, Processor.withdraw, Pending.contains_clear]
  dropped := genuine.pending_reset
  restored image call := by rw [genuine.after_restore call, ofImage]
  once kind member := by
    by_cases call : moment.call = .step
    · obtain ⟨result, replied⟩ := genuine.reply_step call
      exact (genuine.stepped replied).once member
    · rw [genuine.taken_other call] at member
      cases member
  other := genuine.taken_other
  succeeded cycles replied := (genuine.stepped replied).succeeded
  failed fault replied := (genuine.stepped replied).failed
  nmi cycles replied waits free := (genuine.stepped replied).nmi waits free
  masked registers spent middle executes disabled := by
    by_cases call : moment.call = .step
    · obtain ⟨result, replied⟩ := genuine.reply_step call
      exact (genuine.stepped replied).masked executes disabled
    · rw [genuine.taken_other call]
      exact List.not_mem_nil

/-- The call makes a request wait that did not wait before. -/
def raises (moment : Moment M) (kind : Interrupt) : Bool :=
  !moment.before.pending.contains kind && moment.after.pending.contains kind

/-- What is taken and what waits afterwards was raised now or waited before. -/
theorem Lawful.balance (lawful : moment.Lawful) (kind : Interrupt) :
    (decide (kind ∈ moment.taken)).toNat + (moment.after.pending.contains kind).toNat ≤
      (moment.raises kind).toNat + (moment.before.pending.contains kind).toNat := by
  by_cases member : kind ∈ moment.taken
  · obtain ⟨waits, gone⟩ := lawful.once kind member
    simp [member, waits, gone, raises]
  · simp only [member, raises, decide_false]
    cases moment.before.pending.contains kind <;> cases moment.after.pending.contains kind <;>
      decide

end Moment

/-- No kind is taken more often than it was raised, the requests that wait at first counted in. -/
theorem taken_le_raised (processor : Processor) (memory : M) (calls : List Call)
    (kind : Interrupt) :
    (history processor memory calls).countP (fun moment => kind ∈ moment.taken) ≤
      (history processor memory calls).countP (fun moment => moment.raises kind) +
        (processor.pending.contains kind).toNat := by
  induction calls generalizing processor memory with
  | nil => exact Nat.zero_le _
  | cons call calls ih =>
      rw [history]
      split
      · exact Nat.zero_le _
      · rename_i reply after later answered
        have genuine : Moment.Genuine ⟨call, processor, memory, reply, after, later⟩ := answered
        have balance := genuine.lawful.balance kind
        change _ + (after.pending.contains kind).toNat ≤
          _ + (processor.pending.contains kind).toNat at balance
        have rest := ih after later
        have count : ∀ on : Bool, (if on = true then 1 else 0) = on.toNat := by decide
        rw [List.countP_cons, List.countP_cons, count, count]
        omega

/-- Requests are neither lost, nor served twice, nor served out of order: every call does to the
latch what it may do, and no kind is taken more often than it starts to wait. -/
theorem history_serves_requests_once (processor : Processor) (memory : M) (calls : List Call) :
    (∀ moment ∈ history processor memory calls, moment.Lawful) ∧
      ∀ kind, (history processor memory calls).countP (fun moment => kind ∈ moment.taken) ≤
        (history processor memory calls).countP (fun moment => moment.raises kind) +
          (processor.pending.contains kind).toNat :=
  ⟨fun _ member => (genuine_of_history member).lawful, taken_le_raised processor memory calls⟩

/-- A request is made twice, and one that is masked in between. Then come an instruction without an
effect and a subtraction. -/
def urgent : List (Moment Ticker) :=
  history .initial (Ticker.mk 0xea) [.request .nmi, .request .irq, .request .nmi, .step, .step]

/-- The first step enters the request once, the second step enters nothing, and the masked request
goes on waiting. -/
theorem requested_twice_entered_once :
    (∀ moment ∈ urgent, moment.Lawful) ∧
    urgent.map (fun moment => (moment.call, moment.taken)) =
      [(.request .nmi, []), (.request .irq, []), (.request .nmi, []), (.step, [.nmi]),
        (.step, [])] ∧
    urgent.countP (fun moment => .nmi ∈ moment.taken) = 1 ∧
    urgent.countP (fun moment => moment.raises .nmi) = 1 ∧
    urgent.getLast?.map (fun moment => moment.after.pending) =
      some { Pending.none with irq := true } := by
  obtain ⟨lawful, _⟩ := history_serves_requests_once .initial (Ticker.mk 0xea)
    [.request .nmi, .request .irq, .request .nmi, .step, .step]
  exact ⟨lawful, by decide +kernel, by decide +kernel, by decide +kernel, by decide +kernel⟩

end Processor

end EightBit
