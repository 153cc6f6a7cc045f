import EightBit.Bus.Basic
import EightBit.Proofs.Opcode.Handlers
import EightBit.Proofs.Processor.Calls
import EightBit.Proofs.Register.Settled
import EightBit.Proofs.Transaction.Answers
import EightBit.Proofs.Transaction.Written

/-
The break mark. It lives on the stack only: no call ever leaves it in the status register, and what
is pushed carries it exactly if an instruction pushes it, or the entry into the handler of a request
from software. So a processor is the same after a save state was taken from it and restored.
-/

namespace EightBit

open Transaction

namespace Status

/-- The reserved bit is pushed set. -/
theorem pushed_reserved (status : Status) (mark : Bool) :
    (status.pushed mark).toNat.testBit 5 = true :=
  congrArg Status.reserved (unpack_toByte { status with reserved := true, breakMark := mark })

/-- The break mark is pushed as asked for. -/
theorem pushed_breakMark (status : Status) (mark : Bool) :
    (status.pushed mark).toNat.testBit 4 = mark :=
  congrArg Status.breakMark (unpack_toByte { status with reserved := true, breakMark := mark })

/-- A settled status shows the reserved bit set. -/
theorem Settled.toByte_reserved {status : Status} (settled : status.Settled) :
    status.toByte.toNat.testBit 5 = true :=
  (congrArg Status.reserved (unpack_toByte status)).trans settled.reserved

/-- A settled status shows no break mark. -/
theorem Settled.toByte_breakMark {status : Status} (settled : status.Settled) :
    status.toByte.toNat.testBit 4 = false :=
  (congrArg Status.breakMark (unpack_toByte status)).trans settled.breakMark

/-- A byte that is pulled comes back with the reserved bit set and the break mark clear. -/
theorem toByte_pulled (byte : UInt8) :
    (pulled byte).toByte = (byte ||| Flag.reserved.mask) &&& ~~~Flag.breakMark.mask := by
  have every : ∀ index : Fin 256, (pulled (.ofFin index)).toByte =
      (.ofFin index ||| Flag.reserved.mask) &&& ~~~Flag.breakMark.mask := by decide +kernel
  exact every byte.toFin

end Status

namespace Pending

/-- The latch takes four bits. -/
theorem toByte_lt (pending : Pending) : pending.toByte < 16 := by
  obtain ⟨r, n, i, b⟩ := pending
  cases r <;> cases n <;> cases i <;> cases b <;> decide

/-- Of a byte the latch keeps the four low bits. -/
theorem toByte_ofByte (byte : UInt8) : (ofByte byte).toByte = byte &&& 0x0f := by
  have every : ∀ index : Fin 256, (ofByte (.ofFin index)).toByte = .ofFin index &&& 0x0f := by
    decide +kernel
  exact every byte.toFin

end Pending

namespace Interrupt

/-- The bytes that an entry into a handler pushes: the program counter and then the status. -/
def pushes (interrupt : Interrupt) (registers : Registers) : List (Address × UInt8) :=
  if interrupt = .reset then []
  else
    [(registers.s.address, registers.pc.hi), ((registers.s - 1).address, registers.pc.lo),
      ((registers.s - 1 - 1).address, registers.p.pushed interrupt.pushesBreakMark)]

/-- An entry into a handler writes what it pushes, whatever it reads. -/
theorem enter_writes (interrupt : Interrupt) (registers : Registers) :
    (interrupt.enter registers).Writes (interrupt.pushes registers) := by
  cases interrupt with
  | reset => exact fun _ _ => rfl
  | nmi => exact ⟨rfl, rfl, rfl, fun _ _ => rfl⟩
  | irq => exact ⟨rfl, rfl, rfl, fun _ _ => rfl⟩
  | break_ => exact ⟨rfl, rfl, rfl, fun _ _ => rfl⟩

end Interrupt

namespace Instruction

/-- The instruction that pushes the status sets the break mark. -/
theorem execute_php_writes {opcode : UInt8} (php : (ofOpcode opcode).mnemonic = .php)
    (registers : Registers) : ((ofOpcode opcode).execute registers).Writes
      [(registers.s.address, registers.p.pushed true)] := by
  rw [execute_ofOpcode, php]
  exact ⟨rfl, rfl⟩

/-- The program counter goes past the byte after the opcode, too. -/
theorem execute_brk_writes {opcode : UInt8} (brk : (ofOpcode opcode).mnemonic = .brk)
    (registers : Registers) : ((ofOpcode opcode).execute registers).Writes
      (Interrupt.break_.pushes { registers with pc := registers.pc.next.next }) := by
  have entered := Interrupt.break_.enter_writes { registers with pc := registers.pc.next.next }
  have performed : (Operation.interrupt.perform (ofOpcode opcode).mode
      { registers with pc := registers.pc.next }).Writes _ := entered.finish fun _ => rfl
  rw [execute_ofOpcode, brk]
  exact performed.finish fun _ => rfl

end Instruction

namespace Processor

/-- What pushes a status: one of two instructions, or the entry into a handler. -/
inductive Pusher where
  | php
  | brk
  | handler (interrupt : Interrupt)
  deriving DecidableEq

namespace Pusher

/-- The two instructions that push a status. -/
def ofMnemonic? : Mnemonic → Option Pusher
  | .php => some .php
  | .brk => some .brk
  | _ => none

/-- Instructions leave the break mark, and so does the request that is entered as they are. -/
def marks : Pusher → Bool
  | php => true
  | brk => true
  | handler interrupt => interrupt == .break_

/-- An instruction that pushes a status leaves the mark. -/
theorem marks_ofMnemonic? {mnemonic : Mnemonic} {pusher : Pusher}
    (own : ofMnemonic? mnemonic = some pusher) : pusher.marks = true := by
  unfold ofMnemonic? at own
  split at own
  · cases own
    rfl
  · cases own
    rfl
  · cases own

end Pusher

/-- A status on the stack, and what pushed it. -/
structure StatusPush where
  pusher : Pusher
  byte : UInt8
  deriving DecidableEq

/-- The status is pushed last, so it is the last byte that the pusher writes. -/
def lastPush (pusher : Option Pusher) (actions : List Action) : List StatusPush :=
  (pusher.bind fun pusher => (writtenIn actions).getLast?.map fun byte => ⟨pusher, byte.2⟩).toList

/-- The request that is taken here. -/
def taken? (action : Action) : Option Interrupt := action.event?.bind Event.taken?

/-- The first action is the entry into a handler, if there is one. -/
def handlerPushes : List Action → List StatusPush
  | [] => []
  | action :: actions => lastPush ((taken? action).map .handler) actions

/-- A step reads an opcode, executes the instruction, and may then take a request. -/
def pushesIn : List Action → List StatusPush
  | .read _ opcode :: actions =>
      lastPush (Pusher.ofMnemonic? (Instruction.ofOpcode opcode).mnemonic)
          (actions.takeWhile fun action => (taken? action).isNone) ++
        handlerPushes (actions.dropWhile fun action => (taken? action).isNone)
  | _ => []

variable {M : Type} [Memory M]

/-- What is silent takes no request. -/
theorem taken?_silent {α : Type} {act : Transaction α} (silent : act.Silent) (memory : M) :
    ∀ action ∈ act.trace memory, (taken? action).isNone := by
  intro action member
  have quiet := List.filterMap_eq_nil_iff.mp (silent.trace memory) action member
  rw [taken?, quiet]
  rfl

/-- The bytes of the instruction itself. -/
def ownPushes (opcode : UInt8) (registers : Registers) : List StatusPush :=
  (Pusher.ofMnemonic? (Instruction.ofOpcode opcode).mnemonic).toList.map fun pusher =>
    ⟨pusher, registers.p.pushed true⟩

/-- The last byte that an instruction pushes is the status, if it pushes one. -/
theorem lastPush_execute {opcode : UInt8} {registers after : Registers} {memory middle : M}
    {spent : Nat} (executed : ((Instruction.ofOpcode opcode).execute registers).run memory =
      .ok ((after, spent), middle)) :
    lastPush (Pusher.ofMnemonic? (Instruction.ofOpcode opcode).mnemonic)
        (((Instruction.ofOpcode opcode).execute registers).trace memory) =
      ownPushes opcode registers := by
  cases mnemonic : (Instruction.ofOpcode opcode).mnemonic with
  | php =>
      have written := (Instruction.execute_php_writes mnemonic registers).trace executed
      rw [lastPush, ownPushes, mnemonic, written]
      rfl
  | brk =>
      have written := (Instruction.execute_brk_writes mnemonic registers).trace executed
      rw [lastPush, ownPushes, mnemonic, written]
      rfl
  | _ =>
      rw [ownPushes, mnemonic]
      rfl

/-- The bytes of the requests that are taken. A reset pushes nothing. -/
def handlersPush (taken : List Interrupt) (registers : Registers) : List StatusPush :=
  (taken.filter (· != .reset)).map fun interrupt =>
    ⟨.handler interrupt, registers.p.pushed (interrupt == .break_)⟩

/-- What is done after the instruction begins with the report of the request, if one is taken. -/
theorem serve_pushes {processor handed : Processor} {memory later : M} {served : Nat}
    (handled : processor.serve.run memory = .ok ((served, handed), later)) :
    (processor.serve.trace memory).takeWhile (fun action => (taken? action).isNone) = [] ∧
      (processor.serve.trace memory).dropWhile (fun action => (taken? action).isNone) =
        processor.serve.trace memory ∧
      handlerPushes (processor.serve.trace memory) =
        handlersPush (takenIn (processor.serve.trace memory)) processor.registers := by
  cases chosen : processor.pending.next? processor.registers.p with
  | none =>
      rw [serve_idle chosen]
      exact ⟨rfl, rfl, rfl⟩
  | some interrupt =>
      rw [serve_taken chosen, run] at handled
      obtain ⟨handler, stop, entered, rest⟩ := run_bind_eq_ok_iff.mp handled
      cases rest
      have silent := takenIn_silent (interrupt.enter_silent processor.registers)
        (Memory.report memory (.servicing interrupt processor.registers.pc))
      have written := (interrupt.enter_writes processor.registers).trace entered
      rw [serve_taken chosen, trace, trace_bind _ _ entered]
      change _ ∧ _ ∧ lastPush (some (.handler interrupt)) (_ ++ []) =
        handlersPush (interrupt :: takenIn (_ ++ [])) _
      rw [List.append_nil, silent, lastPush, written]
      refine ⟨rfl, rfl, ?_⟩
      cases interrupt with
      | reset => rfl
      | nmi => rfl
      | irq => rfl
      | break_ => rfl

/-- The status pushes of a step: those of the instruction, and those of the handlers. -/
theorem step_pushes {processor after : Processor} {memory later : M} {cycles : Nat}
    (served : processor.step.run memory = .ok ((.ok cycles, after), later)) :
    ∃ opcode fetched registers spent middle,
      Memory.read memory processor.registers.pc = .ok (opcode, fetched) ∧
        ((Instruction.ofOpcode opcode).execute processor.registers).run fetched =
          .ok ((registers, spent), middle) ∧
        pushesIn (processor.step.trace memory) =
          ownPushes opcode processor.registers ++
            handlersPush (takenIn (processor.step.trace memory)) registers := by
  rw [step_fetch, run] at served
  rw [step_fetch, trace]
  cases read : Memory.read memory processor.registers.pc with
  | error crash =>
      rw [read] at served
      cases served
  | ok outcome =>
      obtain ⟨opcode, fetched⟩ := outcome
      rw [read] at served
      dsimp only at served ⊢
      by_cases valid : (Instruction.ofOpcode opcode).isValid
      · rw [if_pos valid] at served ⊢
        obtain ⟨⟨registers, spent⟩, middle, executed, rest⟩ := run_bind_eq_ok_iff.mp served
        obtain ⟨⟨extra, handed⟩, last, handled, rest⟩ := run_bind_eq_ok_iff.mp rest
        cases rest
        have silent := (Instruction.ofOpcode opcode).execute_silent processor.registers
        obtain ⟨first, stays, handlers⟩ := serve_pushes handled
        refine ⟨opcode, fetched, registers, spent, middle, rfl, executed, ?_⟩
        rw [trace_bind _ _ executed, trace_bind _ _ handled]
        -- The instruction is silent, so the first report is that of the request that is taken.
        change pushesIn (.read _ opcode :: (_ ++ (_ ++ []))) =
          _ ++ handlersPush (takenIn (_ ++ (_ ++ []))) _
        rw [List.append_nil, takenIn_append, takenIn_silent silent, List.nil_append,
          pushesIn, List.takeWhile_append_of_pos (taken?_silent silent _), first,
          List.append_nil, List.dropWhile_append_of_pos (taken?_silent silent _), stays,
          lastPush_execute executed, handlers]
      · rw [if_neg valid] at served
        cases served

/-- A step that fails writes nothing. -/
theorem step_failed_writes {processor after : Processor} {memory later : M} {fault : Fault}
    (served : processor.step.run memory = .ok ((.error fault, after), later)) :
    writtenIn (processor.step.trace memory) = [] := by
  rw [step_fetch, run] at served
  rw [step_fetch, trace]
  cases read : Memory.read memory processor.registers.pc with
  | error crash => rfl
  | ok outcome =>
      obtain ⟨opcode, fetched⟩ := outcome
      rw [read] at served
      dsimp only at served ⊢
      by_cases valid : (Instruction.ofOpcode opcode).isValid
      · rw [if_pos valid] at served
        obtain ⟨_, _, _, rest⟩ := run_bind_eq_ok_iff.mp served
        obtain ⟨_, _, _, rest⟩ := run_bind_eq_ok_iff.mp rest
        cases rest
      · rw [if_neg valid]
        rfl

/-- Where nothing is written, no status is pushed. -/
theorem lastPush_eq_nil {pusher : Option Pusher} {actions : List Action}
    (none : writtenIn actions = []) : lastPush pusher actions = [] := by
  rw [lastPush, none]
  cases pusher with
  | none => rfl
  | some pusher => rfl

/-- What is not written is not pushed. -/
theorem pushesIn_eq_nil {actions : List Action} (none : writtenIn actions = []) :
    pushesIn actions = [] := by
  have part : ∀ {some : List Action}, some ⊆ actions → writtenIn some = [] := fun within =>
    List.filterMap_eq_nil_iff.mpr fun action member =>
      List.filterMap_eq_nil_iff.mp none action (within member)
  match actions with
  | [] => rfl
  | .write _ _ :: _ => rfl
  | .report _ :: _ => rfl
  | .read address opcode :: actions =>
      have own := (actions.takeWhile_sublist fun action => (taken? action).isNone).subset
      have rest := (actions.dropWhile_sublist fun action => (taken? action).isNone).subset
      rw [pushesIn, lastPush_eq_nil (part fun _ member => .tail _ (own member)), List.nil_append]
      generalize actions.dropWhile _ = handlers at rest
      cases handlers with
      | nil => rfl
      | cons action handlers =>
          exact lastPush_eq_nil (part fun _ member => .tail _ (rest (.tail _ member)))

/-- Other calls than steps write nothing. -/
theorem answer_writes (processor : Processor) {call : Call} (other : call ≠ .step) :
    (processor.answer call).Writes [] := by
  cases call with
  | step => exact absurd rfl other
  | reset =>
      have entered := Interrupt.reset.enter_writes processor.registers
      have started : processor.reset.Writes [] := entered.finish fun _ => rfl
      exact started.finish fun _ => rfl
  | request interrupt => rfl
  | withdraw interrupt => rfl
  | restore image => rfl

/-- Every call leaves a settled status. -/
theorem answer_settled {processor : Processor} (settled : processor.Settled) (call : Call) :
    (processor.answer call).Ensures fun outcome => outcome.2.Settled := by
  cases call with
  | step => exact (step_settled settled).bind fun _ kept => kept
  | reset => exact (reset_settled settled).bind fun _ kept => kept
  | request interrupt => exact settled
  | withdraw interrupt => exact settled
  | restore image => exact settled_ofImage image

/-- The status that is pushed in a call. Only a step pushes any. -/
def Moment.statusPushes (moment : Moment M) : List StatusPush :=
  match moment.call with
  | .step => pushesIn (moment.before.step.trace moment.memory)
  | _ => []

/-- How the break mark goes on the stack in a call. -/
structure Moment.Marked (moment : Moment M) : Prop where
  /-- The reserved bit is set in what is pushed; the break mark tells who pushed it. -/
  marked : ∀ push ∈ moment.statusPushes,
    push.byte.toNat.testBit 5 = true ∧ push.byte.toNat.testBit 4 = push.pusher.marks
  /-- The instruction may push the status that it finds, and then the handler the one that the
  instruction left. -/
  succeeded : ∀ cycles, moment.reply = .stepped (.ok cycles) →
    ∃ opcode fetched registers spent middle,
      Memory.read moment.memory moment.before.registers.pc = .ok (opcode, fetched) ∧
        ((Instruction.ofOpcode opcode).execute moment.before.registers).run fetched =
          .ok ((registers, spent), middle) ∧
        moment.statusPushes =
          ownPushes opcode moment.before.registers ++ handlersPush moment.taken registers
  /-- Nothing is written but by a step that succeeds. -/
  otherwise : (∀ cycles, moment.reply ≠ .stepped (.ok cycles)) →
    writtenIn ((moment.before.answer moment.call).trace moment.memory) = []

/-- What an instruction pushes has both bits set. -/
theorem marked_ownPushes {opcode : UInt8} {registers : Registers} :
    ∀ push ∈ ownPushes opcode registers,
      push.byte.toNat.testBit 5 = true ∧ push.byte.toNat.testBit 4 = push.pusher.marks := by
  intro push member
  obtain ⟨pusher, own, rfl⟩ := List.mem_map.mp member
  have marks := Pusher.marks_ofMnemonic? (Option.mem_toList.mp own)
  exact ⟨Status.pushed_reserved .., (Status.pushed_breakMark ..).trans marks.symm⟩

/-- What an entry pushes has the mark only for requests from software. -/
theorem marked_handlersPush {taken : List Interrupt} {registers : Registers} :
    ∀ push ∈ handlersPush taken registers,
      push.byte.toNat.testBit 5 = true ∧ push.byte.toNat.testBit 4 = push.pusher.marks := by
  intro push member
  obtain ⟨interrupt, _, rfl⟩ := List.mem_map.mp member
  exact ⟨Status.pushed_reserved .., Status.pushed_breakMark ..⟩

namespace Moment.Genuine

variable {moment : Moment M}

/-- A step that succeeds pushes what its instruction and its request push. -/
theorem pushes_succeeded (genuine : moment.Genuine) {cycles : Nat}
    (replied : moment.reply = .stepped (.ok cycles)) :
    ∃ opcode fetched registers spent middle,
      Memory.read moment.memory moment.before.registers.pc = .ok (opcode, fetched) ∧
        ((Instruction.ofOpcode opcode).execute moment.before.registers).run fetched =
          .ok ((registers, spent), middle) ∧
        moment.statusPushes =
          ownPushes opcode moment.before.registers ++ handlersPush moment.taken registers := by
  have call := genuine.call_step replied
  obtain ⟨result, same, served⟩ := genuine.run_step call
  cases replied.symm.trans same
  obtain ⟨opcode, fetched, registers, spent, middle, read, executed, pushes⟩ := step_pushes served
  refine ⟨opcode, fetched, registers, spent, middle, read, executed, ?_⟩
  rw [statusPushes, Moment.taken, call, trace_answer_step served]
  exact pushes

/-- Where no step succeeds, nothing is written. -/
theorem unwritten (genuine : moment.Genuine)
    (failed : ∀ cycles, moment.reply ≠ .stepped (.ok cycles)) :
    writtenIn ((moment.before.answer moment.call).trace moment.memory) = [] := by
  by_cases call : moment.call = .step
  · obtain ⟨result, replied, served⟩ := genuine.run_step call
    cases result with
    | error fault =>
        rw [call, trace_answer_step served]
        exact step_failed_writes served
    | ok cycles => exact absurd replied (failed cycles)
  · exact (answer_writes moment.before call).trace genuine

/-- Where no step succeeds, no status is pushed. -/
theorem pushes_failed (genuine : moment.Genuine)
    (failed : ∀ cycles, moment.reply ≠ .stepped (.ok cycles)) : moment.statusPushes = [] := by
  have none := genuine.unwritten failed
  rw [statusPushes]
  split
  · rename_i call
    obtain ⟨result, _, served⟩ := genuine.run_step call
    rw [call, trace_answer_step served] at none
    exact pushesIn_eq_nil none
  · rfl

/-- What is pushed in a call carries the mark exactly if its pusher leaves it. -/
theorem marked (genuine : moment.Genuine) : moment.Marked where
  marked push member := by
    by_cases succeeded : ∃ cycles, moment.reply = .stepped (.ok cycles)
    · obtain ⟨cycles, replied⟩ := succeeded
      obtain ⟨_, _, _, _, _, _, _, pushes⟩ := genuine.pushes_succeeded replied
      rw [pushes] at member
      rcases List.mem_append.mp member with own | handlers
      · exact marked_ownPushes push own
      · exact marked_handlersPush push handlers
    · have failed : ∀ cycles, moment.reply ≠ .stepped (.ok cycles) := fun cycles replied =>
        succeeded ⟨cycles, replied⟩
      rw [genuine.pushes_failed failed] at member
      cases member
  succeeded _ replied := genuine.pushes_succeeded replied
  otherwise := genuine.unwritten

end Moment.Genuine

/-- The processors that calls lead to, whatever memory is there for each of them. -/
inductive Reached : Processor → Prop
  | initial : Reached .initial
  | answered {M : Type} [Memory M] {moment : Moment M} (reached : Reached moment.before)
      (genuine : moment.Genuine) : Reached moment.after

/-- Every processor that calls lead to is settled. -/
theorem Reached.settled {processor : Processor} (reached : Reached processor) :
    processor.Settled := by
  induction reached with
  | initial => exact settled_initial
  | answered _ genuine ih => exact (answer_settled ih _).run genuine

/-- Every call of a history finds a processor that calls lead to. -/
theorem Reached.history {processor : Processor} (reached : Reached processor) {M : Type} [Memory M]
    {memory : M} {calls : List Call} {moment : Moment M}
    (member : moment ∈ processor.history memory calls) : Reached moment.before := by
  induction calls generalizing processor memory with
  | nil => cases member
  | cons call calls ih =>
      rw [Processor.history] at member
      split at member
      · cases member
      · rename_i reply after later answered
        rcases List.mem_cons.mp member with rfl | rest
        · exact reached
        · have genuine : Moment.Genuine ⟨call, processor, memory, reply, after, later⟩ := answered
          exact ih (.answered reached genuine) rest

/-- Where the break mark may be. -/
structure KeepsBreakMark (processor : Processor) : Prop where
  reserved : processor.image.p.toNat.testBit 5 = true
  breakMark : processor.image.p.toNat.testBit 4 = false
  latch : processor.image.pending < 16
  /-- A save state brings back the processor that it was taken from. -/
  restored : ofImage processor.image = processor
  /-- Any other save state comes back with these bits put right. -/
  normalized : ∀ image : ProcessorImage, (ofImage image).image =
    { image with
      p := (image.p ||| Flag.reserved.mask) &&& ~~~Flag.breakMark.mask
      pending := image.pending &&& 0x0f }
  calls : ∀ {M : Type} [Memory M] (moment : Moment M),
    moment.before = processor → moment.Genuine → moment.Marked

/-- A save state comes back with its status and its latch put right. -/
theorem image_ofImage (image : ProcessorImage) : (ofImage image).image =
    { image with
      p := (image.p ||| Flag.reserved.mask) &&& ~~~Flag.breakMark.mask
      pending := image.pending &&& 0x0f } := by
  rw [Processor.image, ofImage]
  dsimp only
  rw [Status.toByte_pulled, Pending.toByte_ofByte]

/-- The break mark lives on the stack only. -/
theorem break_mark_stays_on_stack {processor : Processor} (reached : Reached processor) :
    processor.KeepsBreakMark where
  reserved := reached.settled.toByte_reserved
  breakMark := reached.settled.toByte_breakMark
  latch := processor.pending.toByte_lt
  restored := ofImage_image reached.settled
  normalized := image_ofImage
  calls _ _ genuine := genuine.marked

/-- A save state with every bit of the status and of the latch set. -/
def overfull : ProcessorImage := ⟨0, 0, 0, 0, 0, 0xff, 0, 0xff⟩

/-- A reset is among the requests of the save state, so the first step drops them all. -/
def pushing : List (Moment Ticker) :=
  history .initial (Ticker.mk 0x08)
    [.restore overfull, .step, .request .break_, .step, .request .nmi, .step]

/-- The instruction pushes the mark, and so does the request from software, but not the one from
hardware. -/
theorem overfull_break_mark : Reached (ofImage overfull) ∧
    (ofImage overfull).image = { overfull with p := 0xef, pending := 0x0f } ∧
      (ofImage overfull).KeepsBreakMark ∧
      (∀ moment ∈ pushing, Reached moment.before ∧ moment.Genuine ∧ moment.Marked) ∧
      pushing.map Moment.statusPushes =
        [[], [⟨.php, 0xff⟩], [], [⟨.handler .break_, 0x36⟩], [], [⟨.handler .nmi, 0x24⟩]] := by
  let restored : Moment (Bus Unpopulated) :=
    ⟨.restore overfull, .initial, .empty, .done, ofImage overfull, .empty⟩
  have genuine : restored.Genuine := rfl
  have reached : Reached restored.after := .answered .initial genuine
  refine ⟨reached, by decide, break_mark_stays_on_stack reached, fun moment member => ?_,
    by decide +kernel⟩
  have found := Reached.initial.history member
  have answered := genuine_of_history member
  exact ⟨found, answered, (break_mark_stays_on_stack found).calls moment rfl answered⟩

end Processor

end EightBit
