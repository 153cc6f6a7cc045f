import EightBit.Proofs.Bus.Layers
import EightBit.Proofs.Bus.Stack
import EightBit.Proofs.Processor.Latch
import EightBit.Proofs.Register.Settled

/-
The way into a handler and back. An entry saves the program counter and the status on the stack, and
the return takes both from there; the break mark, which only the saved byte carries, is lost again.
So a handler that does nothing but return leaves the processor as it was interrupted.
-/

namespace EightBit

open Transaction

/-- What is pushed comes back as it was, with or without the break mark. -/
theorem Status.pulled_pushed {status : Status} (settled : status.Settled) (mark : Bool) :
    pulled (status.pushed mark) = status := by
  obtain ⟨n, v, u, b, d, i, z, c⟩ := status
  obtain ⟨rfl, rfl⟩ := settled
  rw [pulled, ofByte, pushed, unpack_toByte]

/-- The entry into a handler pushes three bytes, and then reads the vector. -/
theorem Interrupt.run_enter {interrupt : Interrupt} (handler : interrupt ≠ .reset)
    (registers : Registers) (memory : FlatMemory) :
    (interrupt.enter registers).run memory =
      .ok (handled registers (.ofBytes
          ((memory.push registers.s (interrupt.saved registers)).get interrupt.vector)
          ((memory.push registers.s (interrupt.saved registers)).get
            (Address.next interrupt.vector))),
        memory.push registers.s (interrupt.saved registers)) := by
  have under : registers.s - 3 = registers.s - 1 - 1 - 1 := by grind
  rw [enter, if_neg handler, handled, under]
  rfl

/-- The entry leaves what it saved on the stack, the status on top. -/
theorem FlatMemory.Writable.holds_saved {memory : FlatMemory} (writable : memory.Writable)
    (interrupt : Interrupt) (registers : Registers) :
    (memory.push registers.s (interrupt.saved registers)).Holds (registers.s - 3)
      [registers.p.pushed interrupt.pushesBreakMark, registers.pc.lo, registers.pc.hi] := by
  have empty : memory.Holds registers.s [] := trivial
  exact empty.push writable (show 0 + 3 ≤ 256 by decide)

namespace Processor

/-- A return from a handler pulls the status and then the program counter. -/
theorem executes_return {processor : Processor} {memory : FlatMemory} {status low high : UInt8}
    (opcode : memory.get processor.registers.pc = 0x40)
    (holds : memory.Holds processor.registers.s [status, low, high]) :
    processor.Executes memory
      { processor.registers with
        p := .pulled status
        pc := .ofBytes low high
        s := processor.registers.s + 3 } 6 memory := by
  have above : processor.registers.s + 3 = processor.registers.s + 1 + 1 + 1 := by grind
  obtain ⟨first, second, third, _⟩ := holds
  have read : Memory.read memory processor.registers.pc = .ok (0x40, memory) :=
    congrArg (fun value => Except.ok (value, memory)) opcode
  refine ⟨0x40, memory, read, rfl, ?_⟩
  refine (FlatMemory.run_read memory (StackPointer.address (processor.registers.s + 1)) _).trans ?_
  rw [first]
  refine (FlatMemory.run_read memory
    (StackPointer.address (processor.registers.s + 1 + 1)) _).trans ?_
  rw [second]
  refine (FlatMemory.run_read memory
    (StackPointer.address (processor.registers.s + 1 + 1 + 1)) _).trans ?_
  rw [third, above]
  rfl

/-- The processor has entered the handler of a request from these registers: the handler starts at
the address in the vector, with further requests disabled and the other flags as they were. If it
starts with a return, and no request may be taken after that, the next step brings the registers
back. -/
structure Handles {D : Type} [Peripheral D] (interrupt : Interrupt) (registers : Registers)
    (handler : Processor) (bus : Bus D) : Prop where
  vector : bus.peekWord interrupt.vector = .ok handler.registers.pc
  status : handler.registers.p = { registers.p with interruptDisable := true }
  returns : bus.peek handler.registers.pc = .ok 0x40 →
    handler.pending.next? registers.p = none →
    ∃ returned later, handler.step.run bus = .ok ((.ok 6, returned), later) ∧
      returned.registers = registers

variable {D : Type} [Peripheral D] {bus later : Bus D}

/-- An entry on stocked memory leaves what a return needs. -/
theorem Handles.of_enter (stocked : bus.Stocked) (writable : bus.flatten.Writable)
    {interrupt : Interrupt} (handler : interrupt ≠ .reset) {registers : Registers}
    (settled : registers.p.Settled) {after : Processor}
    (entered : (interrupt.enter registers).run bus = .ok (after.registers, later)) :
    Handles interrupt registers after later := by
  obtain ⟨reached, ours, view, kept⟩ :=
    stocked.run_of_flat (Interrupt.run_enter handler registers bus.flatten)
  rw [entered, Except.ok.injEq, Prod.mk.injEq] at ours
  obtain ⟨starts, rfl⟩ := ours
  have still := stocked.follows kept.follows
  rw [← view] at starts
  -- The bus shows what the flat memory has become, so the three bytes are found on it.
  have holds := writable.holds_saved interrupt registers
  rw [← view] at holds
  refine ⟨?_, by rw [starts]; rfl, fun opcode idle => ?_⟩
  · rw [Bus.peekWord, still.peek, still.peek, starts]
    rfl
  · have s : after.registers.s = registers.s - 3 := by rw [starts]; rfl
    rw [← s] at holds
    have executes := executes_return (Bus.get_flatten opcode) holds
    have back : registers.s - 3 + 3 = registers.s := by grind
    rw [Status.pulled_pushed settled, Address.ofBytes_lo_hi, s, back, starts] at executes
    obtain ⟨last, served, _⟩ := still.run_of_flat (executes.step idle)
    exact ⟨_, last, served, rfl⟩

/-- The registers that an entry interrupts are settled if those before the instruction are. -/
theorem Executes.settled {M : Type} [Memory M] {processor : Processor} {memory middle : M}
    {registers : Registers} {spent : Nat}
    (executes : processor.Executes memory registers spent middle)
    (settled : processor.registers.p.Settled) : registers.p.Settled := by
  obtain ⟨opcode, fetched, read, valid, executed⟩ := executes
  exact ((Instruction.ofOpcode opcode).execute_settled settled).run executed

/-- An instruction changes contents at most. -/
theorem Executes.follows {processor : Processor} {middle : Bus D} {registers : Registers}
    {spent : Nat} (executes : processor.Executes bus registers spent middle) :
    Bus.Follows bus middle := by
  obtain ⟨opcode, fetched, read, valid, executed⟩ := executes
  exact (Bus.read_follows read).trans (Bus.run_follows executed)

/-- After the instruction the step takes what may be taken then. -/
theorem Executes.takes {M : Type} [Memory M] {processor after : Processor} {memory middle later : M}
    {registers : Registers} {spent cycles : Nat}
    (executes : processor.Executes memory registers spent middle)
    (served : processor.step.run memory = .ok ((.ok cycles, after), later)) :
    takenIn (processor.step.trace memory) = (processor.pending.next? registers.p).toList := by
  generalize order : takenIn (processor.step.trace memory) = taken
  have stepped := run_step served
  rw [order] at stepped
  cases stepped with
  | plain again idle =>
      obtain ⟨rfl, _⟩ := again.unique executes
      rw [idle]
      rfl
  | taken again chosen entered =>
      obtain ⟨rfl, _⟩ := again.unique executes
      rw [chosen]
      rfl

/-- The instruction that is entered as a request goes past the byte after its opcode first. -/
theorem Executes.enters {M : Type} [Memory M] {processor : Processor} {memory middle fetched : M}
    {registers : Registers} {spent : Nat}
    (executes : processor.Executes memory registers spent middle)
    (read : Memory.read memory processor.registers.pc = .ok (0x00, fetched)) :
    (Interrupt.break_.enter { processor.registers with pc := processor.registers.pc + 2 }).run
      fetched = .ok (registers, middle) := by
  obtain ⟨opcode, _, found, _, executed⟩ := executes
  cases read.symm.trans found
  obtain ⟨⟨first, extra⟩, _, performed, rest⟩ := run_bind_eq_ok_iff.mp executed
  cases rest
  obtain ⟨handler, _, entered, rest⟩ := run_bind_eq_ok_iff.mp performed
  cases rest
  have past : processor.registers.pc + 2 = processor.registers.pc + 1 + 1 := by grind
  rw [past]
  exact entered

/-- On a bus of storage with a stack in RAM, a return undoes the entry into a handler: that of a
request, taken after whatever instruction, and that of the instruction that is entered as a request
is. -/
theorem return_undoes_entry (stocked : bus.Stocked)
    (stack : ∀ address : Address, address.hi = 1 → bus.ownerKind? address = some .ram)
    {processor after : Processor} {cycles : Nat} (settled : processor.registers.p.Settled)
    (served : processor.step.run bus = .ok ((.ok cycles, after), later)) :
    (∀ interrupt, interrupt ≠ .reset → takenIn (processor.step.trace bus) = [interrupt] →
      ∃ registers spent middle, processor.Executes bus registers spent middle ∧
        Handles interrupt registers after later) ∧
    (bus.peek processor.registers.pc = .ok 0x00 → takenIn (processor.step.trace bus) = [] →
      Handles .break_ { processor.registers with pc := processor.registers.pc + 2 } after
        later) := by
  have writable {middle : Bus D} (follows : Bus.Follows bus middle) : middle.flatten.Writable :=
    Bus.writable_flatten fun address page => (follows.ownerKind? address).trans (stack address page)
  generalize order : takenIn (processor.step.trace bus) = taken
  have stepped := run_step served
  rw [order] at stepped
  cases stepped with
  | @plain registers spent middle executes idle =>
      refine ⟨nofun, fun opcode _ => ?_⟩
      have read := stocked.read processor.registers.pc
      rw [Bus.get_flatten opcode] at read
      have follows : Bus.Follows bus _ := Bus.notice_follows bus .read processor.registers.pc 0x00
      have request : Interrupt.break_ ≠ .reset := nofun
      have kept : { processor.registers with pc := processor.registers.pc + 2 }.p.Settled := settled
      exact .of_enter (stocked.follows follows) (writable follows) request kept
        (executes.enters read)
  | @taken registers handler spent middle _ interrupt executes chosen entered =>
      refine ⟨fun other handles same => ?_, nofun⟩
      cases same
      have follows := executes.follows.trans
        (Bus.report_follows middle (.servicing interrupt registers.pc))
      exact ⟨registers, spent, middle, executes, .of_enter (stocked.follows follows)
        (writable follows) handles (executes.settled settled) entered⟩

/-- Returns everywhere, but for instructions without an effect in the lowest page and software
interrupts above the stack. -/
def handlers : Bus Unpopulated :=
  ((Bus.uniform 0x40).add (.rom "idle" (.page 0) 0xea)).2.add (.rom "calls" (.page 2) 0x00) |>.2

theorem idlePage_stocked :
    ((Bus.uniform 0x40 : Bus Unpopulated).add (.rom "idle" (.page 0) 0xea)).2.Stocked :=
  (Bus.uniform_stocked 0x40).add (Bus.isBlock_rom ..)

theorem handlers_stocked : handlers.Stocked := idlePage_stocked.add (Bus.isBlock_rom ..)

/-- The bytes of that memory, by page. -/
theorem get_handlers (address : Address) :
    handlers.flatten.get address =
      if (AddressRange.page 2).containsAddress address then 0x00
      else if (AddressRange.page 0).containsAddress address then 0xea else 0x40 := by
  rw [handlers, idlePage_stocked.get_add (Bus.isBlock_rom ..),
    (Bus.uniform_stocked 0x40).get_add (Bus.isBlock_rom ..), Bus.get_uniform]
  rfl

/-- The stack of that memory can be written. -/
theorem handlers_stack {address : Address} (page : address.hi = 1) :
    handlers.ownerKind? address = some .ram := by
  have outside {number : UInt8} (other : 1 ≠ number) :
      ¬(AddressRange.page number).containsAddress address := fun inside =>
    other (page.symm.trans (AddressRange.containsAddress_page.mp inside))
  rw [handlers,
    Bus.ownerKind?_outside idlePage_stocked.sound (.rom "calls" (.page 2) 0x00)
      (outside (by decide)),
    Bus.ownerKind?_outside (Bus.uniform_stocked 0x40).sound (.rom "idle" (.page 0) 0xea)
      (outside (by decide)),
    Bus.uniform_ram]

/-- At the bottom of memory, with a request that cannot be masked, and a stack that is about to
wrap. -/
def interrupted : Processor :=
  ⟨{ Registers.initial with s := 1 }, 0, { Pending.none with nmi := true }⟩

/-- In front of a software interrupt. -/
def calling : Processor := ⟨{ Registers.initial with pc := 0x0200, s := 1 }, 0, .none⟩

/-- All vectors lead to a return. -/
theorem enter_handlers {bus : Bus Unpopulated} (stocked : bus.Stocked)
    (view : bus.flatten = handlers.flatten) {interrupt : Interrupt} (other : interrupt ≠ .reset)
    (registers : Registers) :
    ∃ later, (interrupt.enter registers).run bus =
        .ok (Interrupt.handled registers 0x4040, later) ∧ later.peek 0x4040 = .ok 0x40 := by
  have unwritten : ∀ place : Address,
      place ∈ [interrupt.vector, Address.next interrupt.vector, 0x4040] →
      (bus.flatten.push registers.s (interrupt.saved registers)).get place = 0x40 := by
    intro place member
    have high : place.hi ≠ 1 ∧ handlers.flatten.get place = 0x40 := by
      rw [get_handlers]
      simp only [List.mem_cons, List.not_mem_nil, or_false] at member
      obtain rfl | rfl | rfl := member <;> cases interrupt <;> decide
    rw [FlatMemory.get_push high.1, view, high.2]
  have flat := Interrupt.run_enter other registers bus.flatten
  rw [unwritten _ (by simp), unwritten _ (by simp)] at flat
  obtain ⟨later, entered, after, kept⟩ := stocked.run_of_flat flat
  refine ⟨later, entered, ?_⟩
  rw [(stocked.follows kept.follows).peek, after, unwritten _ (by simp)]

/-- A return leads back from the request behind its instruction, and from a software interrupt past
the byte behind it. -/
theorem return_undoes_entry_of_both :
    (∃ after later returned last, interrupted.step.run handlers = .ok ((.ok 9, after), later) ∧
      after.step.run later = .ok ((.ok 6, returned), last) ∧
        returned.registers = { interrupted.registers with pc := 1 }) ∧
    ∃ after later returned last, calling.step.run handlers = .ok ((.ok 7, after), later) ∧
      after.step.run later = .ok ((.ok 6, returned), last) ∧
        returned.registers = { calling.registers with pc := 0x0202 } := by
  have stack : ∀ address : Address, address.hi = 1 → handlers.ownerKind? address = some .ram :=
    fun _ => handlers_stack
  have fetches (address : Address) := handlers_stocked.read address
  have quiet (address : Address) (value : UInt8) :
      (handlers.notice .read address value).Stocked ∧
        (handlers.notice .read address value).flatten = handlers.flatten :=
    ⟨handlers_stocked.follows (Bus.notice_follows ..), Bus.notice_flatten ..⟩
  constructor
  · have opcode : handlers.flatten.get 0 = 0xea := by
      rw [get_handlers]
      decide
    have read := fetches 0
    rw [opcode] at read
    have executes : interrupted.Executes handlers { interrupted.registers with pc := 1 } 2
        (handlers.notice .read 0 0xea) := ⟨0xea, _, read, rfl, rfl⟩
    have nmi : Interrupt.nmi ≠ .reset := nofun
    obtain ⟨stocked, view⟩ := quiet 0 0xea
    have reported := stocked.follows (Bus.report_follows _ (.servicing .nmi 1))
    have same := (Bus.report_flatten _ (.servicing .nmi 1)).trans view
    obtain ⟨later, entered, start⟩ :=
      enter_handlers reported same nmi { interrupted.registers with pc := 1 }
    have served := executes.step_taken rfl entered
    obtain ⟨entry, _⟩ := return_undoes_entry handlers_stocked stack ⟨rfl, rfl⟩ served
    obtain ⟨registers, _, _, again, handles⟩ := entry .nmi nmi (executes.takes served)
    obtain ⟨rfl, _⟩ := again.unique executes
    obtain ⟨returned, last, back, same⟩ := handles.returns start rfl
    exact ⟨_, later, returned, last, served, back, same⟩
  · have opcode : handlers.flatten.get 0x0200 = 0x00 := by
      rw [get_handlers]
      decide
    have read := fetches 0x0200
    rw [opcode] at read
    have request : Interrupt.break_ ≠ .reset := nofun
    obtain ⟨stocked, view⟩ := quiet 0x0200 0x00
    obtain ⟨later, entered, start⟩ := enter_handlers stocked view request
      { calling.registers with pc := 0x0202 }
    have executed : ((Instruction.ofOpcode 0x00).execute calling.registers).run
        (handlers.notice .read 0x0200 0x00) =
          .ok ((Interrupt.handled { calling.registers with pc := 0x0202 } 0x4040, 7), later) :=
      run_bind_eq_ok_iff.mpr ⟨_, _, run_bind_eq_ok_iff.mpr ⟨_, _, entered, rfl⟩, rfl⟩
    have executes : calling.Executes handlers _ 7 later := ⟨0x00, _, read, rfl, executed⟩
    have served := executes.step rfl
    have shown : handlers.peek calling.registers.pc = .ok 0x00 :=
      (handlers_stocked.peek 0x0200).trans (congrArg Except.ok opcode)
    obtain ⟨_, entry⟩ := return_undoes_entry handlers_stocked stack ⟨rfl, rfl⟩ served
    have handles := entry shown (executes.takes served)
    obtain ⟨returned, last, back, same⟩ := handles.returns start rfl
    exact ⟨_, later, returned, last, served, back, same⟩

end Processor

end EightBit
