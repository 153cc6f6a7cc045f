import EightBit.Proofs.Bus.Footprint
import EightBit.Proofs.Bus.Layers
import EightBit.Proofs.Execution.Stores

/-
What a step writes: what its instruction writes, and then three bytes on the stack if a handler is
entered, unless that is the one of a reset. Nothing else that the bus stores is changed.
-/

namespace EightBit

open Transaction

/-- What follows an instruction that leaves these registers, request by request that is taken: the
accesses of the entry, and the registers after it. -/
inductive Interrupt.Entered (registers : Registers) :
    List Interrupt → List WatchHit → Registers → Prop
  | none : Entered registers [] [] registers
  | reset {accesses : List WatchHit} {after : Registers} (quiet : writesIn accesses = [])
      (stack : after.s = 0xfd) : Entered registers [.reset] accesses after
  | handler {interrupt : Interrupt} {accesses : List WatchHit} {after : Registers}
      (other : interrupt ≠ .reset)
      (pushed : writesIn accesses = registers.s.pushes (interrupt.saved registers))
      (stack : after.s = registers.s - 3) : Entered registers [interrupt] accesses after

/-- Every way through an entry is one of those that are listed. -/
theorem Interrupt.Entered.of_yields {interrupt : Interrupt} {registers after : Registers}
    {accesses : List WatchHit} (yields : (interrupt.enter registers).Yields accesses after) :
    Entered registers [interrupt] accesses after := by
  by_cases starts : interrupt = .reset
  · subst starts
    obtain ⟨low, high, rfl, rfl⟩ := reset_of_yields yields
    exact .reset (writesIn_vectorReads ..) rfl
  · obtain ⟨low, high, rfl, rfl⟩ := handler_of_yields starts yields
    refine .handler starts ?_ rfl
    rw [writesIn_append, StackPointer.writesIn_pushes, writesIn_vectorReads, List.append_nil]

namespace Processor

section

variable {M : Type} [Memory M]

/-- The accesses of a step: it reads an opcode, makes the accesses of the instruction, which leaves
some registers, and then those of the entry into a handler, if a request is taken. -/
def Writes (processor : Processor) (memory : M) (after : Processor) : Prop :=
  ∃ opcode uses entry registers,
    processor.step.accesses memory = ⟨.read, processor.registers.pc, opcode⟩ :: (uses ++ entry) ∧
      (Instruction.ofOpcode opcode).WriteLaw
        { processor.registers with pc := processor.registers.pc.next } uses registers ∧
      Interrupt.Entered registers (takenIn (processor.step.trace memory)) entry after.registers

/-- A request that is taken goes through its entry. -/
theorem yields_serve {processor : Processor} {interrupt : Interrupt}
    {registers handler : Registers} {memory later : M}
    (chosen : processor.pending.next? registers.p = some interrupt)
    (entered : (interrupt.enter registers).run
      (Memory.report memory (.servicing interrupt registers.pc)) = .ok (handler, later)) :
    (interrupt.enter registers).Yields ({ processor with registers }.serve.accesses memory)
      handler := by
  rw [serve_taken chosen, accesses_report, accesses_bind _ _ entered]
  change Yields _ (_ ++ []) _
  rw [List.append_nil]
  exact yields_of_run entered

/-- Whatever the memory answers, a step that succeeds writes so. -/
theorem writes_of_run {processor after : Processor} {memory later : M} {cycles : Nat}
    (served : processor.step.run memory = .ok ((.ok cycles, after), later)) :
    processor.Writes memory after := by
  -- What the trace says is taken decides which kind of step it was.
  generalize order : takenIn (processor.step.trace memory) = taken
  have stepped := run_step served
  rw [order] at stepped
  cases stepped with
  | @plain registers spent middle executes idle =>
      obtain ⟨opcode, fetched, read, valid, executed⟩ := executes
      obtain ⟨extra, _, performed⟩ := Instruction.performed_of_yields (yields_of_run executed)
      refine ⟨opcode, _, _, registers, accesses_step read valid executed, .of_performed performed,
        ?_⟩
      rw [order, serve_idle idle]
      exact .none
  | @taken registers handler spent middle later interrupt executes chosen entered =>
      obtain ⟨opcode, fetched, read, valid, executed⟩ := executes
      obtain ⟨extra, _, performed⟩ := Instruction.performed_of_yields (yields_of_run executed)
      refine ⟨opcode, _, _, registers, accesses_step read valid executed, .of_performed performed,
        ?_⟩
      rw [order]
      exact .of_yields (yields_serve chosen entered)

end

/-- A step that succeeds on any memory writes at the effective addresses of its instruction and on
the stack only, and stack accesses stay in page one. On a bus every byte that is stored elsewhere
stays, and RAM shows what it showed at each address that is not written. -/
theorem step_writes_only :
    (∀ {M : Type} [Memory M] {processor after : Processor} {memory later : M} {cycles : Nat},
      processor.step.run memory = .ok ((.ok cycles, after), later) →
        processor.Writes memory after) ∧
    (∀ (s : StackPointer) (bytes : List UInt8), ∀ hit ∈ s.pushes bytes ++ s.pulls bytes,
      0x100 ≤ hit.address.toNat ∧ hit.address.toNat < 0x200) ∧
    ∀ {D : Type} [Peripheral D] {processor after : Processor} {bus later : Bus D} {cycles : Nat},
      processor.step.run bus = .ok ((.ok cycles, after), later) →
        Bus.ChangesOnly ((writesIn (processor.step.accesses bus)).map WatchHit.address) bus later ∧
        ∀ address, bus.ownerKind? address = some .ram →
          address ∉ (writesIn (processor.step.accesses bus)).map WatchHit.address →
            later.peek address = bus.peek address := by
  refine ⟨writes_of_run, fun s bytes hit member => StackPointer.in_page_one member, ?_⟩
  intro D _ processor after bus later cycles served
  have kept := Bus.run_changesOnly served
  exact ⟨kept, fun address ram free => kept.peek ram free⟩

/-- A store in page zero of a device; two pushes that wrap inside page one; and a push on a bus. -/
theorem step_writes_only_on_stack :
    (∃ after, initial.step.run (Ticker.mk 0x85) = .ok ((.ok 3, after), Ticker.mk 0x87) ∧
      initial.Writes (Ticker.mk 0x85) after) ∧
    ⟨.write, 0x01ff, 2⟩ ∈ StackPointer.pushes 0 [1, 2] ++ StackPointer.pulls 0 [1, 2] ∧
    0x100 ≤ (0x01ff : Address).toNat ∧ (0x01ff : Address).toNat < 0x200 ∧
    ∃ after later, initial.step.run (Bus.uniform 0x48 : Bus Unpopulated) =
        .ok ((.ok 3, after), later) ∧ after.registers.s = 0xfe ∧
      Bus.ChangesOnly ((writesIn (initial.step.accesses
        (Bus.uniform 0x48 : Bus Unpopulated))).map WatchHit.address) (Bus.uniform 0x48) later := by
  obtain ⟨writes, inPage, keeps⟩ := step_writes_only
  have stored : initial.step.run (Ticker.mk 0x85) =
    .ok ((.ok 3, spend ⟨{ Registers.initial with pc := 2 }, 0, .none⟩ 3), Ticker.mk 0x87) := rfl
  have member :
      ⟨.write, 0x01ff, 2⟩ ∈ StackPointer.pushes 0 [1, 2] ++ StackPointer.pulls 0 [1, 2] := by
    decide
  obtain ⟨low, high⟩ := inPage 0 [1, 2] _ member
  have pushed : initial.step.run (Bus.uniform 0x48 : Bus Unpopulated).flatten =
      .ok ((.ok 3, spend ⟨{ Registers.initial with pc := 1, s := 0xfe }, 0, .none⟩ 3),
        (Bus.uniform 0x48 : Bus Unpopulated).flatten.put 0x01ff 0) := by
    rw [step_fetch, FlatMemory.run_read, Bus.get_uniform]
    rfl
  obtain ⟨later, served, _⟩ := (Bus.uniform_stocked 0x48).run_of_flat pushed
  exact ⟨⟨_, stored, writes stored⟩, member, low, high, _, later, served, rfl, (keeps served).1⟩

end Processor

end EightBit
