import EightBit.Proofs.Machine.Mapped
import EightBit.Proofs.Machine.Twins
import EightBit.Proofs.Processor.Checked

/-
Commands to a machine. Whoever has a machine may also extend and rewire it, and look at its memory
and change it. As long as somebody answers for every address, no command crashes.
-/

namespace EightBit.Machine

open Outcome Bus

variable {D : Type} [Peripheral D]

/-- What a machine can be told to do. -/
inductive Command (D : Type) [Peripheral D] where
  | call (call : Call)
  | add (region : Region D) (made : region.Made)
  | newLine
  | connectIrq (line : Line)
  | connectNmi (line : Line)
  | raise (line : Line)
  | peek (address : Address)
  | read (address : Address)
  | tryRead (address : Address)
  | readWord (address : Address)
  | write (address : Address) (value : UInt8)
  | tryWrite (address : Address) (value : UInt8)
  | writeWord (address : Address) (value : UInt16)
  | watch (range : AddressRange) (trigger : Trigger)

/-- What it says to that. -/
inductive Response where
  | done
  | reply (reply : Reply)
  /-- The number of a region or of a line. -/
  | number (value : Nat)
  | byte (value : UInt8)
  | tried (result : Except Fault UInt8)
  | word (value : UInt16)

/-- The bus as it was left, and a response made from the result. -/
def putBus {α : Type} (machine : Machine D) (respond : α → Response) (outcome : α × Bus D) :
    Response × Machine D := (respond outcome.1, { machine with bus := outcome.2 })

/-- The machine after a command, with its response. -/
def obey (machine : Machine D) : Command D → Except Crash (Response × Machine D)
  | .call call => Prod.map .reply id <$> machine.answer call
  | .add region _ => .ok (machine.putBus .number (machine.bus.add region))
  | .newLine => .ok (machine.putBus .number machine.bus.newLine)
  | .connectIrq line => .ok (.done, machine.connectIrq line)
  | .connectNmi line => .ok (.done, machine.connectNmi line)
  | .raise line => .ok (.done, { machine with bus := machine.bus.raise line })
  | .peek address => (fun value => (.byte value, machine)) <$> machine.bus.peek address
  | .read address => machine.putBus .byte <$> machine.bus.read address
  | .tryRead address => machine.putBus .tried <$> machine.bus.tryRead address
  | .readWord address => machine.putBus .word <$> machine.bus.readWord address
  | .write address value =>
      (fun bus => (.done, { machine with bus })) <$> machine.bus.write address value
  | .tryWrite address value =>
      machine.putBus (.reply ∘ .plain) <$> machine.bus.tryWrite address value
  | .writeWord address value =>
      (fun bus => (.done, { machine with bus })) <$> machine.bus.writeWord address value
  | .watch range trigger => .ok (.done, { machine with bus := machine.bus.watch range trigger })

/-- The commands, each with the response to it. -/
def obeyAll (machine : Machine D) :
    List (Command D) → Except Crash (List (Command D × Response) × Machine D)
  | [] => .ok ([], machine)
  | command :: commands => do
      let (response, machine) ← machine.obey command
      let (journal, machine) ← machine.obeyAll commands
      return ((command, response) :: journal, machine)

/-- A step takes two to fifteen cycles or stops at an opcode that locks up, loading is not refused,
and no access is. -/
def Expected : Command D → Response → Prop
  | .call .step, response =>
      ∃ result, response = .reply (.cycles result) ∧ Processor.Charged result
  | .call (.runFor time), response =>
      ∃ result, response = .reply (.report result) ∧ RanFor time result
  | .call .reset, response => response = .reply (.cycles (.ok Interrupt.cycles))
  | .call (.load ..), response => response = .reply (.plain (.ok ()))
  | .call (.setResetVector _), response => response = .reply (.plain (.ok ()))
  | .tryRead _, response => ∃ value, response = .tried (.ok value)
  | .tryWrite .., response => response = .reply (.plain (.ok ()))
  | _, _ => True

variable {machine : Machine D}

/-- Without gaps every call is answered as expected, and leaves no gap. -/
theorem answer_served (mapped : machine.bus.Mapped) (call : Call) :
    Served (fun outcome => outcome.2.bus.Mapped ∧
      Expected (D := D) (.call call) (.reply outcome.1)) (machine.answer call) := by
  cases call with
  | step => exact (step_served mapped).map fun outcome kept => ⟨kept.1, outcome.1, rfl, kept.2⟩
  | runFor time =>
      exact (runFor_served mapped time).map fun outcome kept => ⟨kept.1, outcome.1, rfl, kept.2⟩
  | reset =>
      exact (reset_served mapped).map fun outcome kept =>
        ⟨kept.1, congrArg (Response.reply ∘ Reply.cycles ∘ Except.ok) kept.2⟩
  | load address bytes =>
      exact (load_served mapped address bytes).map fun outcome kept =>
        ⟨kept.1, congrArg (Response.reply ∘ Reply.plain) kept.2⟩
  | setResetVector address =>
      exact (load_served mapped _ _).map fun outcome kept =>
        ⟨kept.1, congrArg (Response.reply ∘ Reply.plain) kept.2⟩
  | request interrupt => exact ⟨mapped_request mapped interrupt, trivial⟩
  | withdraw interrupt => exact ⟨mapped, trivial⟩
  | map region => exact ⟨mapped.map region, trivial⟩

/-- A command is obeyed, and it leaves no gap. -/
theorem obey_served (mapped : machine.bus.Mapped) (command : Command D) :
    Served (fun outcome => outcome.2.bus.Mapped ∧ Expected command outcome.1)
      (machine.obey command) := by
  cases command with
  | call call => exact (answer_served mapped call).map fun _ kept => kept
  | add region made => exact ⟨mapped.add made.filled, trivial⟩
  | newLine => exact ⟨mapped.of_frame rfl rfl, trivial⟩
  | connectIrq line => exact ⟨mapped, trivial⟩
  | connectNmi line => exact ⟨mapped, trivial⟩
  | raise line => exact ⟨mapped.of_frame rfl rfl, trivial⟩
  | peek address => exact (mapped.peek address).map fun _ _ => ⟨mapped, trivial⟩
  | read address => exact (mapped.read address).map fun _ kept => ⟨kept, trivial⟩
  | tryRead address =>
      apply (mapped.tryRead address).map
      rintro ⟨_, after⟩ ⟨⟨value, rfl⟩, kept⟩
      exact ⟨kept, value, rfl⟩
  | readWord address => exact (mapped.readWord address).map fun _ kept => ⟨kept, trivial⟩
  | write address value => exact (mapped.write address value).map fun _ kept => ⟨kept, trivial⟩
  | tryWrite address value =>
      apply (mapped.tryWrite address value).map
      rintro ⟨_, after⟩ ⟨rfl, kept⟩
      exact ⟨kept, rfl⟩
  | writeWord address value =>
      exact (mapped.writeWord address value).map fun _ kept => ⟨kept, trivial⟩
  | watch range trigger => exact ⟨mapped.of_frame rfl rfl, trivial⟩

/-- However many commands are given, one after the other. -/
theorem obeyAll_served (mapped : machine.bus.Mapped) (commands : List (Command D)) :
    Served (fun outcome => outcome.2.bus.Mapped ∧ outcome.1.map Prod.fst = commands ∧
      ∀ entry ∈ outcome.1, Expected entry.1 entry.2) (machine.obeyAll commands) := by
  induction commands generalizing machine with
  | nil => exact ⟨mapped, rfl, fun _ member => absurd member List.not_mem_nil⟩
  | cons command commands ih =>
      apply (obey_served mapped command).bind
      rintro ⟨response, middle⟩ ⟨still, expected⟩
      apply (ih still).bind
      rintro ⟨journal, after⟩ ⟨kept, complete, others⟩
      exact ⟨kept, congrArg (List.cons command) complete, List.forall_mem_cons.mpr
        ⟨expected, others⟩⟩

/-- What the machine computes besides its accesses goes through as well. -/
structure Trapless : Prop where
  /-- No sum of a step is too large for its word. -/
  step : ∀ processor : Processor, processor.stepChecked = liftM processor.step
  /-- The end of a range fits a word of four bytes. -/
  stop : ∀ range : AddressRange,
    Checked.word 0x100000000 (range.start.toNat + range.size) = some range.stop
  /-- A line of a listing has all operand bytes. -/
  listing : ∀ {peek : Address → Except Crash UInt8} {address : Address} {text : String}
    {length : Nat}, Listing.lineAt peek address = .ok (text, length) →
      ∃ opcode operand, Listing.Shows peek address text length opcode operand

/-- Nothing that a machine computes is a trap. -/
theorem trapless : Trapless where
  step := Processor.stepChecked_eq
  stop range := by
    have within := range.within
    exact Checked.word_fits (by omega)
  listing := Listing.lineAt_shows

/-- A machine without gaps cannot crash. Whatever is commanded, from any registers and with any
watchpoints, tracing or not, every command is obeyed as expected and leaves no gap. -/
theorem mapped_machine_never_crashes (reached : machine.bus.Reachable)
    (valid : machine.bus.validate = .ok ()) (commands : List (Command D)) :
    Trapless ∧ ∃ journal after, machine.obeyAll commands = .ok (journal, after) ∧
      after.bus.validate = .ok () ∧ journal.map Prod.fst = commands ∧
      ∀ entry ∈ journal, Expected entry.1 entry.2 := by
  have mapped : machine.bus.Mapped :=
    ⟨reached.sound, machine.bus.validate_eq_ok_iff.mp valid⟩
  obtain ⟨⟨journal, after⟩, obeyed, kept, expected⟩ :=
    (obeyAll_served mapped commands).result
  exact ⟨trapless, journal, after, obeyed, kept.validate, expected⟩

/-- A machine that traces, with an empty socket in front of its storage. -/
def socketed : Machine Unpopulated :=
  ofBus (Bus.flat.add (.io "socket" (.page 0xfe) ⟨0xff⟩)).2 true

/-- The machine with the socket has no gap. -/
theorem socketed_mapped : socketed.bus.Mapped := by
  have flat : (Bus.flat : Bus Unpopulated).Mapped := by
    refine ⟨reachable_flat.sound, fun address gap => ?_⟩
    rw [Gap, flat_owner] at gap
    cases gap
  exact flat.add (Region.filled_io _ _ _)

/-- Loading, a reset, steps and words around the top of memory go through with the socket in front.
-/
theorem socketed_never_crashes :
    socketed.bus.Reachable ∧ socketed.bus.validate = .ok () ∧
      ∃ journal after,
        socketed.obeyAll [.call (.load 0xfffe [1, 2, 3]), .watch .full none, .call .reset,
          .call .step, .call (.runFor 20), .writeWord 0xffff 0x1234] = .ok (journal, after) ∧
        after.bus.validate = .ok () := by
  have reached : socketed.bus.Reachable := .step reachable_flat (.add (Region.filled_io _ _ _))
  obtain ⟨_, journal, after, obeyed, valid, _⟩ :=
    mapped_machine_never_crashes reached socketed_mapped.validate
      [.call (.load 0xfffe [1, 2, 3]), .watch .full none, .call .reset, .call .step,
        .call (.runFor 20), .writeWord 0xffff 0x1234]
  exact ⟨reached, socketed_mapped.validate, journal, after, obeyed, valid⟩

end EightBit.Machine
