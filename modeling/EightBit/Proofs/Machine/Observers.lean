import EightBit.Proofs.Machine.Commands

/-
Observers. Watchpoints, the hits that they leave, and the trace of instructions are there for
whoever watches a machine. Machines that differ in these alone do the same: every errand has the
same result on both, and afterwards they still differ in these alone.
-/

namespace EightBit

open Outcome

variable {D : Type}

namespace Bus

/-- The bus apart from its watchpoints, what they left, and the log. -/
def unobserved (bus : Bus D) : Bus D := { bus with watchpoints := [], hits := #[], log := #[] }

variable {first second : Bus D}

/-- Effects do not depend on what is observed. -/
theorem unobserved_absorb (same : first.unobserved = second.unobserved)
    (effects : List Effect) :
    (first.absorb effects).unobserved = (second.absorb effects).unobserved := by
  induction effects generalizing first second with
  | nil => exact same
  | cons effect effects ih =>
      cases effect with
      | raise line => exact ih (congrArg (fun bus => bus.raise line) same)
      | report event => exact ih same
      | note book entry =>
          exact ih (congrArg (fun bus => { bus with notes := bus.notes.push (book, entry) }) same)

/-- Noticing an access is for observers only. -/
theorem unobserved_notice (bus : Bus D) (access : Access) (address : Address) (value : UInt8) :
    (bus.notice access address value).unobserved = bus.unobserved := by
  obtain ⟨hits, log, same⟩ := bus.notice_frame access address value
  rw [same]
  rfl

/-- A watchpoint is for observers only. -/
theorem unobserved_watch (bus : Bus D) (range : AddressRange) (trigger : Trigger) :
    (bus.watch range trigger).unobserved = bus.unobserved := rfl

/-- What an access needs to know is the same without observers. -/
theorem unobserved_sameMemory (same : first.unobserved = second.unobserved) :
    SameMemory first second := by
  have parts : SameMemory first.unobserved second.unobserved := by
    rw [same]
    exact ⟨rfl, rfl⟩
  exact ⟨parts.regions, parts.dispatch⟩

/-- No access can tell apart what differs only for an observer. -/
theorem unobserved_simulation :
    Simulation fun first second : Bus D => first.unobserved = second.unobserved where
  regions same := (unobserved_sameMemory same).regions
  dispatch same := (unobserved_sameMemory same).dispatch
  contents same regions := congrArg (fun bus => { bus with regions }) same
  table same dispatch := congrArg (fun bus => { bus with dispatch }) same
  log same _ _ := same
  absorb same effects := unobserved_absorb same effects
  notice same access address value := by
    rw [unobserved_notice, unobserved_notice]
    exact same

/-- The lines that are raised do not depend on what is observed. -/
theorem unobserved_senseAny (same : first.unobserved = second.unobserved)
    (connected : List Line) :
    (first.senseAny connected).1 = (second.senseAny connected).1 ∧
      (first.senseAny connected).2.unobserved = (second.senseAny connected).2.unobserved := by
  induction connected generalizing first second with
  | nil => exact ⟨rfl, same⟩
  | cons line connected ih =>
      have raised : first.isRaised line = second.isRaised line :=
        congrArg (fun bus => bus.isRaised line) same
      have sensed : (first.sense line).2.unobserved = (second.sense line).2.unobserved :=
        congrArg (fun bus => (bus.sense line).2) same
      obtain ⟨others, rest⟩ := ih sensed
      refine ⟨?_, rest⟩
      change (first.isRaised line || ((first.sense line).2.senseAny connected).1) =
        (second.isRaised line || ((second.sense line).2.senseAny connected).1)
      rw [raised, others]

/-- Whether there are gaps does not depend on what is observed. -/
theorem Mapped.unobserved (mapped : first.Mapped) (same : first.unobserved = second.unobserved) :
    second.Mapped :=
  have memory := unobserved_sameMemory same
  mapped.of_frame memory.regions.symm memory.dispatch.symm

end Bus

namespace Machine

/-- The machine apart from all that is there for an observer. -/
def unobserved (machine : Machine D) : Machine D :=
  { machine with bus := machine.bus.unobserved, trace := false }

/-- The machines differ at most in what is there for an observer. -/
structure Alike (first second : Machine D) : Prop where
  processor : first.processor = second.processor
  bus : first.bus.unobserved = second.bus.unobserved
  irqLines : first.irqLines = second.irqLines
  nmiLines : first.nmiLines = second.nmiLines

/-- Machines are equal without their observers if they differ in these alone. -/
theorem unobserved_eq_iff {first second : Machine D} :
    first.unobserved = second.unobserved ↔ Alike first second := by
  constructor
  · intro same
    have parts : Alike first.unobserved second.unobserved := by
      rw [same]
      exact ⟨rfl, rfl, rfl, rfl⟩
    exact ⟨parts.processor, parts.bus, parts.irqLines, parts.nmiLines⟩
  · intro alike
    rw [unobserved, unobserved, alike.processor, alike.bus, alike.irqLines, alike.nmiLines]

/-- A call leads to equal results and machines that are alike, or crashes on both. -/
abbrev Indifferent {α : Type} (left right : Except Crash (α × Machine D)) : Prop :=
  Matched (fun first second => first.1 = second.1 ∧ Alike first.2 second.2) left right

/-- Results that are changed alike are still indifferent. -/
theorem Indifferent.map {α β : Type} {left right : Except Crash (α × Machine D)}
    (same : Indifferent left right) (change : α → β) :
    Indifferent (Prod.map change id <$> left) (Prod.map change id <$> right) := by
  refine Matched.map same ?_
  rintro ⟨result, left⟩ ⟨_, right⟩ ⟨rfl, next⟩
  exact ⟨rfl, next⟩

namespace Alike

variable {first second : Machine D}

/-- A request leaves the machines alike. -/
theorem request (alike : Alike first second) (interrupt : Interrupt) :
    Alike (first.request interrupt) (second.request interrupt) where
  processor := congrArg (fun processor => processor.request interrupt) alike.processor
  bus := alike.bus
  irqLines := alike.irqLines
  nmiLines := alike.nmiLines

/-- Machines stay alike with buses that are. -/
theorem withBus (alike : Alike first second) {left right : Bus D}
    (same : left.unobserved = right.unobserved) :
    Alike { first with bus := left } { second with bus := right } :=
  ⟨alike.processor, same, alike.irqLines, alike.nmiLines⟩

/-- The same lines are raised on both machines. -/
theorem sample (alike : Alike first second) (connected : List Line) (interrupt : Interrupt) :
    Alike (first.sample connected interrupt) (second.sample connected interrupt) := by
  obtain ⟨raised, sensed⟩ := Bus.unobserved_senseAny alike.bus connected
  have next := alike.withBus sensed
  obtain ⟨processor, bus, irqLines, nmiLines, trace⟩ := first
  obtain ⟨_, other, _, _, traces⟩ := second
  unfold Machine.sample
  dsimp only at raised ⊢
  rw [raised]
  split
  · exact next.request interrupt
  · exact next

/-- A result that comes with a bus. -/
theorem putBus {α : Type} (alike : Alike first second) (respond : α → Response)
    {left right : Except Crash (α × Bus D)}
    (same : Matched (fun one other => one.1 = other.1 ∧ one.2.unobserved = other.2.unobserved)
      left right) :
    Indifferent (first.putBus respond <$> left) (second.putBus respond <$> right) := by
  refine same.map ?_
  rintro ⟨result, one⟩ ⟨_, other⟩ ⟨rfl, next⟩
  exact ⟨rfl, alike.withBus next⟩

/-- A bus without a result. -/
theorem putDone (alike : Alike first second) {left right : Except Crash (Bus D)}
    (same : Matched (fun one other => one.unobserved = other.unobserved) left right) :
    Indifferent ((fun bus => (Response.done, { first with bus })) <$> left)
      ((fun bus => (Response.done, { second with bus })) <$> right) :=
  same.map fun _ _ next => ⟨rfl, alike.withBus next⟩

/-- Sensing the lines leaves the machines alike. -/
theorem sampleLines (alike : Alike first second) :
    Alike first.sampleLines second.sampleLines := by
  rw [Machine.sampleLines, Machine.sampleLines, ← alike.irqLines, ← alike.nmiLines]
  exact (alike.sample _ _).sample _ _

variable [Peripheral D]

/-- The processors make the same transaction with either bus. -/
theorem transact {α : Type} (alike : Alike first second)
    (act : Processor → Transaction (α × Processor)) :
    Indifferent (first.transact act) (second.transact act) := by
  rw [transact_eq, transact_eq, ← alike.processor]
  refine (Bus.unobserved_simulation.run alike.bus (act first.processor)).map ?_
  rintro ⟨⟨result, processor⟩, left⟩ ⟨_, right⟩ ⟨rfl, same⟩
  exact ⟨rfl, rfl, same, alike.irqLines, alike.nmiLines⟩

theorem tick (alike : Alike first second) (cycles : Nat) :
    Alike (first.tick cycles) (second.tick cycles) :=
  alike.withBus (Bus.unobserved_simulation.tick alike.bus cycles)

/-- Without the trace, both machines make the same step. -/
theorem advance (alike : Alike first second) : Indifferent first.advance second.advance := by
  refine (alike.transact Processor.step).bind ?_
  rintro ⟨result, left⟩ ⟨_, right⟩ ⟨rfl, next⟩
  cases result with
  | error fault => exact .ok ⟨rfl, next⟩
  | ok cycles => exact .ok ⟨rfl, (next.tick cycles).sampleLines⟩

theorem reset (alike : Alike first second) : Indifferent first.reset second.reset := by
  refine (alike.transact Processor.reset).bind ?_
  rintro ⟨cycles, left⟩ ⟨_, right⟩ ⟨rfl, next⟩
  exact .ok ⟨rfl, next.tick _⟩

theorem load (alike : Alike first second) (address : Address) (bytes : List UInt8) :
    Indifferent (first.load address bytes) (second.load address bytes) := by
  rw [load_eq, load_eq]
  refine (Bus.unobserved_simulation.copy alike.bus address bytes).map ?_
  rintro ⟨result, left⟩ ⟨_, right⟩ ⟨rfl, same⟩
  exact ⟨rfl, alike.withBus same⟩

end Alike

variable [Peripheral D]

/-- The next instruction can be looked at, so tracing cannot crash. -/
theorem traceable_of_mapped {machine : Machine D} (mapped : machine.bus.Mapped) :
    machine.Traceable := by
  intro crash crashes
  have listed := lineAt_served mapped machine.processor.registers.pc
  rw [crashes] at listed
  obtain ⟨address, impossible, _⟩ := listed
  exact impossible.elim

/-- Whether the machines trace makes no difference. -/
theorem Alike.step {first second : Machine D} (alike : Alike first second)
    (mapped : first.bus.Mapped) : Indifferent first.step second.step := by
  obtain ⟨log, start⟩ := step_eq_advance (traceable_of_mapped mapped)
  obtain ⟨other, begin⟩ := step_eq_advance (traceable_of_mapped (mapped.unobserved alike.bus))
  rw [start, begin]
  exact advance ⟨alike.processor, alike.bus, alike.irqLines, alike.nmiLines⟩

/-- A command that does not wait for a watchpoint, or a span of time for the peripherals. -/
inductive Errand (D : Type) [Peripheral D] where
  | command (command : Command D) (brief : ∀ time, command ≠ .call (.runFor time))
  | tick (cycles : Nat)

/-- The machine after an errand, with its response. -/
def carryOut (machine : Machine D) : Errand D → Except Crash (Response × Machine D)
  | .command command _ => machine.obey command
  | .tick cycles => .ok (.done, machine.tick cycles)

/-- The responses to the errands, one after the other. -/
def carryOutAll (machine : Machine D) :
    List (Errand D) → Except Crash (List Response × Machine D)
  | [] => .ok ([], machine)
  | errand :: errands => do
      let (response, machine) ← machine.carryOut errand
      let (responses, machine) ← machine.carryOutAll errands
      return (response :: responses, machine)

/-- Without gaps every errand is carried out, and leaves none. -/
theorem carryOut_served {machine : Machine D} (mapped : machine.bus.Mapped) (errand : Errand D) :
    Served (fun outcome => outcome.2.bus.Mapped) (machine.carryOut errand) := by
  cases errand with
  | command command brief => exact (obey_served mapped command).mono nofun fun _ kept => kept.1
  | tick cycles => exact mapped_tick mapped cycles

namespace Alike

variable {first second : Machine D}

/-- Both machines answer a call alike. -/
theorem answer (alike : Alike first second) (mapped : first.bus.Mapped) {call : Call}
    (brief : ∀ time, call ≠ .runFor time) :
    Indifferent (first.answer call) (second.answer call) := by
  cases call with
  | step => exact (alike.step mapped).map Reply.cycles
  | runFor time => exact absurd rfl (brief time)
  | reset => exact alike.reset.map (Reply.cycles ∘ Except.ok)
  | load address bytes => exact (alike.load address bytes).map Reply.plain
  | setResetVector address => exact (alike.load _ _).map Reply.plain
  | request interrupt => exact .ok ⟨rfl, alike.request interrupt⟩
  | withdraw interrupt =>
      exact .ok ⟨rfl, congrArg (fun processor => processor.withdraw interrupt) alike.processor,
        alike.bus, alike.irqLines, alike.nmiLines⟩
  | map region =>
      obtain ⟨results, same⟩ := Bus.unobserved_simulation.map alike.bus region
      exact .ok ⟨congrArg Reply.plain results, alike.withBus same⟩

/-- Both machines obey a command alike. -/
theorem obey (alike : Alike first second) (mapped : first.bus.Mapped) {command : Command D}
    (brief : ∀ time, command ≠ .call (.runFor time)) :
    Indifferent (first.obey command) (second.obey command) := by
  have simulation := Bus.unobserved_simulation (D := D)
  have memory := Bus.unobserved_sameMemory alike.bus
  cases command with
  | call call =>
      exact (alike.answer mapped fun time same => brief time (congrArg Command.call same)).map
        Response.reply
  | add region made =>
      obtain ⟨number, same⟩ := simulation.add alike.bus region
      exact .ok ⟨congrArg Response.number number, alike.withBus same⟩
  | newLine =>
      have number : first.bus.newLine.1 = second.bus.newLine.1 :=
        congrArg (fun bus => bus.newLine.1) alike.bus
      exact .ok ⟨congrArg Response.number number,
        alike.withBus (congrArg (fun bus => bus.newLine.2) alike.bus)⟩
  | connectIrq line =>
      exact .ok ⟨rfl, alike.processor, alike.bus, congrArg (· ++ [line]) alike.irqLines,
        alike.nmiLines⟩
  | connectNmi line =>
      exact .ok ⟨rfl, alike.processor, alike.bus, alike.irqLines,
        congrArg (· ++ [line]) alike.nmiLines⟩
  | raise line =>
      exact .ok ⟨rfl, alike.withBus (congrArg (fun bus => bus.raise line) alike.bus)⟩
  | peek address =>
      change Indifferent ((fun value => (Response.byte value, first)) <$> first.bus.peek address)
        ((fun value => (Response.byte value, second)) <$> second.bus.peek address)
      rw [Bus.peek_congr memory.regions memory.dispatch]
      cases second.bus.peek address with
      | error crash => exact .error crash
      | ok value => exact .ok ⟨rfl, alike⟩
  | read address => exact alike.putBus .byte (simulation.read alike.bus address)
  | tryRead address => exact alike.putBus .tried (simulation.tryRead alike.bus address)
  | readWord address => exact alike.putBus .word (simulation.readWord alike.bus address)
  | write address value => exact alike.putDone (simulation.write alike.bus address value)
  | tryWrite address value =>
      exact alike.putBus (.reply ∘ .plain) (simulation.tryWrite alike.bus address value)
  | writeWord address value => exact alike.putDone (simulation.writeWord alike.bus address value)
  | watch range trigger => exact .ok ⟨rfl, alike.withBus alike.bus⟩

/-- Both machines carry out an errand alike. -/
theorem carryOut (alike : Alike first second) (mapped : first.bus.Mapped) (errand : Errand D) :
    Indifferent (first.carryOut errand) (second.carryOut errand) := by
  cases errand with
  | command command brief => exact alike.obey mapped brief
  | tick cycles => exact .ok ⟨rfl, alike.tick cycles⟩

/-- However many errands there are, they go through on both machines. -/
theorem carryOutAll (alike : Alike first second) (mapped : first.bus.Mapped)
    (errands : List (Errand D)) :
    ∃ responses left right, first.carryOutAll errands = .ok (responses, left) ∧
      second.carryOutAll errands = .ok (responses, right) ∧ Alike left right := by
  induction errands generalizing first second with
  | nil => exact ⟨[], first, second, rfl, rfl, alike⟩
  | cons errand errands ih =>
      have same := alike.carryOut mapped errand
      obtain ⟨⟨response, front⟩, done, kept⟩ := (carryOut_served mapped errand).result
      rw [done] at same
      generalize other : second.carryOut errand = outcome at same
      cases same with
      | @ok _ back next =>
          obtain ⟨_, back⟩ := back
          obtain ⟨rfl, next⟩ := next
          obtain ⟨responses, left, right, one, two, last⟩ := ih next kept
          refine ⟨response :: responses, left, right, ?_, ?_, last⟩
          · rw [Machine.carryOutAll, done, bind_ok]
            dsimp only
            rw [one]
            rfl
          · rw [Machine.carryOutAll, other, bind_ok]
            dsimp only
            rw [two]
            rfl

end Alike

/-- Observers do not perturb a machine without gaps. Whatever is done to two machines that differ in
their watchpoints, hits and trace alone, it has the same result on both, and afterwards they still
differ in these alone. -/
theorem observers_do_not_perturb {first second : Machine D} (reached : first.bus.Reachable)
    (valid : first.bus.validate = .ok ()) (same : first.unobserved = second.unobserved)
    (errands : List (Errand D)) :
    ∃ responses left right, first.carryOutAll errands = .ok (responses, left) ∧
      second.carryOutAll errands = .ok (responses, right) ∧
        left.unobserved = right.unobserved := by
  have mapped : first.bus.Mapped := ⟨reached.sound, first.bus.validate_eq_ok_iff.mp valid⟩
  obtain ⟨responses, left, right, one, two, alike⟩ :=
    (unobserved_eq_iff.mp same).carryOutAll mapped errands
  exact ⟨responses, left, right, one, two, unobserved_eq_iff.mpr alike⟩

/-- The machine that traces, watched everywhere instead. -/
def socketedWatched : Machine Unpopulated :=
  { socketed with bus := socketed.bus.watch .full none, trace := false }

/-- A machine that is traced and one that is watched respond alike to four errands. -/
theorem socketed_is_not_perturbed :
    socketed.bus.Reachable ∧ socketed.bus.validate = .ok () ∧
      socketed.unobserved = socketedWatched.unobserved ∧
        ∃ responses left right,
          socketed.carryOutAll [.command (.call .reset) nofun, .command (.call .step) nofun,
            .tick 40, .command (.write 0xfe00 1) nofun] = .ok (responses, left) ∧
          socketedWatched.carryOutAll [.command (.call .reset) nofun,
            .command (.call .step) nofun, .tick 40, .command (.write 0xfe00 1) nofun] =
              .ok (responses, right) ∧
          left.unobserved = right.unobserved := by
  have reached : socketed.bus.Reachable :=
    .step Bus.reachable_flat (.add (Region.filled_io _ _ _))
  have same : socketed.unobserved = socketedWatched.unobserved :=
    unobserved_eq_iff.mpr ⟨rfl, (Bus.unobserved_watch ..).symm, rfl, rfl⟩
  exact ⟨reached, socketed_mapped.validate, same,
    observers_do_not_perturb reached socketed_mapped.validate same _⟩

end Machine

end EightBit
