import EightBit.Proofs.Bus.Flat
import EightBit.Proofs.Machine.Iterated
import EightBit.Proofs.Processor.Lockup

/-
Machines that meet an opcode which locks up the processor. The step that reads it fails, and with it
the run that makes the step; no time passes and no line is sensed. Where the opcode is stored, the
machine fails in the same way from then on.
-/

namespace EightBit.Machine

open Outcome

variable {D : Type} {machine after : Machine D} {opcode : UInt8}

/-- The fault of an opcode at the program counter. -/
def lockup (machine : Machine D) (opcode : UInt8) : Fault :=
  .invalidOpcode opcode machine.processor.registers.pc

/-- The machine with other hits and another log. -/
def noted (machine : Machine D) (hits : Array WatchHit) (log : Array Event) : Machine D :=
  { machine with bus := { machine.bus with hits, log } }

/-- The machine is the same, but for hits and the log. -/
def Rests (machine after : Machine D) : Prop := ∃ hits log, after = machine.noted hits log

/-- What rests twice has rested. -/
theorem Rests.trans {first second third : Machine D} (start : Rests first second)
    (rest : Rests second third) : Rests first third := by
  obtain ⟨hits, log, rfl⟩ := start
  obtain ⟨hits, log, rfl⟩ := rest
  exact ⟨hits, log, rfl⟩

/-- Dropping old hits leaves the machine at rest. -/
theorem dropStaleHits_rests (machine : Machine D) : Rests machine machine.dropStaleHits := by
  obtain ⟨log, same⟩ := machine.dropStaleHits_frame
  exact ⟨#[], log, same⟩

variable [Peripheral D]

/-- The machine reads an opcode that locks up the processor. That read and the reports about it are
all that happens to the machine. -/
structure Halts (machine : Machine D) (opcode : UInt8) (after : Machine D) : Prop where
  lockup : opcode ∈ Instruction.lockups
  read : ∃ traced fetched, machine.traceInstruction = .ok traced ∧
    traced.bus.read machine.processor.registers.pc = .ok (opcode, fetched) ∧
      after = { machine with
        bus := fetched.report (.halted opcode machine.processor.registers.pc) }

/-- A step fails just where the machine reads such an opcode. -/
theorem step_fails_iff {fault : Fault} : machine.step = .ok (.error fault, after) ↔
    ∃ opcode, fault = machine.lockup opcode ∧ machine.Halts opcode after := by
  constructor
  · intro stepped
    obtain ⟨traced, reported, rest⟩ := bind_eq_ok_iff.mp stepped
    obtain ⟨log, rfl⟩ := traceInstruction_frame reported
    obtain ⟨outcome, executed, rest⟩ := bind_eq_ok_iff.mp rest
    rw [transact_eq] at executed
    obtain ⟨⟨⟨result, processor⟩, bus⟩, served, same⟩ := map_eq_ok_iff.mp executed
    cases same
    cases result with
    | ok spent => cases rest
    | error other =>
        cases rest
        have stepped := Processor.run_step served
        generalize takenIn _ = taken at stepped
        cases stepped with
        | halted read invalid =>
            exact ⟨_, rfl, (Instruction.isValid_eq_false_iff _).mp invalid, _, _, reported, read,
              rfl⟩
  · rintro ⟨opcode, rfl, lockup, traced, fetched, reported, read, rfl⟩
    obtain ⟨log, rfl⟩ := traceInstruction_frame reported
    have served : Memory.read { machine.bus with log } machine.processor.registers.pc =
      .ok (opcode, fetched) := read
    have halted := ((Processor.lockup_law served).halted lockup).1
    rw [step, reported, bind_ok, transact_eq, halted, map_ok, bind_ok]
    rfl

/-- The run makes these steps, and has not ended after any of them. -/
structure Goes (condition : Condition D) (start : Machine D) (spent : List Nat)
    (last : Machine D) : Prop where
  steps : Steps start spent last
  earlier : ∀ {fewer : List Nat} {middle : Machine D}, Steps start fewer middle →
    fewer.length < spent.length → GoesOn condition fewer middle
  waits : Waits condition spent last

/-- A run fails with the first step that does. -/
theorem Iterated.fails_iff {condition : Condition D} {start : Machine D} {fault : Fault}
    {outcome : Except Crash (Except Fault RunReport × Machine D)}
    (ran : ∃ spent last, Iterated condition start spent last outcome) :
    outcome = .ok (.error fault, after) ↔
      ∃ spent last, Goes condition start spent last ∧ last.step = .ok (.error fault, after) := by
  constructor
  · rintro rfl
    obtain ⟨spent, last, iterated⟩ := ran
    cases iterated.ending with
    | failed waits failed =>
        exact ⟨spent, last, ⟨iterated.steps, iterated.earlier, waits⟩, failed⟩
  · rintro ⟨spent, last, goes, failed⟩
    obtain ⟨_, _, iterated⟩ := ran
    have here : Iterated condition start spent last (.ok (.error fault, after)) :=
      ⟨goes.steps, goes.earlier, .failed goes.waits failed⟩
    exact (iterated.unique here).2.2

/-- The opcode at the program counter locks up the processor, and it is stored there. -/
structure Stuck (machine : Machine D) (opcode : UInt8) : Prop where
  sound : machine.bus.Sound
  lockup : opcode ∈ Instruction.lockups
  stored : machine.bus.ownerKind? machine.processor.registers.pc = some .ram ∨
    machine.bus.ownerKind? machine.processor.registers.pc = some .rom
  seen : machine.bus.peek machine.processor.registers.pc = .ok opcode

/-- What is done to a machine from inside: it steps and runs, and its calls may fail. -/
inductive Onward (machine : Machine D) : Machine D → Prop
  | start : Onward machine machine
  | step {middle after : Machine D} {result : Except Fault Nat} (onward : Onward machine middle)
      (done : middle.step = .ok (result, after)) : Onward machine after
  | run {middle after : Machine D} {stop : Stop D} {limit : Nat} {result : Except Fault RunReport}
      (onward : Onward machine middle) (done : middle.run stop limit = .ok (result, after)) :
      Onward machine after
  | runFor {middle after : Machine D} {time : Nat} {result : Except Fault RunReport}
      (onward : Onward machine middle) (done : middle.runFor time = .ok (result, after)) :
      Onward machine after

/-- An opcode that locks up the processor is listed without a look at other addresses. -/
theorem traceInstruction_lockup (lockup : opcode ∈ Instruction.lockups)
    (seen : machine.bus.peek machine.processor.registers.pc = .ok opcode) :
    ∃ log, machine.traceInstruction =
      .ok { machine with bus := { machine.bus with log } } := by
  rw [traceInstruction]
  split
  · have invalid := (Instruction.isValid_eq_false_iff opcode).mpr lockup
    have short : (Instruction.ofOpcode opcode).length = 1 := by
      rcases Instruction.ofOpcode_invalid opcode with valid | none
      · cases invalid.symm.trans valid
      · rw [Instruction.length, none]
    have here : machine.processor.registers.pc + UInt16.ofNat 0 =
        machine.processor.registers.pc := UInt16.add_zero _
    have listed : Listing.lineAt machine.bus.peek machine.processor.registers.pc =
        .ok (Listing.line machine.processor.registers.pc [opcode], 1) := by
      rw [Listing.lineAt, seen, bind_ok, short]
      simp only [List.range_one, List.mapM_cons, List.mapM_nil, here, seen, bind_ok, pure_eq_ok]
    rw [listed]
    exact ⟨_, rfl⟩
  · exact ⟨machine.bus.log, rfl⟩

namespace Stuck

/-- Other hits and another log do not get the machine out. -/
theorem rests (stuck : machine.Stuck opcode) (rests : Rests machine after) :
    after.Stuck opcode := by
  obtain ⟨hits, log, rfl⟩ := rests
  exact ⟨⟨stuck.sound.filled, stuck.sound.owned⟩, stuck.lockup, stuck.stored, stuck.seen⟩

/-- A step fails and leaves the machine as it is. -/
theorem step (stuck : machine.Stuck opcode) :
    ∃ next, machine.step = .ok (.error (machine.lockup opcode), next) ∧ Rests machine next := by
  obtain ⟨log, traced⟩ := traceInstruction_lockup stuck.lockup stuck.seen
  have still : machine.Rests (machine.noted machine.bus.hits log) := ⟨_, _, rfl⟩
  have later := stuck.rests still
  obtain ⟨kind, answers, storage⟩ : ∃ kind,
      (machine.noted machine.bus.hits log).bus.ownerKind? machine.processor.registers.pc =
        some kind ∧ kind ≠ .io := by
    rcases later.stored with ram | rom
    · exact ⟨_, ram, nofun⟩
    · exact ⟨_, rom, nofun⟩
  obtain ⟨value, seen, read⟩ := later.sound.read_storage answers storage
  cases seen.symm.trans later.seen
  refine ⟨_, step_fails_iff.mpr ⟨opcode, rfl, stuck.lockup, _, _, traced, read, rfl⟩, ?_⟩
  obtain ⟨hits, log, same⟩ :=
    (machine.noted machine.bus.hits log).bus.notice_frame .read
      machine.processor.registers.pc opcode
  rw [same]
  exact ⟨_, _, rfl⟩

/-- A run ends before a step succeeds. -/
theorem iterated (stuck : machine.Stuck opcode) {condition : Condition D} {spent : List Nat}
    {last : Machine D} {result : Except Fault RunReport}
    (iterated : Iterated condition machine.dropStaleHits spent last (.ok (result, after))) :
    Rests machine after := by
  have start := machine.dropStaleHits_rests
  obtain ⟨next, failed, rests⟩ := (stuck.rests start).step
  have unmoved : ∀ {fewer : List Nat} {middle : Machine D},
      Steps machine.dropStaleHits fewer middle → middle = machine.dropStaleHits := by
    intro fewer middle steps
    induction steps with
    | none => rfl
    | more _ step ih =>
        rw [ih, failed] at step
        cases step
  have here := unmoved iterated.steps
  subst here
  cases iterated.ending with
  | stopped holds => exact start.trans ⟨_, _, rfl⟩
  | hit hit => exact start.trans ⟨_, _, rfl⟩
  | failed waits again =>
      cases failed.symm.trans again
      exact start.trans rests

/-- Nothing from inside gets the machine out. -/
theorem onward (stuck : machine.Stuck opcode) (onward : machine.Onward after) :
    Rests machine after := by
  induction onward with
  | start => exact ⟨_, _, rfl⟩
  | step _ done ih =>
      obtain ⟨next, failed, rests⟩ := (stuck.rests ih).step
      cases failed.symm.trans done
      exact ih.trans rests
  | @run middle _ stop limit _ _ done ih =>
      obtain ⟨spent, last, iterated⟩ := middle.run_iterated stop limit
      rw [done] at iterated
      exact ih.trans ((stuck.rests ih).iterated iterated)
  | @runFor middle _ time _ _ done ih =>
      obtain ⟨spent, last, iterated⟩ := middle.runFor_iterated time
      rw [done] at iterated
      exact ih.trans ((stuck.rests ih).iterated iterated)

end Stuck

/-- What becomes of a machine that meets an opcode which locks up the processor. -/
structure LockupLaws (machine : Machine D) : Prop where
  /-- Where the program counter is mapped, there is an opcode to read. -/
  mapped : machine.bus.Sound → ∀ id,
    machine.bus.owner machine.processor.registers.pc = some id →
      ∃ opcode fetched,
        machine.bus.read machine.processor.registers.pc = .ok (opcode, fetched)
  processor : ∀ opcode fetched,
    machine.bus.read machine.processor.registers.pc = .ok (opcode, fetched) →
      machine.processor.LockupLaw machine.bus opcode fetched
  /-- The listing of such an opcode is no obstacle. -/
  traced : ∀ opcode ∈ Instruction.lockups,
    (machine.trace = true → machine.bus.peek machine.processor.registers.pc = .ok opcode) →
      ∃ log, machine.traceInstruction = .ok { machine with bus := { machine.bus with log } }
  step : ∀ fault after, machine.step = .ok (.error fault, after) ↔
    ∃ opcode, fault = machine.lockup opcode ∧ machine.Halts opcode after
  run : ∀ stop limit fault after, machine.run stop limit = .ok (.error fault, after) ↔
    ∃ spent last opcode,
      Goes (.upTo limit fun _ machine => stop machine.processor machine.bus)
          machine.dropStaleHits spent last ∧
        fault = last.lockup opcode ∧ last.Halts opcode after
  runFor : ∀ time fault after, machine.runFor time = .ok (.error fault, after) ↔
    ∃ spent last opcode, Goes (.timed time) machine.dropStaleHits spent last ∧
      fault = last.lockup opcode ∧ last.Halts opcode after
  stuck : ∀ opcode after, machine.Stuck opcode → machine.Onward after →
    Rests machine after ∧ ∃ next, after.step = .ok (.error (machine.lockup opcode), next)

/-- Every machine obeys the laws of opcodes that lock up. -/
theorem lockup_leaves_no_trace (machine : Machine D) : machine.LockupLaws where
  mapped sound _ owned := sound.read owned
  processor _ _ read := Processor.lockup_law read
  traced opcode lockup listed := by
    by_cases traces : machine.trace = true
    · exact traceInstruction_lockup lockup (listed traces)
    · rw [traceInstruction, if_neg traces]
      exact ⟨machine.bus.log, rfl⟩
  step _ _ := step_fails_iff
  run stop limit fault after := by
    rw [Iterated.fails_iff (machine.run_iterated stop limit)]
    simp only [step_fails_iff, exists_and_left]
  runFor time fault after := by
    rw [Iterated.fails_iff (machine.runFor_iterated time)]
    simp only [step_fails_iff, exists_and_left]
  stuck opcode after stuck onward := by
    have rests := stuck.onward onward
    obtain ⟨next, failed, _⟩ := (stuck.rests rests).step
    refine ⟨rests, next, ?_⟩
    obtain ⟨hits, log, rfl⟩ := rests
    exact failed

end EightBit.Machine
