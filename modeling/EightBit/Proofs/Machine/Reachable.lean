import EightBit.Machine.Config
import EightBit.Proofs.Machine.Restore
import EightBit.Proofs.Machine.Run
import EightBit.Proofs.Register.Settled

/-
The machines that calls lead to. Whatever is called, the bus stays sound and the status of the
processor stays settled.
-/

namespace EightBit

variable {D : Type}

/-- Sensing touches the lines only. -/
theorem Bus.senseAny_frame (bus : Bus D) (connected : List Line) :
    ∃ lines, (bus.senseAny connected).2 = { bus with lines } := by
  induction connected generalizing bus with
  | nil => exact ⟨bus.lines, rfl⟩
  | cons line connected ih => exact ih (bus.sense line).2

namespace Machine

/-- The invariant of a machine. -/
structure Sound (machine : Machine D) : Prop where
  bus : machine.bus.Sound
  processor : machine.processor.Settled

/-- Sampling reaches the latch, the lines and the log. -/
theorem sample_frame (machine : Machine D) (connected : List Line) (interrupt : Interrupt) :
    ∃ pending lines log, machine.sample connected interrupt =
      { machine with
        processor := { machine.processor with pending }
        bus := { machine.bus with lines, log } } := by
  obtain ⟨processor, bus, irqLines, nmiLines, trace⟩ := machine
  obtain ⟨lines, sensed⟩ := bus.senseAny_frame connected
  rw [sample]
  dsimp only
  rw [sensed]
  split
  · exact ⟨_, lines, _, rfl⟩
  · exact ⟨processor.pending, lines, bus.log, rfl⟩

/-- Sensing the lines touches the latch, the lines and the log. -/
theorem sampleLines_frame (machine : Machine D) :
    ∃ pending lines log, machine.sampleLines =
      { machine with
        processor := { machine.processor with pending }
        bus := { machine.bus with lines, log } } := by
  obtain ⟨first, firstLines, firstLog, irq⟩ := machine.sample_frame machine.irqLines .irq
  obtain ⟨pending, lines, log, nmi⟩ :=
    (machine.sample machine.irqLines .irq).sample_frame machine.nmiLines .nmi
  refine ⟨pending, lines, log, nmi.trans ?_⟩
  rw [irq]

theorem Sound.sampleLines {machine : Machine D} (sound : machine.Sound) :
    machine.sampleLines.Sound := by
  obtain ⟨pending, lines, log, same⟩ := machine.sampleLines_frame
  rw [same]
  exact ⟨⟨sound.bus.filled, sound.bus.owned⟩, sound.processor⟩

/-- Taking the hits at the end of a run keeps the invariant. -/
theorem Sound.finish {outcome : Except Fault Nat × Machine D} (sound : outcome.2.Sound) :
    (finish outcome).2.Sound := by
  obtain ⟨result, machine⟩ := outcome
  cases result with
  | error fault => exact sound
  | ok cycles => exact ⟨⟨sound.bus.filled, sound.bus.owned⟩, sound.processor⟩

/-- The hits go, and the log may say so. -/
theorem dropStaleHits_frame (machine : Machine D) :
    ∃ log, machine.dropStaleHits =
      { machine with bus := { machine.bus with hits := #[], log } } := by
  obtain ⟨processor, bus, irqLines, nmiLines, trace⟩ := machine
  unfold dropStaleHits
  dsimp only
  split
  · exact ⟨bus.log, rfl⟩
  · exact ⟨_, rfl⟩

/-- No hit is left after the old ones were dropped. -/
theorem dropStaleHits_unhit (machine : Machine D) :
    machine.dropStaleHits.bus.hasHits = false := by
  obtain ⟨log, same⟩ := machine.dropStaleHits_frame
  rw [same]
  rfl

/-- Without hits nothing is dropped. -/
theorem dropStaleHits_eq {machine : Machine D} (empty : machine.bus.hits = #[]) :
    machine.dropStaleHits = machine := by
  obtain ⟨processor, ⟨regions, dispatch, watchpoints, hits, lines, log, notes⟩, irqLines, nmiLines,
    trace⟩ := machine
  cases empty
  rfl

/-- Dropping old hits keeps the invariant. -/
theorem Sound.dropStaleHits {machine : Machine D} (sound : machine.Sound) :
    machine.dropStaleHits.Sound := by
  obtain ⟨log, same⟩ := machine.dropStaleHits_frame
  rw [same]
  exact ⟨⟨sound.bus.filled, sound.bus.owned⟩, sound.processor⟩

/-- A described region is storage that fills its range. -/
theorem region_filled {config : RegionConfig} {region : Region D}
    (done : config.region = .ok region) : region.Filled := by
  obtain ⟨range, made, rest⟩ := Outcome.bind_eq_ok_iff.mp done
  split at rest
  · cases rest
    exact Region.filled_ram _ _ _
  · cases rest
    exact Region.filled_rom _ _ _
  · cases rest

/-- A machine that comes from a configuration is sound. -/
theorem ofConfig_sound {config : MachineConfig} {machine : Machine D}
    (done : ofConfig config = .ok machine) : machine.Sound := by
  obtain ⟨bus, built, rest⟩ := Outcome.bind_eq_ok_iff.mp done
  cases rest
  refine ⟨?_, Processor.settled_initial⟩
  have start : (Bus.empty : Bus D).Sound := Bus.sound_empty
  generalize (Bus.empty : Bus D) = first at built start
  generalize config.regions = entries at built
  induction entries generalizing first with
  | nil =>
      cases built
      exact start
  | cons entry entries ih =>
      rw [List.foldlM_cons] at built
      obtain ⟨next, added, rest⟩ := Outcome.bind_eq_ok_iff.mp built
      obtain ⟨region, described, same⟩ := Outcome.bind_eq_ok_iff.mp added
      cases same
      exact ih _ (start.add (region_filled described)) rest

variable [Peripheral D]

/-- A transaction changes the processor and the bus. -/
theorem transact_eq {α : Type} (machine : Machine D)
    (act : Processor → Transaction (α × Processor)) :
    machine.transact act =
      (fun outcome => (outcome.1.1,
        { machine with processor := outcome.1.2, bus := outcome.2 })) <$>
        (act machine.processor).run machine.bus := by
  obtain ⟨processor, bus, irqLines, nmiLines, trace⟩ := machine
  rw [transact]
  cases (act processor).run bus with
  | error crash => rfl
  | ok outcome => rfl

/-- Loading changes the bus. -/
theorem load_eq (machine : Machine D) (address : Address) (bytes : List UInt8) :
    machine.load address bytes =
      (fun outcome => (outcome.1, { machine with bus := outcome.2 })) <$>
        machine.bus.copy address bytes := by
  obtain ⟨processor, bus, irqLines, nmiLines, trace⟩ := machine
  rw [load]
  cases bus.copy address bytes with
  | error crash => rfl
  | ok outcome => rfl

/-- A transaction that settles the status keeps the invariant. -/
theorem Sound.transact {α : Type} {machine after : Machine D} {result : α}
    {act : Processor → Transaction (α × Processor)} (sound : machine.Sound)
    (settles : (act machine.processor).Ensures fun outcome => outcome.2.Settled)
    (done : machine.transact act = .ok (result, after)) : after.Sound := by
  rw [transact_eq] at done
  obtain ⟨outcome, served, same⟩ := Outcome.map_eq_ok_iff.mp done
  cases same
  exact ⟨sound.bus.follows (Bus.run_follows served), settles.run served⟩

theorem Sound.tick {machine : Machine D} (sound : machine.Sound) (cycles : Nat) :
    (machine.tick cycles).Sound :=
  ⟨sound.bus.follows (machine.bus.tick_follows cycles), sound.processor⟩

theorem Sound.load {machine after : Machine D} {address : Address} {bytes : List UInt8}
    {result : Except Fault Unit} (sound : machine.Sound)
    (done : machine.load address bytes = .ok (result, after)) : after.Sound := by
  rw [load_eq] at done
  obtain ⟨outcome, copied, same⟩ := Outcome.map_eq_ok_iff.mp done
  cases same
  exact ⟨sound.bus.follows (Bus.copy_follows copied), sound.processor⟩

theorem Sound.reset {machine after : Machine D} {cycles : Nat} (sound : machine.Sound)
    (done : machine.reset = .ok (cycles, after)) : after.Sound := by
  obtain ⟨⟨spent, middle⟩, entered, rest⟩ := Outcome.bind_eq_ok_iff.mp done
  cases rest
  exact (sound.transact (Processor.reset_settled sound.processor) entered).tick _

/-- The report of an instruction reaches the log. -/
theorem traceInstruction_frame {machine after : Machine D}
    (traced : machine.traceInstruction = .ok after) :
    ∃ log, after = { machine with bus := { machine.bus with log } } := by
  rw [traceInstruction] at traced
  split at traced
  · obtain ⟨line, _, rest⟩ := Outcome.bind_eq_ok_iff.mp traced
    cases rest
    exact ⟨_, rfl⟩
  · cases traced
    exact ⟨machine.bus.log, rfl⟩

/-- Reporting an instruction keeps the invariant. -/
theorem Sound.traceInstruction {machine after : Machine D} (sound : machine.Sound)
    (traced : machine.traceInstruction = .ok after) : after.Sound := by
  obtain ⟨log, rfl⟩ := traceInstruction_frame traced
  exact ⟨⟨sound.bus.filled, sound.bus.owned⟩, sound.processor⟩

/-- A step keeps the invariant, whether it succeeds or fails. -/
theorem Sound.step {machine after : Machine D} {result : Except Fault Nat} (sound : machine.Sound)
    (done : machine.step = .ok (result, after)) : after.Sound := by
  obtain ⟨traced, reported, rest⟩ := Outcome.bind_eq_ok_iff.mp done
  have start := sound.traceInstruction reported
  obtain ⟨⟨outcome, middle⟩, executed, rest⟩ := Outcome.bind_eq_ok_iff.mp rest
  have kept := start.transact (Processor.step_settled start.processor) executed
  cases outcome with
  | error fault =>
      cases rest
      exact kept
  | ok cycles =>
      cases rest
      exact (kept.tick cycles).sampleLines

/-- Steps that are repeated keep the invariant. -/
theorem Sound.stepUntil {machine after : Machine D} (sound : machine.Sound)
    {done : Nat → Machine D → Except Crash Bool} {allowed : Nat}
    {result : Except Fault RunReport}
    (ran : Machine.finish <$> Machine.stepUntil done allowed 0 machine.dropStaleHits =
      .ok (result, after)) : after.Sound := by
  obtain ⟨outcome, stepped, same⟩ := Outcome.map_eq_ok_iff.mp ran
  have kept : outcome.2.Sound := stepUntil_keeps Sound.step sound.dropStaleHits stepped
  have finished := kept.finish
  rwa [same] at finished

theorem Sound.run {machine after : Machine D} {stop : Stop D} {limit : Nat}
    {result : Except Fault RunReport} (sound : machine.Sound)
    (ran : machine.run stop limit = .ok (result, after)) : after.Sound :=
  sound.stepUntil ran

theorem Sound.runFor {machine after : Machine D} {cycles : Nat}
    {result : Except Fault RunReport} (sound : machine.Sound)
    (ran : machine.runFor cycles = .ok (result, after)) : after.Sound :=
  sound.stepUntil ran

theorem Sound.runProcessor {machine after : Machine D} {stop : Stop D} {limit : Nat}
    {result : Except Fault Unit} (sound : machine.Sound)
    (ran : runProcessor stop limit machine = .ok (result, after)) : after.Sound := by
  induction limit generalizing machine with
  | zero =>
      rw [Machine.runProcessor.eq_def] at ran
      obtain ⟨holds, _, rest⟩ := Outcome.bind_eq_ok_iff.mp ran
      split at rest <;> cases rest <;> exact sound
  | succ limit ih =>
      rw [Machine.runProcessor.eq_def] at ran
      obtain ⟨holds, _, rest⟩ := Outcome.bind_eq_ok_iff.mp ran
      split at rest
      · cases rest
        exact sound
      · obtain ⟨⟨outcome, middle⟩, stepped, rest⟩ := Outcome.bind_eq_ok_iff.mp rest
        have kept := sound.transact (Processor.step_settled sound.processor) stepped
        cases outcome with
        | error fault =>
            cases rest
            exact kept
        | ok cycles => exact ih kept rest

/-- A restore keeps the invariant of the bus, also if it fails. -/
theorem restoreBus_sound {bus after : Bus D} (sound : bus.Sound) {saved : SaveState}
    {result : Except Fault Unit} (done : restoreBus bus saved = .ok (result, after)) :
    after.Sound := by
  obtain ⟨log, stages⟩ := restoreBus_stages done
  have start : Bus.Sound { bus with log } := ⟨sound.filled, sound.owned⟩
  rcases stages with rfl | ⟨outcome, middle, restored, mapped⟩
  · exact start
  · have kept := start.follows (restoreRegions_follows restored)
    rcases mapped with rfl | rfl
    · exact kept
    · exact kept.applyLayout saved.layout

/-- A restore keeps the invariant, also if it fails. -/
theorem Sound.restore {machine after : Machine D} {saved : SaveState} {result : Except Fault Unit}
    (sound : machine.Sound) (done : machine.restore saved = .ok (result, after)) :
    after.Sound := by
  obtain ⟨processor, bus, irqLines, nmiLines, trace⟩ := machine
  obtain ⟨⟨outcome, later⟩, restored, rest⟩ := Outcome.bind_eq_ok_iff.mp done
  have kept := restoreBus_sound sound.bus restored
  cases outcome with
  | error fault =>
      cases rest
      exact ⟨kept, sound.processor⟩
  | ok _ =>
      cases rest
      exact ⟨kept, Processor.settled_ofImage saved.processor⟩

/-- The calls that work on the register file and memory without a processor around them. -/
inductive RegisterCall : (Registers → Transaction Registers) → Prop
  | execute (instruction : Instruction) :
      RegisterCall fun registers => Prod.fst <$> instruction.execute registers
  | enter (interrupt : Interrupt) : RegisterCall interrupt.enter
  | locate (mode : Mode) : RegisterCall fun registers => Prod.snd <$> mode.locate registers
  | push (value : UInt8) : RegisterCall (EightBit.push value)
  | pull : RegisterCall fun registers => Prod.snd <$> EightBit.pull registers
  | powerUp : RegisterCall fun registers => pure registers.powerUp

/-- Whatever is called on the registers, the status stays settled. -/
theorem RegisterCall.settled {act : Registers → Transaction Registers} (call : RegisterCall act)
    {registers : Registers} (settled : registers.p.Settled) :
    (act registers).Ensures fun after => after.p.Settled := by
  cases call with
  | execute instruction => exact (instruction.execute_settled settled).bind fun _ kept => kept
  | enter interrupt => exact interrupt.enter_settled settled
  | locate mode =>
      refine (mode.locate_status registers).bind fun found same => ?_
      change found.2.p.Settled
      rwa [same]
  | push value => exact settled
  | pull => exact fun _ => settled
  | powerUp => exact ⟨rfl, rfl⟩

/-- One call on a machine, its bus or its processor. The status is never assigned. -/
inductive Step (machine : Machine D) : Machine D → Prop
  | bus {after : Bus D} (step : machine.bus.Step after) : Step machine { machine with bus := after }
  | load {address : Address} {bytes : List UInt8} {result : Except Fault Unit} {after : Machine D}
      (done : machine.load address bytes = .ok (result, after)) : Step machine after
  | setResetVector {address : Address} {result : Except Fault Unit} {after : Machine D}
      (done : machine.setResetVector address = .ok (result, after)) : Step machine after
  | reset {cycles : Nat} {after : Machine D} (done : machine.reset = .ok (cycles, after)) :
      Step machine after
  | step {result : Except Fault Nat} {after : Machine D}
      (done : machine.step = .ok (result, after)) : Step machine after
  | run {stop : Stop D} {limit : Nat} {result : Except Fault RunReport} {after : Machine D}
      (done : machine.run stop limit = .ok (result, after)) : Step machine after
  | runFor {cycles : Nat} {result : Except Fault RunReport} {after : Machine D}
      (done : machine.runFor cycles = .ok (result, after)) : Step machine after
  | restore {saved : SaveState} {result : Except Fault Unit} {after : Machine D}
      (done : machine.restore saved = .ok (result, after)) : Step machine after
  | request (interrupt : Interrupt) : Step machine (machine.request interrupt)
  | withdraw (interrupt : Interrupt) : Step machine (machine.withdraw interrupt)
  | connectIrq (line : Line) : Step machine (machine.connectIrq line)
  | connectNmi (line : Line) : Step machine (machine.connectNmi line)
  | runProcessor {stop : Stop D} {limit : Nat} {result : Except Fault Unit} {after : Machine D}
      (done : runProcessor stop limit machine = .ok (result, after)) : Step machine after
  | stepProcessor {result : Except Fault Nat} {after : Machine D}
      (done : machine.transact Processor.step = .ok (result, after)) : Step machine after
  | resetProcessor {cycles : Nat} {after : Machine D}
      (done : machine.transact Processor.reset = .ok (cycles, after)) : Step machine after
  | restoreProcessor (image : ProcessorImage) :
      Step machine { machine with processor := .ofImage image }
  | renewProcessor : Step machine { machine with processor := .initial }
  | registers {act : Registers → Transaction Registers} (call : RegisterCall act)
      {registers : Registers} {bus : Bus D}
      (done : (act machine.processor.registers).run machine.bus = .ok (registers, bus)) :
      Step machine { machine with processor := { machine.processor with registers }, bus }
  | assign {registers : Registers} (kept : registers.p = machine.processor.registers.p) :
      Step machine { machine with processor := { machine.processor with registers } }

/-- Every step of a machine keeps the invariant. -/
theorem Sound.call {machine after : Machine D} (sound : machine.Sound)
    (step : machine.Step after) : after.Sound := by
  cases step with
  | bus step => exact ⟨sound.bus.step step, sound.processor⟩
  | load done => exact sound.load done
  | setResetVector done => exact sound.load done
  | reset done => exact sound.reset done
  | step done => exact sound.step done
  | run done => exact sound.run done
  | runFor done => exact sound.runFor done
  | restore done => exact sound.restore done
  | request interrupt => exact ⟨⟨sound.bus.filled, sound.bus.owned⟩, sound.processor⟩
  | withdraw interrupt => exact ⟨sound.bus, sound.processor⟩
  | connectIrq line => exact ⟨sound.bus, sound.processor⟩
  | connectNmi line => exact ⟨sound.bus, sound.processor⟩
  | runProcessor done => exact sound.runProcessor done
  | stepProcessor done => exact sound.transact (Processor.step_settled sound.processor) done
  | resetProcessor done => exact sound.transact (Processor.reset_settled sound.processor) done
  | restoreProcessor image => exact ⟨sound.bus, Processor.settled_ofImage image⟩
  | renewProcessor => exact ⟨sound.bus, Processor.settled_initial⟩
  | registers call done =>
      exact ⟨sound.bus.follows (Bus.run_follows done), (call.settled sound.processor).run done⟩
  | assign kept => exact ⟨sound.bus, (congrArg Status.Settled kept).mpr sound.processor⟩

/-- The machine is what some calls make of a new one. -/
inductive Reachable : Machine D → Prop
  | flat : Reachable flat
  | ofConfig {config : MachineConfig} {machine : Machine D}
      (done : ofConfig config = .ok machine) : Reachable machine
  | step {machine after : Machine D} (reached : Reachable machine) (step : machine.Step after) :
      Reachable after

/-- Every machine that calls lead to is sound. -/
theorem Reachable.sound {machine : Machine D} (reached : machine.Reachable) : machine.Sound := by
  induction reached with
  | flat => exact ⟨Bus.reachable_flat.sound, Processor.settled_initial⟩
  | ofConfig done => exact ofConfig_sound done
  | step _ step ih => exact ih.call step

end Machine

end EightBit
