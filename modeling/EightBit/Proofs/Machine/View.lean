import EightBit.Proofs.Bus.View
import EightBit.Proofs.Machine.Reachable

/-
Views of a machine. A machine whose peripherals keep more than those of another one does the same:
the view goes along with every step and every run.
-/

namespace EightBit.Machine

open Outcome

variable {D E : Type}

/-- The machine with its devices seen through a view. -/
def view (view : E → D) (machine : Machine E) : Machine D :=
  ⟨machine.processor, machine.bus.view view, machine.irqLines, machine.nmiLines, machine.trace⟩

/-- A result, and the view of the machine that comes with it. -/
def seen {α : Type} (view : E → D) (outcome : α × Machine E) : α × Machine D :=
  (outcome.1, outcome.2.view view)

variable {view : E → D}

/-- A view that undoes a fit shows the machine as it was. -/
theorem view_view {fit : D → E} (fits : ∀ device, view (fit device) = device)
    (machine : Machine D) : (machine.view fit).view view = machine := by
  rw [Machine.view, Machine.view, Bus.view_view fits]

/-- A change of the result does not concern the view. -/
theorem view_map {α β : Type} (change : α → β) (start : Except Crash (α × Machine E)) :
    Prod.map change id <$> seen view <$> start = seen view <$> Prod.map change id <$> start := by
  cases start with
  | error crash => rfl
  | ok outcome => rfl

theorem sample_view (machine : Machine E) (connected : List Line) (interrupt : Interrupt) :
    (machine.view view).sample connected interrupt =
      (machine.sample connected interrupt).view view := by
  obtain ⟨processor, bus, irqLines, nmiLines, trace⟩ := machine
  have sensed : (bus.view view).senseAny connected = Bus.seen view (bus.senseAny connected) :=
    bus.senseAny_view connected
  simp only [sample, Machine.view, sensed, Bus.seen]
  split
  · rfl
  · rfl

theorem sampleLines_view (machine : Machine E) :
    (machine.view view).sampleLines = machine.sampleLines.view view := by
  have irqLines : (machine.view view).irqLines = machine.irqLines := rfl
  have nmiLines : (machine.view view).nmiLines = machine.nmiLines := rfl
  rw [sampleLines, sampleLines, irqLines, nmiLines, sample_view, sample_view]

theorem dropStaleHits_view (machine : Machine E) :
    (machine.view view).dropStaleHits = machine.dropStaleHits.view view := by
  obtain ⟨processor, ⟨regions, dispatch, watchpoints, ⟨stale⟩, lines, log, notes⟩, irqLines,
    nmiLines, trace⟩ := machine
  cases stale with
  | nil => rfl
  | cons hit stale => rfl

/-- The report of a run is the same, whatever comes before it. -/
theorem finish_view (start : Except Crash (Except Fault Nat × Machine E)) :
    finish <$> seen view <$> start = seen view <$> finish <$> start := by
  cases start with
  | error crash => rfl
  | ok outcome =>
      obtain ⟨result, machine⟩ := outcome
      cases result with
      | error fault => rfl
      | ok cycles => rfl

variable [Peripheral D] [Peripheral E]

/-- A transaction with the view is the view of a transaction. -/
theorem transact_view {α : Type} (faithful : Peripheral.Faithful view) (machine : Machine E)
    (act : Processor → Transaction (α × Processor)) :
    (machine.view view).transact act = seen view <$> machine.transact act := by
  have processor : (machine.view view).processor = machine.processor := rfl
  have bus : (machine.view view).bus = machine.bus.view view := rfl
  rw [transact_eq, transact_eq, processor, bus, Bus.run_view faithful]
  cases (act machine.processor).run machine.bus with
  | error crash => rfl
  | ok outcome => rfl

theorem load_view (faithful : Peripheral.Faithful view) (machine : Machine E) (address : Address)
    (bytes : List UInt8) :
    (machine.view view).load address bytes = seen view <$> machine.load address bytes := by
  have bus : (machine.view view).bus = machine.bus.view view := rfl
  rw [load_eq, load_eq, bus, Bus.copy_view faithful]
  cases machine.bus.copy address bytes with
  | error crash => rfl
  | ok outcome => rfl

theorem tick_view (faithful : Peripheral.Faithful view) (machine : Machine E) (cycles : Nat) :
    (machine.view view).tick cycles = (machine.tick cycles).view view :=
  congrArg (fun bus => Machine.mk machine.processor bus machine.irqLines machine.nmiLines
    machine.trace) (machine.bus.tick_view faithful cycles)

theorem reset_view (faithful : Peripheral.Faithful view) (machine : Machine E) :
    (machine.view view).reset = seen view <$> machine.reset := by
  rw [reset, reset, transact_view faithful]
  cases machine.transact Processor.reset with
  | error crash => rfl
  | ok outcome =>
      rw [map_ok, bind_ok, bind_ok]
      exact congrArg (fun after => Except.ok (outcome.1, after)) (tick_view faithful ..)

theorem traceInstruction_view (faithful : Peripheral.Faithful view) (machine : Machine E) :
    (machine.view view).traceInstruction = Machine.view view <$> machine.traceInstruction := by
  have peek : (machine.view view).bus.peek = machine.bus.peek :=
    funext fun address => machine.bus.peek_view faithful address
  have trace : (machine.view view).trace = machine.trace := rfl
  have pc : (machine.view view).processor = machine.processor := rfl
  rw [traceInstruction, traceInstruction, trace, peek, pc]
  split
  · cases Listing.lineAt machine.bus.peek machine.processor.registers.pc with
    | error crash => rfl
    | ok shown => rfl
  · rfl

/-- A step of the view is the view of a step. -/
theorem step_view (faithful : Peripheral.Faithful view) (machine : Machine E) :
    (machine.view view).step = seen view <$> machine.step := by
  rw [step, step, traceInstruction_view faithful]
  cases machine.traceInstruction with
  | error crash => rfl
  | ok traced =>
      rw [map_ok, bind_ok, bind_ok, transact_view faithful]
      cases traced.transact Processor.step with
      | error crash => rfl
      | ok outcome =>
          obtain ⟨result, after⟩ := outcome
          cases result with
          | error fault => rfl
          | ok cycles =>
              have later : ((after.view view).tick cycles).sampleLines =
                  (after.tick cycles).sampleLines.view view := by
                rw [tick_view faithful, sampleLines_view]
              exact congrArg (fun after => Except.ok (Except.ok cycles, after)) later

/-- The condition sees the view of the machine. -/
theorem stepUntil_view (faithful : Peripheral.Faithful view)
    {done : Nat → Machine D → Except Crash Bool} (allowed cycles : Nat) (machine : Machine E) :
    stepUntil done allowed cycles (machine.view view) =
      seen view <$> stepUntil (fun cycles machine => done cycles (machine.view view)) allowed
        cycles machine := by
  -- The condition looks at the view on both sides, so the two loops end at the same step.
  induction allowed generalizing cycles machine with
  | zero =>
      rw [stepUntil_unfold, stepUntil_unfold]
      cases done cycles (machine.view view) with
      | error crash => rfl
      | ok holds => cases holds <;> rfl
  | succ allowed ih =>
      rw [stepUntil_unfold, stepUntil_unfold, step_view faithful]
      cases done cycles (machine.view view) with
      | error crash => rfl
      | ok holds =>
          cases holds with
          | true => rfl
          | false =>
              cases machine.step with
              | error crash => rfl
              | ok outcome =>
                  obtain ⟨result, after⟩ := outcome
                  cases result with
                  | error fault => rfl
                  | ok spent =>
                      have hits : (after.view view).bus.hasHits = after.bus.hasHits := rfl
                      simp only [bind_ok, map_ok, seen, Bool.false_eq_true, if_false, hits]
                      split
                      · rfl
                      · exact ih (cycles + spent) after

/-- A run of the view is the view of a run whose condition looks through the view. -/
theorem run_view (faithful : Peripheral.Faithful view) (stop : Stop D) (limit : Nat)
    (machine : Machine E) :
    (machine.view view).run stop limit =
      seen view <$> machine.run (fun processor bus => stop processor (bus.view view)) limit := by
  rw [run, run, dropStaleHits_view, stepUntil_view faithful]
  exact finish_view _

theorem runFor_view (faithful : Peripheral.Faithful view) (time : Nat) (machine : Machine E) :
    (machine.view view).runFor time = seen view <$> machine.runFor time := by
  rw [runFor, runFor, dropStaleHits_view, stepUntil_view faithful]
  exact finish_view _

end EightBit.Machine
