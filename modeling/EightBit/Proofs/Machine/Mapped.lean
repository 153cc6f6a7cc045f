import EightBit.Proofs.Bus.Mapped
import EightBit.Proofs.Execution.Cost
import EightBit.Proofs.Machine.Reachable
import EightBit.Proofs.Machine.Trace

/-
Machines whose bus has no gap. Every call has a result, a step takes its time or stops at an opcode
that locks up, and a run goes on until its time is over.
-/

namespace EightBit.Machine

open Outcome Bus

variable {D : Type} {machine : Machine D}

theorem mapped_request (mapped : machine.bus.Mapped) (interrupt : Interrupt) :
    (machine.request interrupt).bus.Mapped := mapped.of_frame rfl rfl

/-- Sensing the lines leaves no gap. -/
theorem mapped_sampleLines (mapped : machine.bus.Mapped) : machine.sampleLines.bus.Mapped := by
  obtain ⟨pending, lines, log, same⟩ := machine.sampleLines_frame
  rw [same]
  exact mapped.of_frame rfl rfl

theorem mapped_dropStaleHits (mapped : machine.bus.Mapped) :
    machine.dropStaleHits.bus.Mapped := by
  obtain ⟨log, same⟩ := machine.dropStaleHits_frame
  rw [same]
  exact mapped.of_frame rfl rfl

variable [Peripheral D]

theorem mapped_tick (mapped : machine.bus.Mapped) (cycles : Nat) :
    (machine.tick cycles).bus.Mapped := mapped.follows (machine.bus.tick_follows cycles)

/-- A transaction of the processor is served, and its result is as promised. -/
theorem transact_served {α : Type} (mapped : machine.bus.Mapped) (condition : α → Prop)
    {act : Processor → Transaction (α × Processor)}
    (ensured : (act machine.processor).Ensures fun outcome => condition outcome.1) :
    Served (fun outcome => outcome.2.bus.Mapped ∧ condition outcome.1) (machine.transact act) := by
  rw [transact_eq]
  exact (mapped.run ensured).map fun _ kept => kept

/-- Without gaps all bytes in a row can be looked at. -/
theorem bytesAt_served {bus : Bus D} (mapped : bus.Mapped) (address : Address) (count : Nat) :
    Served (fun _ => True) (Listing.bytesAt bus.peek address count) := by
  induction count generalizing address with
  | zero => trivial
  | succ count ih =>
      rw [Listing.bytesAt_succ]
      apply (mapped.peek address).bind
      intro first _
      exact (ih address.next).bind fun _ _ => trivial

/-- The next instruction can be looked at wherever it lies. -/
theorem lineAt_served {bus : Bus D} (mapped : bus.Mapped) (address : Address) :
    Served (fun _ => True) (Listing.lineAt bus.peek address) := by
  apply (mapped.peek _).bind
  intro opcode _
  exact (bytesAt_served mapped _ _).bind fun _ _ => trivial

/-- Without gaps every instruction can be reported. -/
theorem traceInstruction_served (mapped : machine.bus.Mapped) :
    Served (fun traced => traced.bus.Mapped) machine.traceInstruction := by
  rw [traceInstruction]
  split
  · exact (lineAt_served mapped _).bind fun _ _ => mapped.of_frame rfl rfl
  · exact mapped

/-- Without gaps a step does not crash, and a step that succeeds is charged. -/
theorem step_served (mapped : machine.bus.Mapped) :
    Served (fun outcome => outcome.2.bus.Mapped ∧ Processor.Charged outcome.1) machine.step := by
  apply (traceInstruction_served mapped).bind
  intro traced kept
  apply (transact_served kept Processor.Charged traced.processor.step_charged).bind
  rintro ⟨result, later⟩ ⟨still, charged⟩
  cases result with
  | error fault => exact ⟨still, charged⟩
  | ok cycles => exact ⟨mapped_sampleLines (mapped_tick still cycles), charged⟩

/-- Without gaps a reset takes seven cycles. -/
theorem reset_served (mapped : machine.bus.Mapped) :
    Served (fun outcome => outcome.2.bus.Mapped ∧ outcome.1 = Interrupt.cycles)
      machine.reset := by
  apply (transact_served mapped (· = Interrupt.cycles) machine.processor.reset_cost).bind
  rintro ⟨cycles, later⟩ ⟨still, same⟩
  exact ⟨mapped_tick still cycles, same⟩

/-- A program of any size is loaded in full, from any address. -/
theorem load_served (mapped : machine.bus.Mapped) (address : Address) (bytes : List UInt8) :
    Served (fun outcome => outcome.2.bus.Mapped ∧ outcome.1 = .ok ())
      (machine.load address bytes) := by
  rw [load_eq]
  exact (mapped.copy address bytes).map fun _ kept => ⟨kept.2, kept.1⟩

/-- A run that was to take a time took it, or it stopped at a watchpoint, or a step failed. -/
def RanFor (time : Nat) : Except Fault RunReport → Prop
  | .ok report => time ≤ report.cycles ∨ report.stoppedOnWatchpoint = true
  | .error fault => Processor.Charged (.error fault)

/-- A step takes at least one cycle, so as many steps as cycles are enough. -/
theorem stepUntil_served (mapped : machine.bus.Mapped) {time allowed elapsed : Nat}
    (enough : time ≤ elapsed + allowed) :
    Served (fun outcome => (finish outcome).2.bus.Mapped ∧ RanFor time (finish outcome).1)
      (stepUntil (fun elapsed _ => return decide (time ≤ elapsed)) allowed elapsed machine) := by
  induction allowed generalizing elapsed machine with
  | zero =>
      rw [stepUntil_unfold]
      have expired : time ≤ elapsed := enough
      rw [pure_eq_ok, bind_ok, if_pos (decide_eq_true expired)]
      exact ⟨mapped.of_frame rfl rfl, .inl expired⟩
  | succ allowed ih =>
      rw [stepUntil_unfold, pure_eq_ok, bind_ok]
      by_cases expired : time ≤ elapsed
      · rw [if_pos (decide_eq_true expired)]
        exact ⟨mapped.of_frame rfl rfl, .inl expired⟩
      · rw [if_neg (fun holds => expired (of_decide_eq_true holds))]
        apply (step_served mapped).bind
        rintro ⟨result, later⟩ ⟨still, charged⟩
        cases result with
        | error fault => exact ⟨still, charged⟩
        | ok spent =>
            dsimp only
            split
            · rename_i hit
              exact ⟨still.of_frame rfl rfl, .inr hit⟩
            · have least : 2 ≤ spent := charged.1
              exact ih still (by omega)

/-- Without gaps a timed run ends after its time, at a watchpoint or with a step that fails. -/
theorem runFor_served (mapped : machine.bus.Mapped) (time : Nat) :
    Served (fun outcome => outcome.2.bus.Mapped ∧ RanFor time outcome.1)
      (machine.runFor time) :=
  (stepUntil_served (mapped_dropStaleHits mapped) (Nat.le_add_left time 0)).map fun _ kept => kept

end EightBit.Machine
