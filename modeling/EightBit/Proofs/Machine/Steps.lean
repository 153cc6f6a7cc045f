import EightBit.Proofs.Bus.Noticed
import EightBit.Proofs.Bus.Simulation
import EightBit.Proofs.Execution.Accesses
import EightBit.Proofs.Execution.Cost
import EightBit.Proofs.Machine.Reachable
import EightBit.Proofs.Processor.Latch
import Mathlib.Algebra.GroupWithZero.Nat

/-
Steps of a machine, one after the other. A step takes two to fifteen cycles, and the hits that it
leaves are all of its accesses that a watchpoint was waiting for.
-/

namespace EightBit.Machine

open Outcome

variable {D : Type} [Peripheral D] {start machine after : Machine D}

/-- The accesses of the next step that a watchpoint is waiting for. -/
def awaitedAccesses (machine : Machine D) : List WatchHit :=
  (machine.processor.step.accesses machine.bus).filter
    (Watchpoint.await machine.bus.watchpoints)

/-- The processor is reset, and time passes. -/
theorem reset_eq_ok {cycles : Nat} (done : machine.reset = .ok (cycles, after)) :
    ∃ processor bus,
      machine.processor.reset.run machine.bus = .ok ((cycles, processor), bus) ∧
        after = ({ machine with processor, bus } : Machine D).tick cycles := by
  obtain ⟨outcome, made, rest⟩ := bind_eq_ok_iff.mp done
  rw [transact_eq] at made
  obtain ⟨⟨⟨spent, processor⟩, bus⟩, served, same⟩ := map_eq_ok_iff.mp made
  cases same
  cases rest
  exact ⟨processor, bus, served, rfl⟩

/-- The processor steps, time passes, and the lines are sampled. -/
theorem step_eq_ok {cycles : Nat} (stepped : machine.step = .ok (.ok cycles, after)) :
    ∃ log processor bus,
      machine.processor.step.run { machine.bus with log } = .ok ((.ok cycles, processor), bus) ∧
        after = (({ machine with processor, bus } : Machine D).tick cycles).sampleLines := by
  obtain ⟨traced, reported, rest⟩ := bind_eq_ok_iff.mp stepped
  obtain ⟨log, rfl⟩ := traceInstruction_frame reported
  obtain ⟨outcome, executed, rest⟩ := bind_eq_ok_iff.mp rest
  rw [transact_eq] at executed
  obtain ⟨⟨⟨result, processor⟩, bus⟩, served, same⟩ := map_eq_ok_iff.mp executed
  cases same
  cases result with
  | error fault => cases rest
  | ok spent =>
      cases rest
      exact ⟨log, processor, bus, served, rfl⟩

/-- A step that fails leaves the processor alone and lets no time pass. -/
theorem step_eq_error {fault : Fault} (failed : machine.step = .ok (.error fault, after)) :
    ∃ log bus,
      machine.processor.step.run { machine.bus with log } =
          .ok ((.error fault, machine.processor), bus) ∧
        after = { machine with bus } := by
  obtain ⟨traced, reported, rest⟩ := bind_eq_ok_iff.mp failed
  obtain ⟨log, rfl⟩ := traceInstruction_frame reported
  obtain ⟨outcome, executed, rest⟩ := bind_eq_ok_iff.mp rest
  rw [transact_eq] at executed
  obtain ⟨⟨⟨result, processor⟩, bus⟩, served, same⟩ := map_eq_ok_iff.mp executed
  cases same
  cases result with
  | ok spent => cases rest
  | error other =>
      cases rest
      obtain ⟨_, rfl⟩ := (Processor.run_step served).failed
      exact ⟨log, bus, served, rfl⟩

/-- A step of the machine that succeeds takes two to fifteen cycles. -/
theorem step_charged {cycles : Nat} (stepped : machine.step = .ok (.ok cycles, after)) :
    2 ≤ cycles ∧ cycles ≤ 15 := by
  obtain ⟨log, processor, bus, served, _⟩ := step_eq_ok stepped
  exact machine.processor.step_charged.run served

/-- The watchpoints notice what the processor accesses, and nothing else. -/
theorem step_noticed {cycles : Nat} (stepped : machine.step = .ok (.ok cycles, after)) :
    Bus.Noticed machine.bus (machine.processor.step.accesses machine.bus) after.bus := by
  obtain ⟨log, processor, bus, served, rfl⟩ := step_eq_ok stepped
  have same : Bus.SameMemory { machine.bus with log } machine.bus := ⟨rfl, rfl⟩
  have reported : Bus.Noticed machine.bus [] { machine.bus with log } := .of_frame rfl rfl
  have executed := reported.trans (Bus.run_noticed served)
  have ticked := executed.trans (bus.tick_noticed cycles)
  obtain ⟨pending, lines, last, sampled⟩ :=
    (({ machine with processor, bus } : Machine D).tick cycles).sampleLines_frame
  rw [List.nil_append, List.append_nil, Bus.sameMemory_simulation.accesses same] at ticked
  rw [sampled]
  exact ⟨ticked.watchpoints, ticked.hits⟩

/-- A step makes far fewer accesses than there is room for hits. -/
theorem hits_step {cycles : Nat} (fresh : machine.bus.hits = #[])
    (stepped : machine.step = .ok (.ok cycles, after)) :
    after.bus.hits.toList = machine.awaitedAccesses := by
  have few : machine.awaitedAccesses.length ≤ Bus.maxHits := by
    have made := machine.processor.step_atMost.length_accesses machine.bus
    have kept := List.length_filter_le (Watchpoint.await machine.bus.watchpoints)
      (machine.processor.step.accesses machine.bus)
    rw [awaitedAccesses, Bus.maxHits]
    omega
  rw [(step_noticed stepped).hits (by rw [fresh]; exact Nat.zero_le _), fresh]
  exact List.take_of_length_le few

/-- Steps that all succeed, and the cycles of each, those of the last one first. -/
inductive Steps (start : Machine D) : List Nat → Machine D → Prop
  | none : Steps start [] start
  | more {spent : List Nat} {middle last : Machine D} {cycles : Nat}
      (steps : Steps start spent middle) (step : middle.step = .ok (.ok cycles, last)) :
      Steps start (cycles :: spent) last

namespace Steps

variable {spent all : List Nat} {middle last : Machine D}

/-- As many steps from the same machine lead to the same machine. -/
theorem unique (one : Steps start spent middle) (other : Steps start all last)
    (same : spent.length = all.length) : spent = all ∧ middle = last := by
  induction one generalizing all last with
  | none =>
      cases other with
      | none => exact ⟨rfl, rfl⟩
      | more _ _ => cases same
  | more _ step ih =>
      cases other with
      | none => cases same
      | more earlier next =>
          obtain ⟨rfl, rfl⟩ := ih earlier (Nat.succ.inj same)
          cases step.symm.trans next
          exact ⟨rfl, rfl⟩

/-- Steps that follow steps are steps. -/
theorem trans {more : List Nat} (steps : Steps start spent middle)
    (rest : Steps middle more last) : Steps start (more ++ spent) last := by
  induction rest with
  | none => exact steps
  | more _ step ih => exact ih.more step

/-- More steps from the same machine pass by the machine that fewer steps lead to. -/
theorem passes (steps : Steps start spent middle) (longer : Steps start all last)
    (fewer : spent.length ≤ all.length) :
    ∃ more, all = more ++ spent ∧ Steps middle more last := by
  induction longer with
  | none =>
      obtain rfl := List.eq_nil_of_length_eq_zero (Nat.le_zero.mp fewer)
      cases steps
      exact ⟨[], rfl, .none⟩
  | @more earlier _ _ cycles rest step ih =>
      rcases Nat.lt_or_eq_of_le fewer with less | same
      · obtain ⟨more, rfl, onward⟩ := ih (Nat.le_of_lt_succ less)
        exact ⟨cycles :: more, rfl, onward.more step⟩
      · obtain ⟨rfl, rfl⟩ := steps.unique (rest.more step) same
        exact ⟨[], rfl, .none⟩

/-- Every step takes at least two cycles. -/
theorem length_le (steps : Steps start spent last) : 2 * spent.length ≤ spent.sum := by
  induction steps with
  | none => exact Nat.le_refl 0
  | more _ step ih =>
      have charged := step_charged step
      rw [List.length_cons, List.sum_cons]
      omega

end Steps

end EightBit.Machine
