import EightBit.Machine.Run
import EightBit.Proofs.Outcome

/-
What holds of every step of a run holds of the whole run, for one machine and for two that run side
by side.
-/

namespace EightBit.Machine

open Outcome

variable {D : Type} [Peripheral D]

/-- A run looks at its condition, and goes on from the result of a step if that left no hit. -/
theorem stepUntil_unfold (done : Nat → Machine D → Except Crash Bool) (allowed cycles : Nat)
    (machine : Machine D) :
    stepUntil done allowed cycles machine =
      (done cycles machine >>= fun holds =>
        if holds = true then .ok (.ok cycles, machine)
        else match allowed with
          | 0 => .ok (.ok cycles, machine)
          | allowed + 1 => machine.step >>= fun outcome =>
              match outcome.1 with
              | .error fault => .ok (.error fault, outcome.2)
              | .ok spent =>
                  if outcome.2.bus.hasHits = true then .ok (.ok (cycles + spent), outcome.2)
                  else stepUntil done allowed (cycles + spent) outcome.2) := by
  rw [stepUntil.eq_def]
  rfl

/-- What every step keeps is kept by a run. -/
theorem stepUntil_keeps {condition : Machine D → Prop}
    (kept : ∀ {machine after : Machine D} {result : Except Fault Nat}, condition machine →
      machine.step = .ok (result, after) → condition after)
    {done : Nat → Machine D → Except Crash Bool} {allowed cycles : Nat} {machine after : Machine D}
    {result : Except Fault Nat} (start : condition machine)
    (ran : stepUntil done allowed cycles machine = .ok (result, after)) : condition after := by
  induction allowed generalizing cycles machine with
  | zero =>
      rw [stepUntil_unfold] at ran
      obtain ⟨holds, _, rest⟩ := bind_eq_ok_iff.mp ran
      split at rest <;> cases rest <;> exact start
  | succ allowed ih =>
      rw [stepUntil_unfold] at ran
      obtain ⟨holds, _, rest⟩ := bind_eq_ok_iff.mp ran
      split at rest
      · cases rest
        exact start
      · obtain ⟨⟨outcome, middle⟩, stepped, rest⟩ := bind_eq_ok_iff.mp rest
        have next := kept start stepped
        cases outcome with
        | error fault =>
            cases rest
            exact next
        | ok spent =>
            dsimp only at rest
            split at rest
            · cases rest
              exact next
            · exact ih next rest

/-- Machines whose steps match run side by side. -/
theorem stepUntil_matched {related : Machine D → Machine D → Prop}
    (steps : ∀ {first second : Machine D}, related first second →
      Matched (fun left right => left.1 = right.1 ∧ related left.2 right.2)
        first.step second.step)
    (hits : ∀ {first second : Machine D}, related first second →
      first.bus.hasHits = second.bus.hasHits)
    {done : Nat → Machine D → Except Crash Bool}
    (holds : ∀ {first second : Machine D} (cycles : Nat), related first second →
      done cycles first = done cycles second)
    (allowed cycles : Nat) {first second : Machine D} (start : related first second) :
    Matched (fun left right => left.1 = right.1 ∧ related left.2 right.2)
      (stepUntil done allowed cycles first) (stepUntil done allowed cycles second) := by
  induction allowed generalizing cycles first second with
  | zero =>
      rw [stepUntil_unfold, stepUntil_unfold, holds cycles start]
      cases done cycles second with
      | error crash => exact .error crash
      | ok stops =>
          cases stops
          · exact .ok ⟨rfl, start⟩
          · exact .ok ⟨rfl, start⟩
  | succ allowed ih =>
      rw [stepUntil_unfold, stepUntil_unfold, holds cycles start]
      cases done cycles second with
      | error crash => exact .error crash
      | ok stops =>
          cases stops
          · refine (steps start).bind ?_
            rintro ⟨outcome, left⟩ ⟨_, right⟩ ⟨rfl, next⟩
            cases outcome with
            | error fault => exact .ok ⟨rfl, next⟩
            | ok spent =>
                dsimp only
                rw [hits next]
                split
                · exact .ok ⟨rfl, next⟩
                · exact ih _ next
          · exact .ok ⟨rfl, start⟩

end EightBit.Machine
