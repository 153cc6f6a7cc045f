import EightBit.Proofs.Machine.Idling
import EightBit.Proofs.Machine.Iterated

/-
Time slices. A run for a time may be cut into slices wherever a slice ends: the slices make the same
steps as one run does, so they lead to the same machine in the same time.
-/

namespace EightBit.Machine

open Outcome

variable {D : Type} [Peripheral D] {machine middle last : Machine D}

/-- A run for a time without a hit, and the cycles that it took. -/
structure Slice where
  time : Nat
  cycles : Nat
  deriving DecidableEq

/-- The machine runs for one slice after the other. -/
inductive Sliced : Machine D → List Slice → Machine D → Prop
  | none {machine : Machine D} : Sliced machine [] machine
  | more {machine middle last : Machine D} {slice : Slice} {slices : List Slice}
      (ran : machine.runFor slice.time = .ok (.ok ⟨slice.cycles, #[]⟩, middle))
      (rest : Sliced middle slices last) : Sliced machine (slice :: slices) last

/-- The second run begins at the step at which the first one ended. One run that is over only after
both goes on there, since its time is not over before that of the second run. -/
theorem Iterated.merge {start : Machine D} {time more : Nat} {spent rest : List Nat}
    {cycles others : Nat}
    (first : Iterated (.timed time) start spent middle (.ok (.ok ⟨cycles, #[]⟩, middle)))
    (second : Iterated (.timed more) middle rest last (.ok (.ok ⟨others, #[]⟩, last))) :
    Iterated (.timed (cycles + more)) start (rest ++ spent) last
      (.ok (.ok ⟨cycles + others, #[]⟩, last)) := by
  obtain ⟨rfl, _, _, _⟩ := first.unhit
  obtain ⟨rfl, late, hits, _⟩ := second.unhit
  have total : (rest ++ spent).sum = spent.sum + rest.sum := by
    rw [List.sum_append, Nat.add_comm]
  refine ⟨first.steps.trans second.steps, fun {fewer reached} steps less => ?_, ?_⟩
  · rcases Nat.lt_or_ge fewer.length spent.length with before | beyond
    · obtain ⟨⟨_, unhit⟩, next⟩ := first.earlier steps before
      refine ⟨⟨Condition.timed_eq_false.mpr ?_, unhit⟩, next⟩
      obtain ⟨left, rfl, onward⟩ := steps.passes first.steps (Nat.le_of_lt before)
      have least := onward.length_le
      rw [List.length_append] at before
      rw [List.sum_append]
      omega
    · obtain ⟨extra, rfl, onward⟩ := first.steps.passes steps beyond
      rw [List.length_append, List.length_append] at less
      obtain ⟨⟨unmet, unhit⟩, next⟩ := second.earlier onward (Nat.lt_of_add_lt_add_right less)
      refine ⟨⟨Condition.timed_eq_false.mpr ?_, unhit⟩, next⟩
      have early := Condition.timed_eq_false.mp unmet
      rw [List.sum_append]
      omega
  · have ended : Ending (.timed (spent.sum + more)) (rest ++ spent) last _ :=
      .stopped (Condition.timed_eq_true.mpr (by omega))
    rwa [total, hits, drained_eq hits] at ended

/-- Two runs are one run if the time of the second is counted from where the first one ended. -/
theorem runFor_merge {time more cycles others : Nat}
    (first : machine.runFor time = .ok (.ok ⟨cycles, #[]⟩, middle))
    (second : middle.runFor more = .ok (.ok ⟨others, #[]⟩, last)) :
    machine.runFor (cycles + more) = .ok (.ok ⟨cycles + others, #[]⟩, last) := by
  obtain ⟨spent, reached, front⟩ := machine.runFor_iterated time
  rw [first] at front
  obtain ⟨_, _, empty, rfl⟩ := front.unhit
  obtain ⟨rest, final, back⟩ := middle.runFor_iterated more
  rw [second, dropStaleHits_eq empty] at back
  obtain ⟨_, _, _, rfl⟩ := back.unhit
  obtain ⟨_, _, whole⟩ := machine.runFor_iterated (cycles + more)
  exact (whole.unique (front.merge back)).2.2

/-- A machine that runs in slices ends in the same state as one that runs without a break until the
last slice ends, and takes the same time. -/
theorem slices_run_as_one {slices : List Slice} {final : Slice}
    (sliced : Sliced machine (slices ++ [final]) last) :
    machine.runFor ((slices.map Slice.cycles).sum + final.time) =
      .ok (.ok ⟨(slices.map Slice.cycles).sum + final.cycles, #[]⟩, last) := by
  induction slices generalizing machine with
  | nil =>
      cases sliced with
      | more ran rest =>
          cases rest
          rw [List.map_nil, List.sum_nil, Nat.zero_add, Nat.zero_add]
          exact ran
  | cons slice slices ih =>
      cases sliced with
      | more ran rest =>
          rw [List.map_cons, List.sum_cons, Nat.add_assoc, Nat.add_assoc]
          exact runFor_merge ran (ih rest)

/-- Slices of three and five cycles take four and six, and one run takes as long. -/
theorem idling_slices_run_as_one : ∃ last : Machine Unpopulated,
    Sliced (idling .initial 0) [⟨3, 4⟩, ⟨5, 6⟩] last ∧
      (idling .initial 0).runFor 9 = .ok (.ok ⟨10, #[]⟩, last) := by
  have first : ∃ registers cycles,
      (idling .initial 0).runFor 3 = .ok (.ok ⟨4, #[]⟩, idling registers cycles) := by
    rw [runFor, dropStaleHits_eq rfl, idling_goesOn _ _ (by decide), idling_goesOn _ _ (by decide),
      stepUntil_unfold]
    exact ⟨_, _, rfl⟩
  obtain ⟨registers, cycles, first⟩ := first
  have second : ∃ registers' cycles',
      (idling registers cycles).runFor 5 = .ok (.ok ⟨6, #[]⟩, idling registers' cycles') := by
    rw [runFor, dropStaleHits_eq rfl, idling_goesOn _ _ (by decide), idling_goesOn _ _ (by decide),
      idling_goesOn _ _ (by decide), stepUntil_unfold]
    exact ⟨_, _, rfl⟩
  obtain ⟨_, _, second⟩ := second
  have sliced : Sliced (idling .initial 0) ([⟨3, 4⟩] ++ [⟨5, 6⟩]) _ :=
    .more first (.more second .none)
  have whole := slices_run_as_one sliced
  simp only [List.map_cons, List.map_nil, List.sum_cons, List.sum_nil, Nat.reduceAdd] at whole
  exact ⟨_, sliced, whole⟩

end EightBit.Machine
