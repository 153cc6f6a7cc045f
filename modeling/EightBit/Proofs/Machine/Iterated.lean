import EightBit.Proofs.Machine.Steps

/-
Runs as iterated steps. A run ends after the smallest number of steps after which its condition
holds, the last step has left a hit, or the next step fails, and it reports exactly these steps. A
run for a time always ends, soon after its time is over.
-/

namespace EightBit.Machine

open Outcome

variable {D : Type} {start machine last : Machine D} {spent : List Nat}

/-- Where no hit is left there are none to be taken. -/
theorem hits_eq_empty (unhit : machine.bus.hasHits = false) : machine.bus.hits = #[] := by
  simpa [Bus.hasHits] using unhit

/-- A condition on the steps so far, given by the cycles of each, and on the machine. -/
abbrev Condition (D : Type) := List Nat → Machine D → Except Crash Bool

/-- The time is over. -/
def Condition.timed (time : Nat) : Condition D := fun spent _ =>
  .ok (decide (time ≤ spent.sum))

/-- The time is over if the steps have taken as much. -/
theorem Condition.timed_eq_true {time : Nat} : Condition.timed time spent machine = .ok true ↔
    time ≤ spent.sum := by
  rw [Condition.timed, Except.ok.injEq, decide_eq_true_iff]

/-- The time is not over if the steps have taken less. -/
theorem Condition.timed_eq_false {time : Nat} : Condition.timed time spent machine = .ok false ↔
    spent.sum < time := by
  rw [Condition.timed, Except.ok.injEq, decide_eq_false_iff_not, Nat.not_le]

/-- A condition on the processor and the bus alone. -/
def Condition.holds (stop : Stop D) : Condition D := fun _ machine =>
  stop machine.processor machine.bus

/-- The condition on the cycles and the machine holds, or as many steps as allowed are done. -/
def Condition.upTo (limit : Nat) (done : Nat → Machine D → Except Crash Bool) : Condition D :=
  fun spent machine => (fun holds => holds || decide (limit ≤ spent.length)) <$>
    done spent.sum machine

/-- While more steps are allowed, only the condition on the cycles and the machine counts. -/
theorem Condition.upTo_below {limit : Nat} {done : Nat → Machine D → Except Crash Bool}
    (below : spent.length < limit) :
    Condition.upTo limit done spent machine = done spent.sum machine := by
  rw [upTo, decide_eq_false (Nat.not_le.mpr below)]
  cases done spent.sum machine with
  | error crash => rfl
  | ok holds => rw [map_ok, Bool.or_false]

/-- Neither the condition nor a hit ends the run here. -/
structure Waits (condition : Condition D) (spent : List Nat) (machine : Machine D) : Prop where
  condition : condition spent machine = .ok false
  hits : machine.bus.hasHits = false

/-- While a timed run waits, its time is not over. -/
theorem Waits.time {time : Nat} (waits : Waits (.timed time) spent machine) :
    spent.sum < time := Condition.timed_eq_false.mp waits.condition

/-- The hits are taken from the bus. -/
def drained (machine : Machine D) : Machine D :=
  { machine with bus := { machine.bus with hits := #[] } }

/-- Without hits there is nothing to drain. -/
theorem drained_eq (empty : machine.bus.hits = #[]) : machine.drained = machine := by
  rw [drained, ← empty]

variable [Peripheral D]

/-- The run does not end here, and the next step succeeds. -/
structure GoesOn (condition : Condition D) (spent : List Nat) (machine : Machine D) : Prop extends
    Waits condition spent machine where
  next : ∃ cycles next, machine.step = .ok (.ok cycles, next)

/-- What ends a run, and its outcome then. -/
inductive Ending (condition : Condition D) (spent : List Nat) (last : Machine D) :
    Except Crash (Except Fault RunReport × Machine D) → Prop
  | stopped (holds : condition spent last = .ok true) :
      Ending condition spent last (.ok (.ok ⟨spent.sum, last.bus.hits⟩, last.drained))
  | hit (hit : last.bus.hasHits = true) :
      Ending condition spent last (.ok (.ok ⟨spent.sum, last.bus.hits⟩, last.drained))
  | failed (waits : Waits condition spent last) {fault : Fault} {after : Machine D}
      (failed : last.step = .ok (.error fault, after)) :
      Ending condition spent last (.ok (.error fault, after))
  | stepCrashed (waits : Waits condition spent last) {crash : Crash}
      (crashed : last.step = .error crash) : Ending condition spent last (.error crash)
  | conditionCrashed (hits : last.bus.hasHits = false) {crash : Crash}
      (crashed : condition spent last = .error crash) : Ending condition spent last (.error crash)

/-- The run makes these steps. It goes on after any fewer of them, and then it ends. -/
structure Iterated (condition : Condition D) (start : Machine D) (spent : List Nat)
    (last : Machine D) (outcome : Except Crash (Except Fault RunReport × Machine D)) : Prop where
  steps : Steps start spent last
  earlier : ∀ {fewer : List Nat} {middle : Machine D}, Steps start fewer middle →
    fewer.length < spent.length → GoesOn condition fewer middle
  ending : Ending condition spent last outcome

variable {condition : Condition D}
  {outcome : Except Crash (Except Fault RunReport × Machine D)}

/-- A run does not go on where it ends. -/
theorem Ending.not_goesOn (ending : Ending condition spent last outcome) :
    ¬GoesOn condition spent last := by
  rintro ⟨⟨unmet, unhit⟩, cycles, next, stepped⟩
  cases ending with
  | stopped holds => cases unmet.symm.trans holds
  | hit hit => cases unhit.symm.trans hit
  | failed _ failed => cases stepped.symm.trans failed
  | stepCrashed _ crashed => cases stepped.symm.trans crashed
  | conditionCrashed _ crashed => cases unmet.symm.trans crashed

/-- A hit ends the run whatever the condition says, and the condition is looked at before the next
step is made. -/
theorem Ending.eq (ending : Ending condition spent last outcome) :
    outcome =
      if last.bus.hasHits = true then .ok (.ok ⟨spent.sum, last.bus.hits⟩, last.drained)
      else condition spent last >>= fun holds =>
        if holds = true then .ok (.ok ⟨spent.sum, last.bus.hits⟩, last.drained)
        else finish <$> last.step := by
  have unhit : ∀ {machine : Machine D}, machine.bus.hasHits = false →
      ¬machine.bus.hasHits = true := fun none => Bool.eq_false_iff.mp none
  cases ending with
  | stopped holds =>
      rw [holds, bind_ok, if_pos rfl]
      split <;> rfl
  | hit hit => rw [if_pos hit]
  | failed waits failed =>
      rw [if_neg (unhit waits.hits), waits.condition, bind_ok, if_neg Bool.false_ne_true, failed]
      rfl
  | stepCrashed waits crashed =>
      rw [if_neg (unhit waits.hits), waits.condition, bind_ok, if_neg Bool.false_ne_true, crashed]
      rfl
  | conditionCrashed none crashed =>
      rw [if_neg (unhit none), crashed]
      rfl

namespace Iterated

/-- A run ends once. -/
theorem unique {others : List Nat} {final : Machine D}
    {result : Except Crash (Except Fault RunReport × Machine D)}
    (one : Iterated condition start spent last outcome)
    (other : Iterated condition start others final result) :
    spent = others ∧ last = final ∧ outcome = result := by
  rcases Nat.lt_trichotomy spent.length others.length with less | same | more
  · exact absurd (other.earlier one.steps less) one.ending.not_goesOn
  · obtain ⟨rfl, rfl⟩ := one.steps.unique other.steps same
    exact ⟨rfl, rfl, one.ending.eq.trans other.ending.eq.symm⟩
  · exact absurd (one.earlier other.steps more) other.ending.not_goesOn

/-- Conditions that agree on the way end a run alike. -/
theorem congr {second : Condition D} (iterated : Iterated condition start spent last outcome)
    (same : ∀ {fewer : List Nat} {middle : Machine D}, Steps start fewer middle →
      fewer.length ≤ spent.length → condition fewer middle = second fewer middle) :
    Iterated second start spent last outcome where
  steps := iterated.steps
  earlier steps less := by
    obtain ⟨⟨unmet, unhit⟩, next⟩ := iterated.earlier steps less
    exact ⟨⟨(same steps (Nat.le_of_lt less)).symm.trans unmet, unhit⟩, next⟩
  ending := by
    have here := same iterated.steps (Nat.le_refl _)
    cases iterated.ending with
    | stopped holds => exact .stopped (here.symm.trans holds)
    | hit hit => exact .hit hit
    | failed waits failed =>
        exact .failed ⟨here.symm.trans waits.condition, waits.hits⟩ failed
    | stepCrashed waits crashed =>
        exact .stepCrashed ⟨here.symm.trans waits.condition, waits.hits⟩ crashed
    | conditionCrashed unhit crashed =>
        exact .conditionCrashed unhit (here.symm.trans crashed)

/-- The hits at the end are those of the last step. -/
theorem hits_last {cycles : Nat} {prior : Machine D}
    (iterated : Iterated condition start (cycles :: spent) last outcome)
    (steps : Steps start spent prior) : last.bus.hits.toList = prior.awaitedAccesses := by
  have unhit := (iterated.earlier steps (Nat.lt_succ_self _)).hits
  cases iterated.steps with
  | more before step =>
      obtain ⟨_, rfl⟩ := before.unique steps rfl
      exact hits_step (hits_eq_empty unhit) step

end Iterated

/-- A run that went on before these steps, and goes on after them, has not ended before the next
one. -/
theorem Steps.goesOn {cycles : Nat} (steps : Steps start spent machine)
    (earlier : ∀ {fewer : List Nat} {middle : Machine D}, Steps start fewer middle →
      fewer.length < spent.length → GoesOn condition fewer middle)
    (here : GoesOn condition spent machine) {fewer : List Nat} {middle : Machine D}
    (reached : Steps start fewer middle) (less : fewer.length < (cycles :: spent).length) :
    GoesOn condition fewer middle := by
  rcases Nat.lt_or_eq_of_le (Nat.le_of_lt_succ less) with before | same
  · exact earlier reached before
  · obtain ⟨rfl, rfl⟩ := reached.unique steps same
    exact here

/-- The loop goes on from some steps after which it has not ended. -/
theorem stepUntil_iterated {done : Nat → Machine D → Except Crash Bool} {limit allowed : Nat}
    (room : spent.length + allowed = limit) (steps : Steps start spent machine)
    (earlier : ∀ {fewer : List Nat} {middle : Machine D}, Steps start fewer middle →
      fewer.length < spent.length → GoesOn (.upTo limit done) fewer middle)
    (hits : machine.bus.hasHits = false) :
    ∃ all last, Iterated (.upTo limit done) start all last
      (finish <$> stepUntil done allowed spent.sum machine) := by
  induction allowed generalizing spent machine with
  | zero =>
      rw [stepUntil_unfold]
      refine ⟨spent, machine, steps, earlier, ?_⟩
      have full : limit ≤ spent.length := Nat.le_of_eq room.symm
      cases looked : done spent.sum machine with
      | error crash =>
          exact .conditionCrashed hits (by rw [Condition.upTo, looked, map_error])
      | ok holds =>
          have ended : Condition.upTo limit done spent machine = .ok true := by
            rw [Condition.upTo, looked, map_ok, decide_eq_true full, Bool.or_true]
          cases holds
          · exact .stopped ended
          · exact .stopped ended
  | succ allowed ih =>
      rw [stepUntil_unfold]
      have looking : Condition.upTo limit done spent machine = done spent.sum machine :=
        Condition.upTo_below (by omega)
      cases looked : done spent.sum machine with
      | error crash =>
          exact ⟨spent, machine, steps, earlier, .conditionCrashed hits (looking.trans looked)⟩
      | ok holds =>
          cases holds with
          | true => exact ⟨spent, machine, steps, earlier, .stopped (looking.trans looked)⟩
          | false =>
              have waits : Waits (.upTo limit done) spent machine :=
                ⟨looking.trans looked, hits⟩
              cases stepped : machine.step with
              | error crash => exact ⟨spent, machine, steps, earlier, .stepCrashed waits stepped⟩
              | ok outcome =>
                  obtain ⟨result, next⟩ := outcome
                  cases result with
                  | error fault => exact ⟨spent, machine, steps, earlier, .failed waits stepped⟩
                  | ok cycles =>
                      have further := steps.more stepped
                      have passed : ∀ {fewer : List Nat} {middle : Machine D},
                          Steps start fewer middle → fewer.length < (cycles :: spent).length →
                            GoesOn (.upTo limit done) fewer middle :=
                        steps.goesOn earlier ⟨waits, cycles, next, stepped⟩
                      have sum : spent.sum + cycles = (cycles :: spent).sum := by
                        rw [List.sum_cons, Nat.add_comm]
                      simp only [bind_ok, Bool.false_eq_true, if_false]
                      rw [sum]
                      cases hit : next.bus.hasHits with
                      | true => exact ⟨_, next, further, passed, .hit hit⟩
                      | false =>
                          have left : (cycles :: spent).length + allowed = limit := by
                            rw [List.length_cons]
                            omega
                          exact ih left further passed hit

/-- A run makes steps up to its limit, without the hits of earlier ones. -/
theorem run_iterated (machine : Machine D) (stop : Stop D) (limit : Nat) :
    ∃ spent last,
      Iterated (.upTo limit fun _ machine => stop machine.processor machine.bus)
        machine.dropStaleHits spent last (machine.run stop limit) :=
  stepUntil_iterated (Nat.zero_add limit) .none
    (fun _ less => absurd less (Nat.not_lt_zero _)) machine.dropStaleHits_unhit

/-- The steps run out only after the time. -/
theorem runFor_iterated (machine : Machine D) (time : Nat) :
    ∃ spent last,
      Iterated (.timed time) machine.dropStaleHits spent last (machine.runFor time) := by
  obtain ⟨spent, last, iterated⟩ : ∃ spent last,
      Iterated (.upTo time fun elapsed _ => return decide (time ≤ elapsed))
        machine.dropStaleHits spent last (machine.runFor time) :=
    stepUntil_iterated (Nat.zero_add time) .none
      (fun _ less => absurd less (Nat.not_lt_zero _)) machine.dropStaleHits_unhit
  refine ⟨spent, last, iterated.congr fun {fewer middle} steps _ => ?_⟩
  have least := steps.length_le
  rw [Condition.upTo, Condition.timed, pure_eq_ok, map_ok, ← Bool.decide_or]
  congr 2
  apply propext
  omega

namespace Iterated

variable {time : Nat}

/-- Half as many steps as cycles are enough, the odd cycle rounded up. -/
theorem length_le (iterated : Iterated (.timed time) start spent last outcome) :
    spent.length ≤ (time + 1) / 2 := by
  cases iterated.steps with
  | none => exact Nat.zero_le _
  | more before _ =>
      have early := (iterated.earlier before (Nat.lt_succ_self _)).time
      have least := before.length_le
      rw [List.length_cons]
      omega

/-- A step that fails is one of these steps as well. -/
theorem length_lt {fault : Fault} {after : Machine D}
    (iterated : Iterated (.timed time) start spent last (.ok (.error fault, after))) :
    spent.length < (time + 1) / 2 := by
  have least := iterated.steps.length_le
  cases iterated.ending with
  | failed waits _ =>
      have early := waits.time
      omega

/-- Without a hit the time is over, and there was nothing to take from the bus. -/
theorem unhit {cycles : Nat} {after : Machine D}
    (iterated : Iterated (.timed time) start spent last (.ok (.ok ⟨cycles, #[]⟩, after))) :
    spent.sum = cycles ∧ time ≤ cycles ∧ last.bus.hits = #[] ∧ after = last := by
  generalize report : (⟨cycles, #[]⟩ : RunReport) = reported at iterated
  cases iterated.ending with
  | stopped holds =>
      obtain ⟨rfl, hits⟩ := RunReport.mk.inj report
      exact ⟨rfl, Condition.timed_eq_true.mp holds, hits.symm, drained_eq hits.symm⟩
  | hit hit =>
      rw [Bus.hasHits, ← (RunReport.mk.inj report).2] at hit
      cases hit

/-- The last step began before the time was over. -/
theorem cycles_le (positive : 0 < time) {cycles : Nat} {after : Machine D}
    (iterated : Iterated (.timed time) start spent last (.ok (.ok ⟨cycles, #[]⟩, after))) :
    time ≤ cycles ∧ cycles ≤ time + 14 := by
  obtain ⟨rfl, late, _, _⟩ := iterated.unhit
  refine ⟨late, ?_⟩
  cases iterated.steps with
  | none => exact absurd late (Nat.not_le.mpr positive)
  | more before step =>
      have early := (iterated.earlier before (Nat.lt_succ_self _)).time
      have most := (step_charged step).2
      rw [List.sum_cons]
      omega

end Iterated

/-- A run that would end by itself ends so within any limit that leaves room for it. -/
theorem run_eq {stop : Stop D} {limit : Nat}
    (iterated : Iterated (.holds stop) machine.dropStaleHits spent last outcome)
    (room : spent.length < limit) : machine.run stop limit = outcome := by
  obtain ⟨all, final, limited⟩ := machine.run_iterated stop limit
  refine (limited.unique (iterated.congr fun {fewer middle} _ within => ?_)).2.2
  have looking : Condition.upTo limit (fun _ machine => stop machine.processor machine.bus) fewer
      middle = Condition.holds stop fewer middle :=
    Condition.upTo_below (Nat.lt_of_le_of_lt within room)
  exact looking.symm

/-- The report of a run that made these steps, and the machine that it leaves. -/
structure Reported (start : Machine D) (spent : List Nat) (last : Machine D) (report : RunReport)
    (after : Machine D) : Prop where
  cycles : report.cycles = spent.sum
  machine : after = last.drained
  drained : after.bus.hasHits = false
  fresh : spent = [] → report.hits = #[]
  hits : ∀ cycles fewer prior, spent = cycles :: fewer → Steps start fewer prior →
    report.hits.toList = prior.awaitedAccesses

/-- A run that starts without hits reports its cycles and the hits of its last step. -/
theorem Iterated.reported {report : RunReport} {after : Machine D}
    (unhit : start.bus.hasHits = false)
    (iterated : Iterated condition start spent last (.ok (.ok report, after))) :
    Reported start spent last report after := by
  obtain ⟨rfl, rfl⟩ : report = ⟨spent.sum, last.bus.hits⟩ ∧ after = last.drained := by
    cases iterated.ending with
    | stopped _ => exact ⟨rfl, rfl⟩
    | hit _ => exact ⟨rfl, rfl⟩
  refine ⟨rfl, rfl, rfl, ?_, ?_⟩
  · rintro rfl
    cases iterated.steps
    exact hits_eq_empty unhit
  · rintro cycles fewer prior rfl steps
    exact iterated.hits_last steps

/-- How the runs of a machine and its steps belong together. -/
structure RunLaws (machine : Machine D) : Prop where
  /-- Before the first step the hits are discarded, which only the log shows. -/
  start : ∃ log, machine.dropStaleHits =
    { machine with bus := { machine.bus with hits := #[], log } }
  /-- A run for a time ends after at most half as many steps. -/
  timed : ∀ time, ∃ spent last,
    Iterated (.timed time) machine.dropStaleHits spent last (machine.runFor time) ∧
      spent.length ≤ (time + 1) / 2 ∧
        ∀ fault after, machine.runFor time = .ok (.error fault, after) →
          spent.length < (time + 1) / 2
  overshoot : ∀ time cycles after, 0 < time →
    machine.runFor time = .ok (.ok ⟨cycles, #[]⟩, after) → time ≤ cycles ∧ cycles ≤ time + 14
  /-- Where a condition alone would end the run, a limit beyond does not matter. -/
  stopped : ∀ stop spent last outcome,
    Iterated (.holds stop) machine.dropStaleHits spent last outcome →
      ∀ limit, spent.length < limit → machine.run stop limit = outcome
  limited : ∀ stop limit, ∃ spent last,
    Iterated (.upTo limit fun _ machine => stop machine.processor machine.bus)
      machine.dropStaleHits spent last (machine.run stop limit)
  reported : ∀ condition spent last report after,
    Iterated condition machine.dropStaleHits spent last (.ok (.ok report, after)) →
      Reported machine.dropStaleHits spent last report after

/-- Runs are steps that are repeated, for every machine, condition and limit. -/
theorem runs_are_iterated_steps (machine : Machine D) : machine.RunLaws where
  start := machine.dropStaleHits_frame
  timed time := by
    obtain ⟨spent, last, iterated⟩ := machine.runFor_iterated time
    refine ⟨spent, last, iterated, iterated.length_le, fun fault after failed => ?_⟩
    rw [failed] at iterated
    exact iterated.length_lt
  overshoot time cycles after positive ran := by
    obtain ⟨spent, last, iterated⟩ := machine.runFor_iterated time
    rw [ran] at iterated
    exact iterated.cycles_le positive
  stopped _ _ _ _ iterated _ room := run_eq iterated room
  limited := machine.run_iterated
  reported _ _ _ _ _ iterated := iterated.reported machine.dropStaleHits_unhit

end EightBit.Machine
