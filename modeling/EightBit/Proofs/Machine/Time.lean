import EightBit.Proofs.Bus.Meter
import EightBit.Proofs.Machine.Orders

/-
The time of a machine. The processor counts it, the peripherals are told of it, and the responses
tell it: all three agree. An account of an order lists the cycles of its instructions, and whatever
is not in an account does not take time.
-/

namespace EightBit.Machine

open Outcome

variable {D E : Type}

/-- The responses that tell what an order took, or that it failed. -/
def Response.isTimed : Response → Bool
  | .reply (.cycles _) => true
  | .reply (.report _) => true
  | _ => false

/-- The cycles that a response tells. -/
def Response.told : Response → Nat
  | .reply (.cycles (.ok cycles)) => cycles
  | .reply (.report (.ok report)) => report.cycles
  | _ => 0

/-- The response to an order, and the cycles of each instruction and reset that was done for it. -/
structure Account where
  response : Response
  spent : List Nat

/-- The cycles of a run that failed in the end, which its response does not tell. -/
def Account.untold (account : Account) : Nat :=
  match account.response with
  | .reply (.report (.error _)) => account.spent.sum
  | _ => 0

/-- All spans of time, one after the other. -/
def timeline (accounts : List Account) : List Nat := accounts.flatMap Account.spent

/-- The machine with a meter in front of every peripheral; no time has passed yet. -/
def metered (machine : Machine D) : Machine (Metered D) := machine.view Metered.fresh

/-- The order to the machine with meters. What is attached gets one as well. -/
def Order.metered (order : Order D) : Order (Metered D) := order.lift Metered.device Metered.fresh

/-- Without its meters the machine is the one it was. -/
theorem metered_view (machine : Machine D) : machine.metered.view Metered.device = machine :=
  machine.view_view fun _ => rfl

/-- The processor has counted the given spans of time, and every meter that was there shows them. -/
structure Ticked (spent : List Nat) (before after : Machine (Metered D)) : Prop where
  clock : after.processor.cycles = before.processor.cycles + UInt64.ofNat spent.sum
  meters : before.bus.Ticked spent after.bus

namespace Ticked

variable {before middle after : Machine (Metered D)} {spent more : List Nat}

/-- What leaves the clock and the meters alone lets no time pass. -/
theorem of_bus (cycles : after.processor.cycles = before.processor.cycles)
    (meters : before.bus.Ticked [] after.bus) : Ticked [] before after where
  clock := cycles.trans (UInt64.add_zero _).symm
  meters := meters

/-- What leaves the clock and the regions alone lets no time pass. -/
theorem of_frame (cycles : after.processor.cycles = before.processor.cycles)
    (regions : after.bus.regions = before.bus.regions) : Ticked [] before after :=
  of_bus cycles (.of_regions regions)

/-- What passes in two parts passes one after the other. -/
theorem trans (start : Ticked spent before middle) (rest : Ticked more middle after) :
    Ticked (spent ++ more) before after where
  clock := by rw [rest.clock, start.clock, List.sum_append, UInt64.ofNat_add, UInt64.add_assoc]
  meters := start.meters.trans rest.meters

end Ticked

variable [Peripheral D] [Peripheral E]

/-- What an account says is what the machine did: a reset or one instruction, the steps of a run
that ended or failed after them, or nothing that takes time. -/
inductive Took (machine : Machine D) : Account → Machine D → Prop
  | reset {cycles : Nat} {after : Machine D} (done : machine.reset = .ok (cycles, after)) :
      Took machine ⟨.reply (.cycles (.ok cycles)), [cycles]⟩ after
  | step {cycles : Nat} {after : Machine D} (done : machine.step = .ok (.ok cycles, after)) :
      Took machine ⟨.reply (.cycles (.ok cycles)), [cycles]⟩ after
  | failed {fault : Fault} {after : Machine D} (done : machine.step = .ok (.error fault, after)) :
      Took machine ⟨.reply (.cycles (.error fault)), []⟩ after
  | ran {spent : List Nat} {last : Machine D} (steps : Steps machine.dropStaleHits spent last) :
      Took machine ⟨.reply (.report (.ok ⟨spent.sum, last.bus.hits⟩)), spent.reverse⟩ last.drained
  | fell {spent : List Nat} {last after : Machine D} {fault : Fault}
      (steps : Steps machine.dropStaleHits spent last)
      (failed : last.step = .ok (.error fault, after)) :
      Took machine ⟨.reply (.report (.error fault)), spent.reverse⟩ after
  | aside {response : Response} {after : Machine D} (untimed : response.isTimed = false) :
      Took machine ⟨response, []⟩ after

/-- The orders are accounted for, up to one at which the machine crashes. -/
inductive Accounted : Machine D → List (Order D) → List Account → Prop
  | none {machine : Machine D} : Accounted machine [] []
  | crashed {machine : Machine D} {order : Order D} {orders : List (Order D)} {crash : Crash}
      (crashed : machine.perform order = .error crash) : Accounted machine (order :: orders) []
  | more {machine after : Machine D} {order : Order D} {orders : List (Order D)}
      {account : Account} {accounts : List Account}
      (done : machine.perform order = .ok (account.response, after))
      (took : Took machine account after) (rest : Accounted after orders accounts) :
      Accounted machine (order :: orders) (account :: accounts)

/-- The time of an account is what its response tells and what it leaves untold. -/
theorem Took.total {machine after : Machine D} {account : Account}
    (took : Took machine account after) :
    account.spent.sum = account.response.told + account.untold := by
  cases took with
  | reset done => rfl
  | step done => rfl
  | failed done => rfl
  | ran steps => exact List.sum_reverse _
  | fell steps failed => exact (Nat.zero_add _).symm
  | @aside response _ untimed =>
      cases response with
      | reply reply =>
          cases reply with
          | cycles result => cases untimed
          | report result => cases untimed
          | plain result => rfl
      | done => rfl
      | number value => rfl
      | byte value => rfl
      | tried result => rfl
      | word value => rfl

/-- The whole time is what all responses tell and what they leave untold. -/
theorem Accounted.total {machine : Machine D} {orders : List (Order D)} {accounts : List Account}
    (accounted : Accounted machine orders accounts) :
    (timeline accounts).sum =
      (accounts.map fun account => account.response.told).sum +
        (accounts.map Account.untold).sum := by
  induction accounted with
  | none => rfl
  | crashed crashed => rfl
  | @more _ _ _ _ account accounts done took rest ih =>
      rw [timeline] at ih ⊢
      rw [List.flatMap_cons, List.sum_append, List.map_cons, List.map_cons, List.sum_cons,
        List.sum_cons, ih, took.total]
      omega

/-- The accounts have the responses of the machine. -/
theorem Accounted.responses {machine : Machine D} {orders : List (Order D)}
    {accounts : List Account} (accounted : Accounted machine orders accounts) :
    (machine.performAll orders).1 = accounts.map Account.response := by
  induction accounted with
  | none => rfl
  | crashed crashed => rw [performAll, crashed]; rfl
  | more done took rest ih =>
      rw [performAll, done, List.map_cons, ← ih]

variable {view : E → D}

/-- The steps of a view take the time of the steps. -/
theorem Steps.viewed (faithful : Peripheral.Faithful view) {start last : Machine E}
    {spent : List Nat} (steps : Steps start spent last) :
    Steps (start.view view) spent (last.view view) := by
  induction steps with
  | none => exact .none
  | @more _ middle last cycles _ step ih =>
      refine ih.more ?_
      rw [step_view faithful, step]
      rfl

/-- An order takes the same time in a view. -/
theorem Took.viewed (faithful : Peripheral.Faithful view) {machine after : Machine E}
    {account : Account} (took : Took machine account after) :
    Took (machine.view view) account (after.view view) := by
  cases took with
  | reset done => exact .reset (by rw [reset_view faithful, done]; rfl)
  | step done => exact .step (by rw [step_view faithful, done]; rfl)
  | failed done => exact .failed (by rw [step_view faithful, done]; rfl)
  | @ran spent last steps =>
      have viewed := steps.viewed faithful
      rw [← dropStaleHits_view] at viewed
      exact .ran viewed
  | @fell spent last _ fault steps failed =>
      have viewed := steps.viewed faithful
      rw [← dropStaleHits_view] at viewed
      exact .fell viewed (by rw [step_view faithful, failed]; rfl)
  | aside untimed => exact .aside untimed

variable {machine after : Machine (Metered D)}

/-- A reset lets its cycles pass. -/
theorem reset_ticked {cycles : Nat} (done : machine.reset = .ok (cycles, after)) :
    Ticked [cycles] machine after := by
  obtain ⟨processor, bus, served, rfl⟩ := reset_eq_ok done
  exact ⟨machine.processor.reset_clock.run served,
    (Bus.run_ticked served).trans (bus.tick_ticked cycles)⟩

/-- A step that succeeds lets its cycles pass. -/
theorem step_ticked {cycles : Nat} (done : machine.step = .ok (.ok cycles, after)) :
    Ticked [cycles] machine after := by
  obtain ⟨log, processor, bus, served, rfl⟩ := step_eq_ok done
  obtain ⟨_, _, _, _, _, _, _, clock⟩ := (Processor.run_step served).succeeded
  obtain ⟨pending, lines, last, sampled⟩ :=
    (({ machine with processor, bus } : Machine (Metered D)).tick cycles).sampleLines_frame
  rw [sampled]
  have executed : ({ machine.bus with log } : Bus (Metered D)).Ticked [] bus :=
    Bus.run_ticked served
  exact ⟨clock, executed.trans (bus.tick_ticked cycles)⟩

/-- A step that fails lets no time pass. -/
theorem failed_ticked {fault : Fault} (done : machine.step = .ok (.error fault, after)) :
    Ticked [] machine after := by
  obtain ⟨log, bus, served, rfl⟩ := step_eq_error done
  have executed : ({ machine.bus with log } : Bus (Metered D)).Ticked [] bus :=
    Bus.run_ticked served
  exact .of_bus rfl executed

/-- Steps let their cycles pass one after the other. -/
theorem Steps.ticked {start last : Machine (Metered D)} {spent : List Nat}
    (steps : Steps start spent last) : Ticked spent.reverse start last := by
  induction steps with
  | none => exact .of_frame rfl rfl
  | more _ step ih =>
      rw [List.reverse_cons]
      exact ih.trans (step_ticked step)

/-- A run takes the time of its steps, also if one more step fails. -/
theorem Iterated.took {condition : Condition (Metered D)} {spent : List Nat}
    {last : Machine (Metered D)} {result : Except Fault RunReport}
    (iterated : Iterated condition machine.dropStaleHits spent last (.ok (result, after))) :
    Took machine ⟨.reply (.report result), spent.reverse⟩ after ∧
      Ticked spent.reverse machine after := by
  have start : Ticked [] machine machine.dropStaleHits := by
    obtain ⟨log, dropped⟩ := machine.dropStaleHits_frame
    rw [dropped]
    exact .of_frame rfl rfl
  have went := start.trans iterated.steps.ticked
  -- Taking the hits in the end takes no time, and neither does a step that fails.
  have finish : ∀ {after : Machine (Metered D)}, Ticked [] last after →
      Ticked spent.reverse machine after := by
    intro after ended
    have whole := went.trans ended
    rwa [List.nil_append, List.append_nil] at whole
  cases iterated.ending with
  | stopped holds => exact ⟨.ran iterated.steps, finish (.of_frame rfl rfl)⟩
  | hit hit => exact ⟨.ran iterated.steps, finish (.of_frame rfl rfl)⟩
  | failed waits failed => exact ⟨.fell iterated.steps failed, finish (failed_ticked failed)⟩

/-- Loading lets no time pass. -/
theorem load_ticked {address : Address} {bytes : List UInt8} {result : Except Fault Unit}
    (done : machine.load address bytes = .ok (result, after)) : Ticked [] machine after := by
  rw [load_eq] at done
  obtain ⟨⟨_, bus⟩, copied, same⟩ := map_eq_ok_iff.mp done
  cases same
  exact .of_bus rfl (Bus.copy_ticked copied)

/-- What an order took, and that this time has passed. -/
abbrev Passes (machine : Machine (Metered D)) (response : Response)
    (after : Machine (Metered D)) : Prop :=
  ∃ spent, Took machine ⟨response, spent⟩ after ∧ Ticked spent machine after

/-- What is not timed takes no time. -/
theorem passes_aside {response : Response} (untimed : response.isTimed = false)
    (ticked : Ticked [] machine after) : Passes machine response after :=
  ⟨[], .aside untimed, ticked⟩

/-- Every call that is answered has an account of its time. -/
theorem answer_passes {call : Call} {reply : Reply}
    (done : machine.answer call = .ok (reply, after)) : Passes machine (.reply reply) after := by
  cases call with
  | step =>
      obtain ⟨⟨result, _⟩, stepped, same⟩ := map_eq_ok_iff.mp done
      cases same
      cases result with
      | ok cycles => exact ⟨[cycles], .step stepped, step_ticked stepped⟩
      | error fault => exact ⟨[], .failed stepped, failed_ticked stepped⟩
  | runFor time =>
      obtain ⟨⟨result, _⟩, ran, same⟩ := map_eq_ok_iff.mp done
      cases same
      obtain ⟨spent, last, iterated⟩ := machine.runFor_iterated time
      rw [ran] at iterated
      exact ⟨spent.reverse, iterated.took⟩
  | reset =>
      obtain ⟨⟨cycles, _⟩, made, same⟩ := map_eq_ok_iff.mp done
      cases same
      exact ⟨[cycles], .reset made, reset_ticked made⟩
  | load address bytes =>
      obtain ⟨outcome, loaded, same⟩ := map_eq_ok_iff.mp done
      cases same
      exact passes_aside rfl (load_ticked loaded)
  | setResetVector address =>
      obtain ⟨outcome, loaded, same⟩ := map_eq_ok_iff.mp done
      cases same
      exact passes_aside rfl (load_ticked loaded)
  | request interrupt =>
      cases done
      exact passes_aside rfl (.of_frame rfl rfl)
  | withdraw interrupt =>
      cases done
      exact passes_aside rfl (.of_frame rfl rfl)
  | map region =>
      cases done
      exact passes_aside rfl (.of_frame rfl (Bus.map_regions ..))

/-- Every order that is performed has an account of its time. -/
theorem perform_passes {order : Order (Metered D)} {response : Response}
    (done : machine.perform order = .ok (response, after)) : Passes machine response after := by
  cases order with
  | call call =>
      obtain ⟨outcome, answered, same⟩ := map_eq_ok_iff.mp done
      cases same
      exact answer_passes answered
  | run stop limit =>
      obtain ⟨⟨result, _⟩, ran, same⟩ := map_eq_ok_iff.mp done
      cases same
      obtain ⟨spent, last, iterated⟩ := machine.run_iterated stop limit
      rw [ran] at iterated
      exact ⟨spent.reverse, iterated.took⟩
  | attach region =>
      cases done
      exact passes_aside rfl (.of_bus rfl (machine.bus.attach_ticked region))
  | newLine =>
      cases done
      exact passes_aside rfl (.of_frame rfl rfl)
  | connectIrq line =>
      cases done
      exact passes_aside rfl (.of_frame rfl rfl)
  | connectNmi line =>
      cases done
      exact passes_aside rfl (.of_frame rfl rfl)
  | raise line =>
      cases done
      exact passes_aside rfl (.of_frame rfl rfl)
  | read address =>
      obtain ⟨⟨value, bus⟩, read, same⟩ := map_eq_ok_iff.mp done
      cases same
      exact passes_aside rfl (.of_bus rfl (Bus.read_ticked read))
  | write address value =>
      obtain ⟨bus, written, same⟩ := map_eq_ok_iff.mp done
      cases same
      exact passes_aside rfl (.of_bus rfl (Bus.write_ticked written))
  | watch range trigger =>
      cases done
      exact passes_aside rfl (.of_frame rfl rfl)

/-- However many orders there are, their accounts tell the time that passes. -/
theorem performAll_accounted (machine : Machine (Metered D)) (orders : List (Order D)) :
    ∃ accounts, Accounted (machine.view Metered.device) orders accounts ∧
      Ticked (timeline accounts) machine (machine.performAll (orders.map Order.metered)).2 := by
  have faithful := Metered.faithful_device (D := D)
  -- Every order is performed with meters; without them it has the same account.
  induction orders generalizing machine with
  | nil => exact ⟨[], .none, .of_frame rfl rfl⟩
  | cons order orders ih =>
      have viewed : (machine.view Metered.device).perform order =
          seen Metered.device <$> machine.perform order.metered :=
        perform_view faithful (fun _ => rfl) machine order
      rw [List.map_cons, performAll]
      cases done : machine.perform order.metered with
      | error crash =>
          rw [done, map_error] at viewed
          exact ⟨[], .crashed viewed, .of_frame rfl rfl⟩
      | ok outcome =>
          obtain ⟨response, after⟩ := outcome
          rw [done, map_ok] at viewed
          obtain ⟨spent, took, ticked⟩ := perform_passes done
          obtain ⟨accounts, accounted, rest⟩ := ih after
          exact ⟨⟨response, spent⟩ :: accounts, .more viewed (took.viewed faithful) accounted,
            ticked.trans rest⟩

/-- The accounts of the orders, and the three ways to tell the time that passes for them. -/
structure KeepsTime (machine : Machine D) (orders : List (Order D)) (accounts : List Account) :
    Prop where
  accounted : Accounted machine orders accounts
  responses : (machine.performAll orders).1 = accounts.map Account.response
  /-- The processor counts all of it. -/
  clock : (machine.performAll orders).2.processor.cycles =
    machine.processor.cycles + UInt64.ofNat (timeline accounts).sum
  /-- The responses tell all but what the runs took that failed in the end. -/
  told : (timeline accounts).sum =
    (accounts.map fun account => account.response.told).sum + (accounts.map Account.untold).sum
  /-- With meters the machine does the same. -/
  faithful : machine.performAll orders =
    seen Metered.device (machine.metered.performAll (orders.map Order.metered))
  /-- Every peripheral that was there is told each span once and in order, mapped or not. -/
  meters : ∀ (id : Nat) (region : Region D), machine.bus.regions[id]? = some region →
    region.kind = .io →
      ∃ next, (machine.metered.performAll (orders.map Order.metered)).2.bus.regions[id]? =
        some next ∧ next.ticks? = some (timeline accounts)

/-- Whatever is ordered, there are accounts of the time that it takes. -/
theorem keepsTime (machine : Machine D) (orders : List (Order D)) :
    ∃ accounts, machine.KeepsTime orders accounts := by
  have faithful := Metered.faithful_device (D := D)
  obtain ⟨accounts, accounted, ticked⟩ := machine.metered.performAll_accounted orders
  have viewed : machine.performAll orders =
      seen Metered.device (machine.metered.performAll (orders.map Order.metered)) := by
    have same : (machine.metered.view Metered.device).performAll orders =
        seen Metered.device (machine.metered.performAll (orders.map Order.metered)) :=
      performAll_view faithful (fun _ => rfl) machine.metered orders
    rwa [metered_view] at same
  rw [metered_view] at accounted
  refine ⟨accounts, accounted, accounted.responses, ?_, accounted.total, viewed, ?_⟩
  · rw [viewed]
    exact ticked.clock
  · intro id region attached peripheral
    have found : machine.metered.bus.regions[id]? = some (region.view Metered.fresh) := by
      rw [metered, Machine.view, Bus.getElem?_view, attached, Option.map_some]
    obtain ⟨next, present, shown⟩ := ticked.meters found
    refine ⟨next, present, ?_⟩
    rw [shown, region.ticks?_fresh peripheral, Option.map_some, List.nil_append]

/-- The processor and the peripherals of a machine live in the same time. -/
structure TimeLaws (machine : Machine D) : Prop where
  /-- A step takes the cycles of its instruction, and seven more if it takes a request. -/
  step : ∀ cycles after, machine.step = .ok (.ok cycles, after) →
    ∃ log registers spent middle,
      machine.processor.Executes { machine.bus with log } registers spent middle ∧
        cycles = spent + match machine.processor.pending.next? registers.p with
          | some _ => 7
          | none => 0
  reset : ∀ cycles after, machine.reset = .ok (cycles, after) → cycles = 7
  /-- A step that fails is not counted. -/
  failed : ∀ fault after, machine.step = .ok (.error fault, after) →
    after.processor = machine.processor
  orders : ∀ orders, ∃ accounts, machine.KeepsTime orders accounts

/-- A step takes the cycles of its instruction, and seven more if it enters a handler. -/
theorem step_takes {machine after : Machine D} {cycles : Nat}
    (stepped : machine.step = .ok (.ok cycles, after)) :
    ∃ log registers spent middle,
      machine.processor.Executes { machine.bus with log } registers spent middle ∧
        cycles = spent + match machine.processor.pending.next? registers.p with
          | some _ => 7
          | none => 0 := by
  obtain ⟨log, processor, bus, served, _⟩ := step_eq_ok stepped
  refine ⟨log, ?_⟩
  have ended := Processor.run_step served
  generalize takenIn _ = taken at ended
  cases ended with
  | plain executes idle => exact ⟨_, _, _, executes, by rw [idle]; rfl⟩
  | taken executes chosen entered => exact ⟨_, _, _, executes, by rw [chosen]; rfl⟩

/-- Every machine obeys the laws of time. -/
theorem peripherals_keep_time (machine : Machine D) : machine.TimeLaws where
  step _ _ stepped := step_takes stepped
  reset cycles after done := by
    obtain ⟨processor, bus, served, _⟩ := reset_eq_ok done
    exact machine.processor.reset_cost.run served
  failed fault after failed := by
    obtain ⟨log, bus, served, rfl⟩ := step_eq_error failed
    rfl
  orders := machine.keepsTime

end EightBit.Machine
