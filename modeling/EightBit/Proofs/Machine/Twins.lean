import EightBit.Proofs.Bus.Simulation
import EightBit.Proofs.Machine.Reachable
import EightBit.Proofs.Machine.RoundTrip
import EightBit.Proofs.Machine.Trace

/-
Twins: machines that agree in all that a save state holds. Every call has the same result on both,
and leaves twins, so a machine that was restored goes on exactly as the saved one does.
-/

namespace EightBit

open Outcome

variable {D : Type}

namespace Bus

/-- Nothing is watched, and no hit waits to be taken. -/
structure Quiet (bus : Bus D) : Prop where
  watchpoints : bus.watchpoints = []
  hits : bus.hits = #[]

/-- On a quiet bus no access is noticed. -/
theorem Quiet.notice {bus : Bus D} (quiet : bus.Quiet) (access : Access) (address : Address)
    (value : UInt8) : bus.notice access address value = bus := by
  rw [Bus.notice, quiet.watchpoints]
  rfl

/-- Effects leave a bus quiet. -/
theorem Quiet.absorb {bus : Bus D} (quiet : bus.Quiet) (effects : List Effect) :
    (bus.absorb effects).Quiet :=
  ⟨(bus.absorb_watchpoints effects).trans quiet.watchpoints,
    (bus.absorb_hits effects).trans quiet.hits⟩

/-- Two quiet buses with the same regions and the same table. -/
structure Twins (first second : Bus D) : Prop where
  regions : first.regions = second.regions
  dispatch : first.dispatch = second.dispatch
  left : first.Quiet
  right : second.Quiet

/-- Twins simulate each other. -/
theorem twins_simulation : Simulation (Twins : Bus D → Bus D → Prop) where
  regions twins := twins.regions
  dispatch twins := twins.dispatch
  contents twins _ := ⟨rfl, twins.dispatch, ⟨twins.left.1, twins.left.2⟩,
    ⟨twins.right.1, twins.right.2⟩⟩
  table twins _ := ⟨twins.regions, rfl, ⟨twins.left.1, twins.left.2⟩,
    ⟨twins.right.1, twins.right.2⟩⟩
  log twins _ _ := ⟨twins.regions, twins.dispatch, ⟨twins.left.1, twins.left.2⟩,
    ⟨twins.right.1, twins.right.2⟩⟩
  absorb twins effects :=
    ⟨by rw [absorb_regions, absorb_regions, twins.regions],
      by rw [absorb_dispatch, absorb_dispatch, twins.dispatch],
      twins.left.absorb effects, twins.right.absorb effects⟩
  notice {first second} twins access address value := by
    rw [twins.left.notice, twins.right.notice]
    exact twins

end Bus

namespace Machine

/-- The machine has no interrupt line, and its bus is quiet. -/
structure Quiet (machine : Machine D) : Prop where
  bus : machine.bus.Quiet
  irqLines : machine.irqLines = []
  nmiLines : machine.nmiLines = []

/-- Two machines of storage that agree in all that a save state holds. -/
structure Twins (first second : Machine D) : Prop where
  processor : first.processor = second.processor
  bus : first.bus.Twins second.bus
  left : first.irqLines = [] ∧ first.nmiLines = []
  right : second.irqLines = [] ∧ second.nmiLines = []
  storage : first.bus.StorageOnly

/-- Without lines nothing is sensed. -/
theorem sampleLines_silent {machine : Machine D}
    (silent : machine.irqLines = [] ∧ machine.nmiLines = []) : machine.sampleLines = machine := by
  obtain ⟨processor, bus, irqLines, nmiLines, trace⟩ := machine
  obtain ⟨rfl, rfl⟩ := silent
  rfl

/-- A call leads to equal results and twins, or crashes on both machines alike. -/
abbrev Agree {α : Type} (left right : Except Crash (α × Machine D)) : Prop :=
  Matched (fun first second => first.1 = second.1 ∧ Twins first.2 second.2) left right

/-- Results that are changed alike still agree. -/
theorem Agree.map {α β : Type} {left right : Except Crash (α × Machine D)}
    (agree : Agree left right) (change : α → β) :
    Agree (Prod.map change id <$> left) (Prod.map change id <$> right) := by
  refine Matched.map agree ?_
  rintro ⟨result, left⟩ ⟨_, right⟩ ⟨rfl, next⟩
  exact ⟨rfl, next⟩

namespace Twins

variable {first second : Machine D}

/-- The hits of a run are none on either machine. -/
theorem finish {result : Except Fault Nat} (twins : Twins first second) :
    (Machine.finish (result, first)).1 = (Machine.finish (result, second)).1 ∧
      Twins (Machine.finish (result, first)).2 (Machine.finish (result, second)).2 := by
  cases result with
  | error fault => exact ⟨rfl, twins⟩
  | ok cycles =>
      have hits : first.bus.hits = second.bus.hits :=
        twins.bus.left.hits.trans twins.bus.right.hits.symm
      refine ⟨?_, twins.processor, ?_, twins.left, twins.right, twins.storage⟩
      · change Except.ok (RunReport.mk cycles first.bus.hits) = .ok ⟨cycles, second.bus.hits⟩
        rw [hits]
      · exact ⟨twins.bus.regions, twins.bus.dispatch, ⟨twins.bus.left.watchpoints, rfl⟩,
          ⟨twins.bus.right.watchpoints, rfl⟩⟩

/-- A request leaves the machines twins. -/
theorem request (twins : Twins first second) (interrupt : Interrupt) :
    Twins (first.request interrupt) (second.request interrupt) where
  processor := congrArg (fun processor => processor.request interrupt) twins.processor
  bus := Bus.twins_simulation.log twins.bus _ _
  left := twins.left
  right := twins.right
  storage := twins.storage

theorem withdraw (twins : Twins first second) (interrupt : Interrupt) :
    Twins (first.withdraw interrupt) (second.withdraw interrupt) where
  processor := congrArg (fun processor => processor.withdraw interrupt) twins.processor
  bus := twins.bus
  left := twins.left
  right := twins.right
  storage := twins.storage

variable [Peripheral D]

/-- Twins have the same save state. -/
theorem save (twins : Twins first second) : first.save = second.save := by
  rw [Machine.save, Machine.save, twins.processor, twins.bus.regions, Bus.layout, Bus.layout,
    twins.bus.dispatch]

/-- The processors make the same transaction with either bus. -/
theorem transact {α : Type} (twins : Twins first second)
    (act : Processor → Transaction (α × Processor)) :
    Agree (first.transact act) (second.transact act) := by
  rw [transact_eq, transact_eq, ← twins.processor]
  have kept : ∀ outcome, (act first.processor).run first.bus = .ok outcome →
      outcome.2.StorageOnly := fun outcome done =>
    twins.storage.outlines (Bus.run_follows done).outlines
  refine ((Bus.twins_simulation.run twins.bus (act first.processor)).strengthen kept).map ?_
  rintro ⟨⟨result, processor⟩, left⟩ ⟨_, right⟩ ⟨⟨rfl, buses⟩, storage⟩
  exact ⟨rfl, rfl, buses, twins.left, twins.right, storage⟩

theorem tick (twins : Twins first second) (cycles : Nat) :
    Twins (first.tick cycles) (second.tick cycles) where
  processor := twins.processor
  bus := Bus.twins_simulation.tick twins.bus cycles
  left := twins.left
  right := twins.right
  storage := twins.storage.outlines (first.bus.tick_follows cycles).outlines

/-- Without the trace, both machines make the same step. -/
theorem advance (twins : Twins first second) : Agree first.advance second.advance := by
  refine (twins.transact Processor.step).bind ?_
  rintro ⟨result, left⟩ ⟨_, right⟩ ⟨rfl, next⟩
  cases result with
  | error fault => exact .ok ⟨rfl, next⟩
  | ok cycles =>
      have later := next.tick cycles
      have same : Twins (left.tick cycles).sampleLines (right.tick cycles).sampleLines := by
        rw [sampleLines_silent later.left, sampleLines_silent later.right]
        exact later
      exact .ok ⟨rfl, same⟩

/-- Whether the machines trace makes no difference. -/
theorem step (twins : Twins first second) : Agree first.step second.step := by
  have storage : second.bus.StorageOnly := by
    intro id region attached
    rw [← twins.bus.regions] at attached
    exact twins.storage attached
  obtain ⟨log, start⟩ := step_eq_advance (traceable_of_storage twins.storage)
  obtain ⟨other, begin⟩ := step_eq_advance (traceable_of_storage storage)
  rw [start, begin]
  have buses := Bus.twins_simulation.log twins.bus log other
  exact advance ⟨twins.processor, buses, twins.left, twins.right, twins.storage⟩

theorem reset (twins : Twins first second) : Agree first.reset second.reset := by
  refine (twins.transact Processor.reset).bind ?_
  rintro ⟨cycles, left⟩ ⟨_, right⟩ ⟨rfl, next⟩
  exact .ok ⟨rfl, next.tick _⟩

theorem load (twins : Twins first second) (address : Address) (bytes : List UInt8) :
    Agree (first.load address bytes) (second.load address bytes) := by
  rw [load_eq, load_eq]
  have kept : ∀ outcome, first.bus.copy address bytes = .ok outcome →
      outcome.2.StorageOnly := fun outcome done =>
    twins.storage.outlines (Bus.copy_follows done).outlines
  refine ((Bus.twins_simulation.copy twins.bus address bytes).strengthen kept).map ?_
  rintro ⟨result, left⟩ ⟨_, right⟩ ⟨⟨rfl, buses⟩, storage⟩
  exact ⟨rfl, twins.processor, buses, twins.left, twins.right, storage⟩

/-- Without watchpoints a run stops at its condition only. -/
theorem runFor (twins : Twins first second) (cycles : Nat) :
    Agree (first.runFor cycles) (second.runFor cycles) := by
  rw [Machine.runFor, Machine.runFor, dropStaleHits_eq twins.bus.left.hits,
    dropStaleHits_eq twins.bus.right.hits]
  have hits : ∀ {left right : Machine D}, Twins left right →
      left.bus.hasHits = right.bus.hasHits := by
    intro left right next
    rw [Bus.hasHits, Bus.hasHits, next.bus.left.hits, next.bus.right.hits]
  refine Matched.map (stepUntil_matched step hits (fun _ _ => rfl) cycles 0 twins) ?_
  rintro ⟨result, left⟩ ⟨_, right⟩ ⟨rfl, next⟩
  exact next.finish

end Twins

variable [Peripheral D]

/-- What is called on a machine from outside. -/
inductive Call where
  | step
  | runFor (cycles : Nat)
  | reset
  | load (address : Address) (bytes : List UInt8)
  | setResetVector (address : Address)
  | request (interrupt : Interrupt)
  | withdraw (interrupt : Interrupt)
  | map (region : Nat)

/-- What a call returns. -/
inductive Reply where
  | cycles (result : Except Fault Nat)
  | report (result : Except Fault RunReport)
  | plain (result : Except Fault Unit)

/-- What a call returns, and the machine afterwards. -/
def answer (machine : Machine D) : Call → Except Crash (Reply × Machine D)
  | .step => (Prod.map .cycles id) <$> machine.step
  | .runFor cycles => (Prod.map .report id) <$> machine.runFor cycles
  | .reset => (Prod.map (.cycles ∘ .ok) id) <$> machine.reset
  | .load address bytes => (Prod.map .plain id) <$> machine.load address bytes
  | .setResetVector address => (Prod.map .plain id) <$> machine.setResetVector address
  | .request interrupt => .ok (.plain (.ok ()), machine.request interrupt)
  | .withdraw interrupt => .ok (.plain (.ok ()), machine.withdraw interrupt)
  | .map region =>
      let (result, bus) := machine.bus.map region
      .ok (.plain result, { machine with bus })

/-- The reply to each call and the save state after it, up to a crash. -/
def follow (machine : Machine D) : List Call → List (Reply × SaveState) × Option Crash
  | [] => ([], none)
  | call :: calls =>
      match machine.answer call with
      | .error crash => ([], some crash)
      | .ok (reply, machine) =>
          let (replies, crash) := machine.follow calls
          ((reply, machine.save) :: replies, crash)

namespace Twins

variable {first second : Machine D}

/-- Both machines answer a call alike. -/
theorem answer (twins : Twins first second) (call : Call) :
    Agree (first.answer call) (second.answer call) := by
  cases call with
  | step => exact twins.step.map Reply.cycles
  | runFor cycles => exact (twins.runFor cycles).map Reply.report
  | reset => exact twins.reset.map (Reply.cycles ∘ Except.ok)
  | load address bytes => exact (twins.load address bytes).map Reply.plain
  | setResetVector address => exact (twins.load _ _).map Reply.plain
  | request interrupt => exact .ok ⟨rfl, twins.request interrupt⟩
  | withdraw interrupt => exact .ok ⟨rfl, twins.withdraw interrupt⟩
  | map region =>
      obtain ⟨results, buses⟩ := Bus.twins_simulation.map twins.bus region
      refine .ok ⟨congrArg Reply.plain results, twins.processor, buses, twins.left, twins.right, ?_⟩
      exact twins.storage.outlines (congrArg (Array.map Region.outline) (Bus.map_regions ..))

/-- Both machines follow the same calls. -/
theorem follow (twins : Twins first second) (calls : List Call) :
    first.follow calls = second.follow calls := by
  induction calls generalizing first second with
  | nil => rfl
  | cons call calls ih =>
      have answered := twins.answer call
      rw [Machine.follow, Machine.follow]
      generalize first.answer call = left at answered
      generalize second.answer call = right at answered
      cases answered with
      | error crash => rfl
      | @ok front back same =>
          obtain ⟨reply, front⟩ := front
          obtain ⟨_, back⟩ := back
          obtain ⟨rfl, later⟩ := same
          dsimp only
          rw [ih later, later.save]

end Twins

/-- A machine that takes over a save state becomes a twin of the saved one. -/
theorem restore_twins {source target : Machine D} (sound : source.Sound)
    (storage : source.bus.StorageOnly) (mapped : ∃ address, source.bus.owner address ≠ none)
    (quiet : source.Quiet) (filled : target.bus.Filled)
    (same : target.bus.outlines = source.bus.outlines) (silent : target.Quiet) :
    ∃ twin, target.restore source.save = .ok (.ok (), twin) ∧ Twins twin source := by
  obtain ⟨dispatch, log, restored, mapping⟩ := restore_save sound.bus storage filled same
  have present : source.bus.layout ≠ [] := by
    obtain ⟨address, owned⟩ := mapped
    exact fun blank => owned ((Dispatch.spans_eq_nil_iff _).mp blank address)
  rw [if_neg present] at mapping
  rw [Processor.ofImage_image sound.processor] at restored
  exact ⟨_, restored, rfl, ⟨rfl, mapping, ⟨silent.bus.1, silent.bus.2⟩, quiet.bus⟩,
    ⟨silent.irqLines, silent.nmiLines⟩, ⟨quiet.irqLines, quiet.nmiLines⟩, storage⟩

/-- Save states are transparent to the future. A machine with the same regions that takes over the
save state of another one saves the same, and whatever is called on the two from then on, they give
the same replies, save the same after each call, and crash at the same call if they crash. -/
theorem restored_machine_follows_saved {source target : Machine D} (reached : source.Reachable)
    (storage : source.bus.StorageOnly) (mapped : ∃ address, source.bus.owner address ≠ none)
    (quiet : source.Quiet) (filled : target.bus.Filled)
    (same : target.bus.outlines = source.bus.outlines) (silent : target.Quiet) :
    ∃ twin, target.restore source.save = .ok (.ok (), twin) ∧ twin.save = source.save ∧
      ∀ calls, twin.follow calls = source.follow calls := by
  obtain ⟨twin, restored, twins⟩ :=
    restore_twins reached.sound storage mapped quiet filled same silent
  exact ⟨twin, restored, twins.save, twins.follow⟩

/-- A flat machine with a request takes over the save state of one without, and forgets it. -/
theorem restored_flat_follows_flat : ∃ twin : Machine Unpopulated,
    (flat.request .irq).restore (flat : Machine Unpopulated).save = .ok (.ok (), twin) ∧
      ∀ calls, twin.follow calls = (flat : Machine Unpopulated).follow calls := by
  have storage : (flat : Machine Unpopulated).bus.StorageOnly := Bus.flat_storageOnly
  have quiet : (flat : Machine Unpopulated).Quiet := ⟨⟨rfl, rfl⟩, rfl, rfl⟩
  have silent : ((flat : Machine Unpopulated).request .irq).Quiet := ⟨⟨rfl, rfl⟩, rfl, rfl⟩
  have same : ((flat : Machine Unpopulated).request .irq).bus.outlines =
      (flat : Machine Unpopulated).bus.outlines := rfl
  have mapped : ∃ address, (flat : Machine Unpopulated).bus.owner address ≠ none :=
    ⟨0, by rw [show (flat : Machine Unpopulated).bus = .flat from rfl, Bus.flat_owner]; decide⟩
  have filled : ((flat : Machine Unpopulated).request .irq).bus.Filled :=
    Bus.reachable_flat.sound.filled
  obtain ⟨twin, restored, _, follows⟩ :=
    restored_machine_follows_saved (.flat) storage mapped quiet filled same silent
  exact ⟨twin, restored, follows⟩

end Machine

end EightBit
