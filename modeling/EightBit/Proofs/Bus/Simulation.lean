import EightBit.Proofs.Bus.Access
import EightBit.Proofs.Transaction.Accesses

/-
Buses side by side. Where two buses have the same regions and the same table, every access has the
same result on both, and the buses stay related if the relation survives what accesses do to them.
-/

namespace EightBit.Bus

open Outcome

variable {D : Type}

/-- A relation that accesses cannot break. It says at least that the regions and the tables agree,
and nothing about the logs. -/
structure Simulation (related : Bus D → Bus D → Prop) : Prop where
  regions : ∀ {first second}, related first second → first.regions = second.regions
  dispatch : ∀ {first second}, related first second → first.dispatch = second.dispatch
  contents : ∀ {first second}, related first second → ∀ regions,
    related { first with regions } { second with regions }
  table : ∀ {first second}, related first second → ∀ dispatch,
    related { first with dispatch } { second with dispatch }
  log : ∀ {first second}, related first second → ∀ firstLog secondLog,
    related { first with log := firstLog } { second with log := secondLog }
  absorb : ∀ {first second}, related first second → ∀ effects,
    related (first.absorb effects) (second.absorb effects)
  notice : ∀ {first second}, related first second → ∀ access address value,
    related (first.notice access address value) (second.notice access address value)

namespace Simulation

variable {related : Bus D → Bus D → Prop} {first second : Bus D}

/-- Related buses have the same owners. -/
theorem owner (simulation : Simulation related) (start : related first second)
    (address : Address) : first.owner address = second.owner address :=
  congrArg (fun table => Dispatch.owner table address) (simulation.dispatch start)

theorem report (simulation : Simulation related) (start : related first second) (event : Event) :
    related (first.report event) (second.report event) := simulation.log start _ _

/-- An action on one region has the same result on both buses. -/
theorem onRegion {α : Type} (simulation : Simulation related) (start : related first second)
    (id : Nat) (act : Region D → Except Crash (α × Region D × List Effect)) :
    Matched (fun left right => left.1 = right.1 ∧ related left.2 right.2)
      (first.onRegion id act) (second.onRegion id act) := by
  have regions := simulation.regions start
  cases attached : first.regions[id]? with
  | none =>
      rw [onRegion_missing attached, onRegion_missing (regions ▸ attached)]
      exact .error _
  | some region =>
      rw [onRegion_attached attached, onRegion_attached (regions ▸ attached)]
      cases act region with
      | error crash => exact .error crash
      | ok outcome =>
          refine .ok ⟨rfl, simulation.absorb ?_ _⟩
          rw [withRegion, withRegion, regions]
          exact simulation.contents start _

/-- Mapping the same region on both sides leaves them related. -/
theorem remap (simulation : Simulation related) (start : related first second) (id : Nat) :
    related (first.remap id) (second.remap id) := by
  unfold Bus.remap
  rw [← simulation.regions start]
  split
  · exact start
  · rename_i region _
    change related
      { first with dispatch := first.dispatch.assign region.range id, log := first.log.push _ }
      { second with dispatch := second.dispatch.assign region.range id, log := second.log.push _ }
    rw [← simulation.dispatch start]
    have mapped := simulation.table start (first.dispatch.assign region.range id)
    exact simulation.log mapped _ _

/-- A region is mapped on both buses or on none. -/
theorem map (simulation : Simulation related) (start : related first second) (id : Nat) :
    (first.map id).1 = (second.map id).1 ∧ related (first.map id).2 (second.map id).2 := by
  unfold Bus.map
  rw [← simulation.regions start]
  split
  · exact ⟨rfl, simulation.remap start id⟩
  · exact ⟨rfl, start⟩

/-- A region that is added on both sides gets the same number. -/
theorem add (simulation : Simulation related) (start : related first second)
    (region : Region D) :
    (first.add region).1 = (second.add region).1 ∧
      related (first.add region).2 (second.add region).2 := by
  have regions := simulation.regions start
  have attached : related (first.attach region).2 (second.attach region).2 := by
    change related { first with regions := first.regions.push region, log := first.log.push _ }
      { second with regions := second.regions.push region, log := second.log.push _ }
    rw [← regions]
    exact simulation.log (simulation.contents start _) _ _
  refine ⟨congrArg Array.size regions, ?_⟩
  change related ((first.attach region).2.remap first.regions.size)
    ((second.attach region).2.remap second.regions.size)
  rw [← regions]
  exact simulation.remap attached _

variable [Peripheral D]

/-- The same read has the same answer on both sides. -/
theorem read (simulation : Simulation related) (start : related first second)
    (address : Address) :
    Matched (fun left right => left.1 = right.1 ∧ related left.2 right.2)
      (first.read address) (second.read address) := by
  unfold Bus.read
  rw [simulation.owner start]
  split
  · exact .error _
  · refine (simulation.onRegion start _ _).bind ?_
    rintro ⟨value, left⟩ ⟨_, right⟩ ⟨rfl, next⟩
    exact .ok ⟨rfl, simulation.notice next _ _ _⟩

/-- The same write is answered on both sides, or crashes on both. -/
theorem write (simulation : Simulation related) (start : related first second)
    (address : Address) (value : UInt8) :
    Matched related (first.write address value) (second.write address value) := by
  unfold Bus.write
  rw [simulation.owner start]
  split
  · exact .error _
  · refine (simulation.onRegion start _ _).bind ?_
    rintro ⟨_, left⟩ ⟨_, right⟩ ⟨_, next⟩
    exact .ok (simulation.notice next _ _ _)

theorem tryRead (simulation : Simulation related) (start : related first second)
    (address : Address) :
    Matched (fun left right => left.1 = right.1 ∧ related left.2 right.2)
      (first.tryRead address) (second.tryRead address) := by
  unfold Bus.tryRead
  rw [simulation.owner start]
  split
  · exact .ok ⟨rfl, start⟩
  · refine (simulation.read start address).bind ?_
    rintro ⟨value, left⟩ ⟨_, right⟩ ⟨rfl, next⟩
    exact .ok ⟨rfl, next⟩

theorem tryWrite (simulation : Simulation related) (start : related first second)
    (address : Address) (value : UInt8) :
    Matched (fun left right => left.1 = right.1 ∧ related left.2 right.2)
      (first.tryWrite address value) (second.tryWrite address value) := by
  unfold Bus.tryWrite
  rw [simulation.owner start]
  split
  · exact .ok ⟨rfl, start⟩
  · exact (simulation.write start address value).bind fun _ _ next => .ok ⟨rfl, next⟩

theorem readWord (simulation : Simulation related) (start : related first second)
    (address : Address) :
    Matched (fun left right => left.1 = right.1 ∧ related left.2 right.2)
      (first.readWord address) (second.readWord address) := by
  refine (simulation.read start address).bind ?_
  rintro ⟨low, left⟩ ⟨_, right⟩ ⟨rfl, middle⟩
  refine (simulation.read middle address.next).bind ?_
  rintro ⟨high, left⟩ ⟨_, right⟩ ⟨rfl, next⟩
  exact .ok ⟨rfl, next⟩

theorem writeWord (simulation : Simulation related) (start : related first second)
    (address : Address) (value : UInt16) :
    Matched related (first.writeWord address value) (second.writeWord address value) :=
  (simulation.write start address _).bind fun _ _ middle => simulation.write middle _ _

/-- A transaction cannot tell the buses apart. -/
theorem run {α : Type} (simulation : Simulation related) (start : related first second)
    (act : Transaction α) :
    Matched (fun left right => left.1 = right.1 ∧ related left.2 right.2)
      (act.run first) (act.run second) := by
  induction act generalizing first second with
  | done result => exact .ok ⟨rfl, start⟩
  | read address next ih =>
      have served : Matched _ (Memory.read first address) (Memory.read second address) :=
        simulation.read start address
      rw [Transaction.run, Transaction.run]
      generalize Memory.read first address = left at served
      generalize Memory.read second address = right at served
      cases served with
      | error crash => exact .error crash
      | @ok front back same =>
          obtain ⟨value, front⟩ := front
          obtain ⟨_, back⟩ := back
          obtain ⟨rfl, later⟩ := same
          exact ih value later
  | write address value next ih =>
      have served : Matched _ (Memory.write first address value)
          (Memory.write second address value) := simulation.write start address value
      rw [Transaction.run, Transaction.run]
      generalize Memory.write first address value = left at served
      generalize Memory.write second address value = right at served
      cases served with
      | error crash => exact .error crash
      | ok later => exact ih later
  | report event next ih => exact ih (simulation.report start event)

/-- A transaction makes the same accesses on both buses. -/
theorem accesses {α : Type} (simulation : Simulation related) (start : related first second)
    (act : Transaction α) : act.accesses first = act.accesses second := by
  induction act generalizing first second with
  | done result => rfl
  | read address next ih =>
      have served : Matched _ (Memory.read first address) (Memory.read second address) :=
        simulation.read start address
      generalize left : Memory.read first address = front at served
      generalize right : Memory.read second address = back at served
      cases served with
      | error crash => simp only [Transaction.accesses, Transaction.trace, left, right]
      | @ok front back same =>
          obtain ⟨value, front⟩ := front
          obtain ⟨_, back⟩ := back
          obtain ⟨rfl, later⟩ := same
          rw [Transaction.accesses_read left, Transaction.accesses_read right, ih value later]
  | write address value next ih =>
      have served : Matched _ (Memory.write first address value)
          (Memory.write second address value) := simulation.write start address value
      generalize left : Memory.write first address value = front at served
      generalize right : Memory.write second address value = back at served
      cases served with
      | error crash => simp only [Transaction.accesses, Transaction.trace, left, right]
      | ok later => rw [Transaction.accesses_write left, Transaction.accesses_write right, ih later]
  | report event next ih => exact ih (simulation.report start event)

theorem loadOwned (simulation : Simulation related) (start : related first second) (id : Nat)
    (address : Address) (bytes : List UInt8) :
    Matched related (first.loadOwned id address bytes) (second.loadOwned id address bytes) := by
  refine (simulation.onRegion start _ _).bind ?_
  rintro ⟨_, left⟩ ⟨_, right⟩ ⟨_, next⟩
  exact .ok next

theorem copyBytes (simulation : Simulation related) (start : related first second)
    (address : Address) (bytes : List UInt8) :
    Matched (fun left right => left.1 = right.1 ∧ related left.2 right.2)
      (first.copyBytes address bytes) (second.copyBytes address bytes) := by
  induction bytes generalizing first second address with
  | nil => exact .ok ⟨rfl, start⟩
  | cons byte bytes ih =>
      rw [Bus.copyBytes, Bus.copyBytes, simulation.owner start]
      split
      · exact .ok ⟨rfl, start⟩
      · exact (simulation.loadOwned start _ _ _).bind fun _ _ next => ih next _

/-- The same copy has the same result on both sides. -/
theorem copy (simulation : Simulation related) (start : related first second)
    (address : Address) (bytes : List UInt8) :
    Matched (fun left right => left.1 = right.1 ∧ related left.2 right.2)
      (first.copy address bytes) (second.copy address bytes) := by
  have owns : ∀ id, first.ownsBlock id address bytes.length =
      second.ownsBlock id address bytes.length := by
    intro id
    rw [ownsBlock, ownsBlock, simulation.dispatch start]
  unfold Bus.copy
  rw [simulation.owner start]
  split
  · exact .ok ⟨rfl, start⟩
  · cases second.owner address with
    | none => exact .ok ⟨rfl, start⟩
    | some id =>
        dsimp only
        rw [owns]
        split
        · exact (simulation.loadOwned start id address bytes).bind fun _ _ next =>
            .ok ⟨rfl, next⟩
        · exact simulation.copyBytes (simulation.report start _) _ _

/-- The same time passes on both sides. -/
theorem tick (simulation : Simulation related) (start : related first second) (cycles : Nat) :
    related (first.tick cycles) (second.tick cycles) := by
  obtain ⟨regions, dispatch, watchpoints, hits, lines, log, notes⟩ := first
  have same := simulation.regions start
  dsimp only at same
  subst same
  exact simulation.absorb (simulation.contents start _) _

end Simulation

/-- The regions and the tables agree, which is all that decides what an access does. -/
structure SameMemory (first second : Bus D) : Prop where
  regions : first.regions = second.regions
  dispatch : first.dispatch = second.dispatch

/-- Buses with the same memory simulate each other. -/
theorem sameMemory_simulation : Simulation (SameMemory : Bus D → Bus D → Prop) where
  regions same := same.regions
  dispatch same := same.dispatch
  contents same _ := ⟨rfl, same.dispatch⟩
  table same _ := ⟨same.regions, rfl⟩
  log same _ _ := ⟨same.regions, same.dispatch⟩
  absorb same effects :=
    ⟨by rw [absorb_regions, absorb_regions, same.regions],
      by rw [absorb_dispatch, absorb_dispatch, same.dispatch]⟩
  notice same access address value :=
    ⟨by rw [notice_regions, notice_regions, same.regions],
      by rw [notice_dispatch, notice_dispatch, same.dispatch]⟩

end EightBit.Bus
