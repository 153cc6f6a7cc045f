import EightBit.Bus.Copy
import EightBit.Proofs.Region.Contents

/-
What accesses leave alone. However the regions are read, written, loaded or clocked, the dispatch
table and the watchpoints stay, and every region stays the same but for its contents.
-/

namespace EightBit.Bus

variable {D : Type}

/-- Effects reach the lines, the log and the notes, and nothing else. -/
theorem absorb_frame (bus : Bus D) (effects : List Effect) :
    ∃ lines log notes, bus.absorb effects = { bus with lines, log, notes } := by
  induction effects generalizing bus with
  | nil => exact ⟨bus.lines, bus.log, bus.notes, rfl⟩
  | cons effect effects ih =>
      cases effect with
      | raise line => exact ih (bus.raise line)
      | report event => exact ih (bus.report event)
      | note book entry => exact ih { bus with notes := bus.notes.push (book, entry) }

/-- Effects leave the regions alone. -/
@[simp] theorem absorb_regions (bus : Bus D) (effects : List Effect) :
    (bus.absorb effects).regions = bus.regions := by
  obtain ⟨lines, log, notes, same⟩ := bus.absorb_frame effects
  rw [same]

@[simp] theorem absorb_dispatch (bus : Bus D) (effects : List Effect) :
    (bus.absorb effects).dispatch = bus.dispatch := by
  obtain ⟨lines, log, notes, same⟩ := bus.absorb_frame effects
  rw [same]

@[simp] theorem absorb_watchpoints (bus : Bus D) (effects : List Effect) :
    (bus.absorb effects).watchpoints = bus.watchpoints := by
  obtain ⟨lines, log, notes, same⟩ := bus.absorb_frame effects
  rw [same]

/-- Effects are no accesses, so they leave no hit. -/
@[simp] theorem absorb_hits (bus : Bus D) (effects : List Effect) :
    (bus.absorb effects).hits = bus.hits := by
  obtain ⟨lines, log, notes, same⟩ := bus.absorb_frame effects
  rw [same]

/-- Effects reach the bus one after the other. -/
theorem absorb_append (bus : Bus D) (first second : List Effect) :
    bus.absorb (first ++ second) = (bus.absorb first).absorb second := by
  induction first generalizing bus with
  | nil => rfl
  | cons effect effects ih => cases effect <;> exact ih _

/-- A noticed access reaches the hits and the log, and nothing else. -/
theorem notice_frame (bus : Bus D) (access : Access) (address : Address) (value : UInt8) :
    ∃ hits log, bus.notice access address value = { bus with hits, log } := by
  unfold notice
  split
  · split
    · exact ⟨bus.hits, _, rfl⟩
    · exact ⟨_, _, rfl⟩
  · exact ⟨bus.hits, bus.log, rfl⟩

/-- Comparing an access with the watchpoints leaves the regions alone. -/
@[simp] theorem notice_regions (bus : Bus D) (access : Access) (address : Address)
    (value : UInt8) : (bus.notice access address value).regions = bus.regions := by
  obtain ⟨hits, log, same⟩ := bus.notice_frame access address value
  rw [same]

@[simp] theorem notice_dispatch (bus : Bus D) (access : Access) (address : Address)
    (value : UInt8) : (bus.notice access address value).dispatch = bus.dispatch := by
  obtain ⟨hits, log, same⟩ := bus.notice_frame access address value
  rw [same]

/-- The bus with another region in the place of an attached one. -/
def withRegion (bus : Bus D) (id : Nat) (region : Region D) : Bus D :=
  { bus with regions := bus.regions.setIfInBounds id region }

/-- A region that is put back is found at its place, and the others at theirs. -/
theorem getElem?_withRegion {bus : Bus D} {id : Nat} {region : Region D}
    (attached : bus.regions[id]? = some region) (next : Region D) (other : Nat) :
    (bus.withRegion id next).regions[other]? =
      if id = other then some next else bus.regions[other]? := by
  obtain ⟨inside, _⟩ := Array.getElem?_eq_some_iff.mp attached
  rw [withRegion, Array.getElem?_setIfInBounds, if_pos inside]

/-- Putting a region back where it was changes nothing. -/
theorem withRegion_attached {bus : Bus D} {id : Nat} {region : Region D}
    (attached : bus.regions[id]? = some region) : bus.withRegion id region = bus := by
  have same : bus.regions.setIfInBounds id region = bus.regions := by
    apply Array.ext_getElem?
    intro other
    refine (getElem?_withRegion attached region other).trans ?_
    split
    · rename_i here
      rw [← here, attached]
    · rfl
  rw [withRegion, same]

/-- The action sees the attached region, and its result takes that region's place. -/
theorem onRegion_attached {α : Type} {bus : Bus D} {id : Nat} {region : Region D}
    (attached : bus.regions[id]? = some region)
    (act : Region D → Except Crash (α × Region D × List Effect)) :
    bus.onRegion id act =
      (fun (result, next, effects) => (result, (bus.withRegion id next).absorb effects)) <$>
        act region := by
  obtain ⟨regions, dispatch, watchpoints, hits, lines, log, notes⟩ := bus
  obtain ⟨bound, rfl⟩ := Array.getElem?_eq_some_iff.mp attached
  simp only [onRegion, bound, dite_true, takeOut, Array.swapAt_def, withRegion]
  cases act regions[id] with
  | error crash => rfl
  | ok outcome =>
      obtain ⟨result, next, effects⟩ := outcome
      simp only [Outcome.map_ok, Array.setIfInBounds_def, Array.size_set, bound, dite_true,
        Array.set_set]

/-- Nothing can be done to a region that is not attached. -/
theorem onRegion_missing {α : Type} {bus : Bus D} {id : Nat} (missing : bus.regions[id]? = none)
    (act : Region D → Except Crash (α × Region D × List Effect)) :
    bus.onRegion id act = .error .outsideStorage := by
  obtain ⟨regions, dispatch, watchpoints, hits, lines, log, notes⟩ := bus
  have outside : ¬id < regions.size := Nat.not_lt.mpr (Array.getElem?_eq_none_iff.mp missing)
  simp only [onRegion, outside, dite_false]

/-- Every storage region holds one byte for each of its addresses. -/
def Filled (bus : Bus D) : Prop :=
  ∀ ⦃id : Nat⦄ ⦃region : Region D⦄, bus.regions[id]? = some region → region.Filled

/-- No region is a peripheral. -/
def StorageOnly (bus : Bus D) : Prop :=
  ∀ ⦃id : Nat⦄ ⦃region : Region D⦄, bus.regions[id]? = some region → region.kind ≠ .io

/-- An access that is noticed leaves storage to answer everywhere. -/
theorem StorageOnly.notice {bus : Bus D} (storage : bus.StorageOnly) (access : Access)
    (address : Address) (value : UInt8) : (bus.notice access address value).StorageOnly := by
  intro id region attached
  rw [notice_regions] at attached
  exact storage attached

/-- The later bus is the earlier one with other contents in its regions. -/
structure Follows (earlier later : Bus D) : Prop where
  dispatch : later.dispatch = earlier.dispatch
  watchpoints : later.watchpoints = earlier.watchpoints
  size : later.regions.size = earlier.regions.size
  region : ∀ {id : Nat} {region : Region D}, earlier.regions[id]? = some region →
    ∃ next, later.regions[id]? = some next ∧ region.Follows next

theorem Follows.refl (bus : Bus D) : Follows bus bus :=
  ⟨rfl, rfl, rfl, fun attached => ⟨_, attached, .refl _⟩⟩

/-- What follows a bus that follows another one follows that one, too. -/
theorem Follows.trans {first second third : Bus D} (start : Follows first second)
    (rest : Follows second third) : Follows first third where
  dispatch := rest.dispatch.trans start.dispatch
  watchpoints := rest.watchpoints.trans start.watchpoints
  size := rest.size.trans start.size
  region attached := by
    obtain ⟨middle, found, follows⟩ := start.region attached
    obtain ⟨last, present, more⟩ := rest.region found
    exact ⟨last, present, follows.trans more⟩

/-- Every address keeps its owner. -/
theorem Follows.owner {earlier later : Bus D} (follows : Follows earlier later)
    (address : Address) : later.owner address = earlier.owner address :=
  congrArg (fun table => Dispatch.owner table address) follows.dispatch

/-- Hits, lines, log and notes do not matter. -/
theorem Follows.of_frame {earlier later : Bus D} (dispatch : later.dispatch = earlier.dispatch)
    (watchpoints : later.watchpoints = earlier.watchpoints)
    (regions : later.regions = earlier.regions) : Follows earlier later :=
  ⟨dispatch, watchpoints, congrArg Array.size regions,
    fun attached => ⟨_, regions ▸ attached, .refl _⟩⟩

/-- Other contents fill the regions as well. -/
theorem Filled.follows {earlier later : Bus D} (filled : earlier.Filled)
    (follows : Follows earlier later) : later.Filled := by
  intro id region attached
  have inside := (Array.getElem?_eq_some_iff.mp attached).1
  rw [follows.size] at inside
  have before := Array.getElem?_eq_getElem inside
  obtain ⟨next, found, kept⟩ := follows.region before
  cases attached.symm.trans found
  exact kept.filled (filled before)

/-- The regions in the order they were attached, without their contents. -/
def outlines (bus : Bus D) : Array Region.Outline := bus.regions.map Region.outline

/-- The outline at a place is that of the region at that place. -/
theorem getElem?_outlines (bus : Bus D) (id : Nat) :
    bus.outlines[id]? = bus.regions[id]?.map Region.outline := Array.getElem?_map

/-- Equal outlines are those of equally many regions. -/
theorem size_of_outlines {first second : Bus D} (same : second.outlines = first.outlines) :
    second.regions.size = first.regions.size := by
  simpa only [outlines, Array.size_map] using congrArg Array.size same

/-- Where one bus has a region the other one has its like. -/
theorem attached_of_outlines {first second : Bus D} (same : second.outlines = first.outlines)
    {id : Nat} {region : Region D} (attached : first.regions[id]? = some region) :
    ∃ next, second.regions[id]? = some next ∧ next.outline = region.outline := by
  have found : second.outlines[id]? = some region.outline := by
    rw [same, getElem?_outlines, attached, Option.map_some]
  rw [getElem?_outlines] at found
  exact Option.map_eq_some_iff.mp found

/-- No region turns into a peripheral. -/
theorem StorageOnly.outlines {first second : Bus D} (storage : first.StorageOnly)
    (same : second.outlines = first.outlines) : second.StorageOnly := by
  intro id region attached
  obtain ⟨like, found, outline⟩ := attached_of_outlines same.symm attached
  have kind : like.kind = region.kind := Region.kind_of_outline outline
  exact kind ▸ storage found

/-- The regions keep their outlines. -/
theorem Follows.outlines {earlier later : Bus D} (follows : Follows earlier later) :
    later.outlines = earlier.outlines := by
  apply Array.ext_getElem?
  intro id
  rw [getElem?_outlines, getElem?_outlines]
  cases attached : earlier.regions[id]? with
  | none =>
      have outside := Array.getElem?_eq_none_iff.mp attached
      rw [Array.getElem?_eq_none (by rw [follows.size]; exact outside)]
  | some region =>
      obtain ⟨next, present, kept⟩ := follows.region attached
      rw [present, Option.map_some, Option.map_some, kept.outline]

theorem report_follows (bus : Bus D) (event : Event) : Follows bus (bus.report event) :=
  .of_frame rfl rfl rfl

/-- Effects reach the lines, the log and the notes only. -/
theorem absorb_follows (bus : Bus D) (effects : List Effect) :
    Follows bus (bus.absorb effects) :=
  .of_frame (bus.absorb_dispatch effects) (bus.absorb_watchpoints effects)
    (bus.absorb_regions effects)

/-- An access that is noticed leaves a hit or a report at most. -/
theorem notice_follows (bus : Bus D) (access : Access) (address : Address) (value : UInt8) :
    Follows bus (bus.notice access address value) := by
  obtain ⟨hits, log, same⟩ := bus.notice_frame access address value
  rw [same]
  exact .of_frame rfl rfl rfl

/-- A region that is put back with other contents of its kind is all that changes. -/
theorem withRegion_follows {bus : Bus D} {id : Nat} {region next : Region D}
    (attached : bus.regions[id]? = some region) (follows : region.Follows next) :
    Follows bus (bus.withRegion id next) := by
  refine ⟨rfl, rfl, Array.size_setIfInBounds, fun {other old} found => ?_⟩
  rw [getElem?_withRegion attached]
  by_cases same : id = other
  · subst same
    cases attached.symm.trans found
    exact ⟨next, if_pos rfl, follows⟩
  · exact ⟨old, by rw [if_neg same, found], .refl old⟩

/-- Whatever keeps the outline of one region keeps that of the bus. -/
theorem onRegion_follows {α : Type} {bus after : Bus D} {id : Nat} {result : α}
    {act : Region D → Except Crash (α × Region D × List Effect)}
    (keeps : ∀ region result next effects, act region = .ok (result, next, effects) →
      region.Follows next)
    (done : bus.onRegion id act = .ok (result, after)) : Follows bus after := by
  cases attached : bus.regions[id]? with
  | none =>
      rw [onRegion_missing attached] at done
      cases done
  | some region =>
      rw [onRegion_attached attached] at done
      cases acted : act region with
      | error crash =>
          rw [acted] at done
          cases done
      | ok outcome =>
          obtain ⟨value, next, effects⟩ := outcome
          rw [acted] at done
          cases done
          exact (withRegion_follows attached (keeps region _ next effects acted)).trans
            (absorb_follows _ effects)

variable [Peripheral D]

/-- What is seen depends on the regions and the table only. -/
theorem peek_congr {first second : Bus D} (regions : first.regions = second.regions)
    (dispatch : first.dispatch = second.dispatch) (address : Address) :
    first.peek address = second.peek address := by
  simp only [peek, owner, regions, dispatch]

/-- What can be looked at does not depend on the watchpoints. -/
@[simp] theorem notice_peek (bus : Bus D) (access : Access) (address : Address) (value : UInt8) :
    (bus.notice access address value).peek = bus.peek := by
  funext place
  exact peek_congr (notice_regions ..) (notice_dispatch ..) place

/-- Storage is read as it is seen, and only the watchpoints notice. -/
theorem read_storage {bus : Bus D} (storage : bus.StorageOnly) (address : Address) :
    bus.read address =
      (fun value => (value, bus.notice .read address value)) <$> bus.peek address := by
  unfold read peek
  cases owned : bus.owner address with
  | none => rfl
  | some id =>
      dsimp only
      cases attached : bus.regions[id]? with
      | none =>
          rw [onRegion_missing attached]
          rfl
      | some region =>
          have seen := (Region.peek_storage (storage attached) (region.range.offsetOf address)).2
          rw [onRegion_attached attached, seen]
          dsimp only
          cases region.peek (region.range.offsetOf address) with
          | error crash => rfl
          | ok value =>
              simp only [Outcome.map_ok, Outcome.bind_ok, withRegion_attached attached]
              rfl

/-- A read has its owner read, and then the watchpoints notice it. -/
theorem read_eq_ok {bus after : Bus D} {address : Address} {value : UInt8}
    (done : bus.read address = .ok (value, after)) :
    ∃ id middle,
      bus.onRegion id (fun region => region.read (region.range.offsetOf address)) =
          .ok (value, middle) ∧
        after = middle.notice .read address value := by
  rw [read] at done
  split at done
  · cases done
  · rename_i id owned
    obtain ⟨⟨seen, middle⟩, served, rest⟩ := Outcome.bind_eq_ok_iff.mp done
    cases rest
    exact ⟨id, middle, served, rfl⟩

/-- A write has its owner changed, and then the watchpoints notice it. -/
theorem write_eq_ok {bus after : Bus D} {address : Address} {value : UInt8}
    (done : bus.write address value = .ok after) :
    ∃ id middle,
      bus.onRegion id (fun region => do
          let (region, effects) ← region.write (region.range.offsetOf address) value
          return ((), region, effects)) = .ok ((), middle) ∧
        after = middle.notice .write address value := by
  rw [write] at done
  split at done
  · cases done
  · rename_i id owned
    obtain ⟨⟨_, middle⟩, served, rest⟩ := Outcome.bind_eq_ok_iff.mp done
    cases rest
    exact ⟨id, middle, served, rfl⟩

/-- A read changes contents at most. -/
theorem read_follows {bus after : Bus D} {address : Address} {value : UInt8}
    (done : bus.read address = .ok (value, after)) : Follows bus after := by
  obtain ⟨id, middle, served, rfl⟩ := read_eq_ok done
  exact (onRegion_follows (fun _ _ _ _ => Region.read_follows) served).trans
    (notice_follows ..)

theorem write_follows {bus after : Bus D} {address : Address} {value : UInt8}
    (done : bus.write address value = .ok after) : Follows bus after := by
  obtain ⟨id, middle, served, rfl⟩ := write_eq_ok done
  refine (onRegion_follows (fun region _ next effects acted => ?_) served).trans
    (notice_follows ..)
  obtain ⟨⟨written, reports⟩, stored, rest⟩ := Outcome.bind_eq_ok_iff.mp acted
  cases rest
  exact Region.write_follows stored

theorem loadOwned_follows {bus after : Bus D} {id : Nat} {address : Address}
    {bytes : List UInt8} (done : bus.loadOwned id address bytes = .ok after) :
    Follows bus after := by
  obtain ⟨⟨seen, middle⟩, served, rest⟩ := Outcome.bind_eq_ok_iff.mp done
  cases rest
  refine onRegion_follows (fun region _ next effects acted => ?_) served
  obtain ⟨⟨loaded, reports⟩, stored, rest⟩ := Outcome.bind_eq_ok_iff.mp acted
  cases rest
  exact Region.load_follows stored

theorem copyBytes_follows {bus after : Bus D} {address : Address} {bytes : List UInt8}
    {result : Except Fault Unit} (done : bus.copyBytes address bytes = .ok (result, after)) :
    Follows bus after := by
  induction bytes generalizing bus address with
  | nil =>
      cases done
      exact .refl _
  | cons byte bytes ih =>
      rw [copyBytes] at done
      split at done
      · cases done
        exact .refl _
      · obtain ⟨middle, loaded, rest⟩ := Outcome.bind_eq_ok_iff.mp done
        exact (loadOwned_follows loaded).trans (ih rest)

/-- A copy changes contents at most, however far it comes. -/
theorem copy_follows {bus after : Bus D} {address : Address} {bytes : List UInt8}
    {result : Except Fault Unit} (done : bus.copy address bytes = .ok (result, after)) :
    Follows bus after := by
  rw [copy] at done
  split at done
  · cases done
    exact .refl _
  · split at done
    · cases done
      exact .refl _
    · split at done
      · obtain ⟨middle, loaded, rest⟩ := Outcome.bind_eq_ok_iff.mp done
        cases rest
        exact loadOwned_follows loaded
      · exact (report_follows bus _).trans (copyBytes_follows done)

/-- Time passes for every region, and then the effects reach the bus. -/
theorem tick_eq (bus : Bus D) (cycles : Nat) :
    bus.tick cycles =
      { bus with regions := bus.regions.map fun region : Region D => (region.tick cycles).1 }.absorb
        (bus.regions.toList.flatMap fun region : Region D => (region.tick cycles).2) := by
  obtain ⟨regions, dispatch, watchpoints, hits, lines, log, notes⟩ := bus
  simp only [tick, Array.map_map, Array.toList_map, List.flatMap_map, Function.comp_def]

/-- Time passes for all regions, and then their effects reach the bus. -/
theorem tick_frame (bus : Bus D) (cycles : Nat) :
    ∃ effects, bus.tick cycles =
      { bus with regions := bus.regions.map fun region : Region D => (region.tick cycles).1 }.absorb
        effects := ⟨_, bus.tick_eq cycles⟩

/-- Time that passes changes contents at most. -/
theorem tick_follows (bus : Bus D) (cycles : Nat) : Follows bus (bus.tick cycles) := by
  obtain ⟨effects, same⟩ := bus.tick_frame cycles
  rw [same]
  have ticked : Follows bus
      { bus with regions := bus.regions.map fun region => (region.tick cycles).1 } := by
    refine ⟨rfl, rfl, Array.size_map, fun {id region} attached => ?_⟩
    exact ⟨(region.tick cycles).1, by simp only [Array.getElem?_map, attached, Option.map_some],
      region.tick_follows cycles⟩
  exact ticked.trans (absorb_follows _ effects)

/-- What every access keeps is kept by a transaction. -/
theorem run_keeps (kept : Bus D → Bus D → Prop) (refl : ∀ bus, kept bus bus)
    (trans : ∀ {first second third}, kept first second → kept second third → kept first third)
    (read : ∀ {bus after : Bus D} {address value}, bus.read address = .ok (value, after) →
      kept bus after)
    (write : ∀ {bus after : Bus D} {address value}, bus.write address value = .ok after →
      kept bus after)
    (report : ∀ (bus : Bus D) event, kept bus (bus.report event)) {α : Type} {act : Transaction α}
    {bus after : Bus D} {result : α} (served : act.run bus = .ok (result, after)) :
    kept bus after := by
  induction act generalizing bus with
  | done value =>
      cases served
      exact refl _
  | read address next ih =>
      rw [Transaction.run] at served
      split at served
      · rename_i value middle answered
        exact trans (read answered) (ih value served)
      · cases served
  | write address value next ih =>
      rw [Transaction.run] at served
      split at served
      · rename_i middle written
        exact trans (write written) (ih served)
      · cases served
  | report event next ih =>
      rw [Transaction.run] at served
      exact trans (report bus event) (ih served)

/-- Serving a transaction leaves the table and the watchpoints alone. -/
theorem run_follows {α : Type} {act : Transaction α} {bus after : Bus D} {result : α}
    (served : act.run bus = .ok (result, after)) : Follows bus after :=
  run_keeps Follows .refl .trans read_follows write_follows report_follows served

end EightBit.Bus
