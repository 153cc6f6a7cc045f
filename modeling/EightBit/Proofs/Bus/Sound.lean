import EightBit.Proofs.Bus.Access
import EightBit.Proofs.Bus.Layout

/-
The invariant of the bus. Whatever is called on it, storage fills its range, and an address belongs
to an attached region whose range contains it.
-/

namespace EightBit.Bus

variable {D : Type}

/-- What holds of every bus that calls lead to. -/
structure Sound (bus : Bus D) : Prop where
  filled : bus.Filled
  owned : ∀ {address : Address} {id : Nat}, bus.owner address = some id →
    ∃ region, bus.regions[id]? = some region ∧ region.range.containsAddress address

/-- A bus with nothing attached is sound. -/
theorem sound_empty : Sound (empty : Bus D) where
  filled id region attached := by
    rw [empty, Array.getElem?_empty] at attached
    cases attached
  owned {address id} found := by
    change Dispatch.empty.owner address = some id at found
    rw [Dispatch.owner_empty] at found
    cases found

/-- New contents do not break the invariant. -/
theorem Sound.follows {earlier later : Bus D} (sound : Sound earlier)
    (follows : Follows earlier later) : Sound later where
  filled := sound.filled.follows follows
  owned {address id} found := by
    rw [follows.owner] at found
    obtain ⟨region, attached, inside⟩ := sound.owned found
    obtain ⟨next, present, kept⟩ := follows.region attached
    exact ⟨next, present, by rw [kept.range]; exact inside⟩

/-- Every region is still there under its number, perhaps with other contents. -/
def Keeps (earlier later : Bus D) : Prop :=
  ∀ ⦃id : Nat⦄ ⦃region : Region D⦄, earlier.regions[id]? = some region →
    ∃ next, later.regions[id]? = some next ∧ next.outline = region.outline

theorem Keeps.refl (bus : Bus D) : Keeps bus bus := fun _ region attached =>
  ⟨region, attached, rfl⟩

/-- What is kept twice is kept. -/
theorem Keeps.trans {first second third : Bus D} (start : Keeps first second)
    (rest : Keeps second third) : Keeps first third := by
  intro id region attached
  obtain ⟨middle, found, like⟩ := start attached
  obtain ⟨last, present, outline⟩ := rest found
  exact ⟨last, present, outline.trans like⟩

/-- Equal outlines keep all regions. -/
theorem Keeps.of_outlines {earlier later : Bus D} (same : later.outlines = earlier.outlines) :
    Keeps earlier later := fun _ _ attached => attached_of_outlines same attached

theorem Keeps.of_regions {earlier later : Bus D} (same : later.regions = earlier.regions) :
    Keeps earlier later := fun _ region attached => ⟨region, same ▸ attached, rfl⟩

/-- Whether a span fits depends on the ranges of the regions only. -/
theorem Admits.kept {first second : Bus D} {span : MappedSpan} (admits : Admits first span)
    (keeps : Keeps first second) : Admits second span := by
  obtain ⟨region, attached, fits, inside⟩ := admits
  obtain ⟨next, present, outline⟩ := keeps attached
  have range : next.range = region.range := Region.range_of_outline outline
  exact ⟨next, present, fits, by rw [range]; exact inside⟩

/-- The first and the last address of a span of the table belong to its region, so the whole span
lies in the range of that region. -/
theorem Sound.admits_layout {bus : Bus D} (sound : Sound bus) :
    ∀ span ∈ bus.layout, bus.Admits span := by
  intro span member
  obtain ⟨positive, fits⟩ := bus.dispatch.spans_listed.bounds span member
  have owned := bus.dispatch.spans_listed.sound span member
  have stop : span.stop = span.start.toNat + span.size.toNat := rfl
  obtain ⟨region, attached, first⟩ :=
    sound.owned (owned span.start ⟨Nat.le_refl _, by omega⟩)
  have place : (UInt16.ofNat (span.stop - 1)).toNat = span.stop - 1 :=
    UInt16.toNat_ofNat_of_lt' (show span.stop - 1 < 65536 by omega)
  obtain ⟨other, found, last⟩ :=
    sound.owned (owned (UInt16.ofNat (span.stop - 1)) ⟨by omega, by omega⟩)
  cases attached.symm.trans found
  rw [AddressRange.containsAddress_iff] at first last
  exact ⟨region, attached, fits, first.1, by omega⟩

/-- A new region stands behind all others. -/
theorem getElem?_attach (bus : Bus D) (region : Region D) (id : Nat) :
    (bus.attach region).2.regions[id]? =
      if id = bus.regions.size then some region else bus.regions[id]? :=
  Array.getElem?_push

/-- A region gets the next number, and nobody owns anything more or less. -/
theorem Sound.attach {bus : Bus D} (sound : Sound bus) {region : Region D}
    (filled : region.Filled) : Sound (bus.attach region).2 where
  filled id other attached := by
    rw [getElem?_attach] at attached
    split at attached
    · cases attached
      exact filled
    · exact sound.filled attached
  owned {address id} found := by
    obtain ⟨other, attached, inside⟩ := sound.owned found
    have older : id ≠ bus.regions.size :=
      Nat.ne_of_lt (Array.getElem?_eq_some_iff.mp attached).1
    exact ⟨other, by rw [getElem?_attach, if_neg older, attached], inside⟩

/-- Mapping does not touch the regions. -/
@[simp] theorem remap_regions (bus : Bus D) (id : Nat) : (bus.remap id).regions = bus.regions := by
  unfold remap
  split <;> rfl

@[simp] theorem map_regions (bus : Bus D) (id : Nat) : (bus.map id).2.regions = bus.regions := by
  unfold map
  split
  · exact bus.remap_regions id
  · rfl

/-- A region that is added is attached last. -/
@[simp] theorem add_regions (bus : Bus D) (region : Region D) :
    (bus.add region).2.regions = bus.regions.push region := remap_regions ..

/-- A region that is mapped owns the addresses of its range, and the others stay with their
owners. -/
theorem owner_remap {bus : Bus D} {id : Nat} {region : Region D}
    (attached : bus.regions[id]? = some region) (address : Address) :
    (bus.remap id).owner address =
      if region.range.containsAddress address then some id else bus.owner address := by
  unfold remap
  rw [attached]
  exact Dispatch.owner_assign ..

/-- A region that is added owns the addresses of its range. -/
theorem owner_add (bus : Bus D) (region : Region D) (address : Address) :
    (bus.add region).2.owner address =
      if region.range.containsAddress address then some bus.regions.size
      else bus.owner address := by
  have attached : (bus.attach region).2.regions[bus.regions.size]? = some region := by
    rw [getElem?_attach, if_pos rfl]
  exact owner_remap attached address

/-- The flat bus has one region. -/
theorem flat_regions : (flat : Bus D).regions = #[.fullRam] := add_regions ..

/-- On the flat bus only storage answers. -/
theorem flat_storageOnly : (flat : Bus D).StorageOnly := by
  intro id region attached
  rw [flat_regions] at attached
  cases id with
  | zero =>
      cases attached
      exact nofun
  | succ id => cases attached

/-- One region answers for the whole address space. -/
theorem flat_owner (address : Address) : (flat : Bus D).owner address = some 0 := by
  have attached : ((empty : Bus D).attach .fullRam).2.regions[0]? = some .fullRam := rfl
  exact (owner_remap attached address).trans (if_pos (AddressRange.containsAddress_full address))

/-- Mapping an attached region keeps the invariant, and so does a number that is not attached. -/
theorem Sound.remap {bus : Bus D} (sound : Sound bus) (id : Nat) : Sound (bus.remap id) := by
  cases attached : bus.regions[id]? with
  | none =>
      unfold Bus.remap
      rw [attached]
      exact sound
  | some region =>
      refine ⟨fun _ _ found => sound.filled (by rwa [remap_regions] at found), ?_⟩
      intro address other found
      rw [owner_remap attached] at found
      rw [remap_regions]
      split at found
      · rename_i inside
        cases found
        exact ⟨region, attached, inside⟩
      · exact sound.owned found

/-- Mapping by number keeps the invariant. -/
theorem Sound.map {bus : Bus D} (sound : Sound bus) (id : Nat) : Sound (bus.map id).2 := by
  unfold Bus.map
  split
  · exact sound.remap id
  · exact sound

/-- Adding a region that is filled keeps the invariant. -/
theorem Sound.add {bus : Bus D} (sound : Sound bus) {region : Region D}
    (filled : region.Filled) : Sound (bus.add region).2 :=
  (sound.attach filled).remap _

/-- A span that passes the check lies in the range of its region, so each of its addresses does. -/
theorem Sound.applyLayout {bus : Bus D} (sound : Sound bus) (layout : List MappedSpan) :
    Sound (bus.applyLayout layout).2 := by
  by_cases accepted : ∀ span ∈ layout, bus.Admits span
  · obtain ⟨log, dispatch, same, owners⟩ := applyLayout_accepted accepted
    rw [same]
    refine ⟨sound.filled, ?_⟩
    intro address id found
    change dispatch.owner address = some id at found
    rw [owners] at found
    obtain ⟨span, last, rfl⟩ := Option.map_eq_some_iff.mp found
    have member := List.mem_reverse.mp (List.mem_of_find?_eq_some last)
    have covers : span.Covers address := by simpa using List.find?_some last
    obtain ⟨region, attached, _, lower, upper⟩ := accepted span member
    refine ⟨region, attached, AddressRange.containsAddress_iff.mpr ⟨?_, ?_⟩⟩
    · exact Nat.le_trans lower covers.1
    · exact Nat.lt_of_lt_of_le covers.2 upper
  · obtain ⟨fault, same⟩ := applyLayout_refused accepted
    rw [same]
    exact sound

variable [Peripheral D]

/-- One call on a bus, or on one of its regions. -/
inductive Step (bus : Bus D) : Bus D → Prop
  | attach {region : Region D} (filled : region.Filled) : Step bus (bus.attach region).2
  | add {region : Region D} (filled : region.Filled) : Step bus (bus.add region).2
  | map (id : Nat) : Step bus (bus.map id).2
  | applyLayout (layout : List MappedSpan) : Step bus (bus.applyLayout layout).2
  | read {address : Address} {value : UInt8} {after : Bus D}
      (done : bus.read address = .ok (value, after)) : Step bus after
  | write {address : Address} {value : UInt8} {after : Bus D}
      (done : bus.write address value = .ok after) : Step bus after
  | copy {address : Address} {bytes : List UInt8} {result : Except Fault Unit} {after : Bus D}
      (done : bus.copy address bytes = .ok (result, after)) : Step bus after
  | region {id : Nat} {region next : Region D} {effects : List Effect}
      (attached : bus.regions[id]? = some region) (step : region.Step next effects) :
      Step bus ((bus.withRegion id next).absorb effects)
  | tick (cycles : Nat) : Step bus (bus.tick cycles)
  | watch (range : AddressRange) (trigger : Trigger) : Step bus (bus.watch range trigger)
  | clearWatchpoints : Step bus bus.clearWatchpoints
  | takeHits : Step bus bus.takeHits.2
  | newLine : Step bus bus.newLine.2
  | raise (line : Line) : Step bus (bus.raise line)
  | sense (line : Line) : Step bus (bus.sense line).2
  | report (event : Event) : Step bus (bus.report event)

/-- Every step keeps the invariant. -/
theorem Sound.step {bus after : Bus D} (sound : Sound bus) (step : Step bus after) :
    Sound after := by
  cases step with
  | attach filled => exact sound.attach filled
  | add filled => exact sound.add filled
  | map id => exact sound.map id
  | applyLayout layout => exact sound.applyLayout layout
  | read done => exact sound.follows (read_follows done)
  | write done => exact sound.follows (write_follows done)
  | copy done => exact sound.follows (copy_follows done)
  | region attached step =>
      exact sound.follows ((withRegion_follows attached step.follows).trans (absorb_follows ..))
  | tick cycles => exact sound.follows (bus.tick_follows cycles)
  | watch range trigger => exact ⟨sound.filled, sound.owned⟩
  | clearWatchpoints => exact ⟨sound.filled, sound.owned⟩
  | takeHits => exact ⟨sound.filled, sound.owned⟩
  | newLine => exact ⟨sound.filled, sound.owned⟩
  | raise line => exact ⟨sound.filled, sound.owned⟩
  | sense line => exact ⟨sound.filled, sound.owned⟩
  | report event => exact ⟨sound.filled, sound.owned⟩

/-- The bus is what some calls make of an empty one. -/
inductive Reachable : Bus D → Prop
  | empty : Reachable .empty
  | step {bus after : Bus D} (reached : Reachable bus) (step : Step bus after) : Reachable after

/-- The flat bus is reached in one step. -/
theorem reachable_flat : Reachable (flat : Bus D) :=
  .step .empty (.add (Region.filled_ram _ _ _))

/-- Every bus that calls lead to is sound. -/
theorem Reachable.sound {bus : Bus D} (reached : Reachable bus) : Sound bus := by
  induction reached with
  | empty => exact sound_empty
  | step _ step ih => exact ih.step step

end EightBit.Bus
