import EightBit.Proofs.Address.Range
import EightBit.Proofs.Outcome
import EightBit.Region.Basic

/-
What stays of a region whatever is done to it, and what it holds at each of its addresses.
-/

namespace EightBit

namespace Region

variable {D : Type}

/-- What identifies a region apart from its contents. -/
structure Outline where
  name : String
  kind : RegionKind
  range : AddressRange
  deriving DecidableEq

/-- The name, the kind and the range of a region. -/
def outline (region : Region D) : Outline := ⟨region.name, region.kind, region.range⟩

/-- Regions of one outline have one range. -/
theorem range_of_outline {first second : Region D} (same : first.outline = second.outline) :
    first.range = second.range := congrArg Outline.range same

theorem kind_of_outline {first second : Region D} (same : first.outline = second.outline) :
    first.kind = second.kind := congrArg Outline.kind same

/-- The bytes that the region itself stores; a peripheral stores none. -/
def stored (region : Region D) : Array UInt8 :=
  match region.contents with
  | .ram bytes => bytes
  | .rom bytes => bytes
  | .io _ => #[]

/-- Storage holds one byte for every address of its range. -/
def Filled (region : Region D) : Prop :=
  region.kind ≠ .io → region.stored.size = region.range.size

/-- The later region is the earlier one with other contents of the same kind and size. -/
structure Follows (earlier later : Region D) : Prop where
  outline : later.outline = earlier.outline
  filled : earlier.Filled → later.Filled

theorem Follows.refl (region : Region D) : Follows region region := ⟨rfl, id⟩

/-- What follows a region that follows another one follows that one, too. -/
theorem Follows.trans {first second third : Region D} (start : Follows first second)
    (rest : Follows second third) : Follows first third :=
  ⟨rest.outline.trans start.outline, rest.filled ∘ start.filled⟩

/-- New contents leave the range alone. -/
theorem Follows.range {earlier later : Region D} (follows : Follows earlier later) :
    later.range = earlier.range := range_of_outline follows.outline

theorem Follows.kind {earlier later : Region D} (follows : Follows earlier later) :
    later.kind = earlier.kind := kind_of_outline follows.outline

/-- New memory fills its range. -/
theorem filled_ram (name : String) (range : AddressRange) (fill : UInt8) :
    (ram name range fill : Region D).Filled := fun _ => Array.size_replicate

theorem filled_rom (name : String) (range : AddressRange) (fill : UInt8) :
    (rom name range fill : Region D).Filled := fun _ => Array.size_replicate

theorem filled_io (name : String) (range : AddressRange) (device : D) :
    (io name range device).Filled := fun storage => absurd rfl storage

/-- An image of any length leaves exactly one byte for every address. -/
theorem filled_romImage (name : String) (range : AddressRange) (image : List UInt8) :
    (romImage name range image : Region D).Filled := by
  intro _
  simp only [romImage, stored, List.size_toArray, List.length_append, List.length_replicate,
    List.length_take]
  omega

/-- Overwriting leaves the number of bytes alone. -/
@[simp] theorem size_overwrite (bytes : Array UInt8) (offset : Nat) (values : List UInt8) :
    (overwrite bytes offset values).size = bytes.size := by
  induction values generalizing bytes offset with
  | nil => rfl
  | cons value values ih => rw [overwrite, ih, Array.size_setIfInBounds]

/-- What is stored fits, and the amount of storage stays. -/
theorem store_eq_ok_iff {bytes after : Array UInt8} {offset : UInt16} {values : List UInt8} :
    store bytes offset values = .ok after ↔
      offset.toNat + values.length ≤ bytes.size ∧ overwrite bytes offset.toNat values = after := by
  rw [store]
  split
  · simp only [*, true_and, Except.ok.injEq]
  · simp only [*, false_and, reduceCtorEq]

variable [Peripheral D]

/-- Storage is looked at and read in the same way, and reading changes nothing. -/
theorem peek_storage {region : Region D} (storage : region.kind ≠ .io) (offset : UInt16) :
    region.peek offset = byteAt region.stored offset ∧
      region.read offset = (fun value => (value, region, [])) <$> region.peek offset := by
  obtain ⟨name, range, contents⟩ := region
  cases contents with
  | ram bytes => exact ⟨rfl, rfl⟩
  | rom bytes => exact ⟨rfl, rfl⟩
  | io device => exact absurd rfl storage

/-- A read gives the region new contents at most. -/
theorem read_follows {region after : Region D} {offset : UInt16} {value : UInt8}
    {effects : List Effect} (done : region.read offset = .ok (value, after, effects)) :
    Follows region after := by
  by_cases storage : region.kind = .io
  · obtain ⟨name, range, contents⟩ := region
    cases contents with
    | ram bytes => cases storage
    | rom bytes => cases storage
    | io device =>
        cases done
        exact ⟨rfl, fun _ => filled_io name range _⟩
  · rw [(peek_storage storage offset).2] at done
    cases looked : region.peek offset with
    | error crash =>
        rw [looked] at done
        cases done
    | ok value =>
        rw [looked] at done
        cases done
        exact .refl region

theorem load_follows {region after : Region D} {offset : UInt16} {values : List UInt8}
    {effects : List Effect} (done : region.load offset values = .ok (after, effects)) :
    Follows region after := by
  obtain ⟨name, range, contents⟩ := region
  cases contents with
  | ram bytes =>
      obtain ⟨next, fits, rest⟩ := Outcome.bind_eq_ok_iff.mp done
      cases rest
      obtain ⟨_, rfl⟩ := store_eq_ok_iff.mp fits
      exact ⟨rfl, fun filled storage => (size_overwrite _ _ _).trans (filled storage)⟩
  | rom bytes =>
      obtain ⟨next, fits, rest⟩ := Outcome.bind_eq_ok_iff.mp done
      cases rest
      obtain ⟨_, rfl⟩ := store_eq_ok_iff.mp fits
      exact ⟨rfl, fun filled storage => (size_overwrite _ _ _).trans (filled storage)⟩
  | io device =>
      cases done
      exact ⟨rfl, fun _ => filled_io name range _⟩

/-- Storage takes every block that fits, and keeps its other bytes. -/
theorem load_storage {region : Region D} (storage : region.kind ≠ .io) {offset : UInt16}
    {values : List UInt8} (fits : offset.toNat + values.length ≤ region.stored.size) :
    ∃ next, region.load offset values = .ok (next, []) ∧ next.outline = region.outline ∧
      next.stored = overwrite region.stored offset.toNat values := by
  obtain ⟨name, range, contents⟩ := region
  cases contents with
  | ram bytes =>
      have stored : store bytes offset values = .ok (overwrite bytes offset.toNat values) :=
        store_eq_ok_iff.mpr ⟨fits, rfl⟩
      exact ⟨⟨name, range, .ram (overwrite bytes offset.toNat values)⟩, by rw [load, stored]; rfl,
        rfl, rfl⟩
  | rom bytes =>
      have stored : store bytes offset values = .ok (overwrite bytes offset.toNat values) :=
        store_eq_ok_iff.mpr ⟨fits, rfl⟩
      exact ⟨⟨name, range, .rom (overwrite bytes offset.toNat values)⟩, by rw [load, stored]; rfl,
        rfl, rfl⟩
  | io device => exact absurd rfl storage

/-- A write that is not ignored is a load of one byte. -/
theorem write_eq_load {region : Region D} (writable : region.kind ≠ .rom) (offset : UInt16)
    (value : UInt8) : region.write offset value = region.load offset [value] := by
  obtain ⟨name, range, contents⟩ := region
  cases contents with
  | ram bytes => rfl
  | rom bytes => exact absurd rfl writable
  | io device => simp only [write, load, loadDevice, List.append_nil]

/-- Read-only storage only reports a write. -/
theorem write_rom {region : Region D} (readOnly : region.kind = .rom) (offset : UInt16)
    (value : UInt8) :
    region.write offset value = .ok (region, [.report (.romWrite region.name offset value)]) := by
  obtain ⟨name, range, contents⟩ := region
  cases contents with
  | ram bytes => cases readOnly
  | rom bytes => rfl
  | io device => cases readOnly

theorem write_follows {region after : Region D} {offset : UInt16} {value : UInt8}
    {effects : List Effect} (done : region.write offset value = .ok (after, effects)) :
    Follows region after := by
  by_cases readOnly : region.kind = .rom
  · rw [write_rom readOnly] at done
    cases done
    exact .refl region
  · rw [write_eq_load readOnly] at done
    exact load_follows done

/-- Time that passes gives the region new contents at most. -/
theorem tick_follows (region : Region D) (cycles : Nat) :
    Follows region (region.tick cycles).1 := by
  obtain ⟨name, range, contents⟩ := region
  cases contents with
  | ram bytes => exact .refl _
  | rom bytes => exact .refl _
  | io device => exact ⟨rfl, fun _ => filled_io name range _⟩

/-- A restore gives the region new contents at most, also if it fails. -/
theorem restore_follows (region : Region D) (saved : Array UInt8) :
    Follows region (region.restore saved).2.1 := by
  obtain ⟨name, range, contents⟩ := region
  cases contents with
  | ram bytes =>
      rw [restore]
      split
      · rename_i fits
        exact ⟨rfl, fun filled storage => fits.trans (filled storage)⟩
      · exact .refl _
  | rom bytes =>
      rw [restore]
      split
      · rename_i fits
        exact ⟨rfl, fun filled storage => fits.trans (filled storage)⟩
      · exact .refl _
  | io device =>
      rw [restore]
      split
      · split
        · exact ⟨rfl, fun _ => filled_io name range _⟩
        · exact .refl _
      · exact .refl _

/-- One call on a region, and the effects that it has. -/
inductive Step (region : Region D) : Region D → List Effect → Prop
  | read {offset : UInt16} {value : UInt8} {next : Region D} {effects : List Effect}
      (done : region.read offset = .ok (value, next, effects)) : Step region next effects
  | write {offset : UInt16} {value : UInt8} {next : Region D} {effects : List Effect}
      (done : region.write offset value = .ok (next, effects)) : Step region next effects
  | load {offset : UInt16} {values : List UInt8} {next : Region D} {effects : List Effect}
      (done : region.load offset values = .ok (next, effects)) : Step region next effects
  | restore (saved : Array UInt8) :
      Step region (region.restore saved).2.1 (region.restore saved).2.2
  | tick (cycles : Nat) : Step region (region.tick cycles).1 (region.tick cycles).2

/-- Nothing that is done to a region gives it more than new contents. -/
theorem Step.follows {region next : Region D} {effects : List Effect}
    (step : Step region next effects) : Follows region next := by
  cases step with
  | read done => exact read_follows done
  | write done => exact write_follows done
  | load done => exact load_follows done
  | restore saved => exact region.restore_follows saved
  | tick cycles => exact region.tick_follows cycles

/-- The regions that can be made: new ones, and what calls make of them before they are attached. -/
inductive Made : Region D → Prop
  | ram (name : String) (range : AddressRange) (fill : UInt8) : Made (.ram name range fill)
  | rom (name : String) (range : AddressRange) (fill : UInt8) : Made (.rom name range fill)
  | romImage (name : String) (range : AddressRange) (image : List UInt8) :
      Made (.romImage name range image)
  | io (name : String) (range : AddressRange) (device : D) : Made (.io name range device)
  | step {region next : Region D} {effects : List Effect} (made : Made region)
      (step : region.Step next effects) : Made next

/-- However a region is made, storage fills its range. -/
theorem Made.filled {region : Region D} (made : region.Made) : region.Filled := by
  induction made with
  | ram name range fill => exact filled_ram name range fill
  | rom name range fill => exact filled_rom name range fill
  | romImage name range image => exact filled_romImage name range image
  | io name range device => exact filled_io name range device
  | step _ step ih => exact step.follows.filled ih

/-- A byte inside the storage is found. -/
theorem byteAt_inside {bytes : Array UInt8} {offset : UInt16} (inside : offset.toNat < bytes.size) :
    byteAt bytes offset = .ok bytes[offset.toNat] := by
  rw [byteAt, Array.getElem?_eq_getElem inside]

/-- A look at an address of the range is answered. -/
theorem Filled.peek {region : Region D} (filled : region.Filled) {offset : UInt16}
    (inside : offset.toNat < region.range.size) : ∃ value, region.peek offset = .ok value := by
  by_cases storage : region.kind = .io
  · obtain ⟨name, range, contents⟩ := region
    cases contents with
    | ram bytes => cases storage
    | rom bytes => cases storage
    | io device => exact ⟨_, rfl⟩
  · rw [← filled storage] at inside
    exact ⟨_, (peek_storage storage offset).1.trans (byteAt_inside inside)⟩

/-- A read at an address of the range is answered. -/
theorem Filled.read {region : Region D} (filled : region.Filled) {offset : UInt16}
    (inside : offset.toNat < region.range.size) :
    ∃ value next effects, region.read offset = .ok (value, next, effects) := by
  by_cases storage : region.kind = .io
  · obtain ⟨name, range, contents⟩ := region
    cases contents with
    | ram bytes => cases storage
    | rom bytes => cases storage
    | io device => exact ⟨_, _, _, rfl⟩
  · obtain ⟨value, seen⟩ := filled.peek inside
    refine ⟨value, region, [], ?_⟩
    rw [(peek_storage storage offset).2, seen, Outcome.map_ok]

/-- A block that ends inside the range is loaded, by storage and by a peripheral. -/
theorem Filled.load {region : Region D} (filled : region.Filled) {offset : UInt16}
    {values : List UInt8} (fits : offset.toNat + values.length ≤ region.range.size) :
    ∃ next effects, region.load offset values = .ok (next, effects) := by
  by_cases storage : region.kind = .io
  · obtain ⟨name, range, contents⟩ := region
    cases contents with
    | ram bytes => cases storage
    | rom bytes => cases storage
    | io device => exact ⟨_, _, rfl⟩
  · rw [← filled storage] at fits
    obtain ⟨next, loaded, _⟩ := load_storage storage fits
    exact ⟨next, [], loaded⟩

theorem Filled.write {region : Region D} (filled : region.Filled) {offset : UInt16}
    (inside : offset.toNat < region.range.size) (value : UInt8) :
    ∃ next effects, region.write offset value = .ok (next, effects) := by
  by_cases readOnly : region.kind = .rom
  · exact ⟨_, _, write_rom readOnly offset value⟩
  · rw [write_eq_load readOnly]
    exact filled.load inside

end Region

end EightBit
