import EightBit.Proofs.Bus.Flat
import EightBit.Proofs.Execution.Addressing

/-
Blocks of storage mapped on top of each other. A block that is added shows its fill inside its
range, and outside of it the bus shows what it showed before.
-/

namespace EightBit

/-- The addresses of a page have its number as their high byte. -/
theorem AddressRange.containsAddress_page {number : UInt8} {address : Address} :
    (page number).containsAddress address ↔ address.hi = number := by
  have start : (page number).start.toNat = 256 * number.toNat := by
    rw [page, Address.toNat_ofBytes]
    exact Nat.zero_add _
  rw [containsAddress_iff, stop, start, ← UInt8.toNat_inj, address.toNat_hi]
  change _ ∧ _ < 256 * number.toNat + 256 ↔ _
  omega

namespace Bus

variable {D : Type} {bus : Bus D}

/-- A block of storage with the same byte at each address. -/
structure IsBlock (region : Region D) (kind : RegionKind) (fill : UInt8) : Prop where
  storage : kind ≠ .io
  kind : region.kind = kind
  stored : region.stored = Array.replicate region.range.size fill

/-- New memory holds the same byte everywhere. -/
theorem isBlock_ram (name : String) (range : AddressRange) (fill : UInt8) :
    IsBlock (.ram name range fill : Region D) .ram fill := ⟨nofun, rfl, rfl⟩

theorem isBlock_rom (name : String) (range : AddressRange) (fill : UInt8) :
    IsBlock (.rom name range fill : Region D) .rom fill := ⟨nofun, rfl, rfl⟩

variable {region : Region D} {kind : RegionKind} {fill : UInt8}

/-- A block fills its range. -/
theorem IsBlock.filled (block : IsBlock region kind fill) : region.Filled := fun _ => by
  rw [block.stored, Array.size_replicate]

/-- A block is storage. -/
theorem IsBlock.only (block : IsBlock region kind fill) : region.kind ≠ .io := by
  rw [block.kind]
  exact block.storage

/-- Under its number the region that was added is found, and the older ones are where they were. -/
theorem getElem?_add (bus : Bus D) (region : Region D) (id : Nat) :
    (bus.add region).2.regions[id]? =
      if id = bus.regions.size then some region else bus.regions[id]? := by
  rw [add_regions, Array.getElem?_push]

/-- A region that is added answers in its range, and what answered elsewhere still does. -/
theorem ownerKind?_add (sound : bus.Sound) (region : Region D) (address : Address) :
    (bus.add region).2.ownerKind? address =
      if region.range.containsAddress address then some region.kind
      else bus.ownerKind? address := by
  have owner := owner_add bus region address
  by_cases inside : region.range.containsAddress address
  · rw [if_pos inside] at owner ⊢
    exact ownerKind?_attached owner ((getElem?_add ..).trans (if_pos rfl))
  · rw [if_neg inside] at owner ⊢
    rw [ownerKind?, ownerKind?, owner]
    cases owned : bus.owner address with
    | none => rfl
    | some id =>
        obtain ⟨older, attached, _⟩ := sound.owned owned
        have before : id ≠ bus.regions.size :=
          Nat.ne_of_lt (Array.getElem?_eq_some_iff.mp attached).1
        rw [Option.bind_some, Option.bind_some, getElem?_add, if_neg before]

/-- Outside its range a new region answers nothing. -/
theorem ownerKind?_outside (sound : bus.Sound) (region : Region D) {address : Address}
    (outside : ¬region.range.containsAddress address) :
    (bus.add region).2.ownerKind? address = bus.ownerKind? address :=
  (ownerKind?_add sound region address).trans (if_neg outside)

/-- Storage stays everywhere when a block of storage is added. -/
theorem Stocked.add (stocked : bus.Stocked) (block : IsBlock region kind fill) :
    (bus.add region).2.Stocked where
  sound := stocked.sound.add block.filled
  storage address := by
    rw [ownerKind?_add stocked.sound]
    split
    · rw [block.kind]
      have storage := block.storage
      cases kind with
      | ram => exact .inl rfl
      | rom => exact .inr rfl
      | io => exact absurd rfl storage
    · exact stocked.storage address

/-- Where only storage answers, another block leaves it so. -/
theorem StorageOnly.add (only : bus.StorageOnly) (block : IsBlock region kind fill) :
    (bus.add region).2.StorageOnly := by
  intro id other attached
  rw [getElem?_add] at attached
  split at attached
  · cases attached
    exact block.only
  · exact only attached

/-- On an empty bus no peripheral answers. -/
theorem storageOnly_empty : (empty : Bus D).StorageOnly := by
  intro id region attached
  rw [empty, Array.getElem?_empty] at attached
  cases attached

/-- One block of RAM, with the same byte at each address. -/
def uniform (fill : UInt8) : Bus D := (empty.add (.ram "ram" .full fill)).2

/-- The uniform bus can be written everywhere. -/
theorem uniform_ram (fill : UInt8) (address : Address) :
    (uniform fill : Bus D).ownerKind? address = some .ram :=
  (ownerKind?_add sound_empty _ address).trans (if_pos (AddressRange.containsAddress_full address))

theorem uniform_storageOnly (fill : UInt8) : (uniform fill : Bus D).StorageOnly :=
  storageOnly_empty.add (isBlock_ram ..)

theorem uniform_stocked (fill : UInt8) : (uniform fill : Bus D).Stocked where
  sound := sound_empty.add (Region.filled_ram _ _ _)
  storage address := .inl (uniform_ram fill address)

variable [Peripheral D]

/-- Every byte of a block is the one that it was filled with. -/
theorem IsBlock.peek (block : IsBlock region kind fill) {address : Address}
    (inside : region.range.containsAddress address) :
    region.peek (region.range.offsetOf address) = .ok fill := by
  have below : (region.range.offsetOf address).toNat < region.stored.size := by
    rw [block.stored, Array.size_replicate]
    exact (AddressRange.toNat_offsetOf inside).2
  rw [(Region.peek_storage block.only _).1, Region.byteAt_inside below]
  simp only [block.stored, Array.getElem_replicate]

/-- Over a bus, a block shows its byte in its range and the bus elsewhere. -/
theorem peek_add (sound : bus.Sound) (block : IsBlock region kind fill) (address : Address) :
    (bus.add region).2.peek address =
      if region.range.containsAddress address then .ok fill else bus.peek address := by
  have owner := owner_add bus region address
  by_cases inside : region.range.containsAddress address
  · rw [if_pos inside] at owner ⊢
    rw [peek_attached owner ((getElem?_add ..).trans (if_pos rfl)), block.peek inside]
  · rw [if_neg inside] at owner ⊢
    cases owned : bus.owner address with
    | none => rw [peek_gap (owner.trans owned), peek_gap owned]
    | some id =>
        obtain ⟨older, attached, _⟩ := sound.owned owned
        have before : id ≠ bus.regions.size :=
          Nat.ne_of_lt (Array.getElem?_eq_some_iff.mp attached).1
        have still : (bus.add region).2.regions[id]? = some older := by
          rw [getElem?_add, if_neg before, attached]
        rw [peek_attached (owner.trans owned) still, peek_attached owned attached]

/-- The flat memory of a stocked bus shows a new block in its range only. -/
theorem Stocked.get_add (stocked : bus.Stocked) (block : IsBlock region kind fill)
    (address : Address) :
    (bus.add region).2.flatten.get address =
      if region.range.containsAddress address then fill else bus.flatten.get address := by
  have shown := peek_add stocked.sound block address
  rw [stocked.peek address, ← apply_ite Except.ok] at shown
  exact get_flatten shown

/-- The uniform bus shows the same byte everywhere. -/
theorem peek_uniform (fill : UInt8) (address : Address) :
    (uniform fill : Bus D).peek address = .ok fill :=
  (peek_add sound_empty (isBlock_ram ..) address).trans
    (if_pos (AddressRange.containsAddress_full address))

/-- The flat memory of the uniform bus holds the same byte everywhere. -/
theorem get_uniform (fill : UInt8) (address : Address) :
    (uniform fill : Bus D).flatten.get address = fill := get_flatten (peek_uniform fill address)

end Bus

end EightBit
