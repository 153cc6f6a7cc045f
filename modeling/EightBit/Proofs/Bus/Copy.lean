import EightBit.Proofs.Bus.Sound

/-
The two ways of a copy. A block with a single owner is loaded in one piece, any other block byte by
byte, and both have the same effect on every bus, whatever its regions are.
-/

namespace EightBit

namespace Region

variable {D : Type}

/-- Storing a block is storing its bytes one after the other. -/
theorem store_cons (bytes : Array UInt8) {offset : UInt16} {value : UInt8} {values : List UInt8}
    (within : offset.toNat + (values.length + 1) ≤ 65536) :
    store bytes offset (value :: values) =
      store bytes offset [value] >>= fun middle => store middle (offset + 1) values := by
  simp only [store, List.length_cons, List.length_nil, overwrite]
  by_cases room : offset.toNat + (0 + 1) ≤ bytes.size
  · rw [if_pos room, Outcome.bind_ok, Array.size_setIfInBounds]
    cases values with
    | nil =>
        have last : (offset + 1).toNat ≤ bytes.size := by
          rw [UInt16.toNat_add, UInt16.toNat_one]
          omega
        rw [if_pos (by simpa using room), if_pos (by simpa using last)]
        rfl
    | cons second rest =>
        have next : (offset + 1).toNat = offset.toNat + 1 := by
          rw [List.length_cons] at within
          rw [UInt16.toNat_add, UInt16.toNat_one]
          omega
        have moved : offset.toNat + 1 + (second :: rest).length =
            offset.toNat + ((second :: rest).length + 1) := by omega
        simp only [next, moved]
  · rw [if_neg room, Outcome.bind_error, if_neg (by omega)]

variable [Peripheral D]

/-- Loading a block is loading its bytes one after the other, also for a peripheral. -/
theorem load_cons (region : Region D) {offset : UInt16} {value : UInt8} {values : List UInt8}
    (within : offset.toNat + (values.length + 1) ≤ 65536) :
    region.load offset (value :: values) =
      region.load offset [value] >>= fun (middle, first) =>
        middle.load (offset + 1) values >>= fun (last, rest) => .ok (last, first ++ rest) := by
  obtain ⟨name, range, contents⟩ := region
  cases contents with
  | ram bytes =>
      simp only [load, store_cons bytes within]
      cases store bytes offset [value] with
      | error crash => rfl
      | ok middle =>
          simp only [Outcome.bind_ok, Outcome.pure_eq_ok]
          cases store middle (offset + 1) values <;> rfl
  | rom bytes =>
      simp only [load, store_cons bytes within]
      cases store bytes offset [value] with
      | error crash => rfl
      | ok middle =>
          simp only [Outcome.bind_ok, Outcome.pure_eq_ok]
          cases store middle (offset + 1) values <;> rfl
  | io device => simp only [load, loadDevice, List.append_nil, Outcome.bind_ok]

end Region

namespace Bus

variable {D : Type}

/-- A block has a single owner if it fits below the top of memory and that region owns each of its
addresses. -/
theorem ownsBlock_iff {bus : Bus D} {id : Nat} {address : Address} {size : Nat} :
    bus.ownsBlock id address size ↔
      address.toNat + size ≤ 65536 ∧ ∀ place : Address, address.toNat ≤ place.toNat →
        place.toNat < address.toNat + size → bus.owner place = some id := by
  rw [ownsBlock]
  split
  · rename_i within
    simp only [within, true_and, Dispatch.ownsAll, Nat.all_eq_finRange_all, List.all_eq_true,
      List.mem_finRange, forall_const, beq_iff_eq, owner, Dispatch.owner]
    constructor
    · intro owned place lower upper
      have here := owned ⟨place.toNat - address.toNat, by omega⟩
      simpa only [Nat.add_sub_cancel' lower] using here
    · intro owned offset
      have below : address.toNat + offset.val < 65536 := by omega
      have place : (UInt16.ofNat (address.toNat + offset.val)).toNat = address.toNat + offset.val :=
        UInt16.toNat_ofNat_of_lt' below
      have here := owned (UInt16.ofNat (address.toNat + offset.val)) (by omega) (by omega)
      simpa only [place] using here
  · rename_i past
    simp only [past, false_and, Bool.false_eq_true]

/-- The first address of a block has the owner, and so has the rest of the block. -/
theorem ownsBlock_succ {bus : Bus D} {id : Nat} {address : Address} {size : Nat}
    (block : bus.ownsBlock id address (size + 1)) :
    bus.owner address = some id ∧ bus.ownsBlock id address.next size := by
  obtain ⟨within, owned⟩ := ownsBlock_iff.mp block
  refine ⟨owned address (Nat.le_refl _) (by omega), ownsBlock_iff.mpr ?_⟩
  rw [Address.next, UInt16.toNat_add, UInt16.toNat_one]
  refine ⟨by omega, ?_⟩
  intro place lower upper
  exact owned place (by omega) (by omega)

/-- Effects and a region that is put back do not touch each other. -/
theorem withRegion_absorb (bus : Bus D) (effects : List Effect) (id : Nat) (region : Region D) :
    (bus.absorb effects).withRegion id region = (bus.withRegion id region).absorb effects := by
  induction effects generalizing bus with
  | nil => rfl
  | cons effect effects ih => cases effect <;> exact ih _

/-- What is put back last stays. -/
theorem withRegion_withRegion (bus : Bus D) (id : Nat) (first second : Region D) :
    (bus.withRegion id first).withRegion id second = bus.withRegion id second := by
  simp only [withRegion, Array.setIfInBounds_setIfInBounds]

variable [Peripheral D]

/-- The load happens in the attached region. -/
theorem loadOwned_attached {bus : Bus D} {id : Nat} {region : Region D}
    (attached : bus.regions[id]? = some region) (address : Address) (bytes : List UInt8) :
    bus.loadOwned id address bytes =
      (fun (next, effects) => (bus.withRegion id next).absorb effects) <$>
        region.load (region.range.offsetOf address) bytes := by
  rw [loadOwned, onRegion_attached attached]
  cases region.load (region.range.offsetOf address) bytes <;> rfl

/-- A write that the owner does not ignore is a load of one byte that the watchpoints notice. -/
theorem write_eq_loadOwned {bus : Bus D} {id : Nat} {region : Region D} {address : Address}
    (owned : bus.owner address = some id) (attached : bus.regions[id]? = some region)
    (writable : region.kind ≠ .rom) (value : UInt8) :
    bus.write address value =
      (fun after => after.notice .write address value) <$> bus.loadOwned id address [value] := by
  rw [write, owned]
  dsimp only
  rw [onRegion_attached attached, loadOwned_attached attached, Region.write_eq_load writable]
  cases region.load (region.range.offsetOf address) [value] <;> rfl

/-- A write to read-only storage is reported and noticed, and that is all. -/
theorem write_readOnly {bus : Bus D} {id : Nat} {region : Region D} {address : Address}
    (owned : bus.owner address = some id) (attached : bus.regions[id]? = some region)
    (readOnly : region.kind = .rom) (value : UInt8) :
    bus.write address value = .ok ((bus.report (.romWrite region.name
      (region.range.offsetOf address) value)).notice .write address value) := by
  rw [write, owned]
  dsimp only
  rw [onRegion_attached attached, Region.write_rom readOnly]
  simp only [Outcome.bind_ok, Outcome.pure_eq_ok, Outcome.map_ok, withRegion_attached attached]
  rfl

/-- Loading a block into its owner is loading its bytes one after the other. -/
theorem loadOwned_cons {bus : Bus D} {id : Nat} {region : Region D}
    (attached : bus.regions[id]? = some region) {address : Address} {byte : UInt8}
    {bytes : List UInt8}
    (within : (region.range.offsetOf address).toNat + (bytes.length + 1) ≤ 65536) :
    bus.loadOwned id address (byte :: bytes) =
      bus.loadOwned id address [byte] >>= fun middle => middle.loadOwned id address.next bytes := by
  rw [loadOwned_attached attached, loadOwned_attached attached, Region.load_cons region within]
  cases loaded : region.load (region.range.offsetOf address) [byte] with
  | error crash => rfl
  | ok outcome =>
      obtain ⟨middle, first⟩ := outcome
      have present : ((bus.withRegion id middle).absorb first).regions[id]? = some middle := by
        rw [absorb_regions, getElem?_withRegion attached, if_pos rfl]
      have range : middle.range = region.range := (Region.load_follows loaded).range
      simp only [Outcome.map_ok, Outcome.bind_ok]
      rw [loadOwned_attached present, range, AddressRange.offsetOf_next]
      cases middle.load (region.range.offsetOf address + 1) bytes with
      | error crash => rfl
      | ok outcome =>
          obtain ⟨last, rest⟩ := outcome
          simp only [Outcome.map_ok, Outcome.bind_ok]
          rw [absorb_append, withRegion_absorb, withRegion_withRegion]

/-- The first byte goes to the owner of the address, and the copy goes on at the next address. -/
theorem copyBytes_owned {bus : Bus D} {address : Address} {id : Nat}
    (owned : bus.owner address = some id) (byte : UInt8) (bytes : List UInt8) :
    bus.copyBytes address (byte :: bytes) =
      bus.loadOwned id address [byte] >>= fun middle => middle.copyBytes address.next bytes := by
  rw [copyBytes, owned]

/-- The copy stops at the first address without an owner. -/
theorem copyBytes_gap {bus : Bus D} {address : Address} (gap : bus.owner address = none)
    (byte : UInt8) (bytes : List UInt8) :
    bus.copyBytes address (byte :: bytes) = .ok (.error (.dispatchGap address), bus) := by
  rw [copyBytes, gap]

/-- Byte by byte a block with a single owner is loaded as it is in one piece. -/
theorem Sound.copyBytes_block {bus : Bus D} (sound : bus.Sound) {id : Nat} {address : Address}
    {byte : UInt8} {bytes : List UInt8}
    (block : bus.ownsBlock id address (bytes.length + 1)) :
    bus.copyBytes address (byte :: bytes) =
      (fun after => (.ok (), after)) <$> bus.loadOwned id address (byte :: bytes) := by
  induction bytes generalizing bus address byte with
  | nil =>
      rw [copyBytes_owned (ownsBlock_succ block).1]
      cases bus.loadOwned id address [byte] <;> rfl
  | cons second bytes ih =>
      obtain ⟨owned, rest⟩ := ownsBlock_succ block
      obtain ⟨region, attached, inside⟩ := sound.owned owned
      have within := (ownsBlock_iff.mp block).1
      have offset := (AddressRange.toNat_offsetOf inside).1
      have fits : (region.range.offsetOf address).toNat + ((second :: bytes).length + 1) ≤
          65536 := by omega
      rw [copyBytes_owned owned, loadOwned_cons attached fits]
      cases loaded : bus.loadOwned id address [byte] with
      | error crash => rfl
      | ok middle =>
          have follows := loadOwned_follows loaded
          have remains : middle.ownsBlock id address.next (bytes.length + 1) := by
            rw [ownsBlock, follows.dispatch]
            exact rest
          exact ih (sound.follows follows) remains

/-- A copy does what storing its bytes one after the other does; a report that the block spans
regions may come first. -/
theorem Sound.copy_eq_copyBytes {bus : Bus D} (sound : bus.Sound) (address : Address)
    (bytes : List UInt8) :
    ∃ start, (start = bus ∨ start = bus.report (.copySpansRegions bytes.length address)) ∧
      bus.copy address bytes = start.copyBytes address bytes := by
  cases bytes with
  | nil => exact ⟨bus, .inl rfl, rfl⟩
  | cons byte bytes =>
      rw [copy, if_neg (by simp only [List.isEmpty_cons, Bool.false_eq_true, not_false_eq_true])]
      cases owned : bus.owner address with
      | none => exact ⟨bus, .inl rfl, (copyBytes_gap owned byte bytes).symm⟩
      | some id =>
          dsimp only
          split
          · rename_i block
            refine ⟨bus, .inl rfl, ?_⟩
            rw [sound.copyBytes_block block]
            cases bus.loadOwned id address (byte :: bytes) <;> rfl
          · exact ⟨_, .inr rfl, rfl⟩

end Bus

end EightBit
