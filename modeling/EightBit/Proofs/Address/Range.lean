import EightBit.Address.Range

/-
Ranges as sets of addresses. A range lists its addresses in order, and their offsets count them. One
range contains another one that is not empty if it has all of its addresses. Ranges that share an
address overlap, but so do an empty range and one that it lies inside of.
-/

namespace EightBit.AddressRange

/-- A start and a size make the range that has them, unless it runs past the top of memory. -/
theorem make_eq_ok_iff {start : Address} {size : UInt32} {range : AddressRange} :
    make start size = .ok range ↔
      range.start = start ∧ range.size = size.toNat := by
  rw [make]
  split
  · rename_i within
    constructor
    · rintro ⟨⟩
      exact ⟨rfl, rfl⟩
    · rintro ⟨rfl, same⟩
      cases range
      cases same
      rfl
  · rename_i outside
    refine ⟨nofun, fun ⟨first, same⟩ => (outside ?_).elim⟩
    rw [← first, ← same]
    exact range.within

/-- Every address is in the full range. -/
theorem containsAddress_full (address : Address) : full.containsAddress address :=
  containsAddress_iff.mpr ⟨Nat.zero_le _, address.toNat_lt⟩

/-- Inside the range the offset counts from the start, and it never passes the size. -/
theorem toNat_offsetOf {range : AddressRange} {address : Address}
    (inside : range.containsAddress address) :
    (range.offsetOf address).toNat = address.toNat - range.start.toNat ∧
      (range.offsetOf address).toNat < range.size := by
  rw [containsAddress_iff, stop] at inside
  have upper := address.toNat_lt
  have lower := range.start.toNat_lt
  rw [offsetOf, UInt16.toNat_sub_of_le _ _ (UInt16.le_iff_toNat_le.mpr inside.1)]
  omega

/-- Two addresses never share an offset. -/
theorem offsetOf_inj {range : AddressRange} {first second : Address} :
    range.offsetOf first = range.offsetOf second ↔ first = second := by
  constructor
  · intro same
    have shifted := congrArg (fun offset => offset + range.start) same
    simpa only [offsetOf, UInt16.sub_add_cancel] using shifted
  · intro same
    rw [same]

/-- The next address lies at the next offset, also across the top of memory. -/
theorem offsetOf_next (range : AddressRange) (address : Address) :
    range.offsetOf address.next = range.offsetOf address + 1 := by
  simp only [offsetOf, Address.next, UInt16.sub_eq_add_neg, UInt16.add_assoc,
    UInt16.add_comm 1 (-range.start)]

/-- The addresses of a range, each once and in ascending order; the offsets count them from zero. -/
structure ListLaw (range : AddressRange) : Prop where
  members : ∀ address, address ∈ range.addresses ↔ range.containsAddress address
  ascending : range.addresses.Pairwise (· < ·)
  count : range.addresses.length = range.size
  offsets : range.addresses.map (fun address => (range.offsetOf address).toNat) =
    List.range range.size

/-- No address of a range lies past the top of memory. -/
theorem toNat_add_offset {range : AddressRange} {offset : Nat} (inside : offset < range.size) :
    (range.start + UInt16.ofNat offset).toNat = range.start.toNat + offset := by
  have within := range.within
  have below : offset < 65536 := by omega
  have small : (UInt16.ofNat offset).toNat = offset := UInt16.toNat_ofNat_of_lt' below
  rw [UInt16.toNat_add, small, Nat.mod_eq_of_lt (by omega)]

/-- The addresses that a range lists are those that it contains. -/
theorem mem_addresses {range : AddressRange} {address : Address} :
    address ∈ range.addresses ↔ range.containsAddress address := by
  rw [containsAddress_iff, stop, addresses, List.mem_map]
  constructor
  · rintro ⟨offset, counted, rfl⟩
    have inside := List.mem_range.mp counted
    rw [toNat_add_offset inside]
    omega
  · rintro ⟨lower, upper⟩
    have inside : address.toNat - range.start.toNat < range.size := by omega
    refine ⟨_, List.mem_range.mpr inside, UInt16.toNat_inj.mp ?_⟩
    rw [toNat_add_offset inside]
    omega

/-- Every range lists its addresses once and in order, as far as the address space goes. -/
theorem list_law (range : AddressRange) : range.ListLaw where
  members address := mem_addresses
  ascending := by
    refine List.pairwise_map.mpr (List.pairwise_lt_range.imp_of_mem ?_)
    intro first second counted other before
    rw [UInt16.lt_iff_toNat_lt, toNat_add_offset (List.mem_range.mp counted),
      toNat_add_offset (List.mem_range.mp other)]
    omega
  count := by rw [addresses, List.length_map, List.length_range]
  offsets := by
    rw [addresses, List.map_map]
    refine (List.map_congr_left fun offset counted => ?_).trans (List.map_id _)
    have inside := List.mem_range.mp counted
    have place := toNat_add_offset inside
    have listed := mem_addresses.mp (List.mem_map.mpr ⟨offset, counted, rfl⟩)
    rw [Function.comp_apply, (toNat_offsetOf listed).1, place]
    exact Nat.add_sub_cancel_left ..

/-- Some address lies in both ranges. -/
def Meets (first second : AddressRange) : Prop :=
  ∃ address, first.containsAddress address ∧ second.containsAddress address

/-- The range is empty, and it stands between two addresses of the other one. -/
def Divides (range other : AddressRange) : Prop :=
  range.isEmpty ∧ other.start.toNat < range.start.toNat ∧ range.start.toNat < other.stop

theorem isEmpty_iff {range : AddressRange} : range.isEmpty ↔ range.size = 0 := beq_iff_eq

/-- Ranges overlap if each one starts below the stop of the other. -/
theorem overlaps_def {first second : AddressRange} : first.overlaps second ↔
    first.start.toNat < second.stop ∧ second.start.toNat < first.stop := decide_eq_true_iff

/-- The larger one of the two starts lies in both ranges, if any address does. -/
theorem meets_iff {first second : AddressRange} : first.Meets second ↔
    max first.start.toNat second.start.toNat < min first.stop second.stop := by
  constructor
  · rintro ⟨address, inFirst, inSecond⟩
    rw [containsAddress_iff] at inFirst inSecond
    omega
  · intro room
    have within := first.within
    have below : max first.start.toNat second.start.toNat < 65536 := by
      rw [stop] at room
      omega
    refine ⟨UInt16.ofNat (max first.start.toNat second.start.toNat), ?_⟩
    rw [containsAddress_iff, containsAddress_iff, UInt16.toNat_ofNat_of_lt' below]
    omega

/-- Ranges overlap if they share an address, or if an empty one lies strictly inside the other. -/
theorem overlaps_iff {first second : AddressRange} : first.overlaps second ↔
    first.Meets second ∨ first.Divides second ∨ second.Divides first := by
  rw [overlaps_def, meets_iff, Divides, Divides, isEmpty_iff, isEmpty_iff]
  simp only [stop]
  omega

/-- A range with a last address is contained exactly if each of its addresses is. -/
theorem contains_iff {outer inner : AddressRange} (filled : inner.isEmpty = false) :
    outer.contains inner ↔
      ∀ address, inner.containsAddress address → outer.containsAddress address := by
  have size : inner.size ≠ 0 := fun none => by
    rw [isEmpty, none] at filled
    cases filled
  have within := inner.within
  rw [contains, decide_eq_true_iff]
  constructor
  · intro ⟨lower, upper⟩ address inside
    rw [containsAddress_iff] at inside ⊢
    omega
  · intro every
    -- The first and the last address of the inner range decide.
    have first := every inner.start (containsAddress_iff.mpr ⟨Nat.le_refl _, by rw [stop]; omega⟩)
    have place : (inner.start + UInt16.ofNat (inner.size - 1)).toNat =
        inner.start.toNat + (inner.size - 1) := toNat_add_offset (by omega)
    have last := every (inner.start + UInt16.ofNat (inner.size - 1))
      (containsAddress_iff.mpr (by rw [place, stop]; omega))
    rw [containsAddress_iff] at first last
    rw [place] at last
    rw [stop]
    omega

/-- A range is the list of the addresses that it contains. Two ranges overlap if they share an
address, and also where one of them is empty and divides the other one; and what is not empty is
contained in a range that has all of its addresses. -/
theorem ranges_agree_with_addresses (range other : AddressRange) :
    range.ListLaw ∧
      (range.overlaps other ↔ range.Meets other ∨ range.Divides other ∨ other.Divides range) ∧
      (other.isEmpty = false → (range.contains other ↔
        ∀ address, other.containsAddress address → range.containsAddress address)) :=
  ⟨range.list_law, overlaps_iff, contains_iff⟩

/-- The upper half of memory, which ends past the last address. -/
def upperHalf : AddressRange := ⟨0x8000, 0x8000, by decide⟩

/-- The last page lies in the upper half of memory, address by address. -/
theorem ranges_agree_with_addresses_at_top :
    (page 0xff).isEmpty = false ∧ upperHalf.contains (page 0xff) ∧
      (upperHalf.contains (page 0xff) ↔
        ∀ address, (page 0xff).containsAddress address → upperHalf.containsAddress address) :=
  ⟨rfl, by decide, (ranges_agree_with_addresses upperHalf (page 0xff)).2.2 rfl⟩

/-- No addresses, in the middle of the upper half. -/
def emptyMiddle : AddressRange := ⟨0xc000, 0, by decide⟩

/-- An empty range inside another one overlaps it, but there is no address in both. -/
theorem empty_range_overlaps :
    ¬(upperHalf.overlaps emptyMiddle ↔
      ∃ address, upperHalf.containsAddress address ∧ emptyMiddle.containsAddress address) := by
  intro agrees
  have overlap : upperHalf.overlaps emptyMiddle := by decide
  obtain ⟨address, _, inside⟩ := agrees.mp overlap
  obtain ⟨lower, upper⟩ := containsAddress_iff.mp inside
  exact Nat.not_lt.mpr lower upper

end EightBit.AddressRange
