import EightBit.Proofs.Bus.History

/-
The bus follows its history. Each call on a bus of plain storage, wherever it is made, has the
effect on owners and cells that the history tells.
-/

namespace EightBit.Bus

variable {D : Type}

/-- The bus has the attached regions, and each of their cells holds the byte that was stored last
into it, or else the byte that was there at first. -/
structure Holds (bus : Bus D) (attached : List (Storage D)) (stores : List Store) : Prop where
  sound : bus.Sound
  size : bus.regions.size = attached.length
  known : ∀ store ∈ stores, store.cell.region < attached.length
  region : ∀ {id : Nat} {storage : Storage D}, attached[id]? = some storage →
    ∃ region, bus.regions[id]? = some region ∧ region.outline = storage.region.outline ∧
      ∀ offset < storage.region.range.size, region.stored[offset]? =
        (lastStored stores ⟨id, offset⟩).or storage.region.stored[offset]?

variable {bus : Bus D} {attached : List (Storage D)} {stores : List Store}

/-- A bus with nothing attached holds nothing. -/
theorem holds_empty : Holds (empty : Bus D) [] [] where
  sound := sound_empty
  size := rfl
  known store member := by cases member
  region found := by simp at found

/-- The table does not matter as long as it is sound. -/
theorem Holds.frame (holds : bus.Holds attached stores) {after : Bus D}
    (regions : after.regions = bus.regions) (sound : after.Sound) :
    after.Holds attached stores where
  sound := sound
  size := by rw [regions, holds.size]
  known := holds.known
  region found := by
    rw [regions]
    exact holds.region found

/-- Nothing was stored into a region before it is attached. -/
theorem Holds.attach (holds : bus.Holds attached stores) (storage : Storage D) :
    (bus.attach storage.region).2.Holds (attached ++ [storage]) stores where
  sound := holds.sound.attach storage.filled
  size := by
    have grown : (bus.attach storage.region).2.regions.size = bus.regions.size + 1 :=
      Array.size_push ..
    rw [grown, holds.size, List.length_append, List.length_singleton]
  known store member := by
    have below := holds.known store member
    rw [List.length_append]
    omega
  region {id other} found := by
    rw [getElem?_attach, holds.size]
    by_cases last : id = attached.length
    · rw [last, List.getElem?_concat_length, Option.some.injEq] at found
      refine ⟨storage.region, if_pos last, by rw [found], ?_⟩
      intro offset inside
      have fresh : ∀ store ∈ stores, store.cell ≠ ⟨id, offset⟩ := by
        intro store member same
        have below := holds.known store member
        rw [same, last] at below
        exact Nat.lt_irrefl _ below
      have none := lastStored_append fresh []
      rw [List.append_nil, lastStored_nil] at none
      rw [none, Option.none_or, found]
    · have bound := (List.getElem?_eq_some_iff.mp found).1
      rw [List.length_append, List.length_singleton] at bound
      rw [List.getElem?_append_left (by omega)] at found
      rw [if_neg last]
      exact holds.region found

/-- The owner of an address is attached, and the address lies in its range. -/
theorem Holds.answers (holds : bus.Holds attached stores) {address : Address} {id : Nat}
    (owned : bus.owner address = some id) :
    ∃ storage, attached[id]? = some storage ∧
      storage.region.range.containsAddress address := by
  obtain ⟨region, present, inside⟩ := holds.sound.owned owned
  have bound : id < attached.length := by
    rw [← holds.size]
    exact (Array.getElem?_eq_some_iff.mp present).1
  have found : attached[id]? = some attached[id] := List.getElem?_eq_getElem bound
  obtain ⟨same, again, outline, _⟩ := holds.region found
  cases present.symm.trans again
  have range : region.range = attached[id].region.range := Region.range_of_outline outline
  exact ⟨attached[id], found, by rw [← range]; exact inside⟩

/-- A region that is mapped answers for its range, and nothing is stored. -/
theorem Holds.remap (holds : bus.Holds attached stores) {id : Nat} {storage : Storage D}
    (found : attached[id]? = some storage) :
    (bus.remap id).Holds attached stores ∧ ∀ address, (bus.remap id).owner address =
      if storage.region.range.containsAddress address then some id else bus.owner address := by
  obtain ⟨region, present, outline, _⟩ := holds.region found
  have range : region.range = storage.region.range := Region.range_of_outline outline
  constructor
  · exact holds.frame (remap_regions ..) (holds.sound.remap id)
  · intro address
    rw [owner_remap present, range]

/-- A region with another byte in one cell takes its own place, and that byte is stored last. -/
theorem Holds.withRegion (holds : bus.Holds attached stores) {id : Nat} {storage : Storage D}
    (found : attached[id]? = some storage) {region next : Region D}
    (present : bus.regions[id]? = some region) (outline : next.outline = region.outline)
    {offset : Nat} {value : UInt8} (bytes : next.stored = region.stored.setIfInBounds offset value)
    (inside : offset < region.stored.size) (sound : (bus.withRegion id next).Sound) :
    (bus.withRegion id next).Holds attached (⟨⟨id, offset⟩, value⟩ :: stores) where
  sound := sound
  size := by
    rw [← holds.size]
    exact Array.size_setIfInBounds
  known store member := by
    rcases List.mem_cons.mp member with newest | old
    · rw [newest]
      exact (List.getElem?_eq_some_iff.mp found).1
    · exact holds.known store old
  region {other block} stored := by
    rw [getElem?_withRegion present]
    obtain ⟨kept, again, shape, values⟩ := holds.region stored
    by_cases here : id = other
    · subst here
      cases present.symm.trans again
      refine ⟨next, if_pos rfl, outline.trans shape, ?_⟩
      intro place below
      rw [bytes, Array.getElem?_setIfInBounds, if_pos inside]
      by_cases struck : offset = place
      · rw [if_pos struck, struck, lastStored_cons_self, Option.some_or]
      · have different : (⟨id, offset⟩ : Cell) ≠ ⟨id, place⟩ := by simp [struck]
        rw [if_neg struck, lastStored_cons_ne different]
        exact values place below
    · rw [if_neg here]
      refine ⟨kept, again, shape, ?_⟩
      intro place below
      have different : (⟨id, offset⟩ : Cell) ≠ ⟨other, place⟩ := by simp [here]
      rw [lastStored_cons_ne different]
      exact values place below

/-- An access that is noticed leaves what is held alone. -/
theorem Holds.notice (holds : bus.Holds attached stores) (access : Access) (address : Address)
    (value : UInt8) : (bus.notice access address value).Holds attached stores :=
  holds.frame (notice_regions ..) (holds.sound.follows (notice_follows ..))

/-- A report leaves what is held alone. -/
theorem Holds.report (holds : bus.Holds attached stores) (event : Event) :
    (bus.report event).Holds attached stores :=
  holds.frame rfl (holds.sound.follows (report_follows ..))

/-- No attached region is a peripheral. -/
theorem Holds.storageOnly (holds : bus.Holds attached stores) : bus.StorageOnly := by
  intro id region present
  have bound : id < attached.length := by
    rw [← holds.size]
    exact (Array.getElem?_eq_some_iff.mp present).1
  obtain ⟨same, again, outline, _⟩ := holds.region (List.getElem?_eq_getElem bound)
  cases present.symm.trans again
  have kind : region.kind = attached[id].region.kind := Region.kind_of_outline outline
  rw [kind]
  exact attached[id].plain

/-- The region that owns an address is the one that was attached, and it has a byte for it. -/
theorem Holds.lookup (holds : bus.Holds attached stores) {address : Address} {id : Nat}
    {storage : Storage D} (owned : bus.owner address = some id)
    (found : attached[id]? = some storage) :
    ∃ region, bus.regions[id]? = some region ∧ region.outline = storage.region.outline ∧
      (storage.region.range.offsetOf address).toNat < region.stored.size := by
  obtain ⟨region, present, outline, _⟩ := holds.region found
  obtain ⟨_, again, inside⟩ := holds.answers owned
  cases found.symm.trans again
  refine ⟨region, present, outline, ?_⟩
  rw [holds.sound.filled present (holds.storageOnly present), Region.range_of_outline outline]
  exact (AddressRange.toNat_offsetOf inside).2

/-- An address shows what was stored last in its cell, or what the storage held at first. -/
theorem Holds.contents (holds : bus.Holds attached stores) {address : Address} {id : Nat}
    {storage : Storage D} {region : Region D} (owned : bus.owner address = some id)
    (found : attached[id]? = some storage) (present : bus.regions[id]? = some region) :
    region.stored[(storage.region.range.offsetOf address).toNat]? =
      (lastStored stores ⟨id, (storage.region.range.offsetOf address).toNat⟩).or
        storage.region.stored[(storage.region.range.offsetOf address).toNat]? := by
  obtain ⟨same, there, _, contents⟩ := holds.region found
  obtain ⟨_, again, inside⟩ := holds.answers owned
  cases present.symm.trans there
  cases found.symm.trans again
  exact contents _ (AddressRange.toNat_offsetOf inside).2

/-- The bus is what the history says. -/
structure Tracks (bus : Bus D) (past : List (Call D)) : Prop where
  holds : bus.Holds (History.attached past) (History.stores past)
  owner : ∀ address, bus.owner address = History.owner past address

variable {past : List (Call D)}

/-- Attaching storage continues the history. -/
theorem Tracks.attach (tracks : bus.Tracks past) (storage : Storage D) :
    (bus.attach storage.region).2.Tracks (.attach storage :: past) where
  holds := tracks.holds.attach storage
  owner := tracks.owner

/-- Adding storage continues the history. -/
theorem Tracks.add (tracks : bus.Tracks past) (storage : Storage D) :
    (bus.add storage.region).2.Tracks (.add storage :: past) := by
  have holds := tracks.holds.attach storage
  have newest : (History.attached past ++ [storage])[bus.regions.size]? = some storage := by
    rw [tracks.holds.size, List.getElem?_concat_length]
  obtain ⟨kept, owners⟩ := holds.remap newest
  constructor
  · exact kept
  · intro address
    rw [History.owner, ← tracks.holds.size, ← tracks.owner]
    exact owners address

/-- Mapping continues the history, also where it is refused. -/
theorem Tracks.map (tracks : bus.Tracks past) (id : Nat) :
    (bus.map id).2.Tracks (.map id :: past) := by
  by_cases known : id < bus.regions.size
  · have bound : id < (History.attached past).length := by
      rw [← tracks.holds.size]
      exact known
    have found := List.getElem?_eq_getElem bound
    obtain ⟨kept, owners⟩ := tracks.holds.remap found
    rw [Bus.map, if_pos known]
    constructor
    · exact kept
    · intro address
      rw [History.owner, found, owners, tracks.owner]
  · have missing : (History.attached past)[id]? = none := by
      apply List.getElem?_eq_none
      rw [← tracks.holds.size]
      exact Nat.le_of_not_lt known
    rw [Bus.map, if_neg known]
    constructor
    · exact tracks.holds
    · intro address
      rw [History.owner, missing, tracks.owner]

/-- An access changes no owner. -/
theorem Tracks.access (tracks : bus.Tracks past) {call : Call D} {after : Bus D}
    (owners : History.owner (call :: past) = History.owner past)
    (table : after.dispatch = bus.dispatch)
    (holds : after.Holds (History.attached (call :: past)) (History.stores (call :: past))) :
    after.Tracks (call :: past) where
  holds := holds
  owner address := by
    rw [owners, ← tracks.owner, Bus.owner, table, Bus.owner]

variable [Peripheral D]

/-- A byte that is loaded is stored into the cell of its address, and nowhere else. -/
theorem Holds.loadOwned (holds : bus.Holds attached stores) {address : Address} {id : Nat}
    {storage : Storage D} (owned : bus.owner address = some id)
    (found : attached[id]? = some storage) (value : UInt8) :
    ∃ after, bus.loadOwned id address [value] = .ok after ∧ after.dispatch = bus.dispatch ∧
      after.Holds attached
        (⟨⟨id, (storage.region.range.offsetOf address).toNat⟩, value⟩ :: stores) := by
  obtain ⟨region, present, outline, fits⟩ := holds.lookup owned found
  have room : (storage.region.range.offsetOf address).toNat + [value].length ≤
      region.stored.size := fits
  obtain ⟨next, loaded, same, bytes⟩ :=
    Region.load_storage (holds.storageOnly present) room
  have done : bus.loadOwned id address [value] = .ok (bus.withRegion id next) := by
    rw [loadOwned_attached present, Region.range_of_outline outline, loaded]
    rfl
  have sound := holds.sound.follows (loadOwned_follows done)
  exact ⟨bus.withRegion id next, done, rfl, holds.withRegion found present same bytes fits sound⟩

/-- What is seen at an owned address is the byte that its cell holds. -/
theorem Holds.peek (holds : bus.Holds attached stores) {address : Address} {id : Nat}
    {storage : Storage D} (owned : bus.owner address = some id)
    (found : attached[id]? = some storage) :
    ∃ value, bus.peek address = .ok value ∧
      (lastStored stores ⟨id, (storage.region.range.offsetOf address).toNat⟩).or
        storage.region.stored[(storage.region.range.offsetOf address).toNat]? = some value := by
  obtain ⟨region, present, outline, fits⟩ := holds.lookup owned found
  have range := Region.range_of_outline outline
  have stored := Array.getElem?_eq_getElem fits
  refine ⟨region.stored[(storage.region.range.offsetOf address).toNat], ?_, ?_⟩
  · rw [Bus.peek, owned]
    dsimp only
    rw [present]
    dsimp only
    rw [(Region.peek_storage (holds.storageOnly present) _).1, Region.byteAt, range, stored]
  · rw [← holds.contents owned found present, stored]

/-- What is written reaches the cell of its address if that is writable, and nothing else. -/
theorem Tracks.write (tracks : bus.Tracks past) {address : Address} {id : Nat}
    (owned : bus.owner address = some id) (value : UInt8) :
    ∃ after, bus.write address value = .ok after ∧ after.dispatch = bus.dispatch ∧
      after.Holds (History.attached past)
        (History.written past address value ++ History.stores past) := by
  obtain ⟨storage, found, inside⟩ := tracks.holds.answers owned
  obtain ⟨region, present, outline, _⟩ := tracks.holds.region found
  have kind : region.kind = storage.region.kind := Region.kind_of_outline outline
  have cell := History.cell?_eq_some ((tracks.owner address).symm.trans owned) found
  rw [History.written, cell]
  dsimp only
  by_cases readOnly : region.kind = .rom
  · have ignored : storage.region.kind ≠ .ram := by
      rw [← kind, readOnly]
      decide
    refine ⟨_, write_readOnly owned present readOnly value, notice_dispatch .., ?_⟩
    rw [if_neg ignored]
    exact (tracks.holds.report _).notice _ _ _
  · have writable : storage.region.kind = .ram := by
      have plain := storage.plain
      rw [kind] at readOnly
      cases shape : storage.region.kind with
      | ram => rfl
      | rom => exact absurd shape readOnly
      | io => exact absurd shape plain
    obtain ⟨after, loaded, table, holds⟩ := tracks.holds.loadOwned owned found value
    refine ⟨after.notice .write address value, ?_, ?_, ?_⟩
    · rw [write_eq_loadOwned owned present readOnly, loaded, Outcome.map_ok]
    · rw [notice_dispatch, table]
    · rw [if_pos writable]
      exact holds.notice _ _ _

/-- A copy stores byte after byte into the cells of its addresses, up to the first gap. -/
theorem Holds.copyBytes (holds : bus.Holds (History.attached past) stores)
    (owners : ∀ address, bus.owner address = History.owner past address) (address : Address)
    (bytes : List UInt8) :
    ∃ result after, bus.copyBytes address bytes = .ok (result, after) ∧
      after.dispatch = bus.dispatch ∧
      after.Holds (History.attached past) (History.copied past address bytes ++ stores) := by
  induction bytes generalizing bus address stores with
  | nil => exact ⟨.ok (), bus, rfl, rfl, holds⟩
  | cons byte bytes ih =>
      cases owned : bus.owner address with
      | none =>
          have gap := History.cell?_eq_none ((owners address).symm.trans owned)
          refine ⟨_, bus, copyBytes_gap owned byte bytes, rfl, ?_⟩
          rw [History.copied, gap]
          exact holds
      | some id =>
          obtain ⟨storage, found, inside⟩ := holds.answers owned
          have cell := History.cell?_eq_some ((owners address).symm.trans owned) found
          obtain ⟨middle, loaded, table, stored⟩ := holds.loadOwned owned found byte
          have kept : ∀ place, middle.owner place = History.owner past place := by
            intro place
            rw [← owners, Bus.owner, table, Bus.owner]
          obtain ⟨result, after, copied, rest, more⟩ := ih stored kept address.next
          refine ⟨result, after, ?_, rest.trans table, ?_⟩
          · rw [copyBytes_owned owned, loaded, Outcome.bind_ok, copied]
          · rw [History.copied, cell]
            simpa only [List.append_assoc, List.singleton_append] using more

/-- A copy stores the bytes of the history one after the other. -/
theorem Tracks.copy (tracks : bus.Tracks past) (address : Address) (bytes : List UInt8) :
    ∃ result after, bus.copy address bytes = .ok (result, after) ∧
      after.dispatch = bus.dispatch ∧ after.Holds (History.attached past)
        (History.copied past address bytes ++ History.stores past) := by
  obtain ⟨start, same, copied⟩ := tracks.holds.sound.copy_eq_copyBytes address bytes
  rw [copied]
  rcases same with rfl | rfl
  · exact tracks.holds.copyBytes tracks.owner address bytes
  · exact (tracks.holds.report _).copyBytes tracks.owner address bytes

end EightBit.Bus
