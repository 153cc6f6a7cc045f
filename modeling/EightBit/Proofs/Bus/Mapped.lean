import EightBit.Proofs.Bus.Service

/-
Buses without gaps. Validation finds out whether somebody answers for every address; where that is
so, every access has a result, and no call opens a gap.
-/

namespace EightBit

namespace Dispatch

/-- The table is searched from the lowest to the highest address. -/
theorem gap?_eq_none_iff (table : Dispatch) :
    table.gap? = none ↔ ∀ address, table.owner address ≠ none := by
  rw [gap?, Option.map_eq_none_iff, Array.findIdx?_eq_none_iff]
  constructor
  · intro owned address gap
    have below := address.toNat_lt
    have member : table.owners[address.toNat] ∈ table.owners.toArray :=
      (Vector.getElem_mem below).val
    rw [show table.owners[address.toNat] = none from gap] at member
    exact absurd (owned none member) (by decide)
  · intro owned entry member
    obtain ⟨index, inside, rfl⟩ := Array.getElem_of_mem member
    rw [Vector.size_toArray] at inside
    have place : (UInt16.ofNat index).toNat = index := UInt16.toNat_ofNat_of_lt' inside
    have entry := owned (UInt16.ofNat index)
    simp only [owner, place] at entry
    exact Option.isNone_eq_false_iff.mpr (Option.isSome_iff_ne_none.mpr entry)

/-- The gap that is found is the lowest one. -/
theorem gap?_eq_some_iff (table : Dispatch) (gap : Address) :
    table.gap? = some gap ↔
      table.owner gap = none ∧ ∀ lower < gap, table.owner lower ≠ none := by
  have entry : ∀ address : Address, ∀ below : address.toNat < table.owners.toArray.size,
      (table.owners.toArray[address.toNat]).isNone = true ↔ table.owner address = none :=
    fun _ _ => Option.isNone_iff_eq_none
  have below := gap.toNat_lt
  rw [gap?, Option.map_eq_some_iff]
  constructor
  · rintro ⟨index, found, rfl⟩
    obtain ⟨inside, missing, first⟩ := Array.findIdx?_eq_some_iff_getElem.mp found
    have place : (UInt16.ofNat index).toNat = index :=
      UInt16.toNat_ofNat_of_lt' (by simpa using inside)
    refine ⟨(entry _ (by rwa [place])).mp (by simpa only [place] using missing), ?_⟩
    intro lower under gap
    have before : lower.toNat < index := place ▸ UInt16.lt_iff_toNat_lt.mp under
    exact first _ before ((entry lower (Nat.lt_trans before inside)).mpr gap)
  · rintro ⟨missing, first⟩
    have inside : gap.toNat < table.owners.toArray.size := by simpa using below
    refine ⟨gap.toNat, ?_, UInt16.ofNat_toNat⟩
    refine Array.findIdx?_eq_some_iff_getElem.mpr ⟨inside, (entry gap inside).mpr missing, ?_⟩
    intro index before none
    have place : (UInt16.ofNat index).toNat = index :=
      UInt16.toNat_ofNat_of_lt' (Nat.lt_trans before below)
    refine first (.ofNat index) (UInt16.lt_iff_toNat_lt.mpr (place.symm ▸ before)) ?_
    exact (entry _ (place.symm ▸ Nat.lt_trans before inside)).mp (by simpa only [place] using none)

end Dispatch

namespace Bus

open Outcome

variable {D : Type} {bus : Bus D}

/-- A bus is valid exactly if no address is left out. -/
theorem validate_eq_ok_iff (bus : Bus D) :
    bus.validate = .ok () ↔ ∀ address, ¬bus.Gap address := by
  have gaps : bus.dispatch.gap? = none ↔ ∀ address, ¬bus.Gap address :=
    bus.dispatch.gap?_eq_none_iff
  rw [← gaps, validate]
  cases bus.dispatch.gap? with
  | none => exact ⟨fun _ => rfl, fun _ => rfl⟩
  | some address => exact ⟨nofun, nofun⟩

/-- Validation reports the lowest gap, and nothing else. -/
theorem validate_eq_error_iff (bus : Bus D) (fault : Fault) :
    bus.validate = .error fault ↔
      ∃ gap, fault = .dispatchGap gap ∧ bus.Gap gap ∧ ∀ lower < gap, ¬bus.Gap lower := by
  have lowest : ∀ gap, bus.dispatch.gap? = some gap ↔ bus.Gap gap ∧ ∀ lower < gap, ¬bus.Gap lower :=
    bus.dispatch.gap?_eq_some_iff
  rw [validate]
  cases found : bus.dispatch.gap? with
  | none =>
      refine ⟨nofun, ?_⟩
      rintro ⟨gap, _, missing⟩
      cases found.symm.trans ((lowest gap).mpr missing)
  | some address =>
      constructor
      · intro same
        cases same
        exact ⟨address, rfl, (lowest address).mp found⟩
      · rintro ⟨gap, rfl, missing⟩
        cases found.symm.trans ((lowest gap).mpr missing)
        rfl

/-- The bus is sound, and somebody answers for every address. -/
structure Mapped (bus : Bus D) : Prop where
  sound : bus.Sound
  total : ∀ address, ¬bus.Gap address

/-- A bus without gaps is valid. -/
theorem Mapped.validate (mapped : bus.Mapped) : bus.validate = .ok () :=
  bus.validate_eq_ok_iff.mpr mapped.total

/-- Without gaps every address has an owner. -/
theorem Mapped.owned (mapped : bus.Mapped) (address : Address) :
    ∃ id, bus.owner address = some id := Option.ne_none_iff_exists'.mp (mapped.total address)

/-- Accesses keep a bus without gaps. -/
theorem Mapped.follows {earlier later : Bus D} (mapped : earlier.Mapped)
    (follows : Follows earlier later) : later.Mapped :=
  ⟨mapped.sound.follows follows, fun address gap => mapped.total address (follows.gap address gap)⟩

/-- Watchpoints, hits, lines, log and notes do not matter. -/
theorem Mapped.of_frame {earlier later : Bus D} (mapped : earlier.Mapped)
    (regions : later.regions = earlier.regions) (dispatch : later.dispatch = earlier.dispatch) :
    later.Mapped := by
  obtain ⟨⟨filled, owned⟩, total⟩ := mapped
  obtain ⟨_, _, watchpoints, hits, lines, log, notes⟩ := later
  cases regions
  cases dispatch
  exact ⟨⟨filled, owned⟩, total⟩

/-- A region that is mapped takes addresses over, and leaves none without an owner. -/
theorem Mapped.remap (mapped : bus.Mapped) (id : Nat) : (bus.remap id).Mapped := by
  refine ⟨mapped.sound.remap id, fun address gap => ?_⟩
  cases attached : bus.regions[id]? with
  | none =>
      unfold Bus.remap at gap
      rw [attached] at gap
      exact mapped.total address gap
  | some region =>
      rw [Gap, owner_remap attached] at gap
      split at gap
      · cases gap
      · exact mapped.total address gap

/-- Mapping a region leaves no gap. -/
theorem Mapped.map (mapped : bus.Mapped) (id : Nat) : (bus.map id).2.Mapped := by
  unfold Bus.map
  split
  · exact mapped.remap id
  · exact mapped

/-- Adding a region leaves no gap. -/
theorem Mapped.add (mapped : bus.Mapped) {region : Region D} (filled : region.Filled) :
    (bus.add region).2.Mapped :=
  Mapped.remap ⟨mapped.sound.attach filled, mapped.total⟩ _

/-- Where there are no gaps, an access that stops at gaps only has a result. -/
theorem Mapped.served {α : Type} (mapped : bus.Mapped) {next : α → Bus D}
    {start : Except Crash α}
    (guarded : Guarded bus.Gap (fun outcome => Follows bus (next outcome)) start) :
    Served (fun outcome => (next outcome).Mapped) start :=
  guarded.mono mapped.total fun _ follows => mapped.follows follows

variable [Peripheral D]

/-- Without gaps every address can be looked at. -/
theorem Mapped.peek (mapped : bus.Mapped) (address : Address) :
    Served (fun _ => True) (bus.peek address) :=
  (mapped.sound.peek_guarded address).mono mapped.total fun _ _ => trivial

/-- Without gaps every read is answered, and leaves no gap. -/
theorem Mapped.read (mapped : bus.Mapped) (address : Address) :
    Served (fun outcome => outcome.2.Mapped) (bus.read address) :=
  mapped.served (mapped.sound.read_guarded address)

/-- Without gaps every write is answered, and leaves no gap. -/
theorem Mapped.write (mapped : bus.Mapped) (address : Address) (value : UInt8) :
    Served Mapped (bus.write address value) :=
  mapped.served (mapped.sound.write_guarded address value)

theorem Mapped.readWord (mapped : bus.Mapped) (address : Address) :
    Served (fun outcome => outcome.2.Mapped) (bus.readWord address) :=
  mapped.served (mapped.sound.readWord_guarded address)

theorem Mapped.writeWord (mapped : bus.Mapped) (address : Address) (value : UInt16) :
    Served Mapped (bus.writeWord address value) :=
  mapped.served (mapped.sound.writeWord_guarded address value)

/-- An access that may be refused is not. -/
theorem Mapped.tryRead (mapped : bus.Mapped) (address : Address) :
    Served (fun outcome => (∃ value, outcome.1 = .ok value) ∧ outcome.2.Mapped)
      (bus.tryRead address) := by
  obtain ⟨id, owned⟩ := mapped.owned address
  rw [tryRead_owned owned]
  exact (mapped.read address).map fun (value, _) kept => ⟨⟨value, rfl⟩, kept⟩

/-- Without gaps no write is refused. -/
theorem Mapped.tryWrite (mapped : bus.Mapped) (address : Address) (value : UInt8) :
    Served (fun outcome => outcome.1 = .ok () ∧ outcome.2.Mapped)
      (bus.tryWrite address value) := by
  obtain ⟨id, owned⟩ := mapped.owned address
  rw [tryWrite_owned owned]
  exact (mapped.write address value).map fun _ kept => ⟨rfl, kept⟩

/-- A block of any size arrives in full. -/
theorem Mapped.copy (mapped : bus.Mapped) (address : Address) (bytes : List UInt8) :
    Served (fun outcome => outcome.1 = .ok () ∧ outcome.2.Mapped) (bus.copy address bytes) := by
  obtain ⟨result, after, copied, ends⟩ := mapped.sound.copy address bytes
  rw [copied]
  refine ⟨ends.resolve_right ?_, mapped.follows (copy_follows copied)⟩
  rintro ⟨gap, _, missing⟩
  exact mapped.total gap missing

/-- Without gaps every transaction comes to its end, with what it ensures. -/
theorem Mapped.run {α : Type} (mapped : bus.Mapped) {condition : α → Prop}
    {act : Transaction α} (ensured : act.Ensures condition) :
    Served (fun outcome => outcome.2.Mapped ∧ condition outcome.1) (act.run bus) :=
  (mapped.served (mapped.sound.run_guarded act)).strengthen fun _ served => ensured.run served

end Bus

end EightBit
