import EightBit.Address.Range

/-
The dispatch table: for every address the region that answers for it, if there is one. The table
can be written down as a list of spans, each a run of addresses with one owner. An assignment
changes the owner inside its range and nowhere else.
-/

namespace EightBit

/-- A run of consecutive addresses that one region answers for. -/
structure MappedSpan where
  region : Nat
  start : Address
  size : UInt32
  deriving DecidableEq, Repr

structure Dispatch where
  owners : Vector (Option Nat) 65536

namespace Dispatch

def empty : Dispatch := ⟨Vector.replicate 65536 none⟩

def owner (table : Dispatch) (address : Address) : Option Nat :=
  have := address.toNat_lt
  table.owners[address.toNat]

/-- The region becomes the owner of the whole range. -/
def assign (table : Dispatch) (range : AddressRange) (region : Nat) : Dispatch :=
  have := range.within
  ⟨Nat.fold range.size (fun offset _ owners =>
    owners.set (range.start.toNat + offset) (some region)) table.owners⟩

/-- The owners of a range other than the given region, each once, by address. -/
def othersIn (table : Dispatch) (range : AddressRange) (region : Nat) : List Nat :=
  have := range.within
  (Nat.fold range.size (fun offset _ found =>
    match table.owners[range.start.toNat + offset] with
    | some other => if other = region ∨ found.contains other then found else other :: found
    | none => found) []).reverse

def ownsAll (table : Dispatch) (range : AddressRange) (region : Nat) : Bool :=
  have := range.within
  Nat.all range.size fun offset _ => table.owners[range.start.toNat + offset] == some region

/-- The lowest address that nobody answers for. -/
def gap? (table : Dispatch) : Option Address :=
  (table.owners.toArray.findIdx? Option.isNone).map UInt16.ofNat

/-- A span grows as long as the next address has the same owner. -/
def extend (address region : Nat) : List MappedSpan → List MappedSpan
  | [] => [⟨region, UInt16.ofNat address, 1⟩]
  | last :: earlier =>
      if last.region = region ∧ last.start.toNat + last.size.toNat = address then
        { last with size := last.size + 1 } :: earlier
      else
        ⟨region, UInt16.ofNat address, 1⟩ :: last :: earlier

/-- The spans of the table, the lowest address first. -/
def spans (table : Dispatch) : List MappedSpan :=
  (Nat.fold 65536 (fun address bound found =>
    match table.owners[address] with
    | some region => extend address region found
    | none => found) []).reverse

@[simp] theorem owner_empty (address : Address) : empty.owner address = none := by
  simp [owner, empty]

theorem owner_assign (table : Dispatch) (range : AddressRange) (region : Nat)
    (address : Address) :
    (table.assign range region).owner address =
      if range.containsAddress address then some region else table.owner address := by
  have inside := range.within
  have below := address.toNat_lt
  have prefixes : ∀ (count : Nat) (within : count ≤ range.size),
      (Nat.fold count (fun offset _ owners =>
        owners.set (range.start.toNat + offset) (some region)) table.owners)[address.toNat] =
        if range.start.toNat ≤ address.toNat ∧ address.toNat < range.start.toNat + count then
          some region
        else table.owners[address.toNat] := by
    intro count
    induction count with
    | zero =>
        intro _
        have outside : ¬(range.start.toNat ≤ address.toNat ∧
            address.toNat < range.start.toNat + 0) := by omega
        rw [if_neg outside, Nat.fold_zero]
    | succ count ih =>
        intro within
        rw [Nat.fold_succ, Vector.getElem_set, ih (by omega)]
        grind
  rw [owner, owner, assign, prefixes range.size (Nat.le_refl _)]
  simp only [AddressRange.containsAddress_iff, AddressRange.stop]

end Dispatch

end EightBit
