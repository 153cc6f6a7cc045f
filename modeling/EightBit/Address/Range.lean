import EightBit.Fault

/-
Ranges of addresses. A range never runs past the top of memory, so its end is at most `0x10000`.
-/

namespace EightBit

/-- The addresses from `start` on, `size` of them. -/
structure AddressRange where
  start : Address
  size : Nat
  within : start.toNat + size ≤ 65536
  deriving DecidableEq

namespace AddressRange

def addressSpace : Nat := 65536

def make (start : Address) (size : UInt32) : Except Fault AddressRange :=
  if within : start.toNat + size.toNat ≤ 65536 then
    .ok ⟨start, size.toNat, within⟩
  else
    .error (.invalidRange start size)

def full : AddressRange := ⟨0, 65536, by decide⟩

theorem page_within (number : UInt8) : (Address.ofBytes 0 number).toNat + 256 ≤ 65536 := by
  have := number.toNat_lt
  simp [Address.ofBytes]
  omega

def page (number : UInt8) : AddressRange := ⟨Address.ofBytes 0 number, 256, page_within number⟩

/-- The end is exclusive. -/
def stop (range : AddressRange) : Nat := range.start.toNat + range.size

def isEmpty (range : AddressRange) : Bool := range.size == 0

def containsAddress (range : AddressRange) (address : Address) : Bool :=
  decide (range.start.toNat ≤ address.toNat ∧ address.toNat < range.stop)

@[simp] theorem containsAddress_iff {range : AddressRange} {address : Address} :
    range.containsAddress address ↔
      range.start.toNat ≤ address.toNat ∧ address.toNat < range.stop := by
  rw [containsAddress, decide_eq_true_iff]

def contains (outer inner : AddressRange) : Bool :=
  decide (outer.start.toNat ≤ inner.start.toNat ∧ inner.stop ≤ outer.stop)

def overlaps (first second : AddressRange) : Bool :=
  decide (first.start.toNat < second.stop ∧ second.start.toNat < first.stop)

def offsetOf (range : AddressRange) (address : Address) : UInt16 := address - range.start

def addresses (range : AddressRange) : List Address :=
  (List.range range.size).map fun offset => range.start + UInt16.ofNat offset

def text (range : AddressRange) : String :=
  s!"{range.start.text}..&{Text.hexLiteral 5 range.stop}"

end AddressRange

end EightBit
