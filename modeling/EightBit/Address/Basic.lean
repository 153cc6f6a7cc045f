import EightBit.Text.Hex

/-
Addresses of a 64K memory. An address is a page number (its high byte) and an offset inside that
page (its low byte); all arithmetic wraps at the top of memory.
-/

namespace EightBit

abbrev Address := UInt16

namespace Address

def hi (address : Address) : UInt8 := UInt8.ofNat (address.toNat / 256)

def lo (address : Address) : UInt8 := UInt8.ofNat (address.toNat % 256)

def ofBytes (lo hi : UInt8) : Address := UInt16.ofNat (256 * hi.toNat + lo.toNat)

/-- A byte names an address of page zero. -/
def zeroPage (offset : UInt8) : Address := ofBytes offset 0

def samePage (first second : Address) : Bool := first.hi == second.hi

def next (address : Address) : Address := address + 1

/-- Pointers in page zero and of the indirect jump never leave their page. -/
def nextInPage (address : Address) : Address := ofBytes (address.lo + 1) address.hi

def advance (address : Address) (distance : UInt8) : Address := address + distance.toUInt16

def retreat (address : Address) (distance : UInt8) : Address := address - distance.toUInt16

/-- A displacement is signed, so it reaches 128 bytes back and 127 bytes forward. -/
def displace (address : Address) (distance : Int8) : Address :=
  UInt16.ofInt (address.toNat + distance.toInt)

def text (address : Address) : String := "&" ++ Text.hexLiteral 4 address.toNat

theorem ofBytes_lo_hi (address : Address) : ofBytes address.lo address.hi = address := by
  apply UInt16.toNat_inj.mp
  have := address.toNat_lt
  simp [ofBytes, lo, hi]
  omega

@[simp] theorem lo_ofBytes (low high : UInt8) : lo (ofBytes low high) = low := by
  apply UInt8.toNat_inj.mp
  have := low.toNat_lt
  simp [ofBytes, lo]

@[simp] theorem hi_ofBytes (low high : UInt8) : hi (ofBytes low high) = high := by
  apply UInt8.toNat_inj.mp
  have := low.toNat_lt
  have := high.toNat_lt
  simp [ofBytes, hi]
  omega

end Address

end EightBit
