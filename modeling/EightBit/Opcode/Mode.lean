import EightBit.Text.Hex
import EightBit.Address.Basic

/-
The addressing modes: how many operand bytes each one takes and how the operand is written.
-/

namespace EightBit

inductive Mode where
  | accumulator
  | implied
  | immediate
  | zeroPage
  | zeroPageX
  | zeroPageY
  | relative
  | absolute
  | absoluteX
  | absoluteY
  | indirect
  /-- The pointer in page zero is found by adding X to the operand. -/
  | indexedIndirect
  /-- Y is added to the pointer that the operand names in page zero. -/
  | indirectIndexed
  deriving DecidableEq, Repr

namespace Mode

def all : List Mode :=
  [accumulator, implied, immediate, zeroPage, zeroPageX, zeroPageY, relative, absolute,
    absoluteX, absoluteY, indirect, indexedIndirect, indirectIndexed]

def operandSize : Mode → Nat
  | accumulator | implied => 0
  | immediate | zeroPage | zeroPageX | zeroPageY | relative => 1
  | indexedIndirect | indirectIndexed => 1
  | absolute | absoluteX | absoluteY | indirect => 2

/-- The name used in a listing. -/
def name : Mode → String
  | accumulator => "accumulator"
  | implied => "implied"
  | immediate => "immediate"
  | zeroPage => "zero page"
  | zeroPageX => "zero page X"
  | zeroPageY => "zero page Y"
  | relative => "relative"
  | absolute => "absolute"
  | absoluteX => "absolute X"
  | absoluteY => "absolute Y"
  | indirect => "indirect"
  | indexedIndirect => "indexed indirect X"
  | indirectIndexed => "indirect indexed Y"

/-- The name used as a key. -/
def key : Mode → String
  | accumulator => "Accumulator"
  | implied => "Implied"
  | immediate => "Immediate"
  | zeroPage => "ZeroPage"
  | zeroPageX => "ZeroPageX"
  | zeroPageY => "ZeroPageY"
  | relative => "Relative"
  | absolute => "Absolute"
  | absoluteX => "AbsoluteX"
  | absoluteY => "AbsoluteY"
  | indirect => "Indirect"
  | indexedIndirect => "IndexedIndirectX"
  | indirectIndexed => "IndirectIndexedY"

def ofKey? (key : String) : Option Mode := all.find? fun mode => mode.key == key

/-- A displacement is written with its sign apart from its size. -/
def displacementText (displacement : UInt8) : String :=
  if displacement.toNat < 128 then s!"pc + {displacement.toNat}"
  else s!"pc - {256 - displacement.toNat}"

open Text in
/-- The operand in writing, if all its bytes are there; further bytes are ignored. -/
def operandText? : Mode → List UInt8 → Option String
  | accumulator, _ => some "A"
  | implied, _ => some ""
  | immediate, low :: _ => some s!"#{hexLiteral 2 low.toNat}"
  | zeroPage, low :: _ => some s!"&{hexLiteral 2 low.toNat}"
  | zeroPageX, low :: _ => some s!"&{hexLiteral 2 low.toNat} + X"
  | zeroPageY, low :: _ => some s!"&{hexLiteral 2 low.toNat} + Y"
  | relative, low :: _ => some (displacementText low)
  | absolute, low :: high :: _ => some (Address.ofBytes low high).text
  | absoluteX, low :: high :: _ => some s!"{(Address.ofBytes low high).text} + X"
  | absoluteY, low :: high :: _ => some s!"{(Address.ofBytes low high).text} + Y"
  | indirect, low :: high :: _ =>
      some s!"&({hexLiteral 4 (Address.ofBytes low high).toNat})"
  | indexedIndirect, low :: _ => some s!"(&{hexLiteral 2 low.toNat} + X)"
  | indirectIndexed, low :: _ => some s!"(&{hexLiteral 2 low.toNat}) + Y"
  | _, _ => none

end Mode

end EightBit
