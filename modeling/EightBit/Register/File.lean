import EightBit.Address.Basic
import EightBit.Register.Status

/-
The register file: accumulator, two index registers, status, program counter and stack pointer.
-/

namespace EightBit

/-- The stack lives in page one and grows downwards, wrapping inside the page. -/
abbrev StackPointer := UInt8

namespace StackPointer

def address (s : StackPointer) : Address := Address.ofBytes s 1

def text (s : StackPointer) : String := s!"StackPointer({s.toNat})"

end StackPointer

structure Registers where
  a : UInt8
  x : UInt8
  y : UInt8
  p : Status
  pc : Address
  s : StackPointer
  deriving DecidableEq, Repr

namespace Registers

def initial : Registers := ⟨0, 0, 0, Status.initial, 0, 255⟩

/-- Power-up leaves the program counter, which is loaded from the reset vector afterwards. -/
def powerUp (registers : Registers) : Registers :=
  { registers with
    a := 0
    x := 0
    y := 0
    s := 0xfd
    p := { Status.initial with interruptDisable := true } }

def text (registers : Registers) : String :=
  let { a, x, y, p, pc, s } := registers
  "Registers \x7b " ++
    s!"a: {a.toNat}, x: {x.toNat}, y: {y.toNat}, p: {p.text}, pc: {pc.text}, " ++
    s!"s: {StackPointer.text s}" ++ " \x7d"

end Registers

end EightBit
