import EightBit.Fault
import EightBit.Opcode.Table

/-
Listings of machine code: a program is cut into instructions, and each instruction is written with
its bytes, its mnemonic and its operand.
-/

namespace EightBit.Listing

/-- Every piece is one instruction; the last one may be cut short by the end of the program. -/
def pieces : List UInt8 → List (List UInt8)
  | [] => []
  | opcode :: rest =>
      let size := (Instruction.ofOpcode opcode).mode.operandSize
      (opcode :: rest.take size) :: pieces (rest.drop size)
termination_by program => program.length
decreasing_by simp only [List.length_drop, List.length_cons]; omega

/-- The column of bytes has room for three; bytes of the instruction that are missing show as
question marks. -/
def byteColumn (size : Nat) (bytes : List UInt8) : String :=
  let present := (bytes.take size).map fun byte => Text.hex 2 byte.toNat
  let cells := present ++ List.replicate (size - present.length) "??"
  " ".intercalate (cells ++ List.replicate (3 - cells.length) "  ")

/-- A branch whose own address is known is written with its target. -/
def operandText? (address? : Option Address) (mode : Mode) (operand : List UInt8) :
    Option String :=
  match address?, mode, operand with
  | some address, .relative, displacement :: _ =>
      some ((address.advance 2).displace displacement.toInt8).text
  | _, _, _ => mode.operandText? operand

def instructionText (address? : Option Address) : List UInt8 → String
  | [] => ""
  | opcode :: operand =>
      let instruction := Instruction.ofOpcode opcode
      let column := byteColumn instruction.length (opcode :: operand)
      let start := s!"{column} {instruction.mnemonic.name}"
      let line :=
        match operandText? address? instruction.mode operand with
        | none => s!"{start} {instruction.mode.name}"
        | some text => if instruction.mode.operandSize = 0 then start else s!"{start} {text}"
      if instruction.isValid then line else s!"{line} <-- invalid opcode"

def line (address : Address) (bytes : List UInt8) : String :=
  s!"{address.text} {instructionText (some address) bytes}"

/-- The lines of a program loaded at an address. -/
def lines (address : Address) (program : List UInt8) : List String :=
  go address (pieces program)
where
  go (address : Address) : List (List UInt8) → List String
    | [] => []
    | piece :: rest => line address piece :: go (address + UInt16.ofNat piece.length) rest

/-- The line of the instruction at an address, read without side effects, and its length. -/
def lineAt (peek : Address → Except Crash UInt8) (address : Address) :
    Except Crash (String × Nat) := do
  let opcode ← peek address
  let length := (Instruction.ofOpcode opcode).length
  let bytes ← (List.range length).mapM fun index => peek (address + UInt16.ofNat index)
  return (line address bytes, length)

end EightBit.Listing
