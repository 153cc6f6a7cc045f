/-
Numbers as lower-case hexadecimal text.
-/

namespace EightBit.Text

/-- The digits are filled up with zeros on the left until there are `width` of them. -/
def hex (width n : Nat) : String :=
  let digits := Nat.toDigits 16 n
  String.ofList (List.replicate (width - digits.length) '0' ++ digits)

/-- A literal carries the mark `0x` in front of its digits. -/
def hexLiteral (width n : Nat) : String :=
  "0x" ++ hex width n

/-- The bytes of a listing stand side by side, two digits each. -/
def hexBytes (bytes : List UInt8) : String :=
  String.join (bytes.map fun byte => hex 2 byte.toNat)

def digitValue? (c : Char) : Option Nat :=
  if '0' ≤ c ∧ c ≤ '9' then some (c.toNat - '0'.toNat)
  else if 'a' ≤ c ∧ c ≤ 'f' then some (c.toNat - 'a'.toNat + 10)
  else none

/-- The bytes that two digits each stand for. -/
def bytesOfHex? (digits : String) : Option (Array UInt8) :=
  go #[] digits.toList
where
  go (bytes : Array UInt8) : List Char → Option (Array UInt8)
    | [] => some bytes
    | high :: low :: rest => do
        let value := 16 * (← digitValue? high) + (← digitValue? low)
        go (bytes.push (UInt8.ofNat value)) rest
    | _ => none

end EightBit.Text
