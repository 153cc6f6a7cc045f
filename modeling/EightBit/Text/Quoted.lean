import EightBit.Text.Hex
import EightBit.Text.Hidden

/-
Quoted text: the form in which a report writes a list of names, so that every name can be told
from its neighbours whatever characters it holds.
-/

namespace EightBit.Text

/-- The common controls have a letter; other characters that cannot be seen have their number. -/
def quotedChar (c : Char) : String :=
  if c = '"' then "\\\""
  else if c = '\\' then "\\\\"
  else if c = '\n' then "\\n"
  else if c = '\r' then "\\r"
  else if c = '\t' then "\\t"
  else if c = '\x00' then "\\0"
  else if ' ' ≤ c ∧ c ≤ '~' then c.toString
  else if isHidden c then "\\u\x7b" ++ hex 1 c.toNat ++ "\x7d"
  else c.toString

def quoted (text : String) : String :=
  "\"" ++ String.join (text.toList.map quotedChar) ++ "\""

def quotedList (texts : List String) : String :=
  "[" ++ ", ".intercalate (texts.map quoted) ++ "]"

end EightBit.Text
