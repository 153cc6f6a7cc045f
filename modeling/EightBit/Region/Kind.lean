/-
The kinds of memory regions.
-/

namespace EightBit

inductive RegionKind where
  | ram
  | rom
  | io
  deriving DecidableEq, Repr

namespace RegionKind

def name : RegionKind → String
  | ram => "RAM"
  | rom => "ROM"
  | io => "IO"

def ofName? (name : String) : Option RegionKind :=
  [ram, rom, io].find? fun kind => kind.name == name

end RegionKind

end EightBit
