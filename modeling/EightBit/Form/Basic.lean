import EightBit.Fault

/-
Forms: the data in which configurations and save states are written down, and the coding of plain
values as forms.
-/

namespace EightBit

inductive Form where
  | null
  | bool (value : Bool)
  | integer (value : Int)
  /-- A number written with a fraction part, whatever its value. -/
  | fraction (mantissa : Int) (places : Nat)
  | text (value : String)
  | list (items : List Form)
  | record (fields : List (String × Form))
  deriving Inhabited

inductive DecodeError where
  | malformed
  /-- The parts are well formed, but they do not fit together. -/
  | refused (fault : Fault)
  deriving DecidableEq, Repr

class Coded (α : Type) where
  encode : α → Form
  decode : Form → Except DecodeError α

export Coded (encode decode)

namespace Form

/-- A whole number below a limit. -/
def natural (limit : Nat) : Form → Except DecodeError Nat
  | integer value =>
      if 0 ≤ value ∧ value < limit then .ok value.toNat else .error .malformed
  | _ => .error .malformed

/-- A choice is written as its name, or as a record of that name with nothing in it. -/
def choice {α : Type} (ofName? : String → Option α) : Form → Except DecodeError α
  | text name => (ofName? name).elim (.error .malformed) .ok
  | record [(name, null)] => (ofName? name).elim (.error .malformed) .ok
  | _ => .error .malformed

/-- A structure is a record in which none of its fields stands twice, or the list of its fields in
order; the last ones may be missing. -/
def structureOf (names : List String) : Form → Except DecodeError Unit
  | record fields =>
      if names.all fun name => fields.countP (·.1 == name) ≤ 1 then .ok ()
      else .error .malformed
  | list items => if items.length ≤ names.length then .ok () else .error .malformed
  | _ => .error .malformed

def field? (form : Form) (index : Nat) (name : String) : Option Form :=
  match form with
  | record fields => fields.lookup name
  | list items => items[index]?
  | _ => none

def required {α : Type} [Coded α] (form : Form) (index : Nat) (name : String) :
    Except DecodeError α :=
  match form.field? index name with
  | some value => decode value
  | none => .error .malformed

def optional {α : Type} [Coded α] (form : Form) (index : Nat) (name : String) (absent : α) :
    Except DecodeError α :=
  match form.field? index name with
  | some value => decode value
  | none => .ok absent

end Form

instance : Coded Bool where
  encode := .bool
  decode
    | .bool value => .ok value
    | _ => .error .malformed

instance : Coded String where
  encode := .text
  decode
    | .text value => .ok value
    | _ => .error .malformed

instance : Coded UInt8 where
  encode value := .integer value.toNat
  decode form := return UInt8.ofNat (← form.natural UInt8.size)

instance : Coded UInt16 where
  encode value := .integer value.toNat
  decode form := return UInt16.ofNat (← form.natural UInt16.size)

instance : Coded UInt32 where
  encode value := .integer value.toNat
  decode form := return UInt32.ofNat (← form.natural UInt32.size)

instance : Coded UInt64 where
  encode value := .integer value.toNat
  decode form := return UInt64.ofNat (← form.natural UInt64.size)

/-- Indices have 64 bits in writing. -/
instance : Coded Nat where
  encode value := .integer value
  decode form := form.natural UInt64.size

instance {α : Type} [Coded α] : Coded (List α) where
  encode values := .list (values.map encode)
  decode
    | .list items => items.mapM decode
    | _ => .error .malformed

instance {α : Type} [Coded α] : Coded (Array α) where
  encode values := encode values.toList
  decode form := return (← decode (α := List α) form).toArray

end EightBit
