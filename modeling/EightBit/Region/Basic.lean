import EightBit.Fault
import EightBit.Peripheral.Basic

/-
Memory regions: storage, or a peripheral, that answers for a range of addresses. Offsets count from
the start of the range.
-/

namespace EightBit

inductive Contents (D : Type) where
  | ram (bytes : Array UInt8)
  | rom (bytes : Array UInt8)
  | io (device : D)

structure Region (D : Type) where
  name : String
  range : AddressRange
  contents : Contents D

namespace Region

variable {D : Type}

/-- Stands in for a region while an action has it in hand. -/
def vacant : Region D := ⟨"", ⟨0, 0, by decide⟩, .ram #[]⟩

instance : Inhabited (Region D) := ⟨vacant⟩

def ram (name : String) (range : AddressRange) (fill : UInt8) : Region D :=
  ⟨name, range, .ram (Array.replicate range.size fill)⟩

def rom (name : String) (range : AddressRange) (fill : UInt8) : Region D :=
  ⟨name, range, .rom (Array.replicate range.size fill)⟩

/-- An image that is too short is padded, one that is too long is cut. -/
def romImage (name : String) (range : AddressRange) (image : List UInt8) : Region D :=
  let present := image.take range.size
  ⟨name, range, .rom (present ++ List.replicate (range.size - present.length) 0xff).toArray⟩

def io (name : String) (range : AddressRange) (device : D) : Region D :=
  ⟨name, range, .io device⟩

/-- The whole address space as one block of storage. -/
def fullRam : Region D := ram "ram" .full 0

def kind (region : Region D) : RegionKind :=
  match region.contents with
  | .ram _ => .ram
  | .rom _ => .rom
  | .io _ => .io

def byteAt (bytes : Array UInt8) (offset : UInt16) : Except Crash UInt8 :=
  match bytes[offset.toNat]? with
  | some value => .ok value
  | none => .error .outsideStorage

/-- The values take the place of the bytes from the offset on. -/
def overwrite (bytes : Array UInt8) (offset : Nat) : List UInt8 → Array UInt8
  | [] => bytes
  | value :: values => overwrite (bytes.setIfInBounds offset value) (offset + 1) values

def store (bytes : Array UInt8) (offset : UInt16) (values : List UInt8) :
    Except Crash (Array UInt8) :=
  if offset.toNat + values.length ≤ bytes.size then .ok (overwrite bytes offset.toNat values)
  else .error .outsideStorage

variable [Peripheral D]

def peek (region : Region D) (offset : UInt16) : Except Crash UInt8 :=
  match region.contents with
  | .ram bytes => byteAt bytes offset
  | .rom bytes => byteAt bytes offset
  | .io device => .ok (Peripheral.peek device offset)

def read (region : Region D) (offset : UInt16) :
    Except Crash (UInt8 × Region D × List Effect) :=
  match region with
  | ⟨_, _, .ram bytes⟩ => return (← byteAt bytes offset, region, [])
  | ⟨_, _, .rom bytes⟩ => return (← byteAt bytes offset, region, [])
  | ⟨name, range, .io device⟩ =>
      let (value, reacted, effects) := Peripheral.read device offset
      let event := .deviceRead name (Peripheral.name reacted) offset value
      .ok (value, ⟨name, range, .io reacted⟩, effects ++ [.report event])

def writeDevice (name : String) (device : D) (offset : UInt16) (value : UInt8) :
    D × List Effect :=
  let (reacted, effects) := Peripheral.write device offset value
  (reacted, .report (.deviceWrite name (Peripheral.name device) offset value) :: effects)

/-- Read-only storage ignores the processor. -/
def write (region : Region D) (offset : UInt16) (value : UInt8) :
    Except Crash (Region D × List Effect) :=
  match region with
  | ⟨name, range, .ram bytes⟩ => do
      let bytes ← store bytes offset [value]
      return (⟨name, range, .ram bytes⟩, [])
  | ⟨name, _, .rom _⟩ => .ok (region, [.report (.romWrite name offset value)])
  | ⟨name, range, .io device⟩ =>
      let (device, effects) := writeDevice name device offset value
      .ok (⟨name, range, .io device⟩, effects)

/-- The peripheral gets one write after another. -/
def loadDevice (name : String) (device : D) (offset : UInt16) :
    List UInt8 → D × List Effect
  | [] => (device, [])
  | value :: values =>
      let (device, first) := writeDevice name device offset value
      let (device, rest) := loadDevice name device (offset + 1) values
      (device, first ++ rest)

/-- Loading fills read-only storage as well. -/
def load (region : Region D) (offset : UInt16) (values : List UInt8) :
    Except Crash (Region D × List Effect) :=
  match region with
  | ⟨name, range, .ram bytes⟩ => do
      let bytes ← store bytes offset values
      return (⟨name, range, .ram bytes⟩, [])
  | ⟨name, range, .rom bytes⟩ => do
      let bytes ← store bytes offset values
      return (⟨name, range, .rom bytes⟩, [])
  | ⟨name, range, .io device⟩ =>
      let (device, effects) := loadDevice name device offset values
      .ok (⟨name, range, .io device⟩, effects)

/-- The bytes a save state keeps of the region. -/
def bytes (region : Region D) : Array UInt8 :=
  match region.contents with
  | .ram bytes => bytes
  | .rom bytes => bytes
  | .io device => Array.ofFn fun offset : Fin region.range.size =>
      Peripheral.peek device (UInt16.ofNat offset)

/-- A peripheral that cannot be restored stays as it is. -/
def restore (region : Region D) (saved : Array UInt8) :
    Except Fault Unit × Region D × List Effect :=
  match region with
  | ⟨name, range, .ram bytes⟩ =>
      if saved.size = bytes.size then (.ok (), ⟨name, range, .ram saved⟩, [])
      else (.error (.snapshotSize name bytes.size saved.size), ⟨name, range, .ram bytes⟩, [])
  | ⟨name, range, .rom bytes⟩ =>
      if saved.size = bytes.size then (.ok (), ⟨name, range, .rom saved⟩, [])
      else (.error (.snapshotSize name bytes.size saved.size), ⟨name, range, .rom bytes⟩, [])
  | ⟨name, range, .io device⟩ =>
      if saved.size = range.size then
        match Peripheral.restore? device saved with
        | some device => (.ok (), ⟨name, range, .io device⟩, [])
        | none =>
            (.ok (), ⟨name, range, .io device⟩,
              [.report (.registersKept name (Peripheral.name device))])
      else (.error (.snapshotSize name range.size saved.size), ⟨name, range, .io device⟩, [])

def tick (region : Region D) (cycles : Nat) : Region D × List Effect :=
  match region with
  | ⟨name, range, .io device⟩ =>
      let (device, effects) := Peripheral.step device cycles
      (⟨name, range, .io device⟩, effects)
  | region => (region, [])

end Region

end EightBit
