import EightBit.Event

/-
Peripherals. A peripheral is a state machine behind a range of addresses: it reacts to reads and
writes at an offset and to the passing of time. What it does to the outside is a list of effects.
-/

namespace EightBit

/-- A wire that peripherals raise and the machine senses. -/
abbrev Line := Nat

inductive Effect where
  | raise (line : Line)
  | report (event : Event)
  /-- An entry in a book that the peripheral keeps for its observer. -/
  | note (book entry : String)
  deriving DecidableEq

class Peripheral (D : Type) where
  name : D → String
  /-- What a debugger sees; nothing changes. -/
  peek : D → UInt16 → UInt8
  /-- What the processor sees; latches may change. -/
  read : D → UInt16 → UInt8 × D × List Effect
  write : D → UInt16 → UInt8 → D × List Effect
  step : D → Nat → D × List Effect
  /-- The state that a save state describes, if the peripheral can be restored at all. -/
  restore? : D → Array UInt8 → Option D

/-- Nothing is fitted: reads float to a fixed value and writes vanish. -/
structure Unpopulated where
  floating : UInt8
  deriving DecidableEq, Repr

instance : Peripheral Unpopulated where
  name _ := "unpopulated"
  peek device _ := device.floating
  read device _ := (device.floating, device, [])
  write device offset value := (device, [.report (.writeToNothing offset value)])
  step device _ := (device, [])
  restore? device _ := some device

end EightBit
