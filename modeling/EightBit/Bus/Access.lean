import EightBit.Address.Range

/-
Accesses to the bus and the watchpoints that notice them.
-/

namespace EightBit

inductive Access where
  | read
  | write
  deriving DecidableEq, Repr

namespace Access

def name : Access → String
  | read => "Read"
  | write => "Write"

end Access

/-- The accesses a watchpoint waits for: one direction, or both if there is none. -/
abbrev Trigger := Option Access

namespace Trigger

def fires (trigger : Trigger) (access : Access) : Bool :=
  match trigger with
  | none => true
  | some wanted => wanted == access

def name : Trigger → String
  | none => "Any"
  | some access => access.name

end Trigger

structure Watchpoint where
  range : AddressRange
  trigger : Trigger
  deriving DecidableEq

namespace Watchpoint

def notices (watchpoint : Watchpoint) (access : Access) (address : Address) : Bool :=
  watchpoint.trigger.fires access && watchpoint.range.containsAddress address

end Watchpoint

structure WatchHit where
  access : Access
  address : Address
  value : UInt8
  deriving DecidableEq, Repr

namespace WatchHit

/-- Direction, address and value, as short as a trace wants them. -/
def text (hit : WatchHit) : String :=
  let direction := if hit.access = .read then "R" else "W"
  s!"{direction}{Text.hex 4 hit.address.toNat}={Text.hex 2 hit.value.toNat}"

end WatchHit

end EightBit
