import EightBit.Bus.Access
import EightBit.Interrupt.Basic
import EightBit.Region.Kind
import EightBit.Text.Quoted

/-
The events a machine reports while it works. Reports never influence what happens next.
-/

namespace EightBit

inductive Level where
  | trace
  | debug
  | warn
  | error
  deriving DecidableEq, Repr

namespace Level

def name : Level → String
  | trace => "TRACE"
  | debug => "DEBUG"
  | warn => "WARN"
  | error => "ERROR"

end Level

inductive Event where
  | attached (region : Nat) (name : String) (kind : RegionKind) (range : AddressRange)
  | mapped (name : String) (range : AddressRange) (shadowed : List String)
  | layoutRestored (spans : Nat)
  /-- A copy met more than one owner and goes byte by byte. -/
  | copySpansRegions (size : Nat) (address : Address)
  | watching (range : AddressRange) (trigger : Trigger)
  | hit (hit : WatchHit)
  /-- The list of hits is full. -/
  | hitDropped (access : Access) (address : Address) (limit : Nat)
  | staleHits (count : Nat)
  | romWrite (region : String) (offset : UInt16) (value : UInt8)
  | deviceRead (region device : String) (offset : UInt16) (value : UInt8)
  | deviceWrite (region device : String) (offset : UInt16) (value : UInt8)
  | writeToNothing (offset : UInt16) (value : UInt8)
  | registersKept (region device : String)
  | unmatchedRegion (index : Nat) (name : String)
  | reset (pc : Address)
  | requested (interrupt : Interrupt) (pc : Address)
  | servicing (interrupt : Interrupt) (pc : Address)
  | halted (opcode : UInt8) (pc : Address)
  | instruction (line : String)
  deriving DecidableEq

namespace Event

def level : Event → Level
  | attached .. | mapped .. | layoutRestored .. | copySpansRegions .. | watching .. => .debug
  | staleHits .. | reset .. | requested .. | servicing .. => .debug
  | hit .. | hitDropped .. | romWrite .. | deviceRead .. | deviceWrite .. => .trace
  | writeToNothing .. | instruction .. => .trace
  | registersKept .. | unmatchedRegion .. => .warn
  | halted .. => .error

private def byte (value : UInt8) : String := Text.hex 2 value.toNat

private def place (offset : UInt16) : String := "+" ++ Text.hexLiteral 4 offset.toNat

def text : Event → String
  | attached region name kind range => s!"attach #{region} '{name}' {kind.name} {range.text}"
  | mapped name range shadowed =>
      s!"map '{name}' at {range.text}, shadowing {Text.quotedList shadowed}"
  | layoutRestored spans => s!"restored layout of {spans} spans"
  | copySpansRegions size address =>
      s!"bulk copy of {size} bytes at {address.text} spans regions"
  | watching range trigger => s!"watch {range.text} for {trigger.name}"
  | hit ⟨access, address, value⟩ =>
      s!"watchpoint {access.name} {address.text} = {Text.hexLiteral 2 value.toNat}"
  | hitDropped access address limit =>
      s!"watchpoint {access.name} {address.text} dropped, {limit} hits not taken"
  | staleHits count => s!"dropping {count} watchpoint hits from before the run"
  | romWrite region offset value =>
      s!"{byte value} -> {region} {place offset} | ignored, read only"
  | deviceRead region device offset value =>
      s!"{place offset} -> {byte value} | Reading from {region} ({device})"
  | deviceWrite region device offset value =>
      s!"{byte value} -> {place offset} | Writing to {region} ({device})"
  | writeToNothing offset value => s!"{byte value} -> {place offset} | nothing there"
  | registersKept region device =>
      s!"{region} ({device}) cannot restore its registers, left as is"
  | unmatchedRegion index name =>
      s!"snapshot region #{index} '{name}' has no counterpart, skipped"
  | reset pc => s!"reset, pc = {pc.text}"
  | requested interrupt pc => s!"{interrupt.name} requested at {pc.text}"
  | servicing interrupt pc => s!"servicing {interrupt.name} from {pc.text}"
  | halted opcode pc =>
      s!"JAM {Text.hexLiteral 2 opcode.toNat} at {pc.text}, processor halted"
  | instruction line => line

end Event

end EightBit
