import EightBit.Address.Basic

/-
What can go wrong. A fault is refused and reported, and the caller goes on; a crash ends the run.
-/

namespace EightBit

inductive Fault where
  /-- The opcode locks up the processor; the program counter stays on it. -/
  | invalidOpcode (opcode : UInt8) (pc : Address)
  | dispatchGap (address : Address)
  | invalidRange (start : Address) (size : UInt32)
  | unknownRegion (region : Nat)
  | spanOutsideRegion (region : String) (start : Address) (size : UInt32)
  | snapshotSize (region : String) (expected actual : Nat)
  | configuredIo (region : String)
  | regionMismatch (index : Nat) (saved found : String)
  deriving DecidableEq, Repr

namespace Fault

def name : Fault → String
  | invalidOpcode .. => "InvalidOpcode"
  | dispatchGap .. => "DispatchGap"
  | invalidRange .. => "InvalidRange"
  | unknownRegion .. => "UnknownRegion"
  | spanOutsideRegion .. => "SpanOutsideRegion"
  | snapshotSize .. => "SnapshotSize"
  | configuredIo .. => "ConfiguredIo"
  | regionMismatch .. => "RegionMismatch"

open Text in
def message : Fault → String
  | invalidOpcode opcode pc => s!"invalid opcode {hexLiteral 2 opcode.toNat} at {pc.text}"
  | dispatchGap address => s!"no region mapped at {address.text}"
  | invalidRange start size =>
      s!"invalid address range: start {hexLiteral 4 start.toNat}, size {hexLiteral 1 size.toNat}"
  | unknownRegion region => s!"unknown region #{region}"
  | spanOutsideRegion region start size =>
      s!"span {hexLiteral 4 start.toNat}+{hexLiteral 1 size.toNat} lies outside region '{region}'"
  | snapshotSize region expected actual =>
      s!"snapshot for region '{region}' holds {actual} bytes, expected {expected}"
  | configuredIo region =>
      s!"region '{region}': IO regions are attached by their peripheral, not configured"
  | regionMismatch index saved found =>
      s!"snapshot names region '{saved}' at #{index}, machine has '{found}'"

end Fault

inductive Crash where
  /-- An access that cannot be refused met an address that no region answers for. -/
  | unmapped (address : Address)
  | outsideStorage
  deriving DecidableEq, Repr

end EightBit
