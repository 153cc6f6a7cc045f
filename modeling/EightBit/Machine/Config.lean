import EightBit.Machine.Basic

/-
Descriptions of machines: a list of storage regions, mapped in order.
-/

namespace EightBit

structure RegionConfig where
  name : String
  kind : RegionKind
  start : Address
  size : UInt32
  fill : UInt8
  deriving DecidableEq, Repr

namespace RegionConfig

def ram (name : String) (start : Address) (size : UInt32) : RegionConfig :=
  ⟨name, .ram, start, size, 0⟩

def rom (name : String) (start : Address) (size : UInt32) : RegionConfig :=
  ⟨name, .rom, start, size, 0xff⟩

/-- Peripherals cannot be described, only attached. -/
def region {D : Type} (config : RegionConfig) : Except Fault (Region D) := do
  let range ← AddressRange.make config.start config.size
  match config.kind with
  | .ram => return .ram config.name range config.fill
  | .rom => return .rom config.name range config.fill
  | .io => throw (.configuredIo config.name)

end RegionConfig

/-- Later regions shadow earlier ones. -/
structure MachineConfig where
  regions : List RegionConfig
  trace : Bool
  deriving DecidableEq, Repr

namespace MachineConfig

def flat : MachineConfig := ⟨[.ram "ram" 0 0x10000], false⟩

end MachineConfig

namespace Machine

def ofConfig {D : Type} (config : MachineConfig) : Except Fault (Machine D) := do
  let bus ← config.regions.foldlM (fun (bus : Bus D) entry => do
    let region ← entry.region
    return (bus.add region).2) .empty
  return ofBus bus config.trace

end Machine

end EightBit
