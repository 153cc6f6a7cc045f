import EightBit.Bus.Layout
import EightBit.Machine.Basic

/-
Save states: the registers, the bytes of every region, and the layout of a machine. A save state
fits a machine whose regions have the same names and sizes, in the order they were attached.
-/

namespace EightBit

structure RegionImage where
  name : String
  bytes : Array UInt8
  deriving DecidableEq

structure SaveState where
  processor : ProcessorImage
  regions : List RegionImage
  layout : List MappedSpan
  deriving DecidableEq

namespace Machine

variable {D : Type} [Peripheral D]

def save (machine : Machine D) : SaveState where
  processor := machine.processor.image
  regions := machine.bus.regions.toList.map fun region => ⟨region.name, region.bytes⟩
  layout := machine.bus.layout

/-- The regions that have a counterpart are compared, the first one first, by name and by size. -/
def checkRegions (index : Nat) : List (Region D) → List RegionImage → Except Fault Unit
  | region :: regions, saved :: images => do
      unless region.name = saved.name do
        throw (.regionMismatch index saved.name region.name)
      unless saved.bytes.size = region.range.size do
        throw (.snapshotSize saved.name region.range.size saved.bytes.size)
      checkRegions (index + 1) regions images
  | _, _ => return

/-- Images without a counterpart are skipped with a warning. -/
def warnUnmatched (bus : Bus D) (index : Nat) : List RegionImage → Bus D
  | [] => bus
  | saved :: images => warnUnmatched (bus.report (.unmatchedRegion index saved.name)) (index + 1)
      images

/-- Each image goes into the region at its place in the order of attachment. -/
def restoreRegions (bus : Bus D) (index : Nat) :
    List RegionImage → Except Crash (Except Fault Unit × Bus D)
  | [] => .ok (.ok (), bus)
  | saved :: images => do
      if index < bus.regions.size then
        let (result, bus) ← bus.onRegion index fun region =>
          return region.restore saved.bytes
        match result with
        | .ok () => restoreRegions bus (index + 1) images
        | .error fault => return (.error fault, bus)
      else
        return (.ok (), bus)

/-- An empty layout leaves the mapping as it is. -/
def restoreLayout (bus : Bus D) (layout : List MappedSpan) : Except Fault Unit × Bus D :=
  if layout.isEmpty then (.ok (), bus) else bus.applyLayout layout

/-- The bus takes over a save state that fits; before that nothing is touched. -/
def restoreBus (bus : Bus D) (saved : SaveState) :
    Except Crash (Except Fault Unit × Bus D) := do
  match checkRegions 0 bus.regions.toList saved.regions with
  | .error fault => return (.error fault, bus)
  | .ok () =>
      let count := bus.regions.size
      let bus := warnUnmatched bus count (saved.regions.drop count)
      match bus.checkLayout saved.layout with
      | .error fault => return (.error fault, bus)
      | .ok () =>
          let (result, bus) ← restoreRegions bus 0 saved.regions
          match result with
          | .error fault => return (.error fault, bus)
          | .ok () => return restoreLayout bus saved.layout

def restore (machine : Machine D) (saved : SaveState) :
    Except Crash (Except Fault Unit × Machine D) := do
  let ⟨processor, bus, irqLines, nmiLines, trace⟩ := machine
  let (result, bus) ← restoreBus bus saved
  match result with
  | .error fault => return (.error fault, ⟨processor, bus, irqLines, nmiLines, trace⟩)
  | .ok () => return (.ok (), ⟨.ofImage saved.processor, bus, irqLines, nmiLines, trace⟩)

end Machine

end EightBit
