import EightBit.Bus.Basic

/-
Layouts: the dispatch table written down as spans, and its reconstruction from them.
-/

namespace EightBit.Bus

variable {D : Type}

def layout (bus : Bus D) : List MappedSpan := bus.dispatch.spans

/-- A span names an attached region and lies inside that region's range. -/
def checkSpan (bus : Bus D) (span : MappedSpan) : Except Fault Unit := do
  match bus.regions[span.region]? with
  | none => throw (.unknownRegion span.region)
  | some region =>
      let range ← AddressRange.make span.start span.size
      unless region.range.contains range do
        throw (.spanOutsideRegion region.name span.start span.size)

def checkLayout (bus : Bus D) (layout : List MappedSpan) : Except Fault Unit :=
  layout.forM bus.checkSpan

def assignSpan (table : Dispatch) (span : MappedSpan) : Dispatch :=
  match AddressRange.make span.start span.size with
  | .ok range => table.assign range span.region
  | .error _ => table

/-- The table holds the spans and nothing else; of two spans the later one wins. -/
def applyLayout (bus : Bus D) (layout : List MappedSpan) : Except Fault Unit × Bus D :=
  match bus.checkLayout layout with
  | .error fault => (.error fault, bus)
  | .ok () =>
      let bus := bus.report (.layoutRestored layout.length)
      (.ok (), { bus with dispatch := layout.foldl assignSpan .empty })

end EightBit.Bus
