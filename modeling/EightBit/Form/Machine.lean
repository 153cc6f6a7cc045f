import EightBit.Form.Basic
import EightBit.Machine.Config
import EightBit.Machine.SaveState

/-
The written forms of ranges, configurations and save states. Every field stands under its name, and
once; a field with a usual value may be left out.
-/

namespace EightBit

open Form

instance : Coded Interrupt where
  encode interrupt := .text interrupt.name
  decode := choice Interrupt.ofName?

instance : Coded RegionKind where
  encode kind := .text kind.name
  decode := choice RegionKind.ofName?

/-- The two numbers have to form a range. -/
instance : Coded AddressRange where
  encode range := .record [("start", encode range.start), ("size", encode range.size)]
  decode form := do
    form.structureOf ["start", "size"]
    let start : UInt16 ← form.required 0 "start"
    let size : UInt32 ← form.required 1 "size"
    (AddressRange.make start size).mapError .refused

instance : Coded MappedSpan where
  encode span := .record [("region", encode span.region), ("start", encode span.start),
    ("size", encode span.size)]
  decode form := do
    form.structureOf ["region", "start", "size"]
    let region ← form.required 0 "region"
    let start ← form.required 1 "start"
    let size ← form.required 2 "size"
    return { region, start, size }

instance : Coded RegionConfig where
  encode config := .record [("name", encode config.name), ("kind", encode config.kind),
    ("start", encode config.start), ("size", encode config.size), ("fill", encode config.fill)]
  decode form := do
    form.structureOf ["name", "kind", "start", "size", "fill"]
    let name ← form.required 0 "name"
    let kind ← form.required 1 "kind"
    let start ← form.required 2 "start"
    let size ← form.required 3 "size"
    let fill ← form.optional 4 "fill" 0
    return { name, kind, start, size, fill }

instance : Coded MachineConfig where
  encode config := .record [("regions", encode config.regions),
    ("trace_instructions", encode config.trace)]
  decode form := do
    form.structureOf ["regions", "trace_instructions"]
    let regions ← form.required 0 "regions"
    let trace ← form.optional 1 "trace_instructions" false
    return { regions, trace }

instance : Coded ProcessorImage where
  encode image := .record [("a", encode image.a), ("x", encode image.x), ("y", encode image.y),
    ("s", encode image.s), ("pc", encode image.pc), ("p", encode image.p),
    ("cycles", encode image.cycles), ("pending", encode image.pending)]
  decode form := do
    form.structureOf ["a", "x", "y", "s", "pc", "p", "cycles", "pending"]
    let a ← form.required 0 "a"
    let x ← form.required 1 "x"
    let y ← form.required 2 "y"
    let s ← form.required 3 "s"
    let pc ← form.required 4 "pc"
    let p ← form.required 5 "p"
    let cycles ← form.required 6 "cycles"
    let pending ← form.optional 7 "pending" 0
    return { a, x, y, s, pc, p, cycles, pending }

instance : Coded RegionImage where
  encode image := .record [("name", encode image.name), ("bytes", encode image.bytes)]
  decode form := do
    form.structureOf ["name", "bytes"]
    let name ← form.required 0 "name"
    let bytes ← form.required 1 "bytes"
    return { name, bytes }

instance : Coded SaveState where
  encode state := .record [("registers", encode state.processor),
    ("regions", encode state.regions), ("layout", encode state.layout)]
  decode form := do
    form.structureOf ["registers", "regions", "layout"]
    let processor ← form.required 0 "registers"
    let regions ← form.required 1 "regions"
    let layout ← form.optional 2 "layout" []
    return { processor, regions, layout }

end EightBit
