import EightBit.Bus.Dispatch
import EightBit.Region.Basic
import EightBit.Transaction

/-
The bus: the attached regions, the table that tells which of them answers for an address, and the
watchpoints. A region stays attached while others shadow it, and the region mapped last wins.
-/

namespace EightBit

structure Bus (D : Type) where
  regions : Array (Region D)
  dispatch : Dispatch
  watchpoints : List Watchpoint
  hits : Array WatchHit
  /-- Whether each line is raised and not yet sensed. -/
  lines : Array Bool
  log : Array Event
  /-- Book and entry of every note not yet taken. -/
  notes : Array (String × String)

namespace Bus

variable {D : Type}

def empty : Bus D := ⟨#[], .empty, [], #[], #[], #[], #[]⟩

def report (bus : Bus D) (event : Event) : Bus D := { bus with log := bus.log.push event }

def newLine (bus : Bus D) : Line × Bus D :=
  (bus.lines.size, { bus with lines := bus.lines.push false })

def raise (bus : Bus D) (line : Line) : Bus D :=
  { bus with lines := bus.lines.setIfInBounds line true }

def isRaised (bus : Bus D) (line : Line) : Bool := bus.lines.getD line false

/-- Sensing a line acknowledges it. -/
def sense (bus : Bus D) (line : Line) : Bool × Bus D :=
  (bus.isRaised line, { bus with lines := bus.lines.setIfInBounds line false })

/-- Every line is sensed, also after one was found raised. -/
def senseAny (bus : Bus D) : List Line → Bool × Bus D
  | [] => (false, bus)
  | line :: rest =>
      let (raised, bus) := bus.sense line
      let (others, bus) := bus.senseAny rest
      (raised || others, bus)

def absorb (bus : Bus D) : List Effect → Bus D
  | [] => bus
  | .raise line :: effects => (bus.raise line).absorb effects
  | .report event :: effects => (bus.report event).absorb effects
  | .note book entry :: effects =>
      { bus with notes := bus.notes.push (book, entry) }.absorb effects

/-- The entries of one book, in the order they were made. -/
def takeNotes (bus : Bus D) (book : String) : List String × Bus D :=
  let (taken, kept) := bus.notes.toList.partition fun note => note.1 == book
  (taken.map Prod.snd, { bus with notes := kept.toArray })

def attach (bus : Bus D) (region : Region D) : Nat × Bus D :=
  let id := bus.regions.size
  let bus := bus.report (.attached id region.name region.kind region.range)
  (id, { bus with regions := bus.regions.push region })

def regionName (bus : Bus D) (id : Nat) : String :=
  (bus.regions[id]?.map Region.name).getD ""

/-- An attached region takes over its range. -/
def remap (bus : Bus D) (id : Nat) : Bus D :=
  match bus.regions[id]? with
  | none => bus
  | some region =>
      let shadowed := (bus.dispatch.othersIn region.range id).map bus.regionName
      let bus := bus.report (.mapped region.name region.range shadowed)
      { bus with dispatch := bus.dispatch.assign region.range id }

def map (bus : Bus D) (id : Nat) : Except Fault Unit × Bus D :=
  if id < bus.regions.size then (.ok (), bus.remap id) else (.error (.unknownRegion id), bus)

def add (bus : Bus D) (region : Region D) : Nat × Bus D :=
  let (id, bus) := bus.attach region
  (id, bus.remap id)

/-- One block of storage for the whole address space. -/
def flat : Bus D := (empty.add .fullRam).2

def owner (bus : Bus D) (address : Address) : Option Nat := bus.dispatch.owner address

def find? (bus : Bus D) (name : String) : Option Nat :=
  bus.regions.findIdx? fun region => region.name == name

def validate (bus : Bus D) : Except Fault Unit :=
  match bus.dispatch.gap? with
  | some address => .error (.dispatchGap address)
  | none => .ok ()

/-- More hits than this are dropped until the list is taken. -/
def maxHits : Nat := 1024

def watch (bus : Bus D) (range : AddressRange) (trigger : Trigger) : Bus D :=
  let bus := bus.report (.watching range trigger)
  { bus with watchpoints := bus.watchpoints ++ [⟨range, trigger⟩] }

def clearWatchpoints (bus : Bus D) : Bus D := { bus with watchpoints := [], hits := #[] }

def takeHits (bus : Bus D) : Array WatchHit × Bus D := (bus.hits, { bus with hits := #[] })

def hasHits (bus : Bus D) : Bool := !bus.hits.isEmpty

/-- An access that was made is compared with the watchpoints; it leaves at most one hit. -/
def notice (bus : Bus D) (access : Access) (address : Address) (value : UInt8) : Bus D :=
  if bus.watchpoints.any fun watchpoint => watchpoint.notices access address then
    if maxHits ≤ bus.hits.size then
      bus.report (.hitDropped access address maxHits)
    else
      let hit := ⟨access, address, value⟩
      { bus.report (.hit hit) with hits := bus.hits.push hit }
  else
    bus

/-- A region is taken in hand; nothing else holds its bytes, so they can be changed in place. -/
@[noinline] def takeOut (regions : Array (Region D)) (id : Nat) (bound : id < regions.size) :
    Region D × Array (Region D) :=
  regions.swapAt id .vacant bound

/-- The region is taken in hand, acted on and put back; the effects reach the bus. -/
def onRegion {α : Type} (bus : Bus D) (id : Nat)
    (act : Region D → Except Crash (α × Region D × List Effect)) : Except Crash (α × Bus D) :=
  let ⟨regions, dispatch, watchpoints, hits, lines, log, notes⟩ := bus
  if bound : id < regions.size then
    let (region, regions) := takeOut regions id bound
    match act region with
    | .ok (result, region, effects) =>
        let regions := regions.setIfInBounds id region
        .ok (result, Bus.absorb ⟨regions, dispatch, watchpoints, hits, lines, log, notes⟩ effects)
    | .error crash => .error crash
  else
    .error .outsideStorage

variable [Peripheral D]

def peek (bus : Bus D) (address : Address) : Except Crash UInt8 :=
  match bus.owner address with
  | none => .error (.unmapped address)
  | some id =>
      match bus.regions[id]? with
      | some region => region.peek (region.range.offsetOf address)
      | none => .error .outsideStorage

def read (bus : Bus D) (address : Address) : Except Crash (UInt8 × Bus D) :=
  match bus.owner address with
  | none => .error (.unmapped address)
  | some id => do
      let (value, bus) ← bus.onRegion id fun region =>
        region.read (region.range.offsetOf address)
      return (value, bus.notice .read address value)

def write (bus : Bus D) (address : Address) (value : UInt8) : Except Crash (Bus D) :=
  match bus.owner address with
  | none => .error (.unmapped address)
  | some id => do
      let (_, bus) ← bus.onRegion id fun region => do
        let (region, effects) ← region.write (region.range.offsetOf address) value
        return ((), region, effects)
      return bus.notice .write address value

instance : Memory (Bus D) where
  read := read
  write := write
  report := report

/-- Accesses that are refused where no region answers. -/
def tryPeek (bus : Bus D) (address : Address) : Except Crash (Except Fault UInt8) :=
  match bus.owner address with
  | none => .ok (.error (.dispatchGap address))
  | some _ => return .ok (← bus.peek address)

def tryRead (bus : Bus D) (address : Address) : Except Crash (Except Fault UInt8 × Bus D) :=
  match bus.owner address with
  | none => .ok (.error (.dispatchGap address), bus)
  | some _ => do
      let (value, bus) ← bus.read address
      return (.ok value, bus)

def tryWrite (bus : Bus D) (address : Address) (value : UInt8) :
    Except Crash (Except Fault Unit × Bus D) :=
  match bus.owner address with
  | none => .ok (.error (.dispatchGap address), bus)
  | some _ => return (.ok (), ← bus.write address value)

def readWord (bus : Bus D) (address : Address) : Except Crash (UInt16 × Bus D) := do
  let (low, bus) ← bus.read address
  let (high, bus) ← bus.read address.next
  return (Address.ofBytes low high, bus)

def peekWord (bus : Bus D) (address : Address) : Except Crash UInt16 := do
  let low ← bus.peek address
  let high ← bus.peek address.next
  return Address.ofBytes low high

def writeWord (bus : Bus D) (address : Address) (value : UInt16) : Except Crash (Bus D) := do
  let bus ← bus.write address (Address.lo value)
  bus.write address.next (Address.hi value)

/-- The bytes from an address on, without side effects; the top of memory wraps. -/
def slice (bus : Bus D) (address : Address) (size : Nat) : Except Crash (List UInt8) :=
  (List.range size).mapM fun offset => bus.peek (address + UInt16.ofNat offset)

def dump (bus : Bus D) (range : AddressRange) : Except Crash (List UInt8) :=
  range.addresses.mapM bus.peek

def tick (bus : Bus D) (cycles : Nat) : Bus D :=
  let ⟨regions, dispatch, watchpoints, hits, lines, log, notes⟩ := bus
  let ticked := regions.map fun region => region.tick cycles
  let effects := ticked.toList.flatMap Prod.snd
  Bus.absorb ⟨ticked.map Prod.fst, dispatch, watchpoints, hits, lines, log, notes⟩ effects

end Bus

end EightBit
