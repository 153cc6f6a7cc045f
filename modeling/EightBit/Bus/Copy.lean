import EightBit.Bus.Basic

/-
Copying blocks of bytes onto the bus. A copy goes straight into the regions, read-only storage
included, and no watchpoint notices it.
-/

namespace EightBit.Bus

variable {D : Type} [Peripheral D]

def loadOwned (bus : Bus D) (id : Nat) (address : Address) (bytes : List UInt8) :
    Except Crash (Bus D) := do
  let (_, bus) ← bus.onRegion id fun region => do
    let (region, effects) ← region.load (region.range.offsetOf address) bytes
    return ((), region, effects)
  return bus

/-- Byte after byte goes to the owner of its address, up to the first gap; the top of memory
wraps. -/
def copyBytes (bus : Bus D) (address : Address) :
    List UInt8 → Except Crash (Except Fault Unit × Bus D)
  | [] => .ok (.ok (), bus)
  | byte :: rest =>
      match bus.owner address with
      | none => .ok (.error (.dispatchGap address), bus)
      | some id => do
          let bus ← bus.loadOwned id address [byte]
          bus.copyBytes address.next rest

def ownsBlock (bus : Bus D) (id : Nat) (address : Address) (size : Nat) : Bool :=
  if within : address.toNat + size ≤ 65536 then
    bus.dispatch.ownsAll ⟨address, size, within⟩ id
  else
    false

/-- A block with a single owner is loaded in one piece. -/
def copy (bus : Bus D) (address : Address) (bytes : List UInt8) :
    Except Crash (Except Fault Unit × Bus D) :=
  if bytes.isEmpty then .ok (.ok (), bus)
  else
    match bus.owner address with
    | none => .ok (.error (.dispatchGap address), bus)
    | some id =>
        if bus.ownsBlock id address bytes.length then
          return (.ok (), ← bus.loadOwned id address bytes)
        else
          (bus.report (.copySpansRegions bytes.length address)).copyBytes address bytes

end EightBit.Bus
