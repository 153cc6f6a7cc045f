import EightBit.Proofs.Bus.Service
import EightBit.Proofs.Bus.Sound

/-
Requests to a bus. Region numbers, spans and saved bytes may come from anywhere, so a request may be
refused, and it may end at an address that nobody owns; but no request leads to a table that sends
an address to a region without a place for it.
-/

namespace EightBit.Bus

open Outcome

variable {D : Type} [Peripheral D]

/-- What may be asked of a bus from outside. -/
inductive Request (D : Type) [Peripheral D] where
  | attach (region : Region D) (made : region.Made)
  | add (region : Region D) (made : region.Made)
  | map (id : Nat)
  | applyLayout (layout : List MappedSpan)
  | read (address : Address)
  | tryRead (address : Address)
  | readWord (address : Address)
  | write (address : Address) (value : UInt8)
  | tryWrite (address : Address) (value : UInt8)
  | writeWord (address : Address) (value : UInt16)
  | copy (address : Address) (bytes : List UInt8)
  | restore (id : Nat) (saved : Array UInt8)
  | tick (cycles : Nat)
  | watch (range : AddressRange) (trigger : Trigger)
  | clearWatchpoints
  | takeHits

/-- An attached region takes over saved bytes; any other number names no region. -/
def restoreRegion (bus : Bus D) (id : Nat) (saved : Array UInt8) : Except Crash (Bus D) :=
  if id < bus.regions.size then
    Prod.snd <$> bus.onRegion id fun region => .ok (region.restore saved)
  else
    .ok bus

/-- The bus after a request that does not crash. -/
def Request.perform (bus : Bus D) : Request D → Except Crash (Bus D)
  | attach region _ => .ok (bus.attach region).2
  | add region _ => .ok (bus.add region).2
  | map id => .ok (bus.map id).2
  | applyLayout layout => .ok (bus.applyLayout layout).2
  | read address => Prod.snd <$> bus.read address
  | tryRead address => Prod.snd <$> bus.tryRead address
  | readWord address => Prod.snd <$> bus.readWord address
  | write address value => bus.write address value
  | tryWrite address value => Prod.snd <$> bus.tryWrite address value
  | writeWord address value => bus.writeWord address value
  | copy address bytes => Prod.snd <$> bus.copy address bytes
  | restore id saved => bus.restoreRegion id saved
  | tick cycles => .ok (bus.tick cycles)
  | watch range trigger => .ok (bus.watch range trigger)
  | clearWatchpoints => .ok bus.clearWatchpoints
  | takeHits => .ok bus.takeHits.2

variable {bus : Bus D}

/-- Restoring one region cannot crash, and keeps the bus sound. -/
theorem Sound.restoreRegion_guarded (sound : bus.Sound) (id : Nat) (saved : Array UInt8) :
    Guarded (fun _ => True) Sound (bus.restoreRegion id saved) := by
  rw [restoreRegion]
  split
  · rename_i inside
    have attached : bus.regions[id]? = some bus.regions[id] := Array.getElem?_eq_getElem inside
    rw [onRegion_attached attached]
    exact sound.step (.region attached (.restore saved))
  · exact sound

/-- A request leads to a sound bus again, or it ends at an address that nobody owns. -/
theorem Sound.request (sound : bus.Sound) (request : Request D) :
    Guarded (fun _ => True) Sound (request.perform bus) := by
  cases request with
  | attach region made => exact sound.attach made.filled
  | add region made => exact sound.add made.filled
  | map id => exact sound.map id
  | applyLayout layout => exact sound.applyLayout layout
  | read address => exact sound.guarded (sound.read_guarded address)
  | tryRead address => exact sound.guarded (sound.tryRead_guarded address)
  | readWord address => exact sound.guarded (sound.readWord_guarded address)
  | write address value =>
      exact (sound.write_guarded address value).mono (fun _ _ => trivial) fun _ => sound.follows
  | tryWrite address value => exact sound.guarded (sound.tryWrite_guarded address value)
  | writeWord address value =>
      exact (sound.writeWord_guarded address value).mono (fun _ _ => trivial) fun _ => sound.follows
  | copy address bytes => exact sound.guarded (sound.copy_guarded address bytes)
  | restore id saved => exact sound.restoreRegion_guarded id saved
  | tick cycles => exact sound.step (.tick cycles)
  | watch range trigger => exact sound.step (.watch range trigger)
  | clearWatchpoints => exact sound.step .clearWatchpoints
  | takeHits => exact sound.step .takeHits

/-- However many requests are made, one after the other. -/
theorem Sound.requests (sound : bus.Sound) (requests : List (Request D)) :
    Guarded (fun _ => True) Sound (requests.foldlM Request.perform bus) := by
  induction requests generalizing bus with
  | nil => exact sound
  | cons request requests ih =>
      rw [List.foldlM_cons]
      exact (sound.request request).bind fun middle kept => ih kept

/-- The accesses at the address are accesses to the region, at one of its own offsets. -/
structure Reaches (bus : Bus D) (address : Address) (id : Nat) (region : Region D) : Prop where
  attached : bus.regions[id]? = some region
  inside : (region.range.offsetOf address).toNat < region.range.size
  peek : ∃ value, region.peek (region.range.offsetOf address) = .ok value ∧
    bus.tryPeek address = .ok (.ok value)
  read : ∃ value next effects,
    region.read (region.range.offsetOf address) = .ok (value, next, effects) ∧
      bus.tryRead address =
        .ok (.ok value, ((bus.withRegion id next).absorb effects).notice .read address value)
  write : ∀ value, ∃ next effects,
    region.write (region.range.offsetOf address) value = .ok (next, effects) ∧
      bus.tryWrite address value =
        .ok (.ok (), ((bus.withRegion id next).absorb effects).notice .write address value)

/-- The accesses at the address are refused, and nothing changes. -/
structure Declines (bus : Bus D) (address : Address) : Prop where
  peek : bus.tryPeek address = .ok (.error (.dispatchGap address))
  read : bus.tryRead address = .ok (.error (.dispatchGap address), bus)
  write : ∀ value, bus.tryWrite address value = .ok (.error (.dispatchGap address), bus)

/-- The table is safe to send accesses through. -/
structure Safe (bus : Bus D) : Prop where
  /-- An entry names an attached region whose range contains the address. -/
  entry : ∀ address id, bus.owner address = some id →
    ∃ inside : id < bus.regions.size, bus.regions[id].range.containsAddress address
  /-- Storage holds one byte for each address of its range. -/
  filled : ∀ (id : Nat) (region : Region D), bus.regions[id]? = some region → region.kind ≠ .io →
    region.stored.size = region.range.size
  owned : ∀ address id, bus.owner address = some id → ∃ region, bus.Reaches address id region
  gap : ∀ address, bus.owner address = none → bus.Declines address
  /-- A copy is done, or it stops at an address that nobody owns. -/
  copy : ∀ address bytes, ∃ result after, bus.copy address bytes = .ok (result, after) ∧
    (result = .ok () ∨ ∃ gap, result = .error (.dispatchGap gap) ∧ bus.owner gap = none)

/-- On a sound bus an address with an owner reaches a region that contains it. -/
theorem Sound.reaches (sound : bus.Sound) {address : Address} {id : Nat}
    (owned : bus.owner address = some id) : ∃ region, bus.Reaches address id region := by
  obtain ⟨region, attached, filled, _, inside⟩ := sound.lookup owned
  obtain ⟨seen, peeked⟩ := filled.peek inside
  obtain ⟨value, next, effects, served⟩ := filled.read inside
  refine ⟨region, attached, inside, ⟨seen, peeked, ?_⟩, ⟨value, next, effects, served, ?_⟩, ?_⟩
  · rw [tryPeek_owned owned, peek_attached owned attached, peeked, map_ok]
  · rw [tryRead_owned owned, read_attached owned attached, served, map_ok, map_ok]
  · intro byte
    obtain ⟨written, reports, stored⟩ := filled.write inside byte
    refine ⟨written, reports, stored, ?_⟩
    rw [tryWrite_owned owned, write_attached owned attached, stored, map_ok, map_ok]

/-- Dispatch on a sound bus is safe. -/
theorem Sound.safe (sound : bus.Sound) : bus.Safe where
  entry address id owned := by
    obtain ⟨region, attached, inside⟩ := sound.owned owned
    obtain ⟨bound, rfl⟩ := Array.getElem?_eq_some_iff.mp attached
    exact ⟨bound, inside⟩
  filled id region attached := sound.filled attached
  owned address id owned := sound.reaches owned
  gap address gap := ⟨tryPeek_gap gap, tryRead_gap gap, tryWrite_gap gap⟩
  copy address bytes := sound.copy address bytes

/-- Whatever is requested of a new bus, the table stays safe; and a run of requests can only end
early at an address that nobody owns, never at an offset outside the storage of a region. -/
theorem requests_keep_dispatch_safe (requests : List (Request D)) :
    match requests.foldlM Request.perform (empty : Bus D) with
    | .ok bus => bus.Safe
    | .error crash => ∃ address, crash = .unmapped address := by
  have guarded := sound_empty.requests requests
  cases ran : requests.foldlM Request.perform (empty : Bus D) with
  | ok bus =>
      rw [ran] at guarded
      exact Sound.safe guarded
  | error crash =>
      rw [ran] at guarded
      obtain ⟨address, _, same⟩ := guarded
      exact ⟨address, same⟩

end EightBit.Bus
