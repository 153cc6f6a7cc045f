import EightBit.Proofs.Bus.Flat
import EightBit.Proofs.Execution.Stack

/-
The stack on a flat memory. What has been pushed is found again above the stack pointer, as long as
no more than a page is pushed, wherever in its page the stack pointer stands.
-/

namespace EightBit

namespace StackPointer

/-- Different stack pointers point to different addresses. -/
theorem address_inj {first second : StackPointer} :
    first.address = second.address ↔ first = second := by
  constructor
  · intro same
    have lower := congrArg Address.lo same
    rwa [address, address, Address.lo_ofBytes, Address.lo_ofBytes] at lower
  · intro same
    rw [same]

/-- The stack is in page one. -/
theorem hi_address (s : StackPointer) : s.address.hi = 1 := Address.hi_ofBytes s 1

/-- Less than a page above the stack pointer it is not met again. -/
theorem add_ne {distance : Nat} (positive : 0 < distance) (below : distance < 256)
    (s : StackPointer) : s + UInt8.ofNat distance ≠ s := by
  intro same
  have numbers := congrArg UInt8.toNat same
  have bound := s.toNat_lt
  rw [UInt8.toNat_add, UInt8.toNat_ofNat_of_lt' below] at numbers
  omega

end StackPointer

namespace FlatMemory

/-- A write does not show at other addresses. -/
theorem get_put_ne {memory : FlatMemory} {address other : Address} (apart : other ≠ address)
    (value : UInt8) : (memory.put address value).get other = memory.get other := by
  cases readOnly : memory.readOnly address with
  | true => rw [put, if_pos readOnly]
  | false => rw [get_put readOnly, if_neg apart]

/-- The bytes are pushed one after the other, downwards from the stack pointer. -/
def push (memory : FlatMemory) (s : StackPointer) : List UInt8 → FlatMemory
  | [] => memory
  | byte :: bytes => (memory.put s.address byte).push (s - 1) bytes

/-- Pushing does not lift the protection of any address. -/
@[simp] theorem push_readOnly (memory : FlatMemory) (s : StackPointer) (bytes : List UInt8) :
    (memory.push s bytes).readOnly = memory.readOnly := by
  induction bytes generalizing memory s with
  | nil => rfl
  | cons byte bytes ih => rw [push, ih, put_readOnly]

/-- Pushes stay in page one. -/
theorem get_push {address : Address} (elsewhere : address.hi ≠ 1) (memory : FlatMemory)
    (s : StackPointer) (bytes : List UInt8) :
    (memory.push s bytes).get address = memory.get address := by
  induction bytes generalizing memory s with
  | nil => rfl
  | cons byte bytes ih =>
      have apart : address ≠ s.address := fun same => elsewhere (same ▸ s.hi_address)
      rw [push, ih, get_put_ne apart]

/-- Pulls from this stack pointer on find the bytes. -/
def Holds (memory : FlatMemory) (s : StackPointer) : List UInt8 → Prop
  | [] => True
  | byte :: bytes =>
      memory.get (StackPointer.address (s + 1)) = byte ∧ memory.Holds (s + 1) bytes

/-- What lies elsewhere in page one may change. -/
theorem Holds.put {memory : FlatMemory} {s place : StackPointer} {bytes : List UInt8}
    (holds : memory.Holds s bytes)
    (apart : ∀ distance, 0 < distance → distance ≤ bytes.length →
      s + UInt8.ofNat distance ≠ place) (value : UInt8) :
    (memory.put place.address value).Holds s bytes := by
  induction bytes generalizing s with
  | nil => trivial
  | cons byte bytes ih =>
      obtain ⟨here, above⟩ := holds
      refine ⟨?_, ih above fun distance positive within => ?_⟩
      · have other : StackPointer.address (s + 1) ≠ place.address := fun same =>
          apart 1 Nat.one_pos (Nat.le_add_left ..) (StackPointer.address_inj.mp same)
        rw [get_put_ne other, here]
      · have further := apart (distance + 1) (Nat.succ_pos _) (Nat.succ_le_succ within)
        rwa [UInt8.ofNat_add, UInt8.add_comm (UInt8.ofNat distance), ← UInt8.add_assoc] at further

/-- The stack lies in RAM. -/
def Writable (memory : FlatMemory) : Prop :=
  ∀ s : StackPointer, memory.readOnly s.address = false

/-- Pushing leaves the stack writable. -/
theorem Writable.push {memory : FlatMemory} (writable : memory.Writable) (s : StackPointer)
    (bytes : List UInt8) : (memory.push s bytes).Writable := fun place => by
  rw [push_readOnly]
  exact writable place

/-- A byte that is pushed lies on top of the others. -/
theorem Holds.push_byte {memory : FlatMemory} {s : StackPointer} {bytes : List UInt8}
    (holds : memory.Holds s bytes) (writable : memory.Writable) (room : bytes.length < 256)
    (byte : UInt8) : (memory.put s.address byte).Holds (s - 1) (byte :: bytes) := by
  have top : s - 1 + 1 = s := by grind
  rw [Holds, top]
  constructor
  · rw [get_put (writable s), if_pos rfl]
  · exact holds.put (fun distance positive within =>
      s.add_ne positive (Nat.lt_of_le_of_lt within room)) byte

/-- Together the bytes fit into a page, so what is pushed lies in reverse order on top of what was
there. -/
theorem Holds.push {memory : FlatMemory} {s : StackPointer} {older bytes : List UInt8}
    (holds : memory.Holds s older) (writable : memory.Writable)
    (room : older.length + bytes.length ≤ 256) :
    (memory.push s bytes).Holds (s - UInt8.ofNat bytes.length) (bytes.reverse ++ older) := by
  -- Each byte that is pushed joins the older ones, so the room for both stays the same.
  induction bytes generalizing memory s older with
  | nil =>
      have still : s - UInt8.ofNat 0 = s := by grind
      rw [List.length_nil, still]
      exact holds
  | cons byte bytes ih =>
      rw [List.length_cons] at room
      have lower : s - UInt8.ofNat (bytes.length + 1) = s - 1 - UInt8.ofNat bytes.length := by
        rw [UInt8.ofNat_add]
        grind
      have top := holds.push_byte writable (by omega) byte
      have rest := ih top (writable.push s [byte]) (by rw [List.length_cons]; omega)
      rw [List.length_cons, lower, List.reverse_cons, List.append_assoc]
      exact rest

end FlatMemory

/-- A stack in RAM is one that the flat view does not protect. -/
theorem Bus.writable_flatten {D : Type} [Peripheral D] {bus : Bus D}
    (ram : ∀ address : Address, address.hi = 1 → bus.ownerKind? address = some .ram) :
    bus.flatten.Writable := by
  intro s
  change (bus.ownerKind? s.address == some .rom) = false
  rw [ram _ s.hi_address]
  rfl

end EightBit
