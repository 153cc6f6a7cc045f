import EightBit.Proofs.Execution.Addressing

/-
The stack as the bus sees it. Pushes write downwards from the stack pointer and pulls read upwards
from above it, both inside page one, whatever the stack pointer is.
-/

namespace EightBit

open Transaction

/-- The writes among the accesses, in order. -/
def writesIn (accesses : List WatchHit) : List WatchHit :=
  accesses.filter fun hit => hit.access == .write

/-- The writes of two parts are those of the first and then those of the second. -/
theorem writesIn_append (first second : List WatchHit) :
    writesIn (first ++ second) = writesIn first ++ writesIn second := List.filter_append ..

/-- There is no write among reads. -/
theorem writesIn_reads {accesses : List WatchHit} (reads : ∀ hit ∈ accesses, hit.access = .read) :
    writesIn accesses = [] := by
  refine List.filter_eq_nil_iff.mpr fun hit member => ?_
  rw [reads hit member]
  decide

/-- The reads in front of the last accesses do not count. -/
theorem writesIn_after {reads : List WatchHit} (silent : ∀ hit ∈ reads, hit.access = .read)
    (last : List WatchHit) : writesIn (reads ++ last) = writesIn last := by
  rw [writesIn_append, writesIn_reads silent, List.nil_append]

namespace StackPointer

/-- The stack is the page above page zero. -/
theorem toNat_address (s : StackPointer) : s.address.toNat = 0x100 + s.toNat := by
  rw [address, Address.toNat_ofBytes, Nat.add_comm]
  rfl

/-- The writes that push the bytes, from the stack pointer downwards. -/
def pushes (s : StackPointer) : List UInt8 → List WatchHit
  | [] => []
  | byte :: bytes => ⟨.write, s.address, byte⟩ :: pushes (s - 1) bytes

/-- The reads that pull the bytes, from the place above the stack pointer upwards. -/
def pulls (s : StackPointer) : List UInt8 → List WatchHit
  | [] => []
  | byte :: bytes => ⟨.read, StackPointer.address (s + 1), byte⟩ :: pulls (s + 1) bytes

/-- Pushes write to the stack only. -/
theorem address_of_pushes {s : StackPointer} {bytes : List UInt8} {hit : WatchHit}
    (member : hit ∈ s.pushes bytes) :
    hit.access = .write ∧ ∃ place : StackPointer, hit.address = place.address := by
  induction bytes generalizing s with
  | nil => cases member
  | cons byte bytes ih =>
      rcases List.mem_cons.mp member with rfl | rest
      · exact ⟨rfl, s, rfl⟩
      · exact ih rest

/-- Pulls read from the stack only. -/
theorem address_of_pulls {s : StackPointer} {bytes : List UInt8} {hit : WatchHit}
    (member : hit ∈ s.pulls bytes) :
    hit.access = .read ∧ ∃ place : StackPointer, hit.address = place.address := by
  induction bytes generalizing s with
  | nil => cases member
  | cons byte bytes ih =>
      rcases List.mem_cons.mp member with rfl | rest
      · exact ⟨rfl, _, rfl⟩
      · exact ih rest

/-- Neither a push nor a pull leaves page one. -/
theorem in_page_one {s : StackPointer} {bytes : List UInt8} {hit : WatchHit}
    (member : hit ∈ s.pushes bytes ++ s.pulls bytes) :
    0x100 ≤ hit.address.toNat ∧ hit.address.toNat < 0x200 := by
  obtain ⟨place, named⟩ : ∃ place : StackPointer, hit.address = place.address := by
    rcases List.mem_append.mp member with pushed | pulled
    · exact (address_of_pushes pushed).2
    · exact (address_of_pulls pulled).2
  have below := place.toNat_lt
  rw [named, toNat_address]
  omega

/-- Pushes are writes. -/
theorem writesIn_pushes (s : StackPointer) (bytes : List UInt8) :
    writesIn (s.pushes bytes) = s.pushes bytes := by
  refine List.filter_eq_self.mpr fun hit member => ?_
  rw [(address_of_pushes member).1]
  rfl

/-- Pulls write nothing. -/
theorem writesIn_pulls (s : StackPointer) (bytes : List UInt8) : writesIn (s.pulls bytes) = [] :=
  writesIn_reads fun _ member => (address_of_pulls member).1

end StackPointer

variable {registers after : Registers} {accesses : List WatchHit}

/-- An address is pushed high byte first. -/
theorem pushAddress_of_yields {address : Address}
    (yields : (pushAddress address registers).Yields accesses after) :
    accesses = registers.s.pushes [address.hi, address.lo] ∧
      after = { registers with s := registers.s - 2 } := by
  obtain ⟨_, rfl, _, rfl, rfl, rfl⟩ := yields
  refine ⟨rfl, congrArg (fun s => { registers with s }) ?_⟩
  change registers.s - 1 - 1 = registers.s - 2
  grind

/-- A pull reads the byte above the stack pointer. -/
theorem pull_of_yields {value : UInt8}
    (yields : (pull registers).Yields accesses (value, after)) :
    accesses = registers.s.pulls [value] ∧ after = { registers with s := registers.s + 1 } := by
  obtain ⟨_, _, rfl, rfl, same⟩ := yields
  cases same
  exact ⟨rfl, rfl⟩

/-- An address is pulled low byte first. -/
theorem pullAddress_of_yields {address : Address}
    (yields : (pullAddress registers).Yields accesses (address, after)) :
    ∃ low high, accesses = registers.s.pulls [low, high] ∧ address = .ofBytes low high ∧
      after = { registers with s := registers.s + 2 } := by
  obtain ⟨low, _, rfl, high, _, rfl, rfl, same⟩ := yields
  cases same
  refine ⟨low, high, rfl, rfl, congrArg (fun s => { registers with s }) ?_⟩
  change registers.s + 1 + 1 = registers.s + 2
  grind

namespace Interrupt

/-- What the entry into a handler saves. -/
def saved (interrupt : Interrupt) (registers : Registers) : List UInt8 :=
  [registers.pc.hi, registers.pc.lo, registers.p.pushed interrupt.pushesBreakMark]

/-- The reads of a vector, which follow what is pushed. -/
def vectorReads (interrupt : Interrupt) (low high : UInt8) : List WatchHit :=
  [⟨.read, interrupt.vector, low⟩, ⟨.read, Address.next interrupt.vector, high⟩]

theorem writesIn_vectorReads (interrupt : Interrupt) (low high : UInt8) :
    writesIn (interrupt.vectorReads low high) = [] := rfl

/-- The registers in the handler, which starts at the address. -/
def handled (registers : Registers) (handler : Address) : Registers :=
  { registers with
    s := registers.s - 3
    p := registers.p.set .interruptDisable true
    pc := handler }

/-- A reset reads its vector and pushes nothing. -/
theorem reset_of_yields (yields : (reset.enter registers).Yields accesses after) :
    ∃ low high, accesses = reset.vectorReads low high ∧
      after = { registers.powerUp with pc := .ofBytes low high } := by
  obtain ⟨low, _, rfl, high, _, rfl, rfl, rfl⟩ := yields
  exact ⟨low, high, rfl, rfl⟩

/-- Any other entry pushes what is saved and then reads its vector. -/
theorem handler_of_yields {interrupt : Interrupt} (handler : interrupt ≠ .reset)
    (yields : (interrupt.enter registers).Yields accesses after) :
    ∃ low high,
      accesses = registers.s.pushes (interrupt.saved registers) ++ interrupt.vectorReads low high ∧
        after = handled registers (.ofBytes low high) := by
  rw [enter, if_neg handler] at yields
  obtain ⟨_, rfl, _, rfl, _, rfl, low, _, rfl, high, _, rfl, rfl, rfl⟩ := yields
  refine ⟨low, high, rfl, ?_⟩
  rw [handled]
  congr 1
  change registers.s - 1 - 1 - 1 = registers.s - 3
  grind

end Interrupt

end EightBit
