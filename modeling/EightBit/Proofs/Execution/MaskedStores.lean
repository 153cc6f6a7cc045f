import EightBit.Proofs.Execution.Stores

/-
The stores that mask their byte. The mask is the high byte of the base address plus one, wherever
the index leads; where it leads into another page, the byte that is stored also takes the place of
the high byte of the address.
-/

namespace EightBit

open Transaction

namespace Address

/-- The low byte of an address is its place in the page. -/
theorem toNat_lo (address : Address) : address.lo.toNat = address.toNat % 256 :=
  UInt8.toNat_ofNat_of_lt' (Nat.mod_lt _ (by decide))

/-- An index leads at most into the next page, and from the last page into the first one. -/
theorem page_advance (base : Address) (index : UInt8)
    (crosses : (base.advance index).toNat / 256 ≠ base.toNat / 256) :
    (base.advance index).toNat / 256 = (base.toNat / 256 + 1) % 256 := by
  have place := base.toNat_advance index
  have below := base.toNat_lt
  have small := index.toNat_lt
  omega

end Address

namespace Mode

/-- The rules of the modes that add an index to a base of two bytes. With the program counter just
past the opcode and the index registers `x` and `y`, the bytes are read at the addresses in the list
and spell the base. -/
inductive Based (pc x y : Nat) : Mode → List (Nat × Nat) → (base index : Nat) → Prop
  | absoluteX (low high : Nat) :
      Based pc x y absoluteX [(pc, low), ((pc + 1) % 65536, high)] (low + 256 * high) x
  | absoluteY (low high : Nat) :
      Based pc x y absoluteY [(pc, low), ((pc + 1) % 65536, high)] (low + 256 * high) y
  | indirectIndexed (offset low high : Nat) :
      Based pc x y indirectIndexed [(pc, offset), (offset, low), ((offset + 1) % 256, high)]
        (low + 256 * high) y

/-- An indexed operand is found from its base. -/
theorem Finds.based {mode : Mode} {registers : Registers} {reads : List WatchHit}
    {location : Location} (found : mode.Finds registers reads location)
    (indexes : mode ∈ Mode.indexed) :
    ∃ (base : Address) (index : UInt8), location = .indexed base (base.advance index) ∧
      mode.Based registers.pc.toNat registers.x.toNat registers.y.toNat
        (reads.map WatchHit.numbers) base.toNat index.toNat := by
  cases found with
  | absoluteX low high =>
      refine ⟨_, _, rfl, ?_⟩
      simp only [List.map_cons, List.map_nil, WatchHit.numbers, Address.toNat_next,
        Address.toNat_ofBytes]
      exact .absoluteX _ _
  | absoluteY low high =>
      refine ⟨_, _, rfl, ?_⟩
      simp only [List.map_cons, List.map_nil, WatchHit.numbers, Address.toNat_next,
        Address.toNat_ofBytes]
      exact .absoluteY _ _
  | indirectIndexed offset low high =>
      refine ⟨_, _, rfl, ?_⟩
      simp only [List.map_cons, List.map_nil, WatchHit.numbers, Address.toNat_ofBytes,
        Address.toNat_zeroPage, UInt8.toNat_add]
      exact .indirectIndexed _ _ _
  | _ => exact absurd indexes (by decide)

end Mode

namespace Operation

/-- Where a masked store with this base and this index goes, and the byte that it stores. -/
structure Masks (value base index place stored : Nat) : Prop where
  byte : stored = value &&& ((base / 256 + 1) % 256)
  inPage : (base + index) % 65536 / 256 = base / 256 → place = (base + index) % 65536
  crossed : (base + index) % 65536 / 256 ≠ base / 256 →
    place = (base + index) % 256 + 256 * stored

/-- What is stored, and where, follows the law in numbers. -/
theorem maskedStore_masks (value : UInt8) (base : Address) (index : UInt8) :
    Masks value.toNat base.toNat index.toNat
      (maskedStore value (Location.indexed base (base.advance index)).pageCrossed
        (base.advance index)).1.toNat
      (maskedStore value (Location.indexed base (base.advance index)).pageCrossed
        (base.advance index)).2.toNat := by
  have place := base.toNat_advance index
  rw [maskedStore, Location.pageCrossed_indexed, Mode.crosses]
  by_cases same : (base.advance index).toNat / 256 = base.toNat / 256
  · rw [if_neg (by simpa using same.symm)]
    refine ⟨?_, fun _ => place, fun crosses => absurd (place ▸ same) crosses⟩
    rw [UInt8.toNat_and, UInt8.toNat_add, Address.toNat_hi, same]
    rfl
  · have page := base.page_advance index same
    rw [if_pos (by simpa using Ne.symm same)]
    dsimp only
    refine ⟨?_, fun inPage => absurd (place ▸ inPage) same, fun _ => ?_⟩
    · rw [UInt8.toNat_and, Address.toNat_hi, page]
    · rw [Address.toNat_ofBytes, Address.toNat_lo, place]
      omega

end Operation

namespace Instruction

/-- What a masked store does, with its accesses after the one to the opcode: it writes once, after
the reads that find the base, and only the one that goes through the stack pointer changes a
register besides the program counter. -/
structure MaskLaw (instruction : Instruction) (registers : Registers)
    (accesses : List WatchHit) (after : Registers) : Prop where
  writes : ∃ reads base index place stored,
    instruction.mode.Based registers.pc.toNat registers.x.toNat registers.y.toNat
        (reads.map WatchHit.numbers) base index ∧
      (∀ hit ∈ reads, hit.access = .read) ∧
      accesses = reads ++ [⟨.write, place, stored⟩] ∧
      Operation.Masks (instruction.mnemonic.source registers).toNat base index place.toNat
        stored.toNat
  flags : after.p = registers.p
  a : after.a = registers.a
  x : after.x = registers.x
  y : after.y = registers.y
  s : after.s =
    if instruction.mnemonic = .tas then registers.a &&& registers.x else registers.s

/-- Masked stores have indexed modes only. -/
theorem ofOpcode_masks {opcode : UInt8}
    (masks : (ofOpcode opcode).mnemonic ∈ Mnemonic.maskedStores) :
    (ofOpcode opcode).mode ∈ Mode.indexed := by
  revert masks
  exact ofOpcode_forall (fun instruction =>
    instruction.mnemonic ∈ Mnemonic.maskedStores → instruction.mode ∈ Mode.indexed)
    (by decide) opcode

/-- What was performed obeys the law of masked stores, at no further cost. -/
theorem MaskLaw.of_performed {instruction : Instruction} {registers after : Registers}
    {accesses : List WatchHit} {extra : Nat}
    (masks : instruction.mnemonic ∈ Mnemonic.maskedStores)
    (indexes : instruction.mode ∈ Mode.indexed)
    (performed : Operation.Performed instruction.mode registers instruction.mnemonic.operation
      accesses after extra) :
    extra = 0 ∧ instruction.MaskLaw registers accesses after := by
  obtain ⟨keep, operation, keeps⟩ := Mnemonic.operation_maskedStores masks
  rw [operation] at performed
  cases performed with
  | storeMasked found operand =>
      obtain ⟨base, index, rfl, based⟩ := found.based indexes
      cases operand
      rw [keeps]
      refine ⟨rfl, ⟨_, _, _, _, _, based, found.onlyReads, rfl, ?_⟩, rfl, rfl, rfl, rfl, rfl⟩
      exact Operation.maskedStore_masks _ base index
  | storeNowhere found operand =>
      obtain ⟨base, index, rfl, _⟩ := found.based indexes
      cases operand

/-- Whatever the registers hold and whatever the memory answers, a masked store writes one byte at
one place and costs the same in every page. In a memory that answers it always comes to its end. -/
theorem masked_stores_write_once {M : Type} [Memory M] {opcode : UInt8}
    (masks : (ofOpcode opcode).mnemonic ∈ Mnemonic.maskedStores) (registers : Registers)
    (memory : M) :
    (∀ after spent later,
      ((ofOpcode opcode).execute registers).run memory = .ok ((after, spent), later) →
        (ofOpcode opcode).MaskLaw { registers with pc := registers.pc.next }
            (((ofOpcode opcode).execute registers).accesses memory) after ∧
          spent = (ofOpcode opcode).cycles) ∧
    ∀ answering : M → Prop, Memory.Answers answering → answering memory →
      ∃ after spent later,
        ((ofOpcode opcode).execute registers).run memory = .ok ((after, spent), later) := by
  constructor
  · intro after spent later executed
    obtain ⟨extra, rfl, performed⟩ := performed_of_yields (yields_of_run executed)
    obtain ⟨rfl, law⟩ := MaskLaw.of_performed masks (ofOpcode_masks masks) performed
    exact ⟨law, rfl⟩
  · intro answering answers ready
    exact execute_answered answers _ registers ready

/-- An accumulator and two index registers that share some bits. -/
def sharing : Registers := { Registers.initial with a := 0x3f, x := 0xcf, y := 0x20 }

/-- From `$F1F0` the index leads into the page of `$F210`. The byte that both registers share is
masked by `$F2`, and what is left names the page that is written. -/
theorem masked_stores_write_once_crossed :
    ∃ after later,
      ((ofOpcode 0x9b).execute sharing).run (Ticker.mk 0xf0) = .ok ((after, 5), later) ∧
        after.s = 0x0f ∧
        ((ofOpcode 0x9b).execute sharing).accesses (Ticker.mk 0xf0) =
          [⟨.read, 0x0001, 0xf0⟩, ⟨.read, 0x0002, 0xf1⟩, ⟨.write, 0x0210, 0x02⟩] ∧
        (ofOpcode 0x9b).MaskLaw { sharing with pc := sharing.pc.next }
          (((ofOpcode 0x9b).execute sharing).accesses (Ticker.mk 0xf0)) after ∧
        ∃ outcome, ((ofOpcode 0x9c).execute sharing).run (Ticker.mk 0xf0) = .ok outcome := by
  have executed : ((ofOpcode 0x9b).execute sharing).run (Ticker.mk 0xf0) =
    .ok (({ sharing with pc := 3, s := 0x0f }, 5), Ticker.mk 0xf2) := rfl
  have through : (ofOpcode 0x9b).mnemonic ∈ Mnemonic.maskedStores := by decide
  have straight : (ofOpcode 0x9c).mnemonic ∈ Mnemonic.maskedStores := by decide
  obtain ⟨law, _⟩ := masked_stores_write_once through sharing (Ticker.mk 0xf0)
  obtain ⟨_, total⟩ := masked_stores_write_once straight sharing (Ticker.mk 0xf0)
  obtain ⟨after, spent, later, served⟩ := total _ Ticker.answers trivial
  exact ⟨_, _, executed, rfl, rfl, (law _ _ _ executed).1, _, served⟩

end Instruction

end EightBit
