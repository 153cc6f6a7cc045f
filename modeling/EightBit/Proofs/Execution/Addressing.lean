import EightBit.Proofs.Execution.Performed
import EightBit.Proofs.Transaction.Answers

/-
Where the modes find their operands, in plain numbers. Four rules say where addresses wrap: a byte
in page zero, a pointer in its page, an indexed address and the program counter at the top of
memory.
-/

namespace EightBit

open Transaction

namespace Address

/-- After the top of memory comes the bottom. -/
theorem toNat_next (address : Address) : address.next.toNat = (address.toNat + 1) % 65536 :=
  UInt16.toNat_add address 1

/-- The high byte of an address counts pages. -/
@[simp] theorem toNat_ofBytes (low high : UInt8) :
    (ofBytes low high).toNat = low.toNat + 256 * high.toNat := by
  have lowByte := low.toNat_lt
  have highByte := high.toNat_lt
  rw [ofBytes, UInt16.toNat_ofNat_of_lt']
  · omega
  · change _ < 65536
    omega

/-- An address in page zero is its offset. -/
@[simp] theorem toNat_zeroPage (offset : UInt8) : (zeroPage offset).toNat = offset.toNat := by
  rw [zeroPage, toNat_ofBytes]
  rfl

/-- The high byte of an address is its page. -/
theorem toNat_hi (address : Address) : address.hi.toNat = address.toNat / 256 := by
  have below := address.toNat_lt
  rw [hi, UInt8.toNat_ofNat_of_lt']
  change _ < 256
  omega

/-- The page stays, and the offset in it wraps. -/
theorem toNat_nextInPage (low high : UInt8) :
    (ofBytes low high).nextInPage.toNat = (low.toNat + 1) % 256 + 256 * high.toNat := by
  rw [nextInPage, lo_ofBytes, hi_ofBytes, toNat_ofBytes, UInt8.toNat_add]
  rfl

/-- An address advances around the top of memory. -/
theorem toNat_advance (address : Address) (distance : UInt8) :
    (address.advance distance).toNat = (address.toNat + distance.toNat) % 65536 := by
  rw [advance, UInt16.toNat_add, UInt8.toNat_toUInt16]

/-- An address is displaced around either end of memory. -/
theorem toNat_displace (address : Address) (distance : Int8) :
    ((address.displace distance).toNat : Int) = (address.toNat + distance.toInt) % 65536 := by
  have above := Int.emod_nonneg (address.toNat + distance.toInt) (show (65536 : Int) ≠ 0 by decide)
  have below := Int.emod_lt_of_pos (address.toNat + distance.toInt)
    (show (0 : Int) < 65536 by decide)
  rw [displace, UInt16.ofInt]
  change ((UInt16.ofNat ((address.toNat + distance.toInt) % 65536).toNat).toNat : Int) = _
  rw [UInt16.toNat_ofNat_of_lt', Int.toNat_of_nonneg above]
  change _ < 65536
  omega

/-- A displacement is a byte in two's complement. -/
theorem toInt_toInt8 (byte : UInt8) : byte.toInt8.toInt = Int.bmod byte.toNat 256 :=
  BitVec.toInt_eq_toNat_bmod byte.toBitVec

/-- Addresses are in one page if their pages have one number. -/
theorem samePage_eq (first second : Address) :
    first.samePage second = decide (first.toNat / 256 = second.toNat / 256) := by
  rw [samePage, ← toNat_hi, ← toNat_hi, Bool.eq_iff_iff, beq_iff_eq, decide_eq_true_iff,
    UInt8.toNat_inj]

end Address

/-- An index or a displacement leads into another page. -/
def Mode.crosses (base place : Nat) : Bool := decide (base / 256 ≠ place / 256)

namespace Location

/-- Where the operand lies, if it lies in memory. -/
def place? (location : Location) : Option Nat := location.operand.address?.map UInt16.toNat

theorem place_direct (address : Address) : (direct address).place? = some address.toNat := rfl

theorem place_indexed (base address : Address) :
    (indexed base address).place? = some address.toNat := rfl

/-- An indexed address crosses a page if the base is in another one. -/
theorem pageCrossed_indexed (base address : Address) :
    (indexed base address).pageCrossed = Mode.crosses base.toNat address.toNat := by
  rw [indexed, Address.samePage_eq, Mode.crosses, decide_not]

end Location

/-- The address and the byte of an access. -/
def WatchHit.numbers (hit : WatchHit) : Nat × Nat := (hit.address.toNat, hit.value.toNat)

namespace Mode

/-- The rules of the modes. With the program counter just past the opcode and the index registers
`x` and `y`, the bytes are read at the addresses in the list, and the operand lies at the place, if
the mode has one. A word is its low byte plus 256 times its high byte. -/
inductive Rule (pc x y : Nat) : Mode → List (Nat × Nat) → Option Nat → Bool → Prop
  | accumulator : Rule pc x y accumulator [] none false
  | implied : Rule pc x y implied [] none false
  | immediate : Rule pc x y immediate [] (some pc) false
  | zeroPage (offset : Nat) : Rule pc x y zeroPage [(pc, offset)] (some offset) false
  | zeroPageX (offset : Nat) :
      Rule pc x y zeroPageX [(pc, offset)] (some ((offset + x) % 256)) false
  | zeroPageY (offset : Nat) :
      Rule pc x y zeroPageY [(pc, offset)] (some ((offset + y) % 256)) false
  /-- The displacement has a sign, and is counted from the byte after it. -/
  | relative (displacement target : Nat)
      (reach : (target : Int) = ((pc + 1) % 65536 + Int.bmod displacement 256) % 65536) :
      Rule pc x y relative [(pc, displacement)] (some target) (crosses ((pc + 1) % 65536) target)
  | absolute (low high : Nat) :
      Rule pc x y absolute [(pc, low), ((pc + 1) % 65536, high)] (some (low + 256 * high)) false
  | absoluteX (low high : Nat) :
      Rule pc x y absoluteX [(pc, low), ((pc + 1) % 65536, high)]
        (some ((low + 256 * high + x) % 65536))
        (crosses (low + 256 * high) ((low + 256 * high + x) % 65536))
  | absoluteY (low high : Nat) :
      Rule pc x y absoluteY [(pc, low), ((pc + 1) % 65536, high)]
        (some ((low + 256 * high + y) % 65536))
        (crosses (low + 256 * high) ((low + 256 * high + y) % 65536))
  /-- Both bytes of the address come from one page. -/
  | indirect (low high first second : Nat) :
      Rule pc x y indirect
        [(pc, low), ((pc + 1) % 65536, high), (low + 256 * high, first),
          ((low + 1) % 256 + 256 * high, second)]
        (some (first + 256 * second)) false
  | indexedIndirect (offset low high : Nat) :
      Rule pc x y indexedIndirect
        [(pc, offset), ((offset + x) % 256, low), ((offset + x + 1) % 256, high)]
        (some (low + 256 * high)) false
  | indirectIndexed (offset low high : Nat) :
      Rule pc x y indirectIndexed [(pc, offset), (offset, low), ((offset + 1) % 256, high)]
        (some ((low + 256 * high + y) % 65536))
        (crosses (low + 256 * high) ((low + 256 * high + y) % 65536))

/-- The operand is found by the rule of its mode: the accesses are reads, and of the registers only
the program counter changes, which moves past the operand bytes. -/
structure Located (mode : Mode) (registers : Registers) (accesses : List WatchHit)
    (location : Location) (found : Registers) : Prop where
  rule : mode.Rule registers.pc.toNat registers.x.toNat registers.y.toNat
    (accesses.map WatchHit.numbers) location.place? location.pageCrossed
  onlyReads : ∀ hit ∈ accesses, hit.access = .read
  onlyPc : found = { registers with pc := found.pc }
  advance : found.pc.toNat = (registers.pc.toNat + mode.operandSize) % 65536

open Location

variable {mode : Mode} {registers : Registers} {reads : List WatchHit} {location : Location}

/-- A mode finds its operand by reads alone. -/
theorem Finds.onlyReads (found : mode.Finds registers reads location) :
    ∀ hit ∈ reads, hit.access = .read := by
  cases found <;> simp

/-- What a mode finds, it finds by the rule in numbers. -/
theorem Finds.rule (found : mode.Finds registers reads location) :
    mode.Rule registers.pc.toNat registers.x.toNat registers.y.toNat
      (reads.map WatchHit.numbers) location.place? location.pageCrossed := by
  cases found with
  | accumulator => exact .accumulator
  | implied => exact .implied
  | immediate => exact .immediate
  | zeroPage offset =>
      rw [place_direct, Address.toNat_zeroPage]
      exact .zeroPage _
  | zeroPageX offset =>
      rw [place_direct, Address.toNat_zeroPage, UInt8.toNat_add]
      exact .zeroPageX _
  | zeroPageY offset =>
      rw [place_direct, Address.toNat_zeroPage, UInt8.toNat_add]
      exact .zeroPageY _
  | relative displacement =>
      have reach := registers.pc.next.toNat_displace displacement.toInt8
      rw [Address.toNat_next, Address.toInt_toInt8] at reach
      rw [place_indexed, pageCrossed_indexed, Address.toNat_next]
      exact .relative _ _ reach
  | absolute low high =>
      simp only [List.map_cons, List.map_nil, WatchHit.numbers, place_direct, Address.toNat_next,
        Address.toNat_ofBytes]
      exact .absolute _ _
  | absoluteX low high =>
      simp only [List.map_cons, List.map_nil, WatchHit.numbers, place_indexed, pageCrossed_indexed,
        Address.toNat_next, Address.toNat_ofBytes, Address.toNat_advance]
      exact .absoluteX _ _
  | absoluteY low high =>
      simp only [List.map_cons, List.map_nil, WatchHit.numbers, place_indexed, pageCrossed_indexed,
        Address.toNat_next, Address.toNat_ofBytes, Address.toNat_advance]
      exact .absoluteY _ _
  | indirect low high first second =>
      simp only [List.map_cons, List.map_nil, WatchHit.numbers, place_direct, Address.toNat_next,
        Address.toNat_nextInPage, Address.toNat_ofBytes]
      exact .indirect _ _ _ _
  | indexedIndirect offset low high =>
      simp only [List.map_cons, List.map_nil, WatchHit.numbers, place_direct, Address.toNat_ofBytes,
        Address.toNat_zeroPage, UInt8.toNat_add, Nat.mod_add_mod]
      exact .indexedIndirect _ _ _
  | indirectIndexed offset low high =>
      simp only [List.map_cons, List.map_nil, WatchHit.numbers, place_indexed, pageCrossed_indexed,
        Address.toNat_ofBytes, Address.toNat_zeroPage, Address.toNat_advance, UInt8.toNat_add]
      exact .indirectIndexed _ _ _

/-- The program counter goes past the operand bytes, around the top of memory. -/
theorem pass_advance (mode : Mode) (registers : Registers) :
    (mode.pass registers).pc.toNat = (registers.pc.toNat + mode.operandSize) % 65536 := by
  rw [pass, UInt16.toNat_add, UInt16.toNat_ofNat_of_lt']
  cases mode <;> decide

/-- What a mode finds has the program counter past the operand bytes. -/
theorem Finds.located (found : mode.Finds registers reads location) :
    mode.Located registers reads location (mode.pass registers) :=
  ⟨found.rule, found.onlyReads, rfl, mode.pass_advance registers⟩

end Mode

/-- Whatever the registers hold and whatever the memory answers, a mode finds its operand by its
rule, and it always finds one in a memory that answers. -/
theorem modes_locate_by_rule {M : Type} [Memory M] (mode : Mode) (registers : Registers)
    (memory : M) :
    (∀ location found later, (mode.locate registers).run memory = .ok ((location, found), later) →
      mode.Located registers ((mode.locate registers).accesses memory) location found) ∧
    ∀ answering : M → Prop, Memory.Answers answering → answering memory →
      ∃ location found later,
        (mode.locate registers).run memory = .ok ((location, found), later) ∧ answering later := by
  constructor
  · intro location found later served
    obtain ⟨finds, rfl⟩ := Mode.finds_of_yields (yields_of_run served)
    exact finds.located
  · intro answering answers ready
    obtain ⟨⟨location, found⟩, later, served, still⟩ :=
      run_answered answers (mode.locate registers) ready
    exact ⟨location, found, later, served, still⟩

/-- The operand bytes lie at the two ends of memory and form a pointer to the last byte of page
zero, so that the second byte of the address is read at the start of this page. -/
theorem modes_locate_by_rule_at_edges :
    ∃ found later,
      (Mode.indirect.locate { Registers.initial with pc := 0xffff }).run (Ticker.mk 0xff) =
          .ok ((.direct 0x0201, found), later) ∧
        found.pc = 1 ∧
        Mode.indirect.Located { Registers.initial with pc := 0xffff }
          [⟨.read, 0xffff, 0xff⟩, ⟨.read, 0x0000, 0x00⟩, ⟨.read, 0x00ff, 0x01⟩,
            ⟨.read, 0x0000, 0x02⟩] (.direct 0x0201) found ∧
        ∃ location found later,
          (Mode.relative.locate Registers.initial).run (Ticker.mk 0x80) =
            .ok ((location, found), later) := by
  have served : (Mode.indirect.locate { Registers.initial with pc := 0xffff }).run
      (Ticker.mk 0xff) = .ok ((.direct 0x0201, { Registers.initial with pc := 1 }), ⟨3⟩) := rfl
  obtain ⟨rule, _⟩ := modes_locate_by_rule .indirect { Registers.initial with pc := 0xffff }
    (Ticker.mk 0xff)
  obtain ⟨_, total⟩ := modes_locate_by_rule .relative Registers.initial (Ticker.mk 0x80)
  obtain ⟨location, found, later, answered, _⟩ := total _ Ticker.answers trivial
  exact ⟨_, _, served, rfl, rule _ _ _ served, location, found, later, answered⟩

end EightBit
