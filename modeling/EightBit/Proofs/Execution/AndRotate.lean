import EightBit.Proofs.Execution.Flags
import EightBit.Proofs.Transaction.Answers

/-
The instruction that rotates a conjunction to the right. In decimal mode it corrects the halves of
the byte after it has set the flags, so zero and negative may tell of a byte that is not stored.
-/

namespace EightBit

open Transaction

namespace Arithmetic

/-- A byte that is rotated to the right through the carry, as a number. -/
def rotated (byte : Nat) (carry : Bool) : Nat := byte / 2 + 128 * carry.toNat

/-- Half a byte is moved on by six where it was at least five before the rotation. -/
def movedOn (before half : Nat) : Nat := if 5 ≤ before then (half + 6) % 16 else half

/-- The rotated byte with its halves moved on. -/
def rotatedDecimal (byte : Nat) (carry : Bool) : Nat :=
  movedOn (byte % 16) (rotated byte carry % 16) +
    16 * movedOn (byte / 16) (rotated byte carry / 16)

end Arithmetic

namespace Registers

open Arithmetic

/-- The rotation of a byte with nothing else in the registers than the carry and the mode. -/
def rotation (byte : UInt8) (carry decimal : Bool) : Registers :=
  { Registers.initial with a := byte, p := { Status.initial with decimal, carry } }.andRotate 0xff

/-- The accumulator and four flags come from another register file. -/
def takeRotation (registers result : Registers) : Registers :=
  { registers with
    a := result.a
    p := { registers.p with
      negative := result.p.negative
      overflow := result.p.overflow
      zero := result.p.zero
      carry := result.p.carry } }

/-- What is rotated is the conjunction, and nothing but the carry and the mode counts. -/
theorem andRotate_eq (registers : Registers) (value : UInt8) :
    registers.andRotate value = registers.takeRotation
      (rotation (registers.a &&& value) registers.p.carry registers.p.decimal) := by
  obtain ⟨a, x, y, ⟨n, v, u, b, d, i, z, c⟩, pc, s⟩ := registers
  have all : a &&& value &&& 0xff = a &&& value := UInt8.and_neg_one
  simp only [andRotate, rotation, all]
  cases d with
  | false => rfl
  | true => rfl

/-- What the rotation of a byte stores, and what it tells in the flags. -/
structure RotateLaw (byte : Nat) (carryIn decimal : Bool) (after : Registers) : Prop where
  stored : after.a.toNat = if decimal then rotatedDecimal byte carryIn else rotated byte carryIn
  negative : after.p.negative = carryIn
  zero : after.p.zero = decide (rotated byte carryIn = 0)
  carry : after.p.carry = decide ((if decimal then 0x50 else 0x80) ≤ byte)
  overflow : after.p.overflow = (byte.testBit 7 != byte.testBit 6)
  tellsSign : after.p.negative = after.a.toNat.testBit 7 ↔ decimal = false ∨ byte < 0x50
  tellsZero : after.p.zero = (after.a == 0) ↔ decimal = false ∨
    ¬(byte = 0x15 ∧ carryIn = false) ∧ ¬(byte = 0x55 ∧ carryIn = true)

namespace RotateLaw

variable {byte : Nat} {carryIn decimal : Bool} {after : Registers}

/-- Both flags tell of the stored byte unless the high half is moved on, or the low half is moved on
to zero. -/
theorem describes_iff (law : RotateLaw byte carryIn decimal after) :
    after.p.Describes after.a ↔
      decimal = false ∨ byte < 0x50 ∧ ¬(byte = 0x15 ∧ carryIn = false) := by
  have both : after.p.Describes after.a ↔
      after.p.zero = (after.a == 0) ∧ after.p.negative = after.a.toNat.testBit 7 :=
    ⟨fun describes => ⟨describes.zero, describes.negative⟩, fun told => ⟨told.1, told.2⟩⟩
  rw [both, law.tellsZero, law.tellsSign]
  cases decimal with
  | false => simp
  | true =>
      simp only [Bool.true_eq_false, false_or]
      constructor
      · rintro ⟨⟨low, _⟩, below⟩
        exact ⟨below, low⟩
      · rintro ⟨below, low⟩
        exact ⟨⟨low, fun high => by omega⟩, below⟩

end RotateLaw

/-- The rotation of a byte obeys the law, in either mode. -/
theorem rotation_law (byte : UInt8) (carry decimal : Bool) :
    RotateLaw byte.toNat carry decimal (rotation byte carry decimal) := by
  have stored : ∀ (index : Fin 256) (carry decimal : Bool),
      (rotation (.ofFin index) carry decimal).a.toNat =
        if decimal then rotatedDecimal index carry else rotated index carry := by
    decide +kernel
  have negative : ∀ (index : Fin 256) (carry decimal : Bool),
      (rotation (.ofFin index) carry decimal).p.negative = carry := by
    decide +kernel
  have zero : ∀ (index : Fin 256) (carry decimal : Bool),
      (rotation (.ofFin index) carry decimal).p.zero = decide (rotated index carry = 0) := by
    decide +kernel
  have carries : ∀ (index : Fin 256) (carry decimal : Bool),
      (rotation (.ofFin index) carry decimal).p.carry =
        decide ((if decimal then 0x50 else 0x80) ≤ index.val) := by
    decide +kernel
  have overflow : ∀ (index : Fin 256) (carry decimal : Bool),
      (rotation (.ofFin index) carry decimal).p.overflow =
        (index.val.testBit 7 != index.val.testBit 6) := by
    decide +kernel
  have tellsSign : ∀ (index : Fin 256) (carry decimal : Bool),
      carry = (rotation (.ofFin index) carry decimal).a.toNat.testBit 7 ↔
        decimal = false ∨ index.val < 0x50 := by
    decide +kernel
  have tellsZero : ∀ (index : Fin 256) (carry decimal : Bool),
      (rotation (.ofFin index) carry decimal).p.zero =
          ((rotation (.ofFin index) carry decimal).a == 0) ↔
        decimal = false ∨
          ¬(index.val = 0x15 ∧ carry = false) ∧ ¬(index.val = 0x55 ∧ carry = true) := by
    decide +kernel
  have told := negative byte.toFin carry decimal
  exact ⟨stored byte.toFin carry decimal, told, zero byte.toFin carry decimal,
    carries byte.toFin carry decimal, overflow byte.toFin carry decimal,
    told.symm ▸ tellsSign byte.toFin carry decimal, tellsZero byte.toFin carry decimal⟩

/-- The instruction obeys the law on the accumulator and its operand. -/
theorem andRotate_law (registers : Registers) (value : UInt8) :
    RotateLaw (registers.a &&& value).toNat registers.p.carry registers.p.decimal
      (registers.andRotate value) := by
  have law := rotation_law (registers.a &&& value) registers.p.carry registers.p.decimal
  rw [andRotate_eq]
  exact ⟨law.stored, law.negative, law.zero, law.carry, law.overflow, law.tellsSign, law.tellsZero⟩

end Registers

namespace Instruction

/-- With the registers behind the opcode: one byte is read, its conjunction with the accumulator is
rotated, and besides the accumulator only four flags change. -/
structure AndRotateLaw (registers : Registers) (accesses : List WatchHit) (after : Registers) :
    Prop where
  rotates : ∃ value, accesses = [⟨.read, registers.pc, value⟩] ∧
    Registers.RotateLaw (registers.a &&& value).toNat registers.p.carry registers.p.decimal after ∧
    (after.p.Describes after.a ↔ registers.p.decimal = false ∨
      (registers.a &&& value).toNat < 0x50 ∧
        ¬((registers.a &&& value).toNat = 0x15 ∧ registers.p.carry = false))
  others : after = { registers with pc := registers.pc.next }.takeRotation after

/-- The instruction does what the law says, at no further cost. -/
theorem AndRotateLaw.of_performed {registers after : Registers} {accesses : List WatchHit}
    {extra : Nat}
    (performed : Operation.Performed .immediate registers (.consume Registers.andRotate) accesses
      after extra) :
    extra = 0 ∧ AndRotateLaw registers accesses after := by
  cases performed with
  | @consume _ _ _ _ value found read =>
      cases found with
      | immediate =>
          obtain ⟨_, _, rfl, rfl, rfl⟩ := read
          rw [Mode.pass_next rfl]
          have law := Registers.andRotate_law { registers with pc := registers.pc.next } value
          refine ⟨rfl, ⟨value, rfl, law, law.describes_iff⟩, ?_⟩
          rw [Registers.andRotate_eq]
          rfl

/-- In binary mode zero and negative tell of the stored byte, whatever it is. In decimal mode they
do not where the high half of the conjunction is five or more, and in one more case. -/
theorem and_rotate_tells {M : Type} [Memory M] (registers : Registers) (memory : M) :
    (∀ after spent later,
      ((ofOpcode 0x6b).execute registers).run memory = .ok ((after, spent), later) →
        AndRotateLaw { registers with pc := registers.pc.next }
            (((ofOpcode 0x6b).execute registers).accesses memory) after ∧
          spent = 2) ∧
    ∀ answering : M → Prop, Memory.Answers answering → answering memory →
      ∃ after spent later,
        ((ofOpcode 0x6b).execute registers).run memory = .ok ((after, spent), later) := by
  constructor
  · intro after spent later executed
    obtain ⟨extra, rfl, performed⟩ := performed_of_yields (yields_of_run executed)
    obtain ⟨rfl, law⟩ := AndRotateLaw.of_performed performed
    exact ⟨law, rfl⟩
  · intro answering answers ready
    exact execute_answered answers _ registers ready

/-- A byte in the accumulator, in decimal mode and with the carry clear. -/
def inDecimal (byte : UInt8) : Registers :=
  { Registers.initial with a := byte, p := { Status.initial with decimal := true } }

/-- In decimal mode the instruction runs to its end over a memory of equal bytes. -/
theorem run_and_rotate (byte : UInt8) :
    ((ofOpcode 0x6b).execute (inDecimal byte)).run (FlatMemory.filled 0xff) =
      .ok (({ inDecimal byte with pc := 2 }.andRotate 0xff, 2), FlatMemory.filled 0xff) := by
  refine (FlatMemory.run_read _ _ _).trans ?_
  rw [FlatMemory.get_filled]
  rfl

/-- Of `$2B` only the low half is moved on, and the flags tell of the byte that is stored. -/
theorem and_rotate_tells_low_half :
    ∃ after later,
      ((ofOpcode 0x6b).execute (inDecimal 0x2b)).run (FlatMemory.filled 0xff) =
          .ok ((after, 2), later) ∧
        after.a = 0x1b ∧ after.p.Describes after.a ∧
        AndRotateLaw { inDecimal 0x2b with pc := (inDecimal 0x2b).pc.next }
          (((ofOpcode 0x6b).execute (inDecimal 0x2b)).accesses (FlatMemory.filled 0xff)) after ∧
        ∃ outcome, ((ofOpcode 0x6b).execute (inDecimal 0x2b)).run (Ticker.mk 0) = .ok outcome := by
  obtain ⟨law, _⟩ := and_rotate_tells (inDecimal 0x2b) (FlatMemory.filled 0xff)
  obtain ⟨_, total⟩ := and_rotate_tells (inDecimal 0x2b) (Ticker.mk 0)
  obtain ⟨after, spent, later, served⟩ := total _ Ticker.answers trivial
  exact ⟨_, _, run_and_rotate 0x2b, by decide, ⟨by decide, by decide⟩,
    (law _ _ _ (run_and_rotate 0x2b)).1, _, served⟩

/-- Of `$15` the low half is moved on to zero, and zero is not set. Of `$50` the high half is moved
on past the sign, and negative is not set. -/
theorem and_rotate_tells_otherwise :
    (∃ after later,
      ((ofOpcode 0x6b).execute (inDecimal 0x15)).run (FlatMemory.filled 0xff) =
          .ok ((after, 2), later) ∧
        after.a = 0 ∧ after.p.zero = false) ∧
    ∃ after later,
      ((ofOpcode 0x6b).execute (inDecimal 0x50)).run (FlatMemory.filled 0xff) =
          .ok ((after, 2), later) ∧
        after.a.toNat.testBit 7 = true ∧ after.p.negative = false :=
  ⟨⟨_, _, run_and_rotate 0x15, by decide, by decide⟩,
    _, _, run_and_rotate 0x50, by decide, by decide⟩

end Instruction

end EightBit
