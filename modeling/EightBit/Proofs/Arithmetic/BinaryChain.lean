import EightBit.Proofs.Arithmetic.Chain

/-
Binary arithmetic on numbers of any length. Sum and difference are exact, and the overflow that the
most significant byte leaves tells whether the result fits the numbers with a sign.
-/

namespace EightBit

open Arithmetic Numeral

namespace Arithmetic

/-- The carry of a binary sum is the digit above the byte. -/
theorem add_digit (register value : UInt8) (carry : Bool) :
    (add register value carry).result.toNat + 256 * (add register value carry).carry.toNat =
      register.toNat + value.toNat + carry.toNat := by
  have left := register.toNat_lt
  have right := value.toNat_lt
  have one := carry.toNat_le
  have below : register.toNat + value.toNat + carry.toNat < 512 := by omega
  simp only [add, UInt8.toNat_ofNat']
  generalize register.toNat + value.toNat + carry.toNat = sum at below ⊢
  by_cases more : 256 ≤ sum
  · simp only [more, decide_true, Bool.toNat_true]
    omega
  · simp only [more, decide_false, Bool.toNat_false]
    omega

/-- The sign is wrong exactly if the sum of the bytes with a sign does not fit a byte. -/
theorem add_overflow (register value : UInt8) (carry : Bool) :
    (add register value carry).overflow = true ↔
      ¬Fits 1 (signed [register] + signed [value] + carry.toNat) := by
  have left := register.toNat_lt
  have right := value.toNat_lt
  have one := carry.toNat_le
  simp only [add, signsDisagree, isNegative, UInt8.toNat_ofNat', signed_singleton, Fits]
  generalize register.toNat = first at *
  generalize value.toNat = second at *
  generalize carry.toNat = bit at *
  split <;> split <;> simp [*] <;> omega

end Arithmetic

namespace Registers

variable {registers : Registers}

/-- Without the decimal flag the accumulator gets the binary sum. -/
theorem addToA_binary (binary : registers.p.decimal = false) (value : UInt8) :
    registers.addToA value = registers.keepSum (add registers.a value registers.p.carry) := by
  simp [addToA, binary]

/-- Out of decimal mode, subtracting is adding the complement. -/
theorem subtractFromA_binary (binary : registers.p.decimal = false) (value : UInt8) :
    registers.subtractFromA value = registers.addToA (~~~value) := by
  simp [subtractFromA, addToA, binary, subtract]

/-- Binary additions are exact: a carry out is worth one in the next byte. -/
theorem exact_add : Exact binary false 1 carried addToA where
  mode registers value := keepSum_decimal ..
  valid _ _ _ := trivial
  digit := by
    intro registers value mode _ _
    have digit := add_digit registers.a value registers.p.carry
    rw [addToA_binary mode]
    simp only [binary, carried, keepSum_a, keepSum_carry]
    omega

/-- Binary subtractions are exact: a missing carry is worth one borrow. -/
theorem exact_subtract : Exact binary false (-1) borrowed subtractFromA where
  mode registers value := keepSum_decimal ..
  valid _ _ _ := trivial
  digit := by
    intro registers value mode _ _
    have below := value.toNat_lt
    have digit := add_digit registers.a (~~~value) registers.p.carry
    rw [toNat_complement] at digit
    rw [subtractFromA_binary mode, addToA_binary mode]
    simp only [binary, borrowed, keepSum_a, keepSum_carry]
    omega

/-- Out of decimal mode a chain of subtractions adds the complement of each byte. -/
theorem chain_subtract_binary (mode : registers.p.decimal = false) (firsts seconds : List UInt8) :
    registers.chain subtractFromA firsts seconds =
      registers.chain addToA firsts (seconds.map (~~~·)) := by
  induction firsts generalizing registers seconds with
  | nil => rfl
  | cons first firsts ih =>
      cases seconds with
      | nil => rfl
      | cons second seconds =>
          have step := @subtractFromA_binary { registers with a := first } mode second
          have kept := (exact_add.mode { registers with a := first } (~~~second)).trans mode
          rw [List.map_cons, chain_cons, chain_cons, step, ih kept]

/-- Only the most significant pair leaves an overflow, and the bytes below it only matter through
their carry. -/
theorem chain_overflow (mode : registers.p.decimal = false) {firsts seconds : List UInt8}
    (same : firsts.length = seconds.length) (some : firsts ≠ []) :
    (registers.chain addToA firsts seconds).2.p.overflow = true ↔
      ¬Fits firsts.length (signed firsts + signed seconds + registers.p.carry.toNat) := by
  induction firsts generalizing registers seconds with
  | nil => exact absurd rfl some
  | cons first firsts ih =>
      obtain ⟨second, seconds, rfl⟩ := List.exists_cons_of_length_eq_add_one same.symm
      have rest := Nat.succ_inj.mp same
      have step := @addToA_binary { registers with a := first } mode second
      have kept := (exact_add.mode { registers with a := first } second).trans mode
      rw [chain_cons]
      by_cases more : firsts = []
      · subst more
        cases List.length_eq_zero_iff.mp rest.symm
        rw [chain_nil, step]
        exact add_overflow first second registers.p.carry
      · have others : seconds ≠ [] := by
          rintro rfl
          exact more (List.length_eq_zero_iff.mp rest)
        have lowest := add_digit first second registers.p.carry
        have digit := (add first second registers.p.carry).result.toNat_lt
        have whole : signed (first :: firsts) + signed (second :: seconds) +
            registers.p.carry.toNat =
              ((add first second registers.p.carry).result.toNat : Int) +
                256 * (signed firsts + signed seconds +
                  (add first second registers.p.carry).carry.toNat) := by
          rw [signed_cons first more, signed_cons second others]
          omega
        rw [ih kept rest more, step, keepSum_carry, whole, List.length_cons,
          fits_succ (List.length_pos_iff.mpr more) digit]

end Registers

/-- Out of decimal mode, chains are exact on the numbers to the base 256, and the overflow tells
whether the sum or the difference of the numbers with a sign fits so many bytes. -/
theorem binary_chains_are_exact {registers : Registers} (mode : registers.p.decimal = false)
    {firsts seconds : List UInt8} (same : firsts.length = seconds.length) (some : firsts ≠ []) :
    ExactChains binary registers firsts seconds ∧
      ((registers.chain Registers.addToA firsts seconds).2.p.overflow = true ↔
        ¬Fits firsts.length (signed firsts + signed seconds + registers.p.carry.toNat)) ∧
      ((registers.chain Registers.subtractFromA firsts seconds).2.p.overflow = true ↔
        ¬Fits firsts.length
          (signed firsts - signed seconds - (1 - registers.p.carry.toNat))) := by
  refine ⟨?_, Registers.chain_overflow mode same some, ?_⟩
  · have adds := Registers.exact_add
    have subtracts := Registers.exact_subtract
    rw [← mode] at adds subtracts
    exact exactChains adds subtracts same (written_binary firsts) (written_binary seconds)
  · have others : seconds ≠ [] := by
      rintro rfl
      exact some (List.length_eq_zero_iff.mp same)
    have complement : signed firsts + signed (seconds.map (~~~·)) + registers.p.carry.toNat =
        signed firsts - signed seconds - (1 - registers.p.carry.toNat) := by
      rw [signed_complement seconds others]
      omega
    rw [Registers.chain_subtract_binary mode, ← complement]
    exact Registers.chain_overflow mode (by rw [List.length_map, same]) some

/-- The smallest number of two bytes with a sign, less one, is the largest one. Nothing is borrowed,
but the difference does not fit. -/
theorem binary_chains_pass_smallest :
    (Registers.initial.setFlag .carry true).p.decimal = false ∧
      [0x00, 0x80] ≠ ([] : List UInt8) ∧
      signed [0x00, 0x80] = -32768 ∧
      ((Registers.initial.setFlag .carry true).chain Registers.subtractFromA [0x00, 0x80]
        [0x01, 0x00]).1 = [0xff, 0x7f] ∧
      ExactChains binary (Registers.initial.setFlag .carry true) [0x00, 0x80] [0x01, 0x00] ∧
      ¬Fits 2 (signed [0x00, 0x80] - signed [0x01, 0x00] - (1 - 1)) := by
  have mode : (Registers.initial.setFlag .carry true).p.decimal = false := rfl
  have length : [(0x00 : UInt8), 0x80].length = [(0x01 : UInt8), 0x00].length := rfl
  obtain ⟨exact, _, overflow⟩ := binary_chains_are_exact mode length nofun
  exact ⟨rfl, nofun, by decide, by decide, exact, overflow.mp (by decide)⟩

end EightBit
