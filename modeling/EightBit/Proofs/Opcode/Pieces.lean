import EightBit.Opcode.Listing
import EightBit.Proofs.Execution.Fetch

/-
Programs cut into instructions. The pieces of a program are whole instructions one after the other,
and the last one may be cut short by the end of the program. No other list of pieces is such a cut,
so a program that is split between two pieces has the pieces of both parts.
-/

namespace EightBit.Listing

/-- The pieces cut the program into instructions. -/
inductive Cuts : List UInt8 → List (List UInt8) → Prop
  | nil : Cuts [] []
  | whole {opcode : UInt8} {operand rest : List UInt8} {pieces : List (List UInt8)}
      (full : operand.length = (Instruction.ofOpcode opcode).mode.operandSize)
      (others : Cuts rest pieces) : Cuts (opcode :: operand ++ rest) ((opcode :: operand) :: pieces)
  | short {opcode : UInt8} {operand : List UInt8}
      (ends : operand.length < (Instruction.ofOpcode opcode).mode.operandSize) :
      Cuts (opcode :: operand) [opcode :: operand]

/-- The length of the instruction that a piece begins with, were it not cut short. -/
def wholeLength : List UInt8 → Nat
  | [] => 0
  | opcode :: _ => (Instruction.ofOpcode opcode).length

/-- An instruction has three bytes at most. -/
theorem wholeLength_le (piece : List UInt8) : wholeLength piece ≤ 3 := by
  cases piece with
  | nil => exact Nat.zero_le 3
  | cons opcode operand =>
      exact Instruction.ofOpcode_forall (fun instruction => instruction.length ≤ 3) (by decide)
        opcode

/-- The first piece is an opcode with as many operand bytes as are there. -/
theorem pieces_cons (opcode : UInt8) (rest : List UInt8) :
    pieces (opcode :: rest) =
      (opcode :: rest.take (Instruction.ofOpcode opcode).mode.operandSize) ::
        pieces (rest.drop (Instruction.ofOpcode opcode).mode.operandSize) := by
  rw [pieces]

/-- The pieces cut up the program by the rule. -/
theorem pieces_cuts (program : List UInt8) : Cuts program (pieces program) := by
  induction program using pieces.induct with
  | case1 =>
      rw [pieces]
      exact .nil
  | case2 opcode rest size ih =>
      rw [pieces_cons]
      by_cases enough : size ≤ rest.length
      · have cuts := Cuts.whole (List.length_take_of_le enough) ih
        rwa [List.cons_append, List.take_append_drop] at cuts
      · have few : rest.length < size := Nat.lt_of_not_le enough
        rw [List.take_of_length_le (Nat.le_of_lt few), List.drop_of_length_le (Nat.le_of_lt few),
          pieces]
        exact .short few

namespace Cuts

variable {program piece : List UInt8} {front after cut : List (List UInt8)}

/-- There is one way only to cut up a program by the rule. -/
theorem eq_pieces (cuts : Cuts program cut) : cut = pieces program := by
  induction cuts with
  | nil => rw [pieces]
  | @whole opcode operand rest cut full others ih =>
      rw [List.cons_append, pieces_cons, ← full, List.take_left, List.drop_left, ih]
  | @short opcode operand ends =>
      rw [pieces_cons, List.take_of_length_le (Nat.le_of_lt ends),
        List.drop_of_length_le (Nat.le_of_lt ends), pieces]

/-- Nothing is lost. -/
theorem flatten (cuts : Cuts program cut) : cut.flatten = program := by
  induction cuts with
  | nil => rfl
  | whole full others ih => rw [List.flatten_cons, ih]
  | short ends => exact List.append_nil _

/-- A cut goes on after each of its pieces as a cut of what is left. -/
theorem tail (cuts : Cuts program (piece :: after)) : Cuts after.flatten after := by
  cases cuts with
  | whole full others => rwa [others.flatten]
  | short ends => exact .nil

/-- The pieces behind a cut are the cut of what they cover. -/
theorem append_right (cuts : Cuts program (front ++ after)) : Cuts after.flatten after := by
  induction front generalizing program with
  | nil => rwa [← cuts.flatten] at cuts
  | cons piece front ih => exact ih cuts.tail

/-- The pieces before a cut are the cut of what they cover. -/
theorem append_left (cuts : Cuts program (front ++ after)) : Cuts front.flatten front := by
  induction front generalizing program with
  | nil => exact .nil
  | cons piece front ih =>
      generalize whole : piece :: front ++ after = cut at cuts
      cases cuts with
      | nil => cases whole
      | whole full others =>
          cases whole
          exact .whole full (ih others)
      | short ends =>
          obtain ⟨rfl, none⟩ := List.cons.inj whole
          obtain ⟨rfl, rfl⟩ := List.append_eq_nil_iff.mp none
          rw [List.flatten_singleton]
          exact .short ends

/-- Each piece takes at least one byte. -/
theorem length_le (cuts : Cuts program cut) : cut.length ≤ program.length := by
  induction cuts with
  | nil => exact Nat.le_refl 0
  | whole full others ih =>
      rw [List.length_cons, List.length_append, List.length_cons]
      omega
  | short ends => exact Nat.succ_le_succ (Nat.zero_le _)

end Cuts

/-- What a piece is, with the bytes of the program before it and the pieces after it. It is shorter
than its instruction only where the program ends inside the instruction. -/
structure PieceLaw (program before piece : List UInt8) (after : List (List UInt8)) : Prop where
  opens : piece ≠ []
  fits : piece.length ≤ 3
  most : piece.length ≤ wholeLength piece
  full : after ≠ [] → piece.length = wholeLength piece
  ends : piece.length < wholeLength piece → program.length < before.length + wholeLength piece

/-- Every piece of a cut obeys the law, wherever it stands. -/
theorem Cuts.piece_law {program piece : List UInt8} {before after : List (List UInt8)}
    (cuts : Cuts program (before ++ piece :: after)) :
    PieceLaw program before.flatten piece after := by
  have total := congrArg List.length cuts.flatten
  rw [List.flatten_append, List.flatten_cons, List.length_append, List.length_append] at total
  have within := wholeLength_le piece
  have rest := cuts.append_right
  generalize (piece :: after).flatten = remaining at rest
  cases rest with
  | @whole opcode operand rest _ full others =>
      have complete : (opcode :: operand).length = wholeLength (opcode :: operand) := by
        rw [List.length_cons, full, Nat.add_comm]
        rfl
      refine ⟨nofun, complete ▸ within, Nat.le_of_eq complete, fun _ => complete, fun shorter => ?_⟩
      exact absurd complete (Nat.ne_of_lt shorter)
  | @short opcode operand ends =>
      have shorter : (opcode :: operand).length < wholeLength (opcode :: operand) := by
        change operand.length + 1 < 1 + _
        omega
      have most := Nat.le_of_lt shorter
      refine ⟨nofun, Nat.le_trans most within, most, fun others => absurd rfl others, fun _ => ?_⟩
      rw [List.flatten_nil, List.length_nil] at total
      omega

/-- Every program is cut into at most as many pieces as it has bytes, and they are all of it. Each
of them is one instruction, and only the last one may be cut short. The program may be split where
a piece begins, and nowhere else: then its pieces are those of both parts. -/
theorem pieces_partition_program (program : List UInt8) :
    (pieces program).length ≤ program.length ∧
      (pieces program).flatten = program ∧
      (∀ before piece after, pieces program = before ++ piece :: after →
        PieceLaw program before.flatten piece after) ∧
      ∀ first second, first ++ second = program →
        ((∃ front, front <+: pieces program ∧ front.flatten = first) ↔
          pieces program = pieces first ++ pieces second) := by
  have cuts := pieces_cuts program
  refine ⟨cuts.length_le, cuts.flatten, fun before piece after order => ?_, ?_⟩
  · rw [order] at cuts
    exact cuts.piece_law
  · intro first second split
    constructor
    · rintro ⟨front, ⟨after, order⟩, rfl⟩
      rw [← order] at cuts ⊢
      have rest : second = after.flatten := by
        have whole := cuts.flatten
        rw [List.flatten_append, ← split] at whole
        exact (List.append_cancel_left whole).symm
      rw [rest, ← cuts.append_left.eq_pieces, ← cuts.append_right.eq_pieces]
    · intro apart
      exact ⟨pieces first, ⟨pieces second, apart.symm⟩, (pieces_cuts first).flatten⟩

/-- A load of an immediate byte, and a call whose last byte is missing. -/
theorem pieces_partition_program_cut_short :
    pieces [0xa9, 0x05, 0x20, 0x34] = [[0xa9, 0x05]] ++ [0x20, 0x34] :: [] ∧
      PieceLaw [0xa9, 0x05, 0x20, 0x34] [0xa9, 0x05] [0x20, 0x34] [] ∧
      [0xa9, 0x05] ++ [0x20, 0x34] = [0xa9, 0x05, 0x20, 0x34] ∧
      pieces [0xa9, 0x05, 0x20, 0x34] = pieces [0xa9, 0x05] ++ pieces [0x20, 0x34] := by
  have call : Cuts [0x20, 0x34] [[0x20, 0x34]] := .short (by decide)
  have load : Cuts [0xa9, 0x05, 0x20, 0x34] [[0xa9, 0x05], [0x20, 0x34]] :=
    @Cuts.whole 0xa9 [0x05] _ _ rfl call
  have order : pieces [0xa9, 0x05, 0x20, 0x34] = [[0xa9, 0x05]] ++ [0x20, 0x34] :: [] :=
    load.eq_pieces.symm
  obtain ⟨_, _, law, split⟩ := pieces_partition_program [0xa9, 0x05, 0x20, 0x34]
  exact ⟨order, law _ _ _ order, rfl,
    (split [0xa9, 0x05] [0x20, 0x34] rfl).mp ⟨[[0xa9, 0x05]], ⟨_, order.symm⟩, rfl⟩⟩

end EightBit.Listing
