import EightBit.Proofs.Transaction.Accesses

/-
The ways through a transaction. Each one makes some accesses, with the bytes that the reads find,
and ends in a result. Whatever memory serves the transaction, it takes one of these ways.
-/

namespace EightBit.Transaction

variable {α β M : Type}

/-- Some way through the transaction makes these accesses and ends in this result. -/
def Yields : Transaction α → List WatchHit → α → Prop
  | done value, accesses, result => accesses = [] ∧ result = value
  | read address next, accesses, result =>
      ∃ value rest, accesses = ⟨.read, address, value⟩ :: rest ∧ (next value).Yields rest result
  | write address value next, accesses, result =>
      ∃ rest, accesses = ⟨.write, address, value⟩ :: rest ∧ next.Yields rest result
  | report _ next, accesses, result => next.Yields accesses result

/-- A way through a sequence is a way through its first part and then one through its second. -/
theorem yields_bind_iff {act : Transaction α} {follow : α → Transaction β}
    {accesses : List WatchHit} {result : β} :
    (act >>= follow).Yields accesses result ↔
      ∃ first value second, act.Yields first value ∧ (follow value).Yields second result ∧
        accesses = first ++ second := by
  change (act.bind follow).Yields accesses result ↔ _
  induction act generalizing accesses with
  | done value =>
      constructor
      · intro yields
        exact ⟨[], value, accesses, ⟨rfl, rfl⟩, yields, rfl⟩
      · rintro ⟨_, _, second, ⟨rfl, rfl⟩, yields, rfl⟩
        exact yields
  | read address next ih =>
      constructor
      · rintro ⟨byte, rest, rfl, yields⟩
        obtain ⟨first, value, second, start, follows, rfl⟩ := (ih byte).mp yields
        exact ⟨⟨.read, address, byte⟩ :: first, value, second, ⟨byte, first, rfl, start⟩, follows,
          rfl⟩
      · rintro ⟨_, value, second, ⟨byte, first, rfl, start⟩, follows, rfl⟩
        exact ⟨byte, first ++ second, rfl,
          (ih byte).mpr ⟨first, value, second, start, follows, rfl⟩⟩
  | write address byte next ih =>
      constructor
      · rintro ⟨rest, rfl, yields⟩
        obtain ⟨first, value, second, start, follows, rfl⟩ := ih.mp yields
        exact ⟨⟨.write, address, byte⟩ :: first, value, second, ⟨first, rfl, start⟩, follows, rfl⟩
      · rintro ⟨_, value, second, ⟨first, rfl, start⟩, follows, rfl⟩
        exact ⟨first ++ second, rfl, ih.mpr ⟨first, value, second, start, follows, rfl⟩⟩
  | report event next ih => exact ih

/-- No way makes more accesses than the bound of the transaction. -/
theorem AtMost.length_of_yields {act : Transaction α} {limit : Nat} (bounded : AtMost limit act)
    {accesses : List WatchHit} {result : α} (yields : act.Yields accesses result) :
    accesses.length ≤ limit := by
  induction bounded generalizing accesses with
  | done =>
      obtain ⟨rfl, _⟩ := yields
      exact Nat.zero_le _
  | read _ ih =>
      obtain ⟨value, rest, rfl, yields⟩ := yields
      exact Nat.succ_le_succ (ih value yields)
  | write _ ih =>
      obtain ⟨rest, rfl, yields⟩ := yields
      exact Nat.succ_le_succ (ih yields)
  | report _ ih => exact ih yields

variable [Memory M]

/-- A memory that serves the transaction takes it along the way of its accesses. -/
theorem yields_of_run {act : Transaction α} {memory later : M} {result : α}
    (served : act.run memory = .ok (result, later)) :
    act.Yields (act.accesses memory) result := by
  induction act generalizing memory with
  | done value =>
      cases served
      exact ⟨rfl, rfl⟩
  | read address next ih =>
      rw [run] at served
      cases answer : Memory.read memory address with
      | error crash =>
          rw [answer] at served
          cases served
      | ok outcome =>
          obtain ⟨value, middle⟩ := outcome
          rw [answer] at served
          exact ⟨value, _, accesses_read answer next, ih value served⟩
  | write address byte next ih =>
      rw [run] at served
      cases answer : Memory.write memory address byte with
      | error crash =>
          rw [answer] at served
          cases served
      | ok middle =>
          rw [answer] at served
          exact ⟨_, accesses_write answer next, ih served⟩
  | report event next ih =>
      rw [run] at served
      exact ih served

/-- The accesses of a sequence are those of its parts. -/
theorem accesses_bind (act : Transaction α) (follow : α → Transaction β) {memory middle : M}
    {value : α} (served : act.run memory = .ok (value, middle)) :
    (act >>= follow).accesses memory = act.accesses memory ++ (follow value).accesses middle := by
  rw [accesses, trace_bind act follow served, List.filterMap_append]
  rfl

end EightBit.Transaction
