import EightBit.Proofs.Transaction.Trace

/-
What a transaction writes. Some transactions write the same bytes whatever they read.
-/

namespace EightBit.Transaction

/-- The address and the byte, if the action writes. -/
def Action.written? : Action → Option (Address × UInt8)
  | .write address value => some (address, value)
  | _ => none

/-- The bytes that are written on the way, in order. -/
def writtenIn (actions : List Action) : List (Address × UInt8) :=
  actions.filterMap Action.written?

variable {α β M : Type}

/-- Whatever the transaction reads, it writes these bytes. -/
def Writes : Transaction α → List (Address × UInt8) → Prop
  | done _, bytes => bytes = []
  | read _ next, bytes => ∀ value, (next value).Writes bytes
  | write _ _ _, [] => False
  | write address value next, byte :: bytes => byte = (address, value) ∧ next.Writes bytes
  | report _ next, bytes => next.Writes bytes

/-- The writes of a sequence are those of its parts. -/
theorem Writes.bind {act : Transaction α} {follow : α → Transaction β}
    {first second : List (Address × UInt8)} (start : act.Writes first)
    (rest : ∀ result, (follow result).Writes second) :
    (act >>= follow).Writes (first ++ second) := by
  induction act generalizing first with
  | done result =>
      cases start
      exact rest result
  | read address next ih => exact fun value => ih value (start value)
  | write address value next ih =>
      cases first with
      | nil => exact start.elim
      | cons byte bytes => exact ⟨start.1, ih start.2⟩
  | report event next ih => exact ih start

/-- A second part that writes nothing adds nothing. -/
theorem Writes.finish {act : Transaction α} {follow : α → Transaction β}
    {bytes : List (Address × UInt8)} (start : act.Writes bytes)
    (rest : ∀ result, (follow result).Writes []) : (act >>= follow).Writes bytes := by
  have whole := start.bind rest
  rwa [List.append_nil] at whole

variable [Memory M]

/-- A memory that serves the transaction gets these bytes. -/
theorem Writes.trace {act : Transaction α} {bytes : List (Address × UInt8)}
    (writes : act.Writes bytes) {memory later : M} {result : α}
    (served : act.run memory = .ok (result, later)) : writtenIn (act.trace memory) = bytes := by
  induction act generalizing bytes memory with
  | done value => exact writes.symm
  | read address next ih =>
      rw [run] at served
      rw [Transaction.trace]
      cases answer : Memory.read memory address with
      | error crash =>
          rw [answer] at served
          cases served
      | ok outcome =>
          obtain ⟨value, middle⟩ := outcome
          rw [answer] at served
          exact ih value (writes value) served
  | write address value next ih =>
      rw [run] at served
      rw [Transaction.trace]
      cases answer : Memory.write memory address value with
      | error crash =>
          rw [answer] at served
          cases served
      | ok middle =>
          rw [answer] at served
          cases bytes with
          | nil => exact writes.elim
          | cons byte bytes =>
              obtain ⟨rfl, rest⟩ := writes
              exact congrArg (List.cons _) (ih rest served)
  | report event next ih => exact ih writes served

end EightBit.Transaction
