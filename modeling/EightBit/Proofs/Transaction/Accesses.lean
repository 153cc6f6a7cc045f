import EightBit.Bus.Access
import EightBit.Proofs.Outcome
import EightBit.Proofs.Transaction.Trace

/-
The accesses of a transaction, written down as hits, and a bound on their number that holds whatever
the transaction reads.
-/

namespace EightBit.Transaction

/-- The access as a list of hits shows it. -/
def Action.access? : Action → Option WatchHit
  | .read address value => some ⟨.read, address, value⟩
  | .write address value => some ⟨.write, address, value⟩
  | .report _ => none

variable {α β M : Type}

/-- No way through the transaction makes more accesses. -/
inductive AtMost : Nat → Transaction α → Prop
  | done {limit : Nat} {result : α} : AtMost limit (.done result)
  | read {limit : Nat} {address : Address} {next : UInt8 → Transaction α}
      (rest : ∀ value, AtMost limit (next value)) : AtMost (limit + 1) (.read address next)
  | write {limit : Nat} {address : Address} {value : UInt8} {next : Transaction α}
      (rest : AtMost limit next) : AtMost (limit + 1) (.write address value next)
  | report {limit : Nat} {event : Event} {next : Transaction α} (rest : AtMost limit next) :
      AtMost limit (.report event next)

namespace AtMost

/-- A bound may be raised. -/
theorem mono {act : Transaction α} {fewer limit : Nat} (bounded : AtMost fewer act)
    (within : fewer ≤ limit) : AtMost limit act := by
  induction bounded generalizing limit with
  | done => exact .done
  | read rest ih =>
      obtain ⟨more, rfl⟩ := Nat.exists_eq_add_of_le' within
      exact .read fun value => ih value (Nat.le_add_left ..)
  | write rest ih =>
      obtain ⟨more, rfl⟩ := Nat.exists_eq_add_of_le' within
      exact .write (ih (Nat.le_add_left ..))
  | report rest ih => exact .report (ih within)

/-- The bounds of the parts add up. What the first part ensures may be used for the second. -/
theorem bind {condition : α → Prop} {act : Transaction α} {follow : α → Transaction β}
    {first second : Nat} (start : AtMost first act) (ensured : act.Ensures condition)
    (rest : ∀ result, condition result → AtMost second (follow result)) :
    AtMost (first + second) (act >>= follow) := by
  induction start with
  | done => exact (rest _ ensured).mono (Nat.le_add_left ..)
  | read _ ih =>
      rw [Nat.add_right_comm]
      exact .read fun value => ih value (ensured value)
  | write _ ih =>
      rw [Nat.add_right_comm]
      exact .write (ih ensured)
  | report _ ih => exact .report (ih ensured)

/-- A second part without accesses adds nothing. -/
theorem finish {act : Transaction α} {follow : α → Transaction β} {limit : Nat}
    (start : AtMost limit act) (rest : ∀ result, AtMost 0 (follow result)) :
    AtMost limit (act >>= follow) :=
  start.bind (ensures_true act) fun result _ => rest result

end AtMost

variable [Memory M]

/-- What is accessed until the transaction is over or the memory crashes. -/
def accesses (act : Transaction α) (memory : M) : List WatchHit :=
  (act.trace memory).filterMap Action.access?

/-- A read that is answered is the first access, and the others follow. -/
theorem accesses_read {memory middle : M} {address : Address} {value : UInt8}
    (answer : Memory.read memory address = .ok (value, middle)) (next : UInt8 → Transaction α) :
    (read address next).accesses memory =
      ⟨.read, address, value⟩ :: (next value).accesses middle := by
  simp only [accesses, trace, answer, List.filterMap_cons, Action.access?]

/-- A write that is answered is the first access, and the others follow. -/
theorem accesses_write {memory middle : M} {address : Address} {value : UInt8}
    (answer : Memory.write memory address value = .ok middle) (next : Transaction α) :
    (write address value next).accesses memory =
      ⟨.write, address, value⟩ :: next.accesses middle := by
  simp only [accesses, trace, answer, List.filterMap_cons, Action.access?]

/-- A report is no access. -/
theorem accesses_report (event : Event) (next : Transaction α) (memory : M) :
    (report event next).accesses memory = next.accesses (Memory.report memory event) := rfl

/-- A bound on a transaction bounds the accesses that it makes over any memory. -/
theorem AtMost.length_accesses {act : Transaction α} {limit : Nat} (bounded : AtMost limit act)
    (memory : M) : (act.accesses memory).length ≤ limit := by
  induction bounded generalizing memory with
  | done => exact Nat.zero_le _
  | @read limit address next _ ih =>
      cases answer : Memory.read memory address with
      | error crash => simp [accesses, trace, answer]
      | ok outcome =>
          obtain ⟨value, middle⟩ := outcome
          rw [accesses_read answer, List.length_cons]
          exact Nat.succ_le_succ (ih value middle)
  | @write limit address value next _ ih =>
      cases answer : Memory.write memory address value with
      | error crash => simp [accesses, trace, answer]
      | ok middle =>
          rw [accesses_write answer, List.length_cons]
          exact Nat.succ_le_succ (ih middle)
  | report _ ih =>
      rw [accesses_report]
      exact ih _

end EightBit.Transaction
