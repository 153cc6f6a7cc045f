import EightBit.Proofs.Outcome

/-
What a transaction does while a memory serves it: its accesses and reports in their order, up to a
crash. A silent transaction makes accesses only.
-/

namespace EightBit.Transaction

/-- One thing that a transaction does on the way. -/
inductive Action where
  | read (address : Address) (value : UInt8)
  | write (address : Address) (value : UInt8)
  | report (event : Event)
  deriving DecidableEq

namespace Action

/-- The event of a report. -/
def event? : Action → Option Event
  | report event => some event
  | _ => none

end Action

variable {α β M : Type}

/-- No way through the transaction makes a report. -/
def Silent : Transaction α → Prop
  | done _ => True
  | read _ next => ∀ value, (next value).Silent
  | write _ _ next => next.Silent
  | report _ _ => False

/-- A sequence of silent parts is silent. -/
theorem Silent.bind {act : Transaction α} {follow : α → Transaction β} (start : act.Silent)
    (rest : ∀ result, (follow result).Silent) : (act >>= follow).Silent := by
  induction act with
  | done result => exact rest result
  | read address next ih => exact fun value => ih value (start value)
  | write address value next ih => exact ih start
  | report event next ih => exact start.elim

variable [Memory M]

/-- A sequence is served exactly when its parts are served one after the other. -/
theorem run_bind_eq_ok_iff {act : Transaction α} {follow : α → Transaction β} {memory later : M}
    {result : β} :
    (act >>= follow).run memory = .ok (result, later) ↔
      ∃ value middle, act.run memory = .ok (value, middle) ∧
        (follow value).run middle = .ok (result, later) := by
  change (act.bind follow).run memory = _ ↔ _
  rw [run_bind]
  cases act.run memory with
  | error crash => simp
  | ok outcome =>
      obtain ⟨value, middle⟩ := outcome
      simp [and_assoc]

/-- What is done until the transaction is over or the memory crashes. -/
def trace : Transaction α → M → List Action
  | done _, _ => []
  | read address next, memory =>
      match Memory.read memory address with
      | .ok (value, memory) => .read address value :: (next value).trace memory
      | .error _ => []
  | write address value next, memory =>
      match Memory.write memory address value with
      | .ok memory => .write address value :: next.trace memory
      | .error _ => []
  | report event next, memory => .report event :: next.trace (Memory.report memory event)

/-- A sequence does what its first part does, and then what its second part does from there. -/
theorem trace_bind (act : Transaction α) (follow : α → Transaction β) {memory middle : M}
    {value : α} (served : act.run memory = .ok (value, middle)) :
    (act >>= follow).trace memory = act.trace memory ++ (follow value).trace middle := by
  change (act.bind follow).trace memory = _
  induction act generalizing memory with
  | done result =>
      cases served
      rfl
  | read address next ih =>
      rw [run] at served
      rw [Transaction.bind, trace, trace]
      cases answer : Memory.read memory address with
      | error crash =>
          rw [answer] at served
          cases served
      | ok outcome =>
          rw [answer] at served
          simp only [ih _ served, List.cons_append]
  | write address byte next ih =>
      rw [run] at served
      rw [Transaction.bind, trace, trace]
      cases answer : Memory.write memory address byte with
      | error crash =>
          rw [answer] at served
          cases served
      | ok stored =>
          rw [answer] at served
          simp only [ih served, List.cons_append]
  | report event next ih =>
      rw [run] at served
      rw [Transaction.bind, trace, trace, ih served, List.cons_append]

/-- A last part without accesses and reports adds nothing, whether it is reached or not. -/
theorem trace_finish (act : Transaction α) (finish : α → β) (memory : M) :
    (act >>= fun result => done (finish result)).trace memory = act.trace memory := by
  change (act.bind _).trace memory = _
  induction act generalizing memory with
  | done result => rfl
  | read address next ih =>
      rw [Transaction.bind, trace, trace]
      simp only [ih]
  | write address byte next ih =>
      rw [Transaction.bind, trace, trace]
      simp only [ih]
  | report event next ih => rw [Transaction.bind, trace, trace, ih]

/-- What is silent reports nothing over any memory. -/
theorem Silent.trace {act : Transaction α} (silent : act.Silent) (memory : M) :
    (act.trace memory).filterMap Action.event? = [] := by
  induction act generalizing memory with
  | done result => rfl
  | read address next ih =>
      rw [Transaction.trace]
      split
      · exact ih _ (silent _) _
      · rfl
  | write address value next ih =>
      rw [Transaction.trace]
      split
      · exact ih silent _
      · rfl
  | report event next ih => exact silent.elim

end EightBit.Transaction
