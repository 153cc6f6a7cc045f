import EightBit.Transaction

/-
How computations end. One that may fail either fails or has a result, and two of them match if
they fail alike or have related results. A transaction is judged by what it returns, whatever it
reads.
-/

namespace EightBit

namespace Outcome

variable {ε α β γ δ : Type}

@[simp] theorem pure_eq_ok (value : α) : (pure value : Except ε α) = .ok value := rfl

/-- A result is handed to what follows. -/
@[simp] theorem bind_ok (value : α) (rest : α → Except ε β) :
    (Except.ok value >>= rest) = rest value := rfl

/-- A fault is all that remains of what follows. -/
@[simp] theorem bind_error (fault : ε) (rest : α → Except ε β) :
    (Except.error fault >>= rest) = .error fault := rfl

/-- A change applies to the result. -/
@[simp] theorem map_ok (change : α → β) (value : α) :
    change <$> (Except.ok value : Except ε α) = .ok (change value) := rfl

/-- A change leaves a fault alone. -/
@[simp] theorem map_error (change : α → β) (fault : ε) :
    change <$> (Except.error fault : Except ε α) = .error fault := rfl

/-- A sequence has a result exactly when its first part has one from which the rest goes on. -/
theorem bind_eq_ok_iff {start : Except ε α} {rest : α → Except ε β} {result : β} :
    (start >>= rest) = .ok result ↔ ∃ value, start = .ok value ∧ rest value = .ok result := by
  cases start with
  | error fault => simp only [bind_error, reduceCtorEq, false_and, exists_false]
  | ok value => simp only [bind_ok, Except.ok.injEq, exists_eq_left']

/-- What was changed succeeds with the changes of the results that were there before. -/
theorem map_eq_ok_iff {change : α → β} {start : Except ε α} {result : β} :
    change <$> start = .ok result ↔ ∃ value, start = .ok value ∧ change value = result := by
  cases start with
  | error fault => simp only [map_error, reduceCtorEq, false_and, exists_false]
  | ok value => simp only [map_ok, Except.ok.injEq, exists_eq_left']

/-- Another name for the fault does not change the result. -/
theorem mapError_eq_ok_iff {change : ε → γ} {start : Except ε α} {result : α} :
    start.mapError change = .ok result ↔ start = .ok result := by
  cases start with
  | error fault => exact ⟨nofun, nofun⟩
  | ok value =>
      exact ⟨fun same => congrArg Except.ok (Except.ok.inj same),
        fun same => congrArg Except.ok (Except.ok.inj same)⟩

/-- A sequence fails exactly when its first part does, or the rest from its result. -/
theorem bind_eq_error_iff {start : Except ε α} {rest : α → Except ε β} {fault : ε} :
    (start >>= rest) = .error fault ↔
      start = .error fault ∨ ∃ value, start = .ok value ∧ rest value = .error fault := by
  cases start with
  | error other => simp only [bind_error, Except.error.injEq, reduceCtorEq, false_and,
      exists_false, or_false]
  | ok value => simp only [bind_ok, reduceCtorEq, Except.ok.injEq, exists_eq_left', false_or]

/-- Both computations fail alike, or both have results that are related. -/
inductive Matched (related : α → β → Prop) : Except ε α → Except ε β → Prop
  | ok {first : α} {second : β} (same : related first second) :
      Matched related (.ok first) (.ok second)
  | error (fault : ε) : Matched related (.error fault) (.error fault)

/-- Two sequences match if they start alike and go on alike from matched results. -/
theorem Matched.bind {related : α → β → Prop} {after : γ → δ → Prop}
    {left : Except ε α} {right : Except ε β} {leftRest : α → Except ε γ}
    {rightRest : β → Except ε δ} (start : Matched related left right)
    (rest : ∀ first second, related first second →
      Matched after (leftRest first) (rightRest second)) :
    Matched after (left >>= leftRest) (right >>= rightRest) := by
  cases start with
  | ok same => exact rest _ _ same
  | error fault => exact .error fault

/-- What is known of the first result may be added to the relation. -/
theorem Matched.strengthen {related : α → β → Prop} {condition : α → Prop} {left : Except ε α}
    {right : Except ε β} (start : Matched related left right)
    (known : ∀ result, left = .ok result → condition result) :
    Matched (fun first second => related first second ∧ condition first) left right := by
  cases start with
  | ok same => exact .ok ⟨same, known _ rfl⟩
  | error fault => exact .error fault

/-- Matched results that are changed alike still match. -/
theorem Matched.map {related : α → β → Prop} {after : γ → δ → Prop}
    {left : Except ε α} {right : Except ε β} {leftChange : α → γ} {rightChange : β → δ}
    (start : Matched related left right)
    (change : ∀ first second, related first second →
      after (leftChange first) (rightChange second)) :
    Matched after (leftChange <$> left) (rightChange <$> right) := by
  cases start with
  | ok same => exact .ok (change _ _ same)
  | error fault => exact .error fault

end Outcome

namespace Transaction

variable {α β M : Type}

/-- Whatever the transaction reads, its result meets the condition. -/
def Ensures (condition : α → Prop) : Transaction α → Prop
  | done result => condition result
  | read _ next => ∀ value, (next value).Ensures condition
  | write _ _ next => next.Ensures condition
  | report _ next => next.Ensures condition

/-- What ensures a strong condition ensures a weaker one. -/
theorem Ensures.mono {weak strong : α → Prop} {act : Transaction α} (ensured : act.Ensures strong)
    (weaker : ∀ result, strong result → weak result) : act.Ensures weak := by
  induction act with
  | done result => exact weaker result ensured
  | read address next ih => exact fun value => ih value (ensured value)
  | write address value next ih => exact ih ensured
  | report event next ih => exact ih ensured

/-- Every transaction ensures what always holds. -/
theorem ensures_true (act : Transaction α) : act.Ensures fun _ => True := by
  induction act with
  | done result => trivial
  | read address next ih => exact ih
  | write address value next ih => exact ih
  | report event next ih => exact ih

/-- A sequence ensures what its second part ensures from where the first part ends. -/
theorem Ensures.bind {middle : α → Prop} {condition : β → Prop} {act : Transaction α}
    {follow : α → Transaction β} (start : act.Ensures middle)
    (rest : ∀ result, middle result → (follow result).Ensures condition) :
    (act >>= follow).Ensures condition := by
  induction act with
  | done result => exact rest result start
  | read address next ih => exact fun value => ih value (start value)
  | write address value next ih => exact ih start
  | report event next ih => exact ih start

/-- A memory that serves the transaction gets a result that meets the condition. -/
theorem Ensures.run [Memory M] {condition : α → Prop} {act : Transaction α}
    (ensured : act.Ensures condition) {memory after : M} {result : α}
    (served : act.run memory = .ok (result, after)) : condition result := by
  induction act generalizing memory with
  | done value =>
      cases served
      exact ensured
  | read address next ih =>
      rw [Transaction.run] at served
      split at served
      · exact ih _ (ensured _) served
      · cases served
  | write address value next ih =>
      rw [Transaction.run] at served
      split at served
      · exact ih ensured served
      · cases served
  | report event next ih => exact ih ensured served

end Transaction

end EightBit
