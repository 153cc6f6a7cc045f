import EightBit.Event
import EightBit.Fault

/-
Transactions between the processor and its memory. A transaction says which bus accesses are made,
in which order, and how they depend on the bytes read so far; any memory can then serve it. Serving
two transactions in a row is serving the first and then, with its result, the second.
-/

namespace EightBit

inductive Transaction (α : Type) where
  | done (result : α)
  | read (address : Address) (next : UInt8 → Transaction α)
  | write (address : Address) (value : UInt8) (next : Transaction α)
  | report (event : Event) (next : Transaction α)

namespace Transaction

variable {α β : Type}

def bind : Transaction α → (α → Transaction β) → Transaction β
  | done result, follow => follow result
  | read address next, follow => read address fun value => (next value).bind follow
  | write address value next, follow => write address value (next.bind follow)
  | report event next, follow => report event (next.bind follow)

instance : Monad Transaction where
  pure := done
  bind := bind

theorem bind_done (act : Transaction α) : act.bind done = act := by
  induction act with
  | done result => rfl
  | read address next ih => simp [bind, ih]
  | write address value next ih => simp [bind, ih]
  | report event next ih => simp [bind, ih]

theorem bind_assoc {γ : Type} (act : Transaction α) (first : α → Transaction β)
    (second : β → Transaction γ) :
    (act.bind first).bind second = act.bind fun result => (first result).bind second := by
  induction act with
  | done result => rfl
  | read address next ih => simp [bind, ih]
  | write address value next ih => simp [bind, ih]
  | report event next ih => simp [bind, ih]

instance : LawfulMonad Transaction :=
  LawfulMonad.mk' Transaction bind_done (fun _ _ => rfl) bind_assoc

def readByte (address : Address) : Transaction UInt8 := read address done

def writeByte (address : Address) (value : UInt8) : Transaction Unit :=
  write address value (done ())

def note (event : Event) : Transaction Unit := report event (done ())

end Transaction

/-- A memory answers the accesses of a transaction and takes its reports. -/
class Memory (M : Type) where
  read : M → Address → Except Crash (UInt8 × M)
  write : M → Address → UInt8 → Except Crash M
  report : M → Event → M

namespace Transaction

/-- The memory serves the accesses one by one; a crash ends the transaction. -/
def run {α M : Type} [Memory M] : Transaction α → M → Except Crash (α × M)
  | done result, memory => .ok (result, memory)
  | read address next, memory =>
      match Memory.read memory address with
      | .ok (value, memory) => (next value).run memory
      | .error crash => .error crash
  | write address value next, memory =>
      match Memory.write memory address value with
      | .ok memory => next.run memory
      | .error crash => .error crash
  | report event next, memory => next.run (Memory.report memory event)

/-- A transaction that follows another one finds the memory as the first one left it. -/
theorem run_bind {α β M : Type} [Memory M] (act : Transaction α) (follow : α → Transaction β)
    (memory : M) :
    (act.bind follow).run memory =
      match act.run memory with
      | .ok (result, memory) => (follow result).run memory
      | .error crash => .error crash := by
  induction act generalizing memory with
  | done result => rfl
  | read address next ih =>
      rw [bind, run, run]
      split <;> simp only [ih]
  | write address value next ih =>
      rw [bind, run, run]
      split <;> simp only [ih]
  | report event next ih => rw [bind, run, run, ih]

end Transaction

end EightBit
