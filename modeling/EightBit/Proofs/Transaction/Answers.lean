import EightBit.Execution.Operation
import EightBit.Proofs.Bus.Mapped

/-
Memories that answer. If no access to a memory crashes, and none leads to a memory where one does,
every transaction comes to its end. A bus without gaps is such a memory; another one answers every
read with a byte of its own, whatever has been written.
-/

namespace EightBit

/-- The memories answer every access, and are never left. -/
structure Memory.Answers {M : Type} [Memory M] (answering : M → Prop) : Prop where
  read : ∀ {memory}, answering memory → ∀ address, ∃ value later,
    Memory.read memory address = .ok (value, later) ∧ answering later
  write : ∀ {memory}, answering memory → ∀ address value, ∃ later,
    Memory.write memory address value = .ok later ∧ answering later
  report : ∀ {memory}, answering memory → ∀ event, answering (Memory.report memory event)

/-- A memory that answers everything lets every transaction come to its end. -/
theorem Transaction.run_answered {α M : Type} [Memory M] {answering : M → Prop}
    (answers : Memory.Answers answering) (act : Transaction α) {memory : M}
    (ready : answering memory) :
    ∃ result later, act.run memory = .ok (result, later) ∧ answering later := by
  induction act generalizing memory with
  | done result => exact ⟨result, memory, rfl, ready⟩
  | read address next ih =>
      obtain ⟨value, middle, answer, still⟩ := answers.read ready address
      rw [run, answer]
      exact ih value still
  | write address value next ih =>
      obtain ⟨middle, answer, still⟩ := answers.write ready address value
      rw [run, answer]
      exact ih still
  | report event next ih =>
      rw [run]
      exact ih (answers.report ready event)

/-- An instruction comes to its end, whatever the registers hold. -/
theorem Instruction.execute_answered {M : Type} [Memory M] {answering : M → Prop}
    (answers : Memory.Answers answering) (instruction : Instruction) (registers : Registers)
    {memory : M} (ready : answering memory) :
    ∃ after spent later, (instruction.execute registers).run memory =
      .ok ((after, spent), later) := by
  obtain ⟨⟨after, spent⟩, later, executed, _⟩ :=
    Transaction.run_answered answers (instruction.execute registers) ready
  exact ⟨after, spent, later, executed⟩

/-- A bus without gaps answers everything. -/
theorem Bus.mapped_answers {D : Type} [Peripheral D] :
    Memory.Answers (Bus.Mapped : Bus D → Prop) where
  read mapped address := by
    obtain ⟨⟨value, later⟩, answer, still⟩ := (mapped.read address).result
    exact ⟨value, later, answer, still⟩
  write mapped address value := (mapped.write address value).result
  report mapped event := mapped.of_frame rfl rfl

/-- A device that answers each read with the next byte. -/
structure Ticker where
  next : UInt8

namespace Ticker

instance : Memory Ticker where
  read ticker _ := .ok (ticker.next, ⟨ticker.next + 1⟩)
  write ticker _ _ := .ok ticker
  report ticker _ := ticker

/-- The device answers whatever is asked. -/
theorem answers : Memory.Answers fun _ : Ticker => True where
  read _ _ := ⟨_, _, rfl, trivial⟩
  write _ _ _ := ⟨_, rfl, trivial⟩
  report _ _ := trivial

end Ticker

end EightBit
