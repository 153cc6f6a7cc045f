import EightBit.Proofs.Arithmetic.Checked
import EightBit.Proofs.Execution.Cost

/-
The step in machine words. Every sum of a step is formed in a word of its own width, and a sum that
does not fit stops the step. None does, whatever the registers hold and the memory answers.
-/

namespace EightBit

open Checked

namespace Transaction

variable {α β : Type}

/-- A sum that trapped stops the transaction. -/
def need (sum : Option α) : OptionT Transaction α := OptionT.mk (pure sum)

/-- What follows a transaction matters only for the results that it may have. -/
theorem Ensures.bind_congr {condition : α → Prop} {act : Transaction α}
    (ensured : act.Ensures condition) {first second : α → Transaction β}
    (same : ∀ result, condition result → first result = second result) :
    act.bind first = act.bind second := by
  induction act with
  | done result => exact same result ensured
  | read address next ih =>
      exact congrArg (read address) (funext fun value => ih value (ensured value))
  | write address value next ih => exact congrArg (write address value) (ih ensured)
  | report event next ih => exact congrArg (report event) (ih ensured)

/-- A checked transaction goes on after a plain one, and no result of that one makes it trap. -/
theorem Ensures.lift_bind {condition : α → Prop} {act : Transaction α}
    (ensured : act.Ensures condition) {checked : α → OptionT Transaction β}
    {plain : α → Transaction β}
    (same : ∀ result, condition result → checked result = liftM (plain result)) :
    (liftM act >>= checked) = (liftM (act >>= plain) : OptionT Transaction β) := by
  rw [liftM_bind]
  apply OptionT.ext
  rw [OptionT.run_bind, OptionT.run_bind]
  change (act.bind fun result => pure (some result)).bind _ =
    (act.bind fun result => pure (some result)).bind _
  rw [bind_assoc, bind_assoc]
  exact ensured.bind_congr fun result known => congrArg OptionT.run (same result known)

/-- A checked sequence succeeds if what follows its first part does. -/
theorem lift_bind (act : Transaction α) {checked : α → OptionT Transaction β}
    {plain : α → Transaction β} (same : ∀ result, checked result = liftM (plain result)) :
    (liftM act >>= checked) = (liftM (act >>= plain) : OptionT Transaction β) :=
  (ensures_true act).lift_bind fun result _ => same result

end Transaction

open Transaction

namespace Operation

/-- What becomes of the registers once the operand was read. -/
def use : Operation → Registers → UInt8 → Registers
  | consume use => use
  | modify _ use => use
  | _ => Registers.ignore

end Operation

namespace Mnemonic

/-- Only additions and subtractions with carry, and the rotation that corrects decimals, form
sums. -/
def useChecked : Mnemonic → Registers → UInt8 → Option Registers
  | adc | rra => addToA
  | sbc | isb => subtractFromA
  | arr => andRotate
  | mnemonic => fun registers value => some (mnemonic.operation.use registers value)

/-- No use of an operand leaves a word. -/
theorem useChecked_eq (mnemonic : Mnemonic) (registers : Registers) (value : UInt8) :
    mnemonic.useChecked registers value = some (mnemonic.operation.use registers value) := by
  cases mnemonic with
  | adc => exact addToA_eq registers value
  | rra => exact addToA_eq registers value
  | sbc => exact subtractFromA_eq registers value
  | isb => exact subtractFromA_eq registers value
  | arr => exact andRotate_eq registers value
  | _ => rfl

/-- The penalties of a branch are added up in a byte. -/
def performChecked (mnemonic : Mnemonic) (mode : Mode) (registers : Registers) :
    OptionT Transaction (Registers × Nat) :=
  match mnemonic.operation with
  | .consume _ => do
      let (location, registers) ← mode.locate registers
      let value ← location.operand.read registers
      let after ← need (mnemonic.useChecked registers value)
      return (after, location.penalty)
  | .modify change _ => do
      let (location, registers) ← mode.locate registers
      let (result, registers) ← Operation.modifyOperand change location.operand registers
      let after ← need (mnemonic.useChecked registers result)
      return (after, 0)
  | .branch flag on => do
      let (location, registers) ← mode.locate registers
      match location.operand.address?, registers.p.has flag == on with
      | some target, true => do
          let extra ← need (word 0x100 (1 + location.penalty))
          return ({ registers with pc := target }, extra)
      | _, _ => return (registers, 0)
  | operation => liftM (operation.perform mode registers)

/-- No operation leaves a word on its way. -/
theorem performChecked_eq (mnemonic : Mnemonic) (mode : Mode) (registers : Registers) :
    mnemonic.performChecked mode registers =
      liftM (mnemonic.operation.perform mode registers) := by
  have used := mnemonic.useChecked_eq
  rw [performChecked]
  split
  · rename_i use operation
    rw [operation] at used ⊢
    apply lift_bind
    intro ⟨location, found⟩
    apply lift_bind
    intro value
    rw [used]
    rfl
  · rename_i change use operation
    rw [operation] at used ⊢
    apply lift_bind
    intro ⟨location, found⟩
    apply lift_bind
    intro ⟨result, after⟩
    dsimp only
    rw [used]
    rfl
  · rename_i flag on operation
    rw [operation]
    apply lift_bind
    intro ⟨location, found⟩
    have penalty := location.penalty_le
    have fits : word 0x100 (1 + location.penalty) = some _ := word_fits (by omega)
    dsimp only
    rw [fits]
    cases location.operand.address? with
    | none => rfl
    | some target => cases found.p.has flag == on <;> rfl
  · rfl

end Mnemonic

namespace Instruction

/-- The penalties are added to the base cost in a byte. -/
def executeChecked (instruction : Instruction) (registers : Registers) :
    OptionT Transaction (Registers × Nat) := do
  let registers := { registers with pc := registers.pc.next }
  let handler := instruction.handler
  let (registers, extra) ← handler.runs.performChecked handler.mode registers
  let cycles ← need (word 0x100 (instruction.cycles + extra))
  return (registers, cycles)

/-- No valid instruction leaves a word on its way. -/
theorem executeChecked_eq {opcode : UInt8} (valid : (ofOpcode opcode).isValid = true)
    (registers : Registers) :
    (ofOpcode opcode).executeChecked registers =
      liftM ((ofOpcode opcode).execute registers) := by
  obtain ⟨_, most⟩ := ofOpcode_cost opcode valid
  rw [executeChecked, execute_ofOpcode, ofOpcode_handler]
  dsimp only
  rw [Mnemonic.performChecked_eq]
  apply ((ofOpcode opcode).mnemonic.operation.perform_extra (ofOpcode opcode).mode _).lift_bind
  intro ⟨after, extra⟩ bound
  change extra ≤ _ at bound
  have fits : word 0x100 ((ofOpcode opcode).cycles + extra) = some _ := word_fits (by omega)
  dsimp only
  rw [fits]
  rfl

end Instruction

namespace Processor

/-- The cycles of the instruction and of the interrupt are added up in a word of four bytes. -/
def stepChecked (processor : Processor) : OptionT Transaction (Except Fault Nat × Processor) := do
  let pc := processor.registers.pc
  let opcode ← readByte pc
  let instruction := Instruction.ofOpcode opcode
  if instruction.isValid then
    let (registers, spent) ← instruction.executeChecked processor.registers
    let (served, processor) ← { processor with registers }.serve
    let cycles ← need (word 0x100000000 (spent + served))
    return (.ok cycles, processor.spend cycles)
  else
    note (.halted opcode pc)
    return (.error (.invalidOpcode opcode pc), processor)

/-- No sum of a step traps. -/
theorem stepChecked_eq (processor : Processor) :
    processor.stepChecked = liftM processor.step := by
  rw [stepChecked]
  apply lift_bind
  intro opcode
  dsimp only
  split
  · rename_i valid
    rw [Instruction.executeChecked_eq valid]
    apply (Instruction.execute_cost valid processor.registers).lift_bind
    intro ⟨registers, spent⟩ cost
    apply ({ processor with registers }.serve_cost).lift_bind
    intro ⟨served, after⟩ entry
    change 2 ≤ spent ∧ spent ≤ 8 at cost
    change served = 0 ∨ served = 7 at entry
    have fits : word 0x100000000 (spent + served) = some _ := word_fits (by omega)
    dsimp only
    rw [fits]
    rfl
  · rfl

end Processor

end EightBit
