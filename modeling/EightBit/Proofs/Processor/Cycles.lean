import EightBit.Proofs.Bus.Flat
import EightBit.Proofs.Execution.Fetch
import EightBit.Proofs.Execution.Performed
import EightBit.Proofs.Processor.Step

/-
What a step costs. An instruction costs what the table says, one cycle more if it only reads its
operand and indexing led into another page, and one or two more if it is a branch that is taken. The
entry into a handler costs seven. Nothing else makes a difference.
-/

namespace EightBit

open Transaction

namespace Mnemonic

/-- The mnemonics that read an indexed operand and write nothing. -/
def readers : List Mnemonic := [adc, and, cmp, eor, lda, ldx, ldy, ora, sbc, lax, las, nop]

/-- The stores, and the mnemonics that change a byte in its place. -/
def writers : List Mnemonic :=
  [sta, stx, sty, sax, sha, shx, shy, tas, asl, lsr, rol, ror, inc, dec, slo, rla, sre, rra, dcp,
    isb]

/-- The flag that a branch looks at, and how the flag stands when the branch is taken. -/
def condition? : Mnemonic → Option (Flag × Bool)
  | bpl => some (.negative, false)
  | bmi => some (.negative, true)
  | bvc => some (.overflow, false)
  | bvs => some (.overflow, true)
  | bcc => some (.carry, false)
  | bcs => some (.carry, true)
  | bne => some (.zero, false)
  | beq => some (.zero, true)
  | _ => none

/-- A branch that is taken costs a cycle, and another one if its target is in another page than the
instruction after it. -/
def branchCost (mnemonic : Mnemonic) (status : Status) (location : Location) : Nat :=
  match mnemonic.condition? with
  | none => 0
  | some (flag, on) => if status.has flag = on then 1 + location.penalty else 0

end Mnemonic

/-- The modes that add an index to a base of two bytes. -/
def Mode.indexed : List Mode := [absoluteX, absoluteY, indirectIndexed]

/-- Where the operand is only read, it costs a cycle if the index leads into another page. -/
def Instruction.pageCost (instruction : Instruction) (location : Location) : Nat :=
  if instruction.mnemonic ∈ Mnemonic.readers ∧ instruction.mode ∈ Mode.indexed then location.penalty
  else 0

/-- Only an indexed operand, or a branch, leads into another page. -/
theorem Mode.Finds.penalty_eq_zero {mode : Mode} {registers : Registers} {reads : List WatchHit}
    {location : Location} (found : mode.Finds registers reads location)
    (plain : mode ∉ Mode.indexed) (straight : mode ≠ .relative) : location.penalty = 0 := by
  cases found with
  | relative displacement => exact absurd rfl straight
  | absoluteX low high => exact absurd (by decide) plain
  | absoluteY low high => exact absurd (by decide) plain
  | indirectIndexed offset low high => exact absurd (by decide) plain
  | _ => rfl

/-- The target of a branch is an address. -/
theorem Mode.Finds.relative_operand {registers : Registers} {reads : List WatchHit}
    {location : Location} (found : Mode.relative.Finds registers reads location) :
    location.operand ≠ .accumulator := by
  cases found with
  | relative displacement => exact Operand.noConfusion

namespace Operation

/-- The flag that a branch tests, and the value that it waits for. -/
def condition? : Operation → Option (Flag × Bool)
  | branch flag on => some (flag, on)
  | _ => none

/-- The cycles on top of the base cost, from the place of the operand. -/
def extra (status : Status) (location : Location) : Operation → Nat
  | consume _ => location.penalty
  | branch flag on =>
      if location.operand ≠ .accumulator ∧ status.has flag = on then 1 + location.penalty else 0
  | _ => 0

/-- What has no operand bytes to find has an implied operand. -/
theorem Performed.place {operation : Operation} {mode : Mode} {registers after : Registers}
    {accesses : List WatchHit} {extra : Nat}
    (performed : Performed mode registers operation accesses after extra)
    (placed : operation.locates = true ∨ mode = .implied) :
    ∃ reads location, mode.Finds registers reads location ∧ reads <+: accesses ∧
      extra = operation.extra registers.p location := by
  have unplaced : operation.locates = false →
      mode.Finds registers [] .accumulator := fun none => by
    rw [placed.resolve_left (Bool.eq_false_iff.mp none)]
    exact .implied
  cases performed with
  | consume found => exact ⟨_, _, found, List.prefix_append .., rfl⟩
  | modify found => exact ⟨_, _, found, List.prefix_append .., rfl⟩
  | store found => exact ⟨_, _, found, List.prefix_append .., rfl⟩
  | storeMasked found => exact ⟨_, _, found, List.prefix_append .., rfl⟩
  | storeNowhere found => exact ⟨_, _, found, List.prefix_rfl, rfl⟩
  | branchTaken found operand holds =>
      exact ⟨_, _, found, List.prefix_rfl, (if_pos ⟨by rw [operand]; nofun, holds⟩).symm⟩
  | branchPassed found passed =>
      refine ⟨_, _, found, List.prefix_rfl, (if_neg ?_).symm⟩
      rintro ⟨addressed, holds⟩
      exact passed.elim addressed fun fails => fails holds
  | jump found => exact ⟨_, _, found, List.prefix_rfl, rfl⟩
  | call found => exact ⟨_, _, found, List.prefix_append .., rfl⟩
  | compute change => exact ⟨[], _, unplaced rfl, List.nil_prefix, rfl⟩
  | returnFromCall => exact ⟨[], _, unplaced rfl, List.nil_prefix, rfl⟩
  | returnFromInterrupt => exact ⟨[], _, unplaced rfl, List.nil_prefix, rfl⟩
  | interrupt => exact ⟨[], _, unplaced rfl, List.nil_prefix, rfl⟩
  | push source => exact ⟨[], _, unplaced rfl, List.nil_prefix, rfl⟩
  | pull use value => exact ⟨[], _, unplaced rfl, List.nil_prefix, rfl⟩
  | halt => exact ⟨[], _, unplaced rfl, List.nil_prefix, rfl⟩

end Operation

/-- Operation and mnemonic agree on the condition of a branch. -/
theorem Mnemonic.condition?_operation (mnemonic : Mnemonic) :
    mnemonic.operation.condition? = mnemonic.condition? := by
  cases mnemonic <;> rfl

namespace Instruction

/-- Whether the place of the operand may cost something. -/
structure Priced (instruction : Instruction) : Prop where
  placed : instruction.mnemonic.operation.locates = true ∨ instruction.mode = .implied
  read : instruction.mnemonic ∈ Mnemonic.readers →
    instruction.mnemonic.operation.consumes = true
  consumed : instruction.mnemonic.operation.consumes = true →
    instruction.mode ≠ .relative ∧
      (instruction.mnemonic ∈ Mnemonic.readers ∨ instruction.mode ∉ Mode.indexed)
  branch : instruction.mnemonic.condition? ≠ none → instruction.mode = .relative

/-- What writes to its operand pays nothing for the place of it. -/
theorem cost_of_writer {instruction : Instruction}
    (writer : instruction.mnemonic ∈ Mnemonic.writers) (status : Status) (location : Location) :
    instruction.pageCost location = 0 ∧ instruction.mnemonic.branchCost status location = 0 := by
  have apart :
      instruction.mnemonic ∉ Mnemonic.readers ∧ instruction.mnemonic.condition? = none := by
    revert writer
    cases instruction.mnemonic <;> decide
  constructor
  · exact if_neg fun both => apart.1 both.1
  · rw [Mnemonic.branchCost, apart.2]

/-- Every entry of the table is priced by the rule. -/
theorem ofOpcode_priced (opcode : UInt8) : (ofOpcode opcode).Priced := by
  refine ofOpcode_forall Priced (fun high low => ⟨?_, ?_, ?_, ?_⟩) opcode
  · revert high low
    decide
  · revert high low
    decide
  · revert high low
    decide
  · revert high low
    decide

/-- The place of the operand costs what the mnemonic and the mode say. -/
theorem Priced.extra_eq {instruction : Instruction} (priced : instruction.Priced)
    {registers : Registers} {reads : List WatchHit} {location : Location}
    (found : instruction.mode.Finds registers reads location) :
    instruction.mnemonic.operation.extra registers.p location =
      instruction.pageCost location + instruction.mnemonic.branchCost registers.p location := by
  have condition := instruction.mnemonic.condition?_operation
  have read := priced.read
  have consumed := priced.consumed
  have relative := priced.branch
  rw [← condition] at relative
  rw [pageCost, Mnemonic.branchCost, ← condition]
  generalize instruction.mnemonic.operation = operation at read consumed relative ⊢
  cases operation with
  | consume use =>
      obtain ⟨straight, plain⟩ := consumed rfl
      change location.penalty = _ + 0
      split
      · rfl
      · rename_i other
        refine found.penalty_eq_zero (fun indexed => ?_) straight
        exact other ⟨plain.resolve_right fun unindexed => unindexed indexed, indexed⟩
  | branch flag on =>
      have free : ¬(instruction.mnemonic ∈ Mnemonic.readers ∧ instruction.mode ∈ Mode.indexed) :=
        fun ⟨reader, _⟩ => nomatch read reader
      rw [relative nofun] at found
      rw [if_neg free, Nat.zero_add]
      simp only [Operation.extra, Operation.condition?, found.relative_operand, ne_eq,
        not_false_eq_true, true_and]
  | _ =>
      have free : ¬(instruction.mnemonic ∈ Mnemonic.readers ∧ instruction.mode ∈ Mode.indexed) :=
        fun ⟨reader, _⟩ => nomatch read reader
      rw [if_neg free]
      rfl

end Instruction

namespace Processor

variable {M : Type} [Memory M]

/-- In front of the accesses of an instruction stands the one to its opcode, and behind them stand
those of the entry into a handler. -/
theorem accesses_step {processor : Processor} {memory fetched middle : M} {opcode : UInt8}
    {after : Registers} {spent : Nat}
    (read : Memory.read memory processor.registers.pc = .ok (opcode, fetched))
    (valid : (Instruction.ofOpcode opcode).isValid)
    (executed : ((Instruction.ofOpcode opcode).execute processor.registers).run fetched =
      .ok ((after, spent), middle)) :
    processor.step.accesses memory = ⟨.read, processor.registers.pc, opcode⟩ ::
      (((Instruction.ofOpcode opcode).execute processor.registers).accesses fetched ++
        { processor with registers := after }.serve.accesses middle) := by
  rw [step_fetch, accesses_read read, if_pos valid, accesses_bind _ _ executed]
  exact congrArg (fun actions => _ :: (_ ++ actions.filterMap Action.access?))
    (trace_finish { processor with registers := after }.serve _ middle)

/-- The accesses of a step begin with the read of the opcode and those of the instruction. -/
theorem Executes.accesses {processor : Processor} {memory middle : M} {registers : Registers}
    {spent : Nat} (executes : processor.Executes memory registers spent middle) :
    ∃ opcode uses,
      ⟨.read, processor.registers.pc, opcode⟩ :: uses <+: processor.step.accesses memory ∧
        ((Instruction.ofOpcode opcode).execute processor.registers).Yields uses
          (registers, spent) := by
  obtain ⟨opcode, fetched, read, valid, executed⟩ := executes
  refine ⟨opcode, _, ?_, yields_of_run executed⟩
  rw [accesses_step read valid executed]
  exact List.cons_prefix_cons.mpr ⟨rfl, List.prefix_append ..⟩

/-- The cycles of the instruction at the program counter: what its entry in the table says, and
what the place of its operand adds, which is nothing where the operand is written. The operand is
found by reads that the step makes. -/
def Costs (processor : Processor) (memory : M) (cycles : Nat) : Prop :=
  ∃ opcode reads location,
    ⟨.read, processor.registers.pc, opcode⟩ :: reads <+: processor.step.accesses memory ∧
      (Instruction.ofOpcode opcode).mode.Finds
        { processor.registers with pc := processor.registers.pc.next } reads location ∧
      cycles = (Instruction.ofOpcode opcode).cycles +
        (Instruction.ofOpcode opcode).pageCost location +
        (Instruction.ofOpcode opcode).mnemonic.branchCost processor.registers.p location ∧
      ((Instruction.ofOpcode opcode).mnemonic ∈ Mnemonic.writers →
        cycles = (Instruction.ofOpcode opcode).cycles)

/-- An instruction costs its base cost, its penalty and what a branch takes. -/
theorem Executes.costs {processor : Processor} {memory middle : M} {registers : Registers}
    {spent : Nat} (executes : processor.Executes memory registers spent middle) :
    processor.Costs memory spent := by
  obtain ⟨opcode, uses, first, yields⟩ := executes.accesses
  obtain ⟨extra, total, performed⟩ := Instruction.performed_of_yields yields
  have priced := Instruction.ofOpcode_priced opcode
  obtain ⟨reads, location, found, start, added⟩ := performed.place priced.placed
  rw [priced.extra_eq found] at added
  refine ⟨opcode, reads, location, ?_, found, ?_, fun writer => ?_⟩
  · exact (List.cons_prefix_cons.mpr ⟨rfl, start⟩).trans first
  · rw [total, added, Nat.add_assoc]
  · obtain ⟨page, branch⟩ := Instruction.cost_of_writer writer processor.registers.p location
    rw [total, added, page, Nat.zero_add]
    exact congrArg (_ + ·) branch

/-- The cycles of a step are those of its instruction and those of the entry into a handler, and the
counter moves on by as many. -/
structure CycleLaw (processor : Processor) (memory : M) (cycles : Nat) (after : Processor) :
    Prop where
  costs : ∃ spent, processor.Costs memory spent ∧
    cycles = spent + if takenIn (processor.step.trace memory) = [] then 0 else 7
  counted : after.cycles = processor.cycles + UInt64.ofNat cycles

/-- Whatever the memory is, a step that succeeds takes exactly the cycles of the table, the page
crossed by an indexed read, the branch taken and the handler entered. -/
theorem step_cycles {processor after : Processor} {memory later : M} {cycles : Nat}
    (served : processor.step.run memory = .ok ((.ok cycles, after), later)) :
    processor.CycleLaw memory cycles after := by
  generalize order : takenIn (processor.step.trace memory) = taken
  have stepped := run_step served
  rw [order] at stepped
  cases stepped with
  | plain executes idle => exact ⟨⟨_, executes.costs, by rw [order]; rfl⟩, rfl⟩
  | taken executes chosen entered => exact ⟨⟨_, executes.costs, by rw [order]; rfl⟩, rfl⟩

/-- A processor at the bottom of memory, with the largest index in X. -/
def atBottom : Processor := { initial with registers := { Registers.initial with x := 0xff } }

/-- Everywhere is the opcode that loads the accumulator from an absolute address plus X. From
`$BDBD` the index leads into the page of `$BEBC`: five cycles instead of four. -/
theorem step_cycles_page_crossed :
    ∃ after,
      atBottom.step.run (FlatMemory.filled 0xbd) = .ok ((.ok 5, after), FlatMemory.filled 0xbd) ∧
        atBottom.CycleLaw (FlatMemory.filled 0xbd) 5 after := by
  have served : atBottom.step.run (FlatMemory.filled 0xbd) =
      .ok ((.ok 5, spend ⟨⟨0xbd, 0xff, 0, Status.initial.describe 0xbd, 3, 255⟩, 0, .none⟩ 5),
        FlatMemory.filled 0xbd) := by
    refine (FlatMemory.run_read _ _ _).trans ?_
    rw [FlatMemory.get_filled]
    refine (FlatMemory.run_read _ _ _).trans ?_
    rw [FlatMemory.get_filled]
    refine (FlatMemory.run_read _ _ _).trans ?_
    rw [FlatMemory.get_filled]
    refine (FlatMemory.run_read _ _ _).trans ?_
    rw [FlatMemory.get_filled]
    rfl
  exact ⟨_, served, step_cycles served⟩

end Processor

end EightBit
