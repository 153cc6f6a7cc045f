import EightBit.Proofs.Execution.Rewrites
import EightBit.Proofs.Execution.Stack

/-
What an instruction writes, mnemonic by mnemonic. A store writes once and a change in memory twice,
where the operand lies; a few instructions push; and everything else writes nothing. The stack
pointer moves by the bytes that are pushed and pulled.
-/

namespace EightBit

open Transaction

namespace Mnemonic

/-- The instructions that store a byte as it is. -/
def stores : List Mnemonic := [sta, stx, sty, sax]

/-- The instructions that store a byte masked by the page of their operand. -/
def maskedStores : List Mnemonic := [sha, shx, shy, tas]

/-- What a store takes from the registers. -/
def source (registers : Registers) : Mnemonic → UInt8
  | stx | shx => registers.x
  | sty | shy => registers.y
  | sax | sha | tas => registers.aAndX
  | _ => registers.a

/-- What the instruction pushes, with the program counter past the opcode: a call saves the address
of its last byte, and a software interrupt that of the byte after the next one. -/
def pushed (registers : Registers) : Mnemonic → List UInt8
  | pha => [registers.a]
  | php => [registers.p.pushed true]
  | jsr => [registers.pc.next.hi, registers.pc.next.lo]
  | brk => Interrupt.break_.saved { registers with pc := registers.pc.next }
  | _ => []

/-- How many bytes the instruction pulls. -/
def pulled : Mnemonic → Nat
  | pla | plp => 1
  | rts => 2
  | rti => 3
  | _ => 0

/-- The instructions that load the stack pointer. -/
def stackLoaders : List Mnemonic := [txs, tas, las]

end Mnemonic

/-- The accesses begin with the reads that find the operand of the mode, and it lies at the
address. -/
def Mode.Reaches (mode : Mode) (registers : Registers) (accesses : List WatchHit)
    (location : Location) (address : Address) : Prop :=
  ∃ fetches found, mode.Located registers fetches location found ∧
    location.operand = .memory address ∧ fetches <+: accesses

namespace Instruction

/-- What an instruction writes, what it pulls, and where it leaves the stack pointer, with its
accesses after the one to the opcode. -/
structure WriteLaw (instruction : Instruction) (registers : Registers)
    (accesses : List WatchHit) (after : Registers) : Prop where
  stored : instruction.mnemonic ∈ Mnemonic.stores →
    ∃ location address, instruction.mode.Reaches registers accesses location address ∧
      writesIn accesses = [⟨.write, address, instruction.mnemonic.source registers⟩]
  masked : instruction.mnemonic ∈ Mnemonic.maskedStores →
    ∃ location address place byte, instruction.mode.Reaches registers accesses location address ∧
      (place, byte) = Operation.maskedStore (instruction.mnemonic.source registers)
        location.pageCrossed address ∧
      writesIn accesses = [⟨.write, place, byte⟩]
  rewritten : instruction.mnemonic ∈ Mnemonic.rewriters → instruction.mode ≠ .accumulator →
    ∃ location address value result,
      instruction.mode.Reaches registers accesses location address ∧
        writesIn accesses = [⟨.write, address, value⟩, ⟨.write, address, result⟩]
  inAccumulator : instruction.mode = .accumulator → writesIn accesses = []
  pushed :
    instruction.mnemonic ∉ Mnemonic.stores ++ Mnemonic.maskedStores ++ Mnemonic.rewriters →
      writesIn accesses = registers.s.pushes (instruction.mnemonic.pushed registers)
  pulled : instruction.mnemonic.pulled ≠ 0 →
    ∃ bytes, bytes.length = instruction.mnemonic.pulled ∧ accesses = registers.s.pulls bytes
  stack : instruction.mnemonic ∉ Mnemonic.stackLoaders →
    after.s = registers.s + UInt8.ofNat instruction.mnemonic.pulled -
      UInt8.ofNat (instruction.mnemonic.pushed registers).length

end Instruction

namespace Operation

/-- The operation writes to its operand. -/
def changesOperand : Operation → Bool
  | modify .. | store _ | storeMasked .. => true
  | _ => false

/-- What an operation in a mode pushes. -/
def pushed (mode : Mode) (registers : Registers) : Operation → List UInt8
  | call =>
      let last := (mode.pass registers).pc.retreat 1
      [last.hi, last.lo]
  | interrupt => Interrupt.break_.saved { registers with pc := registers.pc.next }
  | push source => [source registers]
  | _ => []

/-- The number of bytes that an operation pulls. -/
def pulled : Operation → Nat
  | returnFromCall => 2
  | returnFromInterrupt => 3
  | pull _ => 1
  | _ => 0

/-- What the operation computes leaves the stack pointer alone. -/
def SparesStack : Operation → Prop
  | consume use | modify _ use | storeMasked _ use | pull use =>
      ∀ registers value, (use registers value).s = registers.s
  | compute change => ∀ registers, (change registers).s = registers.s
  | _ => True

namespace Performed

variable {operation : Operation} {mode : Mode} {registers after : Registers}
  {accesses : List WatchHit} {extra : Nat}

/-- Where an operand is only read, all writes are pushes. -/
theorem writes (performed : Performed mode registers operation accesses after extra)
    (reads : operation.changesOperand = false) :
    writesIn accesses = registers.s.pushes (operation.pushed mode registers) := by
  have entry : Interrupt.break_ ≠ .reset := nofun
  cases performed with
  | @consume _ _ uses location _ found read =>
      rw [writesIn_after found.onlyReads]
      obtain ⟨operand, crossed⟩ := location
      cases operand with
      | accumulator =>
          obtain ⟨rfl, _⟩ := read
          rfl
      | memory address =>
          obtain ⟨_, _, rfl, rfl, _⟩ := read
          rfl
  | branchTaken found operand holds => exact writesIn_reads found.onlyReads
  | branchPassed found passed => exact writesIn_reads found.onlyReads
  | jump found => exact writesIn_reads found.onlyReads
  | call found saved =>
      obtain ⟨rfl, _⟩ := pushAddress_of_yields saved
      rw [writesIn_after found.onlyReads]
      exact StackPointer.writesIn_pushes ..
  | returnFromCall taken =>
      obtain ⟨low, high, rfl, _⟩ := pullAddress_of_yields taken
      exact StackPointer.writesIn_pulls ..
  | returnFromInterrupt flags taken =>
      obtain ⟨rfl, _⟩ := pull_of_yields flags
      obtain ⟨low, high, rfl, _⟩ := pullAddress_of_yields taken
      rw [writesIn_append, StackPointer.writesIn_pulls, StackPointer.writesIn_pulls]
      rfl
  | interrupt entered =>
      obtain ⟨low, high, rfl, _⟩ := Interrupt.handler_of_yields entry entered
      rw [writesIn_append, StackPointer.writesIn_pushes, Interrupt.writesIn_vectorReads,
        List.append_nil]
      rfl
  | compute change => rfl
  | push source => rfl
  | pull use value => rfl
  | halt => rfl
  | _ => cases reads

/-- What pulls makes no other access. -/
theorem pulls (performed : Performed mode registers operation accesses after extra)
    (some : operation.pulled ≠ 0) :
    ∃ bytes, bytes.length = operation.pulled ∧ accesses = registers.s.pulls bytes := by
  cases performed with
  | returnFromCall taken =>
      obtain ⟨low, high, rfl, _⟩ := pullAddress_of_yields taken
      exact ⟨[low, high], rfl, rfl⟩
  | @returnFromInterrupt _ _ status _ _ _ flags taken =>
      obtain ⟨rfl, rfl⟩ := pull_of_yields flags
      obtain ⟨low, high, rfl, _⟩ := pullAddress_of_yields taken
      exact ⟨[status, low, high], rfl, rfl⟩
  | pull use value => exact ⟨[value], rfl, rfl⟩
  | _ => exact absurd rfl some

/-- The stack pointer moves by the bytes that are pulled and pushed. -/
theorem stack (performed : Performed mode registers operation accesses after extra)
    (spares : operation.SparesStack) :
    after.s = registers.s + UInt8.ofNat operation.pulled -
      UInt8.ofNat (operation.pushed mode registers).length := by
  have still : registers.s = registers.s + 0 - 0 := by grind
  have entry : Interrupt.break_ ≠ .reset := nofun
  cases performed with
  | consume found read => exact (spares _ _).trans still
  | modify found modified =>
      refine (spares _ _).trans ?_
      rcases modified_of_yields modified with ⟨_, _, _, rfl⟩ | ⟨_, _, _, _, _, rfl⟩
      · exact still
      · exact still
  | @store _ _ _ location _ found stored =>
      obtain ⟨operand, crossed⟩ := location
      cases operand with
      | accumulator =>
          obtain ⟨_, rfl⟩ := stored
          exact still
      | memory address =>
          obtain ⟨_, _, _, rfl⟩ := stored
          exact still
  | storeMasked found operand => exact (spares _ _).trans still
  | storeNowhere found operand => exact (spares _ _).trans still
  | compute change => exact (spares _).trans still
  | call found saved =>
      obtain ⟨_, rfl⟩ := pushAddress_of_yields saved
      change registers.s - 2 = registers.s + 0 - 2
      grind
  | returnFromCall taken =>
      obtain ⟨_, _, _, _, rfl⟩ := pullAddress_of_yields taken
      change registers.s + 2 = registers.s + 2 - 0
      grind
  | returnFromInterrupt flags taken =>
      obtain ⟨_, rfl⟩ := pull_of_yields flags
      obtain ⟨_, _, _, _, rfl⟩ := pullAddress_of_yields taken
      change registers.s + 1 + 2 = registers.s + 3 - 0
      grind
  | interrupt entered =>
      obtain ⟨_, _, _, rfl⟩ := Interrupt.handler_of_yields entry entered
      change registers.s - 3 = registers.s + 0 - 3
      grind
  | push source =>
      change registers.s - 1 = registers.s + 0 - 1
      grind
  | pull use value =>
      refine (spares _ _).trans ?_
      change registers.s + 1 = registers.s + 1 - 0
      grind
  | _ => exact still

/-- An operand in memory is stored once. -/
theorem stores {source : Registers → UInt8}
    (performed : Performed mode registers (.store source) accesses after extra)
    (addressed : mode.Addressed) :
    ∃ location address, mode.Reaches registers accesses location address ∧
      writesIn accesses = [⟨.write, address, source (mode.pass registers)⟩] := by
  cases performed with
  | store found stored =>
      obtain ⟨address, operand⟩ := found.addressed addressed
      rw [operand] at stored
      obtain ⟨_, rfl, rfl, rfl⟩ := stored
      refine ⟨_, address, ⟨_, _, found.located, operand, List.prefix_append ..⟩, ?_⟩
      exact writesIn_after found.onlyReads _

/-- A masked store writes once, at the masked place. -/
theorem storesMasked {source : Registers → UInt8} {keep : Registers → UInt8 → Registers}
    (performed : Performed mode registers (.storeMasked source keep) accesses after extra)
    (addressed : mode.Addressed) :
    ∃ location address place byte, mode.Reaches registers accesses location address ∧
      (place, byte) = maskedStore (source (mode.pass registers)) location.pageCrossed address ∧
        writesIn accesses = [⟨.write, place, byte⟩] := by
  cases performed with
  | storeMasked found operand =>
      refine ⟨_, _, _, _, ⟨_, _, found.located, operand, List.prefix_append ..⟩, rfl, ?_⟩
      exact writesIn_after found.onlyReads _
  | storeNowhere found operand =>
      obtain ⟨address, named⟩ := found.addressed addressed
      cases operand.symm.trans named

end Performed

end Operation

/-- The rotation of a conjunction changes the accumulator and the status. -/
theorem Registers.andRotate_frame (registers : Registers) (value : UInt8) :
    registers.andRotate value =
      { registers with
        a := (registers.andRotate value).a
        p := (registers.andRotate value).p } := by
  unfold andRotate
  dsimp only
  split <;> rfl

namespace Mnemonic

variable {mnemonic : Mnemonic}

/-- The mnemonics that store write the register that they name. -/
theorem operation_stores (stores : mnemonic ∈ stores) :
    mnemonic.operation = .store fun registers => mnemonic.source registers := by
  cases mnemonic <;> first
    | rfl
    | exact absurd stores (by decide)

/-- What a masked store stores from, and what it keeps of it. -/
theorem operation_maskedStores (stores : mnemonic ∈ maskedStores) :
    ∃ keep : Registers → UInt8 → Registers,
      mnemonic.operation = .storeMasked (fun registers => mnemonic.source registers) keep ∧
        ∀ registers, keep registers (mnemonic.source registers) =
          { registers with
            s := if mnemonic = .tas then registers.a &&& registers.x else registers.s } := by
  cases mnemonic <;> first
    | exact ⟨_, rfl, fun _ => rfl⟩
    | exact absurd stores (by decide)

/-- All other mnemonics leave their operand as it is. -/
theorem operation_reads (reads : mnemonic ∉ stores ++ maskedStores ++ rewriters) :
    mnemonic.operation.changesOperand = false := by
  cases mnemonic <;> first
    | rfl
    | exact absurd (by decide) reads

/-- Operation and mnemonic agree on the number of pulled bytes. -/
theorem operation_pulled (mnemonic : Mnemonic) : mnemonic.operation.pulled = mnemonic.pulled := by
  cases mnemonic <;> rfl

/-- Only the mnemonics that load the stack pointer set it otherwise. -/
theorem operation_sparesStack (spares : mnemonic ∉ stackLoaders) :
    mnemonic.operation.SparesStack := by
  cases mnemonic with
  | arr => exact fun registers value => by rw [registers.andRotate_frame value]
  | txs | tas | las => exact absurd (by decide) spares
  | _ =>
      first
      | exact trivial
      | exact fun _ _ => rfl
      | exact fun _ => rfl

/-- The last byte of a call is the second one after the opcode. -/
theorem operation_pushed {mode : Mode} (call : mnemonic = jsr → mode = .absolute)
    (registers : Registers) :
    mnemonic.operation.pushed mode registers = mnemonic.pushed registers := by
  cases mnemonic with
  | jsr =>
      rw [call rfl]
      have last : (Mode.absolute.pass registers).pc.retreat 1 = registers.pc.next := by
        rw [Mode.pass_next_next rfl]
        change registers.pc + 1 + 1 - 1 = registers.pc + 1
        grind
      rw [operation, Operation.pushed, last]
      rfl
  | _ => rfl

end Mnemonic

namespace Instruction

/-- The operand of a store lies in memory, what changes the accumulator is a shift or a rotation,
and a call names its target by two bytes. -/
structure Storing (instruction : Instruction) : Prop where
  stores : instruction.mnemonic ∈ Mnemonic.stores ++ Mnemonic.maskedStores →
    instruction.mode.Addressed
  shifts : instruction.mode = .accumulator → instruction.mnemonic ∈ Mnemonic.inPlace
  call : instruction.mnemonic = .jsr → instruction.mode = .absolute

/-- Every entry of the table has a mode that its stores and calls can use. -/
theorem ofOpcode_storing (opcode : UInt8) : (ofOpcode opcode).Storing := by
  refine ofOpcode_forall Storing (fun high low => ⟨?_, ?_, ?_⟩) opcode
  · revert high low
    decide
  · revert high low
    decide
  · revert high low
    decide

/-- Outside the accumulator an instruction that rewrites writes twice at one address. -/
theorem RewriteLaw.writes {instruction : Instruction} {registers after : Registers}
    {accesses : List WatchHit} (law : instruction.RewriteLaw registers accesses after)
    (elsewhere : instruction.mode ≠ .accumulator) :
    ∃ location address value result,
      instruction.mode.Reaches registers accesses location address ∧
        writesIn accesses = [⟨.write, address, value⟩, ⟨.write, address, result⟩] := by
  obtain ⟨fetches, location, found, address, value, result, _, located, operand, rfl, _⟩ :=
    law.memory elsewhere
  refine ⟨location, address, value, result, ⟨_, _, located, operand, List.prefix_append ..⟩, ?_⟩
  exact writesIn_after located.onlyReads _

/-- What was performed obeys the law of writes. -/
theorem WriteLaw.of_performed {opcode : UInt8} {registers after : Registers}
    {accesses : List WatchHit} {extra : Nat}
    (performed : Operation.Performed (ofOpcode opcode).mode registers
      (ofOpcode opcode).mnemonic.operation accesses after extra) :
    (ofOpcode opcode).WriteLaw registers accesses after := by
  have storing := ofOpcode_storing opcode
  have pushed := Mnemonic.operation_pushed storing.call registers
  have pulled := (ofOpcode opcode).mnemonic.operation_pulled
  have rewrites (changes : (ofOpcode opcode).mnemonic ∈ Mnemonic.rewriters) :=
    RewriteLaw.of_performed changes (ofOpcode_rewriting changes) performed
  refine ⟨fun stores => ?_, fun stores => ?_, fun changes => (rewrites changes).writes,
    fun accumulator => ?_, fun reads => ?_, fun some => ?_, fun spares => ?_⟩
  · rw [Mnemonic.operation_stores stores] at performed
    exact performed.stores (storing.stores (List.mem_append_left _ stores))
  · obtain ⟨keep, operation, _⟩ := Mnemonic.operation_maskedStores stores
    rw [operation] at performed
    exact performed.storesMasked (storing.stores (List.mem_append_right _ stores))
  · have changes : (ofOpcode opcode).mnemonic ∈ Mnemonic.rewriters :=
      List.mem_append_left _ (storing.shifts accumulator)
    rw [((rewrites changes).accumulator accumulator).1]
    rfl
  · rw [← pushed]
    exact performed.writes (Mnemonic.operation_reads reads)
  · rw [← pulled] at some ⊢
    exact performed.pulls some
  · rw [← pushed, ← pulled]
    exact performed.stack (Mnemonic.operation_sparesStack spares)

end Instruction

end EightBit
