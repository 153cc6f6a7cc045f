import EightBit.Proofs.Bus.Flat
import EightBit.Proofs.Execution.Fetch
import EightBit.Proofs.Execution.Performed

/-
What instructions tell in the flags. Zero and negative describe the byte that an instruction leaves
as its result, a comparison tells the order of two bytes, and every other flag is only changed by
the few instructions that are there for it.
-/

namespace EightBit

open Transaction

/-- A byte is negative if its top bit is set. -/
theorem Arithmetic.isNegative_eq_testBit (value : UInt8) :
    isNegative value = value.toNat.testBit 7 := by
  have every : ∀ index : Fin 256,
      isNegative (.ofFin index) = (UInt8.ofFin index).toNat.testBit 7 := by decide +kernel
  exact every value.toFin

namespace Status

/-- Zero tells whether the byte is zero, and negative is its bit 7. -/
structure Describes (status : Status) (byte : UInt8) : Prop where
  zero : status.zero = (byte == 0)
  negative : status.negative = byte.toNat.testBit 7

/-- Carry tells whether the left byte is at least the right one, both without sign; zero and
negative describe the difference. -/
structure Compares (status : Status) (left right : UInt8) : Prop where
  carry : status.carry = decide (right.toNat ≤ left.toNat)
  difference : status.Describes (left - right)

/-- A status that is made from a byte describes it. -/
theorem describes_describe (status : Status) (byte : UInt8) :
    (status.describe byte).Describes byte := ⟨rfl, Arithmetic.isNegative_eq_testBit byte⟩

/-- A status is known by its flags. -/
theorem ext_has {first second : Status} (same : ∀ flag, first.has flag = second.has flag) :
    first = second := by
  obtain ⟨n, v, u, b, d, i, z, c⟩ := first
  cases same .negative
  cases same .overflow
  cases same .reserved
  cases same .breakMark
  cases same .decimal
  cases same .interruptDisable
  cases same .zero
  cases same .carry
  rfl

/-- Setting a flag leaves the others alone. -/
theorem has_set_ne {flag other : Flag} (apart : flag ≠ other) (status : Status) (on : Bool) :
    (status.set other on).has flag = status.has flag := by
  cases other <;> cases flag <;> first | rfl | exact absurd rfl apart

end Status

/-- The registers that hold the results of instructions. -/
inductive ResultRegister where
  | a
  | x
  | y

namespace ResultRegister

/-- The value of the register that holds a result. -/
def get (registers : Registers) : ResultRegister → UInt8
  | a => registers.a
  | x => registers.x
  | y => registers.y

open Mnemonic in
/-- The instructions with their result in the register. -/
def loaders : ResultRegister → List Mnemonic
  | a => [lda, lax, las, lxa, txa, tya, pla, and, ora, eor, adc, sbc, alr, anc, xaa, slo, rla, sre,
      rra, isb]
  | x => [ldx, lax, las, lxa, tax, tsx, inx, dex, axs]
  | y => [ldy, tay, iny, dey]

end ResultRegister

namespace Mnemonic

/-- The result goes where the operand was. -/
def inPlace : List Mnemonic := [asl, lsr, rol, ror, inc, dec]

/-- What is compared with the operand. -/
def compared? (registers : Registers) : Mnemonic → Option UInt8
  | cmp | dcp => some registers.a
  | cpx => some registers.x
  | cpy => some registers.y
  | axs => some (registers.a &&& registers.x)
  | _ => none

/-- The stores, jumps, branches and pushes, and what else leaves all flags alone. -/
def flagless : List Mnemonic :=
  [sta, stx, sty, sax, sha, shx, shy, tas, jmp, jsr, rts, bpl, bmi, bvc, bvs, bcc, bcs, bne, beq,
    pha, php, txs, nop]

end Mnemonic

open Mnemonic in
/-- The instructions that may change the flag. -/
def Flag.changers : Flag → List Mnemonic
  | interruptDisable => [cli, sei, plp, rti, brk]
  | decimal => [cld, sed, plp, rti]
  | overflow => [adc, sbc, rra, isb, .bit, clv, plp, rti]
  | carry => [adc, sbc, cmp, cpx, cpy, asl, lsr, rol, ror, alr, anc, axs, slo, rla, sre, rra, dcp,
      isb, clc, sec, plp, rti]
  | zero | negative => ResultRegister.loaders .a ++ ResultRegister.loaders .x ++
      ResultRegister.loaders .y ++ inPlace ++ [cmp, cpx, cpy, dcp, .bit, plp, rti]
  | reserved | breakMark => [plp, rti]

/-- The modes that name a place in memory. -/
def Mode.Addressed (mode : Mode) : Prop := mode ≠ .accumulator ∧ mode ≠ .implied

instance (mode : Mode) : Decidable mode.Addressed := inferInstanceAs (Decidable (_ ∧ _))

/-- A mode with an address finds its operand in memory. -/
theorem Mode.Finds.addressed {mode : Mode} {registers : Registers} {reads : List WatchHit}
    {location : Location} (found : mode.Finds registers reads location)
    (addressed : mode.Addressed) : ∃ address, location.operand = .memory address := by
  cases found with
  | accumulator => exact absurd rfl addressed.1
  | implied => exact absurd rfl addressed.2
  | _ => exact ⟨_, rfl⟩

/-- Reads find the operand of the instruction in memory, and the last access reads or writes this
byte there. -/
def Mode.Finishes (mode : Mode) (registers : Registers) (accesses : List WatchHit)
    (access : Access) (byte : UInt8) : Prop :=
  ∃ reads location address, mode.Finds registers reads location ∧
    location.operand = .memory address ∧ reads <+: accesses ∧
      accesses.getLast? = some ⟨access, address, byte⟩

/-- What the flags tell after an instruction. -/
structure Instruction.FlagLaw (instruction : Instruction) (registers : Registers)
    (accesses : List WatchHit) (after : Registers) : Prop where
  loaded : ∀ register : ResultRegister, instruction.mnemonic ∈ register.loaders →
    after.p.Describes (register.get after)
  inPlace : instruction.mnemonic ∈ Mnemonic.inPlace →
    if instruction.mode = .accumulator then after.p.Describes after.a
    else ∃ byte, instruction.mode.Finishes registers accesses .write byte ∧
      after.p.Describes byte
  compared : ∀ left, instruction.mnemonic.compared? registers = some left →
    ∃ right, instruction.mode.Finishes registers accesses
        (if instruction.mnemonic = .dcp then .write else .read) right ∧
      after.p.Compares left right
  tested : instruction.mnemonic = .bit →
    ∃ byte, instruction.mode.Finishes registers accesses .read byte ∧
      after.p.zero = (registers.a &&& byte == 0) ∧ after.p.negative = byte.toNat.testBit 7 ∧
        after.p.overflow = byte.toNat.testBit 6
  spared : ∀ flag, instruction.mnemonic ∉ flag.changers →
    after.p.has flag = registers.p.has flag
  flagless : instruction.mnemonic ∈ Mnemonic.flagless → after.p = registers.p

namespace Operation

/-- What the operation computes leaves the flag alone. -/
def Spares (flag : Flag) : Operation → Prop
  | consume use => ∀ registers value, (use registers value).p.has flag = registers.p.has flag
  | modify change use =>
      (∀ status value, (change status value).2.has flag = status.has flag) ∧
        ∀ registers value, (use registers value).p.has flag = registers.p.has flag
  | storeMasked _ keep =>
      ∀ registers value, (keep registers value).p.has flag = registers.p.has flag
  | compute change => ∀ registers, (change registers).p.has flag = registers.p.has flag
  | returnFromInterrupt => False
  | interrupt => flag ≠ .interruptDisable
  | pull use => ∀ registers value, (use registers value).p.has flag = registers.p.has flag
  | _ => True

/-- What the operation computes is described if it goes to the register. -/
def Describes (register : ResultRegister) : Operation → Prop
  | consume use | modify _ use | pull use => ∀ registers value,
      (use registers value).p.Describes (register.get (use registers value))
  | compute change => ∀ registers,
      (change registers).p.Describes (register.get (change registers))
  | _ => False

/-- How the operation uses its operand last. -/
def lastAccess : Operation → Access
  | modify .. => .write
  | _ => .read

/-- The operation compares the byte with its operand, wherever that lies. -/
def Compares (registers : Registers) (left : UInt8) : Operation → Prop
  | consume use => ∀ pc value, (use { registers with pc } value).p.Compares left value
  | modify _ use => ∀ pc status value,
      (use { registers with pc, p := status } value).p.Compares left value
  | _ => False

namespace Performed

variable {operation : Operation} {mode : Mode} {registers after : Registers}
  {accesses : List WatchHit} {extra : Nat}

/-- An operation that spares a flag leaves it as it was. -/
theorem spares (performed : Performed mode registers operation accesses after extra) {flag : Flag}
    (spares : operation.Spares flag) : after.p.has flag = registers.p.has flag := by
  cases performed with
  | consume found read => exact spares _ _
  | modify found modified =>
      refine (spares.2 _ _).trans ?_
      rcases modified_of_yields modified with ⟨_, _, _, rfl⟩ | ⟨_, _, _, _, _, rfl⟩
      · exact spares.1 _ _
      · exact spares.1 _ _
  | @store _ _ _ location _ found stored =>
      obtain ⟨operand, crossed⟩ := location
      cases operand with
      | accumulator =>
          obtain ⟨_, rfl⟩ := stored
          rfl
      | memory address =>
          obtain ⟨_, _, _, rfl⟩ := stored
          rfl
  | storeMasked found operand => exact spares _ _
  | storeNowhere found operand => exact spares _ _
  | compute change => exact spares _
  | branchTaken found operand holds => rfl
  | branchPassed found passed => rfl
  | jump found => rfl
  | call found saved =>
      obtain ⟨_, _, _, _, _, rfl⟩ := saved
      rfl
  | returnFromCall taken =>
      obtain ⟨_, _, _, _, _, _, _, same⟩ := taken
      cases same
      rfl
  | returnFromInterrupt flags taken => exact spares.elim
  | interrupt entered =>
      obtain ⟨_, _, _, _, _, _, _, _, _, _, _, _, _, rfl⟩ := entered
      exact Status.has_set_ne spares _ _
  | push source => rfl
  | pull use value => exact spares _ _
  | halt => rfl

/-- After an operation that describes a register the flags are those of its value. -/
theorem describes (performed : Performed mode registers operation accesses after extra)
    {register : ResultRegister} (describes : operation.Describes register) :
    after.p.Describes (register.get after) := by
  cases performed with
  | consume found read => exact describes _ _
  | modify found modified => exact describes _ _
  | compute change => exact describes _
  | pull use value => exact describes _ _
  | _ => exact describes.elim

/-- An operand in memory is read once. -/
theorem consumed {use : Registers → UInt8 → Registers}
    (performed : Performed mode registers (.consume use) accesses after extra)
    (addressed : mode.Addressed) :
    ∃ value, mode.Finishes registers accesses .read value ∧
      after = use (mode.pass registers) value := by
  cases performed with
  | consume found read =>
      obtain ⟨address, operand⟩ := found.addressed addressed
      rw [operand] at read
      obtain ⟨_, _, rfl, rfl, rfl⟩ := read
      exact ⟨_, ⟨_, _, _, found, operand, List.prefix_append .., List.getLast?_concat ..⟩, rfl⟩

/-- An operand in memory is left with the result. -/
theorem modified {change : Modification} {use : Registers → UInt8 → Registers}
    (performed : Performed mode registers (.modify change use) accesses after extra)
    (addressed : mode.Addressed) :
    ∃ value, mode.Finishes registers accesses .write (change registers.p value).1 ∧
      after = use { mode.pass registers with p := (change registers.p value).2 }
        (change registers.p value).1 := by
  cases performed with
  | modify found modified =>
      obtain ⟨place, operand⟩ := found.addressed addressed
      rcases modified_of_yields modified with ⟨none, _⟩ | ⟨address, value, named, rfl, rfl, rfl⟩
      · cases operand.symm.trans none
      · refine ⟨value, ⟨_, _, address, found, named, List.prefix_append .., ?_⟩, rfl⟩
        rw [List.getLast?_append]
        rfl

/-- The accumulator is changed like an operand. -/
theorem modified_accumulator {change : Modification} {use : Registers → UInt8 → Registers}
    (performed : Performed .accumulator registers (.modify change use) accesses after extra) :
    ∃ changed : Registers, changed.p = (change registers.p registers.a).2 ∧
      changed.a = (change registers.p registers.a).1 ∧ after = use changed changed.a := by
  cases performed with
  | modify found modified =>
      cases found with
      | accumulator =>
          rcases modified_of_yields modified with ⟨_, _, rfl, rfl⟩ | ⟨_, _, named, _⟩
          · rw [Mode.pass_none rfl]
            exact ⟨_, rfl, rfl, rfl⟩
          · cases named

/-- What is compared with the operand is compared with the byte of the last access. -/
theorem compares (performed : Performed mode registers operation accesses after extra)
    (addressed : mode.Addressed) {left : UInt8} (compares : operation.Compares registers left) :
    ∃ right, mode.Finishes registers accesses (operation.lastAccess) right ∧
      after.p.Compares left right := by
  cases operation with
  | consume use =>
      obtain ⟨value, finishes, rfl⟩ := performed.consumed addressed
      exact ⟨value, finishes, compares _ _⟩
  | modify change use =>
      obtain ⟨value, finishes, rfl⟩ := performed.modified addressed
      exact ⟨_, finishes, compares _ _ _⟩
  | _ => exact compares.elim

end Performed

end Operation

/-- A mnemonic changes no flag but those that it is listed for. -/
theorem Mnemonic.operation_spares {mnemonic : Mnemonic} {flag : Flag}
    (unexcepted : mnemonic ≠ .arr) (other : mnemonic ∉ flag.changers) :
    mnemonic.operation.Spares flag := by
  cases flag <;> cases mnemonic <;> first
    | exact trivial
    | exact fun _ _ => rfl
    | exact fun _ => rfl
    | exact ⟨fun _ _ => rfl, fun _ _ => rfl⟩
    | exact Flag.noConfusion
    | contradiction

/-- The mnemonics that load a register describe it. -/
theorem Mnemonic.operation_describes {mnemonic : Mnemonic} {register : ResultRegister}
    (loads : mnemonic ∈ register.loaders) : mnemonic.operation.Describes register := by
  cases register <;> cases mnemonic <;> first
    | exact absurd loads (by decide)
    | exact fun _ _ => ⟨rfl, Arithmetic.isNegative_eq_testBit _⟩
    | exact fun _ => ⟨rfl, Arithmetic.isNegative_eq_testBit _⟩

/-- The mnemonics that compare a register do so. -/
theorem Mnemonic.operation_compares {mnemonic : Mnemonic} {registers : Registers} {left : UInt8}
    (compared : mnemonic.compared? registers = some left) :
    mnemonic.operation.Compares registers left := by
  cases mnemonic with
  | cmp | cpx | cpy | axs =>
      cases compared
      exact fun _ _ => ⟨rfl, rfl, Arithmetic.isNegative_eq_testBit _⟩
  | dcp =>
      cases compared
      exact fun _ _ _ => ⟨rfl, rfl, Arithmetic.isNegative_eq_testBit _⟩
  | _ => cases compared

/-- Only one comparison has changed its operand before. -/
theorem Mnemonic.compared_operand {mnemonic : Mnemonic} {registers : Registers} {left : UInt8}
    (compared : mnemonic.compared? registers = some left) :
    mnemonic ∈ [cmp, cpx, cpy, dcp, axs, bit] ∧
      mnemonic.operation.lastAccess = if mnemonic = dcp then .write else .read := by
  cases mnemonic with
  | cmp | cpx | cpy | dcp | axs => exact ⟨by decide, rfl⟩
  | _ => cases compared

/-- A change in place describes the byte that it makes. -/
theorem Mnemonic.operation_inPlace {mnemonic : Mnemonic} (changes : mnemonic ∈ inPlace) :
    ∃ change : Modification, mnemonic.operation = .modify change Registers.ignore ∧
      ∀ status value, (change status value).2.Describes (change status value).1 := by
  cases mnemonic <;> first
    | exact absurd changes (by decide)
    | exact ⟨_, rfl, fun _ _ => Status.describes_describe _ _⟩

namespace Instruction

/-- The operands that count for the flags are in memory, but for changes of the accumulator. -/
structure Placed (instruction : Instruction) : Prop where
  inPlace : instruction.mnemonic ∈ Mnemonic.inPlace →
    instruction.mode = .accumulator ∨ instruction.mode.Addressed
  compared : instruction.mnemonic ∈ [.cmp, .cpx, .cpy, .dcp, .axs, .bit] →
    instruction.mode.Addressed

/-- Every entry of the table has these operands where they count. -/
theorem ofOpcode_placed (opcode : UInt8) : (ofOpcode opcode).Placed := by
  refine ofOpcode_forall Placed (fun high low => ⟨?_, ?_⟩) opcode
  · revert high low
    decide
  · revert high low
    decide

/-- One opcode alone rotates with the decimal fix-ups. -/
theorem ofOpcode_arr {opcode : UInt8} (other : opcode ≠ 0x6b) :
    (ofOpcode opcode).mnemonic ≠ .arr := by
  have every : ∀ index : Fin 256,
      UInt8.ofFin index ≠ 0x6b → (ofOpcode (.ofFin index)).mnemonic ≠ .arr := by
    decide +kernel
  exact every opcode.toFin other

end Instruction

/-- The mnemonics without flags are listed for no flag. -/
theorem Mnemonic.unchanged_flagless {mnemonic : Mnemonic} (quiet : mnemonic ∈ flagless)
    (flag : Flag) : mnemonic ∉ flag.changers := by
  cases flag <;> cases mnemonic <;> first
    | exact absurd quiet (by decide)
    | decide

namespace Instruction

/-- What was performed obeys the law of the flags. -/
theorem FlagLaw.of_performed {instruction : Instruction} {registers after : Registers}
    {accesses : List WatchHit} {extra : Nat} (placed : instruction.Placed)
    (unexcepted : instruction.mnemonic ≠ .arr)
    (performed : Operation.Performed instruction.mode registers instruction.mnemonic.operation
      accesses after extra) : instruction.FlagLaw registers accesses after := by
  have spared : ∀ flag, instruction.mnemonic ∉ flag.changers →
      after.p.has flag = registers.p.has flag := fun flag other =>
    performed.spares (Mnemonic.operation_spares unexcepted other)
  refine ⟨fun register loads => ?_, fun changes => ?_, fun left compared => ?_, fun tests => ?_,
    spared, fun quiet => ?_⟩
  · exact performed.describes (Mnemonic.operation_describes loads)
  · obtain ⟨change, operation, describes⟩ := Mnemonic.operation_inPlace changes
    rw [operation] at performed
    split
    · rename_i accumulator
      rw [accumulator] at performed
      obtain ⟨changed, status, result, rfl⟩ := performed.modified_accumulator
      rw [status, result]
      exact describes _ _
    · rename_i other
      have addressed := (placed.inPlace changes).resolve_left other
      obtain ⟨value, finishes, rfl⟩ := performed.modified addressed
      exact ⟨_, finishes, describes _ _⟩
  · obtain ⟨listed, last⟩ := Mnemonic.compared_operand compared
    rw [← last]
    exact performed.compares (placed.compared listed) (Mnemonic.operation_compares compared)
  · have addressed := placed.compared (by rw [tests]; decide)
    rw [tests] at performed
    obtain ⟨value, finishes, rfl⟩ := performed.consumed addressed
    exact ⟨value, finishes, rfl, Arithmetic.isNegative_eq_testBit value, rfl⟩
  · exact Status.ext_has fun flag => spared flag (Mnemonic.unchanged_flagless quiet flag)

/-- Whatever the registers and the memory are, an instruction tells in the flags what it should. -/
theorem execute_sets_flags {M : Type} [Memory M] {opcode : UInt8} (other : opcode ≠ 0x6b)
    {registers after : Registers} {memory later : M} {spent : Nat}
    (executed : ((ofOpcode opcode).execute registers).run memory = .ok ((after, spent), later)) :
    (ofOpcode opcode).FlagLaw { registers with pc := registers.pc.next }
      (((ofOpcode opcode).execute registers).accesses memory) after := by
  obtain ⟨extra, _, performed⟩ := performed_of_yields (yields_of_run executed)
  exact .of_performed (ofOpcode_placed opcode) (ofOpcode_arr other) performed

/-- Fifty-eight in the accumulator, in decimal mode. -/
def fiftyEight : Registers :=
  { Registers.initial with a := 0x58, p := { Status.initial with decimal := true } }

/-- With forty-six more that is one hundred and four, which leaves four and a carry. -/
theorem execute_sets_flags_decimal :
    ∃ after later,
      ((ofOpcode 0x69).execute fiftyEight).run (FlatMemory.filled 0x46) =
          .ok ((after, 2), later) ∧
        after.a = 0x04 ∧ after.p.carry = true ∧
          (ofOpcode 0x69).FlagLaw { fiftyEight with pc := fiftyEight.pc.next }
            (((ofOpcode 0x69).execute fiftyEight).accesses (FlatMemory.filled 0x46)) after := by
  have served : ((ofOpcode 0x69).execute fiftyEight).run (FlatMemory.filled 0x46) =
      .ok (({ fiftyEight with pc := 2 }.addToA 0x46, 2), FlatMemory.filled 0x46) := by
    refine (FlatMemory.run_read _ _ _).trans ?_
    rw [FlatMemory.get_filled]
    rfl
  exact ⟨_, _, served, by decide, by decide, execute_sets_flags (by decide) served⟩

end Instruction

end EightBit
