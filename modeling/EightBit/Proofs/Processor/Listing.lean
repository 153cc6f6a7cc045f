import EightBit.Proofs.Bus.Layers
import EightBit.Proofs.Execution.Halves
import EightBit.Proofs.Execution.Stores
import EightBit.Proofs.Machine.Mapped
import EightBit.Proofs.Machine.Trace
import EightBit.Proofs.Processor.Cycles
import EightBit.Proofs.Transaction.Answers

/-
Listings and execution. The line of an instruction is made from the bytes that a step fetches, its
length is their number, and where the execution goes on at an address that the line prints, it is
that very address.
-/

namespace EightBit

open Transaction

namespace Text

/-- The number that hexadecimal digits spell. -/
def number (digits : List Char) : Nat :=
  digits.foldl (fun value digit => 16 * value + (digitValue? digit).getD 0) 0

/-- The last digit is worth its value, and the others sixteen times theirs. -/
theorem number_concat (digits : List Char) (digit : Char) :
    number (digits ++ [digit]) = 16 * number digits + (digitValue? digit).getD 0 := by
  simp [number]

/-- Digits can be read back. -/
theorem digitValue?_digitChar : ∀ digit < 16, digitValue? (Nat.digitChar digit) = some digit := by
  decide

/-- The digits of a number spell it. -/
theorem number_toDigits (n : Nat) : number (Nat.toDigits 16 n) = n := by
  induction n using Nat.strongRecOn with
  | ind n ih =>
      rw [Nat.toDigits_eq_if (by decide)]
      split
      · rename_i small
        simp [number, digitValue?_digitChar n small]
      · rename_i large
        have last := digitValue?_digitChar (n % 16) (Nat.mod_lt _ (by decide))
        rw [number_concat, ih (n / 16) (by omega), last, Option.getD_some]
        omega

/-- Leading zeros do not count. -/
theorem number_zeros (count : Nat) (digits : List Char) :
    number (List.replicate count '0' ++ digits) = number digits := by
  induction count with
  | zero => rfl
  | succ count ih => exact ih

/-- The hexadecimal text of a number spells it, however wide it is. -/
theorem number_hex (width n : Nat) : number (hex width n).toList = n := by
  rw [hex, String.toList_ofList, number_zeros, number_toDigits]

/-- Different numbers have different texts. -/
theorem hex_inj {width first second : Nat} :
    hex width first = hex width second ↔ first = second := by
  refine ⟨fun same => ?_, congrArg (hex width)⟩
  rw [← number_hex width first, same, number_hex]

end Text

/-- Different addresses have different texts. -/
theorem Address.text_inj {first second : Address} : first.text = second.text ↔ first = second := by
  rw [text, text, Text.hexLiteral, Text.hexLiteral, String.append_right_inj,
    String.append_right_inj, Text.hex_inj, UInt16.toNat_inj]

namespace Listing

/-- The reads of bytes in a row. After the top of memory the row goes on at the bottom. -/
def fetched (address : Address) (bytes : List UInt8) : List WatchHit :=
  bytes.mapIdx fun index byte => ⟨.read, address + UInt16.ofNat index, byte⟩

/-- As many bytes are read as are there. -/
@[simp] theorem length_fetched (address : Address) (bytes : List UInt8) :
    (fetched address bytes).length = bytes.length := List.length_mapIdx

/-- Each byte is read at its place in the row. -/
theorem getElem?_fetched (address : Address) (bytes : List UInt8) (index : Nat) :
    (fetched address bytes)[index]? =
      bytes[index]?.map fun byte => ⟨.read, address + UInt16.ofNat index, byte⟩ :=
  List.getElem?_mapIdx

/-- The first byte is read first, and the others behind it. -/
theorem fetched_cons (address : Address) (byte : UInt8) (bytes : List UInt8) :
    fetched address (byte :: bytes) = ⟨.read, address, byte⟩ :: fetched address.next bytes := by
  have start : address + UInt16.ofNat 0 = address := UInt16.add_zero address
  simp only [fetched, List.mapIdx_cons, start, address.add_succ]

theorem fetched_one (address : Address) (byte : UInt8) :
    fetched address [byte] = [⟨.read, address, byte⟩] := fetched_cons ..

theorem fetched_two (address : Address) (low high : UInt8) :
    fetched address [low, high] = [⟨.read, address, low⟩, ⟨.read, address.next, high⟩] := by
  rw [fetched_cons, fetched_one]

end Listing

/-- The memory answers reads in a row with these bytes. -/
def Memory.Spells {M : Type} [Memory M] : M → Address → List UInt8 → Prop
  | _, _, [] => True
  | memory, address, byte :: bytes =>
      ∃ later, Memory.read memory address = .ok (byte, later) ∧ Spells later address.next bytes

/-- A memory that answers everything spells some row of every length. -/
theorem Memory.Answers.spells {M : Type} [Memory M] {answering : M → Prop}
    (answers : Memory.Answers answering) {memory : M} (ready : answering memory)
    (address : Address) (count : Nat) :
    ∃ bytes, bytes.length = count ∧ Memory.Spells memory address bytes := by
  induction count generalizing memory address with
  | zero => exact ⟨[], rfl, trivial⟩
  | succ count ih =>
      obtain ⟨byte, later, answer, still⟩ := answers.read ready address
      obtain ⟨bytes, length, spells⟩ := ih still address.next
      exact ⟨byte :: bytes, congrArg (· + 1) length, later, answer, spells⟩

namespace Transaction

variable {α M : Type} [Memory M]

/-- What starts by reading some bytes in a row reads those that stand there. -/
theorem Fetches.accesses {act : Transaction α} {memory : M} {address : Address}
    {bytes : List UInt8} (fetches : act.Fetches bytes.length address)
    (spells : Memory.Spells memory address bytes) :
    Listing.fetched address bytes <+: act.accesses memory := by
  induction bytes generalizing act memory address with
  | nil => exact List.nil_prefix
  | cons byte bytes ih =>
      cases act with
      | read first next =>
          obtain ⟨rfl, rest⟩ := fetches
          obtain ⟨later, answer, others⟩ := spells
          rw [accesses_read answer, Listing.fetched_cons]
          exact List.cons_prefix_cons.mpr ⟨rfl, ih (rest byte) others⟩
      | done result => exact fetches.elim
      | write place value next => exact fetches.elim
      | report event next => exact fetches.elim

/-- What starts with so many bytes in a row starts with fewer. -/
theorem Fetches.of_le {act : Transaction α} {address : Address} {fewer count : Nat}
    (fetches : act.Fetches count address) (within : fewer ≤ count) :
    act.Fetches fewer address := by
  induction fewer generalizing act address count with
  | zero => trivial
  | succ fewer ih =>
      obtain ⟨rest, rfl⟩ := Nat.exists_eq_add_of_le' within
      cases act with
      | read first next => exact ⟨fetches.1, fun value => ih (fetches.2 value) (Nat.le_add_left ..)⟩
      | done result => exact fetches.elim
      | write place value next => exact fetches.elim
      | report event next => exact fetches.elim

end Transaction

/-- Storage answers with the bytes that a listing looks at. -/
theorem Bus.spells_of_bytesAt {D : Type} [Peripheral D] {bus : Bus D} (storage : bus.StorageOnly)
    {address : Address} {count : Nat} {bytes : List UInt8}
    (seen : Listing.bytesAt bus.peek address count = .ok bytes) :
    Memory.Spells bus address bytes := by
  induction count generalizing address bytes bus with
  | zero =>
      cases seen
      trivial
  | succ count ih =>
      rw [Listing.bytesAt_succ] at seen
      obtain ⟨byte, shown, rest⟩ := Outcome.bind_eq_ok_iff.mp seen
      obtain ⟨others, later, same⟩ := Outcome.bind_eq_ok_iff.mp rest
      cases same
      have answer : Memory.read bus address = _ := read_storage storage address
      rw [shown, Outcome.map_ok] at answer
      exact ⟨_, answer, ih (storage.notice ..) (by rwa [notice_peek])⟩

namespace Operation

/-- The operation leaves the program counter alone, but for the bytes of its operand. -/
def Straight (status : Status) : Operation → Prop
  | consume use | modify _ use | storeMasked _ use | pull use =>
      ∀ registers value, (use registers value).pc = registers.pc
  | compute change => ∀ registers, (change registers).pc = registers.pc
  | store _ | push _ | halt => True
  | branch flag on => status.has flag ≠ on
  | jump | call | returnFromCall | returnFromInterrupt | interrupt => False

namespace Performed

variable {operation : Operation} {mode : Mode} {registers after : Registers}
  {accesses : List WatchHit} {extra : Nat}

/-- A straight operation leads past its operand bytes. -/
theorem straight (performed : Performed mode registers operation accesses after extra)
    (placed : operation.locates = true ∨ mode = .implied)
    (straight : operation.Straight registers.p) : after.pc = (mode.pass registers).pc := by
  have unplaced : operation.locates = false → registers.pc = (mode.pass registers).pc := by
    intro none
    rw [placed.resolve_left (Bool.eq_false_iff.mp none), Mode.pass_none rfl]
  cases performed with
  | consume found read => exact straight _ _
  | modify found modified =>
      refine (straight _ _).trans ?_
      rcases modified_of_yields modified with ⟨_, _, _, rfl⟩ | ⟨_, _, _, _, _, rfl⟩
      · rfl
      · rfl
  | @store _ _ _ location _ found stored =>
      obtain ⟨operand, crossed⟩ := location
      cases operand with
      | accumulator =>
          obtain ⟨_, rfl⟩ := stored
          rfl
      | memory address =>
          obtain ⟨_, _, _, rfl⟩ := stored
          rfl
  | storeMasked found operand => exact straight _ _
  | storeNowhere found operand => exact straight _ _
  | compute change => exact (straight _).trans (unplaced rfl)
  | branchTaken found operand holds => exact absurd holds straight
  | branchPassed found passed => rfl
  | push source => exact unplaced rfl
  | pull use value => exact (straight _ _).trans (unplaced rfl)
  | halt => exact unplaced rfl
  | _ => exact straight.elim

end Performed

end Operation

namespace Mnemonic

/-- The jumps, the calls and the returns. -/
def departures : List Mnemonic := [jmp, jsr, rts, rti, brk]

/-- The mnemonic is that of a branch, and its condition holds. -/
def Branches (mnemonic : Mnemonic) (status : Status) : Prop :=
  ∃ flag on, mnemonic.condition? = some (flag, on) ∧ status.has flag = on

/-- Without a departure or a branch that is taken, an operation is straight. -/
theorem operation_straight {mnemonic : Mnemonic} {status : Status}
    (stays : mnemonic ∉ departures) (passes : ¬mnemonic.Branches status) :
    mnemonic.operation.Straight status := by
  cases mnemonic with
  | arr => exact fun registers value => by rw [registers.andRotate_frame value]
  | bpl | bmi | bvc | bvs | bcc | bcs | bne | beq =>
      exact fun holds => passes ⟨_, _, rfl, holds⟩
  | jmp | jsr | rts | rti | brk => exact absurd (by decide) stays
  | _ =>
      first
      | exact trivial
      | exact fun _ _ => rfl
      | exact fun _ => rfl

end Mnemonic

namespace Mode

/-- The modes whose operand bytes spell an address. A branch spells it by its distance. -/
def target? (pc : Address) : Mode → List UInt8 → Option Address
  | relative, [displacement] => some (pc.next.displace displacement.toInt8)
  | absolute, [low, high] => some (.ofBytes low high)
  | _, _ => none

/-- The operand is found where the bytes say that are read for it. -/
theorem Finds.target {mode : Mode} {registers : Registers} {reads accesses : List WatchHit}
    {location : Location} {operand : List UInt8} (found : mode.Finds registers reads location)
    (spells : mode = .relative ∨ mode = .absolute) (full : operand.length = mode.operandSize)
    (starts : Listing.fetched registers.pc operand <+: accesses) (first : reads <+: accesses) :
    ∃ target, location.operand = .memory target ∧
      mode.target? registers.pc operand = some target := by
  obtain ⟨uses, rfl⟩ := first
  rcases spells with rfl | rfl
  · cases found with
    | relative displacement =>
        match operand, full with
        | [byte], _ =>
            rw [Listing.fetched_one] at starts
            obtain ⟨same, _⟩ := List.cons_prefix_cons.mp starts
            cases same
            exact ⟨_, rfl, rfl⟩
  · cases found with
    | absolute low high =>
        match operand, full with
        | [first, second], _ =>
            rw [Listing.fetched_two] at starts
            obtain ⟨same, rest⟩ := List.cons_prefix_cons.mp starts
            obtain ⟨alike, _⟩ := List.cons_prefix_cons.mp rest
            cases same
            cases alike
            exact ⟨_, rfl, rfl⟩

end Mode

namespace Listing

/-- A line that ends in an address. -/
def lineTo (address : Address) (size : Nat) (bytes : List UInt8) (mnemonic : Mnemonic)
    (target : Address) : String :=
  s!"{address.text} {byteColumn size bytes} {mnemonic.name} {target.text}"

/-- Lines that end in different addresses are different. -/
theorem lineTo_inj {address : Address} {size : Nat} {bytes : List UInt8} {mnemonic : Mnemonic}
    {first second : Address} :
    lineTo address size bytes mnemonic first = lineTo address size bytes mnemonic second ↔
      first = second := by
  refine ⟨fun same => ?_, congrArg _⟩
  exact Address.text_inj.mp ((String.append_right_inj _).mp same)

/-- Where the operand bytes spell an address, the text of the operand is that address. -/
theorem operandText?_target {address target : Address} {mode : Mode} {operand : List UInt8}
    (spelled : mode.target? address.next operand = some target) :
    operandText? (some address) mode operand = some target.text ∧ mode.operandSize ≠ 0 := by
  have past : address.advance 2 = address.next.next := by
    rw [Address.next, Address.next, UInt16.add_assoc]
    rfl
  unfold Mode.target? at spelled
  split at spelled
  · cases spelled
    rw [operandText?, past]
    exact ⟨rfl, by decide⟩
  · cases spelled
    exact ⟨rfl, by decide⟩
  · cases spelled

/-- The line of an executable instruction ends in the address that its operand bytes spell. -/
theorem line_target {address target : Address} {opcode : UInt8} {operand : List UInt8}
    (valid : (Instruction.ofOpcode opcode).isValid)
    (spelled : (Instruction.ofOpcode opcode).mode.target? address.next operand = some target) :
    line address (opcode :: operand) =
      lineTo address (Instruction.ofOpcode opcode).length (opcode :: operand)
        (Instruction.ofOpcode opcode).mnemonic target := by
  obtain ⟨written, sized⟩ := operandText?_target spelled
  rw [line, instructionText, written]
  dsimp only
  rw [if_pos valid, if_neg sized]
  change _ ++ (_ ++ _ ++ _ ++ _ ++ _) = _ ++ _ ++ _ ++ _ ++ _ ++ _ ++ _
  simp only [String.append_assoc]

end Listing

namespace Instruction

/-- The execution goes on at an address that the operand bytes spell. -/
def Leads (instruction : Instruction) (status : Status) : Prop :=
  instruction.mnemonic = .jmp ∧ instruction.mode = .absolute ∨ instruction.mnemonic = .jsr ∨
    instruction.mnemonic.Branches status

variable {instruction : Instruction} {registers after : Registers} {accesses : List WatchHit}
  {extra : Nat}

/-- An instruction that leads somewhere leads to the address that its operand bytes spell. -/
theorem target_of_performed
    (performed : Operation.Performed instruction.mode registers instruction.mnemonic.operation
      accesses after extra)
    (leads : instruction.Leads registers.p) (priced : instruction.Priced)
    (storing : instruction.Storing) {operand : List UInt8}
    (full : operand.length = instruction.mode.operandSize)
    (starts : Listing.fetched registers.pc operand <+: accesses) :
    instruction.mode.target? registers.pc operand = some after.pc := by
  rcases leads with ⟨jumps, absolute⟩ | calls | ⟨flag, on, condition, holds⟩
  · rw [jumps] at performed
    cases performed with
    | jump found =>
        obtain ⟨target, place, spelled⟩ :=
          found.target (.inr absolute) full starts List.prefix_rfl
        rw [spelled, place]
        rfl
  · rw [calls] at performed
    cases performed with
    | call found saved =>
        obtain ⟨target, place, spelled⟩ :=
          found.target (.inr (storing.call calls)) full starts (List.prefix_append ..)
        rw [spelled, place]
        rfl
  · have relative := priced.branch (by rw [condition]; nofun)
    rw [← Mnemonic.condition?_operation] at condition
    generalize instruction.mnemonic.operation = operation at performed condition
    cases operation with
    | branch tested when =>
        cases condition
        cases performed with
        | branchTaken found place holds =>
            obtain ⟨target, same, spelled⟩ :=
              found.target (.inl relative) full starts List.prefix_rfl
            cases place.symm.trans same
            exact spelled
        | branchPassed found passed =>
            obtain ⟨target, place, _⟩ :=
              found.target (.inl relative) full starts List.prefix_rfl
            rcases passed with none | fails
            · cases place.symm.trans none
            · exact absurd holds fails
    | _ => cases condition

/-- The program counter is far from page zero, from the stack and from all pointers below. -/
def highRegisters : Registers := { Registers.initial with pc := 0x8000 }

/-- Where every byte is small, no other access is made just behind the operand bytes. -/
theorem ofOpcode_elsewhere {opcode : UInt8} (valid : (ofOpcode opcode).isValid) :
    (((ofOpcode opcode).execute highRegisters).accesses (Ticker.mk 0))[
        (ofOpcode opcode).mode.operandSize]?.map WatchHit.address ≠
      some (highRegisters.pc.next + UInt16.ofNat (ofOpcode opcode).mode.operandSize) := by
  revert valid
  exact ofOpcode_forall (fun instruction => instruction.isValid →
    ((instruction.execute highRegisters).accesses (Ticker.mk 0))[
        instruction.mode.operandSize]?.map WatchHit.address ≠
      some (highRegisters.pc.next + UInt16.ofNat instruction.mode.operandSize))
    (by decide +kernel) opcode

/-- No instruction starts by reading more than its operand bytes, however the registers stand. -/
theorem ofOpcode_fetches_iff {opcode : UInt8} (valid : (ofOpcode opcode).isValid) (count : Nat) :
    (∀ registers, ((ofOpcode opcode).execute registers).Fetches count registers.pc.next) ↔
      count < (ofOpcode opcode).length := by
  constructor
  · intro fetches
    refine Nat.lt_of_not_le fun beyond => ofOpcode_elsewhere valid ?_
    have further : (ofOpcode opcode).mode.operandSize + 1 ≤ count := by
      rwa [length, Nat.add_comm] at beyond
    obtain ⟨bytes, full, spells⟩ := @Memory.Answers.spells Ticker _ _ Ticker.answers (.mk 0)
      trivial highRegisters.pc.next ((ofOpcode opcode).mode.operandSize + 1)
    have more := (fetches highRegisters).of_le further
    rw [← full] at more
    obtain ⟨rest, same⟩ := more.accesses spells
    have inside : (ofOpcode opcode).mode.operandSize < bytes.length := by omega
    rw [← same, List.getElem?_append_left (by rwa [Listing.length_fetched]),
      Listing.getElem?_fetched, List.getElem?_eq_getElem inside]
    rfl
  · intro within registers
    exact (execute_fetches opcode registers).of_le (by rw [length] at within; omega)

end Instruction

namespace Listing

variable {D : Type} [Peripheral D] {bus : Bus D}

/-- What a line tells of the execution of its instruction. The bytes it is made from are those that
a step reads in a row, no instruction reads more of them, and the execution goes on behind them or
at the address that the line prints. -/
structure Foretells (bus : Bus D) (processor : Processor) (text : String) (size : Nat)
    (opcode : UInt8) (operand : List UInt8) : Prop where
  shown : text = line processor.registers.pc (opcode :: operand)
  counted : size = (opcode :: operand).length
  seen : bytesAt bus.peek processor.registers.pc size = .ok (opcode :: operand)
  stepped : fetched processor.registers.pc (opcode :: operand) <+: processor.step.accesses bus
  fetches : ∀ count,
    (∀ registers, ((Instruction.ofOpcode opcode).execute registers).Fetches count
      registers.pc.next) ↔ count < size
  executed : ∀ after spent later,
    ((Instruction.ofOpcode opcode).execute processor.registers).run bus =
        .ok ((after, spent), later) →
      fetched processor.registers.pc.next operand <+:
          ((Instruction.ofOpcode opcode).execute processor.registers).accesses bus ∧
        ((Instruction.ofOpcode opcode).mnemonic ∉ Mnemonic.departures →
          ¬(Instruction.ofOpcode opcode).mnemonic.Branches processor.registers.p →
            after.pc = processor.registers.pc + UInt16.ofNat size) ∧
        ((Instruction.ofOpcode opcode).Leads processor.registers.p → ∀ target,
          text = lineTo processor.registers.pc size (opcode :: operand)
              (Instruction.ofOpcode opcode).mnemonic target ↔
            target = after.pc)

/-- The line of a valid instruction is made from its bytes and foretells its execution. -/
theorem Foretells.of_lineAt (storage : bus.StorageOnly) {processor : Processor} {text : String}
    {size : Nat} (listed : lineAt bus.peek processor.registers.pc = .ok (text, size)) :
    ∃ opcode operand, bus.peek processor.registers.pc = .ok opcode ∧
      ((Instruction.ofOpcode opcode).isValid →
        Foretells bus processor text size opcode operand) := by
  obtain ⟨opcode, operand, first, rfl, full, seen, rfl⟩ := lineAt_bytes listed
  refine ⟨opcode, operand, first, fun valid => ?_⟩
  have size : (Instruction.ofOpcode opcode).length = operand.length + 1 := by
    rw [Instruction.length, full, Nat.add_comm]
  have behind : bytesAt bus.peek processor.registers.pc.next operand.length = .ok operand := by
    rw [size, bytesAt_succ, first, Outcome.bind_ok] at seen
    obtain ⟨others, found, same⟩ := Outcome.bind_eq_ok_iff.mp seen
    cases same
    exact found
  have starts : fetched processor.registers.pc.next operand <+:
      ((Instruction.ofOpcode opcode).execute processor.registers).accesses bus := by
    refine Fetches.accesses ?_ (Bus.spells_of_bytesAt storage behind)
    rw [full]
    exact Instruction.execute_fetches opcode processor.registers
  refine ⟨rfl, size, seen, ?_, Instruction.ofOpcode_fetches_iff valid, ?_⟩
  · obtain ⟨later, answer, others⟩ := Bus.spells_of_bytesAt storage seen
    obtain ⟨next, step, fetches⟩ := processor.step_fetches
    rw [step, accesses_read answer, fetched_cons]
    exact List.cons_prefix_cons.mpr ⟨rfl, (full.symm ▸ fetches opcode).accesses others⟩
  · intro after spent later executed
    obtain ⟨extra, _, performed⟩ := Instruction.performed_of_yields (yields_of_run executed)
    have priced := Instruction.ofOpcode_priced opcode
    refine ⟨starts, fun stays passes => ?_, fun leads target => ?_⟩
    · rw [performed.straight priced.placed (Mnemonic.operation_straight stays passes)]
      exact (Instruction.ofOpcode opcode).pass_pc processor.registers
    · have spelled := Instruction.target_of_performed performed leads priced
        (Instruction.ofOpcode_storing opcode) full starts
      rw [line_target valid spelled, lineTo_inj]
      exact eq_comm

/-- In every entry of the table the columns of a listing say what is executed. Wherever storage
lets an instruction be listed, the line tells of its execution. Where no address is left out, every
instruction can be listed and executed. -/
theorem line_foretells_execution (storage : bus.StorageOnly) (processor : Processor) :
    (∀ opcode, (Instruction.ofOpcode opcode).handler =
      ⟨(Instruction.ofOpcode opcode).mnemonic, (Instruction.ofOpcode opcode).mode⟩) ∧
    (∀ text size, lineAt bus.peek processor.registers.pc = .ok (text, size) →
      ∃ opcode operand, bus.peek processor.registers.pc = .ok opcode ∧
        ((Instruction.ofOpcode opcode).isValid →
          Foretells bus processor text size opcode operand)) ∧
    (bus.Mapped →
      (∃ text size, lineAt bus.peek processor.registers.pc = .ok (text, size)) ∧
        ∀ opcode, ∃ after spent later,
          ((Instruction.ofOpcode opcode).execute processor.registers).run bus =
            .ok ((after, spent), later)) := by
  refine ⟨Instruction.ofOpcode_handler, fun text size listed => Foretells.of_lineAt storage listed,
    fun mapped => ⟨?_, fun opcode => ?_⟩⟩
  · obtain ⟨⟨text, size⟩, listed, _⟩ :=
      (Machine.lineAt_served mapped processor.registers.pc).result
    exact ⟨text, size, listed⟩
  · exact Instruction.execute_answered Bus.mapped_answers _ processor.registers mapped

/-- A processor at the top of memory. -/
def atTop : Processor :=
  { Processor.initial with registers := { Registers.initial with pc := 0xffff } }

/-- RAM that holds the opcode of a branch everywhere. -/
def branches : Bus Unpopulated := .uniform 0xd0

/-- The memory of branches has no gap. -/
theorem branches_mapped : branches.Mapped := by
  have stocked : branches.Stocked := Bus.uniform_stocked 0xd0
  refine ⟨stocked.sound, fun address gap => ?_⟩
  obtain ⟨id, _, owned, _⟩ := stocked.lookup address
  cases gap.symm.trans owned

/-- With the opcode at the last address the distance is at the first one. The branch leads back
below the top of memory, to the address that its line prints. -/
theorem line_foretells_execution_around_top :
    branches.StorageOnly ∧
    (Instruction.ofOpcode 0xd0).handler = ⟨.bne, .relative⟩ ∧
    lineAt branches.peek 0xffff = .ok ("&0xffff d0 d0    BNE &0xffd1", 2) ∧
    [⟨.read, 0xffff, 0xd0⟩, ⟨.read, 0x0000, 0xd0⟩] <+: atTop.step.accesses branches ∧
    ∃ after spent later,
      ((Instruction.ofOpcode 0xd0).execute atTop.registers).run branches =
          .ok ((after, spent), later) ∧
        after.pc = 0xffd1 := by
  have storage : branches.StorageOnly := Bus.uniform_storageOnly 0xd0
  have shows : branches.peek = fun _ => .ok 0xd0 := funext (Bus.peek_uniform 0xd0)
  have text : line 0xffff [0xd0, 0xd0] = "&0xffff d0 d0    BNE &0xffd1" := by decide +kernel
  have listed : lineAt branches.peek 0xffff = .ok ("&0xffff d0 d0    BNE &0xffd1", 2) := by
    rw [shows, ← text]
    rfl
  obtain ⟨agrees, foretells, total⟩ := line_foretells_execution storage atTop
  obtain ⟨opcode, operand, first, tells⟩ := foretells _ _ listed
  rw [shows] at first
  cases first
  have told := tells (by decide)
  have bytes : bytesAt (fun _ => .ok 0xd0) atTop.registers.pc 2 = .ok (0xd0 :: operand) :=
    shows ▸ told.seen
  cases bytes
  obtain ⟨after, spent, later, executed⟩ := (total branches_mapped).2 0xd0
  obtain ⟨_, _, leads⟩ := told.executed after spent later executed
  refine ⟨storage, agrees 0xd0, listed, told.stepped, after, spent, later, executed, ?_⟩
  exact ((leads (.inr (.inr ⟨.zero, false, rfl, rfl⟩)) 0xffd1).mp (by decide +kernel)).symm

end Listing

end EightBit
