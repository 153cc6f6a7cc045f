import EightBit.Execution.Operation
import EightBit.Proofs.Opcode.Handlers
import EightBit.Proofs.Transaction.Yields

/-
What an instruction does, way by way: the reads that find its operand and where that lies, the
accesses of the operation, the registers that it leaves, and the cycles on top of the base cost.
-/

namespace EightBit

open Transaction

/-- The end of page zero is followed by its start. -/
theorem Address.nextInPage_zeroPage (offset : UInt8) :
    (zeroPage offset).nextInPage = zeroPage (offset + 1) := by
  rw [nextInPage, zeroPage, lo_ofBytes, hi_ofBytes, zeroPage]

namespace Mode

/-- The registers past the operand bytes. -/
def pass (mode : Mode) (registers : Registers) : Registers :=
  { registers with pc := registers.pc + UInt16.ofNat mode.operandSize }

/-- The reads that find an operand, from the program counter on, and the place they name. In page
zero all arithmetic wraps, and an indexed place remembers the page of its base. -/
inductive Finds (registers : Registers) : Mode → List WatchHit → Location → Prop
  | accumulator : Finds registers accumulator [] .accumulator
  | implied : Finds registers implied [] .accumulator
  | immediate : Finds registers immediate [] (.direct registers.pc)
  | zeroPage (offset : UInt8) :
      Finds registers zeroPage [⟨.read, registers.pc, offset⟩] (.direct (.zeroPage offset))
  | zeroPageX (offset : UInt8) :
      Finds registers zeroPageX [⟨.read, registers.pc, offset⟩]
        (.direct (.zeroPage (offset + registers.x)))
  | zeroPageY (offset : UInt8) :
      Finds registers zeroPageY [⟨.read, registers.pc, offset⟩]
        (.direct (.zeroPage (offset + registers.y)))
  | relative (displacement : UInt8) :
      Finds registers relative [⟨.read, registers.pc, displacement⟩]
        (.indexed registers.pc.next (registers.pc.next.displace displacement.toInt8))
  | absolute (low high : UInt8) :
      Finds registers absolute
        [⟨.read, registers.pc, low⟩, ⟨.read, registers.pc.next, high⟩]
        (.direct (.ofBytes low high))
  | absoluteX (low high : UInt8) :
      Finds registers absoluteX
        [⟨.read, registers.pc, low⟩, ⟨.read, registers.pc.next, high⟩]
        (.indexed (.ofBytes low high) ((Address.ofBytes low high).advance registers.x))
  | absoluteY (low high : UInt8) :
      Finds registers absoluteY
        [⟨.read, registers.pc, low⟩, ⟨.read, registers.pc.next, high⟩]
        (.indexed (.ofBytes low high) ((Address.ofBytes low high).advance registers.y))
  | indirect (low high first second : UInt8) :
      Finds registers indirect
        [⟨.read, registers.pc, low⟩, ⟨.read, registers.pc.next, high⟩,
          ⟨.read, .ofBytes low high, first⟩,
          ⟨.read, (Address.ofBytes low high).nextInPage, second⟩]
        (.direct (.ofBytes first second))
  | indexedIndirect (offset low high : UInt8) :
      Finds registers indexedIndirect
        [⟨.read, registers.pc, offset⟩, ⟨.read, .zeroPage (offset + registers.x), low⟩,
          ⟨.read, .zeroPage (offset + registers.x + 1), high⟩]
        (.direct (.ofBytes low high))
  | indirectIndexed (offset low high : UInt8) :
      Finds registers indirectIndexed
        [⟨.read, registers.pc, offset⟩, ⟨.read, .zeroPage offset, low⟩,
          ⟨.read, .zeroPage (offset + 1), high⟩]
        (.indexed (.ofBytes low high) ((Address.ofBytes low high).advance registers.y))

/-- One operand byte takes the program counter to the next address. -/
theorem pass_next {mode : Mode} (size : mode.operandSize = 1) (registers : Registers) :
    mode.pass registers = { registers with pc := registers.pc.next } := by
  rw [pass, size]
  rfl

/-- Two operand bytes take the program counter two addresses on. -/
theorem pass_next_next {mode : Mode} (size : mode.operandSize = 2) (registers : Registers) :
    mode.pass registers = { registers with pc := registers.pc.next.next } := by
  rw [pass, size, Address.next, Address.next, UInt16.add_assoc]
  rfl

/-- Without operand bytes the program counter stays. -/
theorem pass_none {mode : Mode} (size : mode.operandSize = 0) (registers : Registers) :
    mode.pass registers = registers := by
  rw [pass, size]
  exact congrArg (fun pc => { registers with pc }) (UInt16.add_zero registers.pc)

/-- Finding an operand moves the program counter past its bytes and changes nothing else. -/
theorem finds_of_yields {mode : Mode} {registers found : Registers} {accesses : List WatchHit}
    {location : Location} (yields : (mode.locate registers).Yields accesses (location, found)) :
    mode.Finds registers accesses location ∧ found = mode.pass registers := by
  cases mode with
  | accumulator =>
      obtain ⟨rfl, same⟩ := yields
      cases same
      exact ⟨.accumulator, (pass_none rfl registers).symm⟩
  | implied =>
      obtain ⟨rfl, same⟩ := yields
      cases same
      exact ⟨.implied, (pass_none rfl registers).symm⟩
  | immediate =>
      obtain ⟨rfl, same⟩ := yields
      cases same
      exact ⟨.immediate, (pass_next rfl registers).symm⟩
  | zeroPage =>
      obtain ⟨offset, _, rfl, rfl, same⟩ := yields
      cases same
      exact ⟨.zeroPage offset, (pass_next rfl registers).symm⟩
  | zeroPageX =>
      obtain ⟨offset, _, rfl, rfl, same⟩ := yields
      cases same
      exact ⟨.zeroPageX offset, (pass_next rfl registers).symm⟩
  | zeroPageY =>
      obtain ⟨offset, _, rfl, rfl, same⟩ := yields
      cases same
      exact ⟨.zeroPageY offset, (pass_next rfl registers).symm⟩
  | relative =>
      obtain ⟨displacement, _, rfl, rfl, same⟩ := yields
      cases same
      exact ⟨.relative displacement, (pass_next rfl registers).symm⟩
  | absolute =>
      obtain ⟨low, _, rfl, high, _, rfl, rfl, same⟩ := yields
      cases same
      exact ⟨.absolute low high, (pass_next_next rfl registers).symm⟩
  | absoluteX =>
      obtain ⟨low, _, rfl, high, _, rfl, rfl, same⟩ := yields
      cases same
      exact ⟨.absoluteX low high, (pass_next_next rfl registers).symm⟩
  | absoluteY =>
      obtain ⟨low, _, rfl, high, _, rfl, rfl, same⟩ := yields
      cases same
      exact ⟨.absoluteY low high, (pass_next_next rfl registers).symm⟩
  | indirect =>
      obtain ⟨low, _, rfl, high, _, rfl, first, _, rfl, second, _, rfl, rfl, same⟩ := yields
      cases same
      exact ⟨.indirect low high first second, (pass_next_next rfl registers).symm⟩
  | indexedIndirect =>
      obtain ⟨offset, _, rfl, low, _, rfl, high, _, rfl, rfl, same⟩ := yields
      cases same
      rw [Address.nextInPage_zeroPage]
      exact ⟨.indexedIndirect offset low high, (pass_next rfl registers).symm⟩
  | indirectIndexed =>
      obtain ⟨offset, _, rfl, low, _, rfl, high, _, rfl, rfl, same⟩ := yields
      cases same
      rw [Address.nextInPage_zeroPage]
      exact ⟨.indirectIndexed offset low high, (pass_next rfl registers).symm⟩

end Mode

namespace Operation

/-- What an operation does in a mode: its accesses, those that find the operand first, then the
registers that it leaves and the cycles on top of the base cost. -/
inductive Performed (mode : Mode) (registers : Registers) :
    Operation → List WatchHit → Registers → Nat → Prop
  | consume {use : Registers → UInt8 → Registers} {reads uses : List WatchHit}
      {location : Location} {value : UInt8} (found : mode.Finds registers reads location)
      (read : (location.operand.read (mode.pass registers)).Yields uses value) :
      Performed mode registers (consume use) (reads ++ uses) (use (mode.pass registers) value)
        location.penalty
  | modify {change : Modification} {use : Registers → UInt8 → Registers}
      {reads uses : List WatchHit} {location : Location} {result : UInt8} {changed : Registers}
      (found : mode.Finds registers reads location)
      (modified : (modifyOperand change location.operand (mode.pass registers)).Yields uses
        (result, changed)) :
      Performed mode registers (modify change use) (reads ++ uses) (use changed result) 0
  | store {source : Registers → UInt8} {reads uses : List WatchHit} {location : Location}
      {after : Registers} (found : mode.Finds registers reads location)
      (stored : (location.operand.write (source (mode.pass registers))
        (mode.pass registers)).Yields uses after) :
      Performed mode registers (store source) (reads ++ uses) after 0
  | storeMasked {source : Registers → UInt8} {keep : Registers → UInt8 → Registers}
      {reads : List WatchHit} {location : Location} {address : Address}
      (found : mode.Finds registers reads location) (operand : location.operand = .memory address) :
      Performed mode registers (storeMasked source keep)
        (reads ++ [⟨.write,
          (maskedStore (source (mode.pass registers)) location.pageCrossed address).1,
          (maskedStore (source (mode.pass registers)) location.pageCrossed address).2⟩])
        (keep (mode.pass registers) (source (mode.pass registers))) 0
  | storeNowhere {source : Registers → UInt8} {keep : Registers → UInt8 → Registers}
      {reads : List WatchHit} {location : Location} (found : mode.Finds registers reads location)
      (operand : location.operand = .accumulator) :
      Performed mode registers (storeMasked source keep) reads
        (keep (mode.pass registers) (source (mode.pass registers))) 0
  | compute (change : Registers → Registers) :
      Performed mode registers (compute change) [] (change registers) 0
  | branchTaken {flag : Flag} {on : Bool} {reads : List WatchHit} {location : Location}
      {target : Address} (found : mode.Finds registers reads location)
      (operand : location.operand = .memory target) (holds : registers.p.has flag = on) :
      Performed mode registers (branch flag on) reads { mode.pass registers with pc := target }
        (1 + location.penalty)
  | branchPassed {flag : Flag} {on : Bool} {reads : List WatchHit} {location : Location}
      (found : mode.Finds registers reads location)
      (passed : location.operand = .accumulator ∨ registers.p.has flag ≠ on) :
      Performed mode registers (branch flag on) reads (mode.pass registers) 0
  | jump {reads : List WatchHit} {location : Location}
      (found : mode.Finds registers reads location) :
      Performed mode registers jump reads
        { mode.pass registers with
          pc := location.operand.address?.getD (mode.pass registers).pc } 0
  | call {reads uses : List WatchHit} {location : Location} {pushed : Registers}
      (found : mode.Finds registers reads location)
      (saved : (pushAddress ((mode.pass registers).pc.retreat 1) (mode.pass registers)).Yields uses
        pushed) :
      Performed mode registers call (reads ++ uses)
        { pushed with pc := location.operand.address?.getD pushed.pc } 0
  | returnFromCall {accesses : List WatchHit} {address : Address} {pulled : Registers}
      (taken : (pullAddress registers).Yields accesses (address, pulled)) :
      Performed mode registers returnFromCall accesses { pulled with pc := address.next } 0
  | returnFromInterrupt {first second : List WatchHit} {status : UInt8} {address : Address}
      {middle pulled : Registers} (flags : (EightBit.pull registers).Yields first (status, middle))
      (taken : (pullAddress middle).Yields second (address, pulled)) :
      Performed mode registers returnFromInterrupt (first ++ second)
        { pulled with p := .pulled status, pc := address } 0
  | interrupt {accesses : List WatchHit} {after : Registers}
      (entered : (Interrupt.break_.enter { registers with pc := registers.pc.next }).Yields accesses
        after) :
      Performed mode registers interrupt accesses after 0
  | push (source : Registers → UInt8) :
      Performed mode registers (push source)
        [⟨.write, registers.s.address, source registers⟩] { registers with s := registers.s - 1 } 0
  | pull (use : Registers → UInt8 → Registers) (value : UInt8) :
      Performed mode registers (pull use)
        [⟨.read, StackPointer.address (registers.s + 1), value⟩]
        (use { registers with s := registers.s + 1 } value) 0
  | halt : Performed mode registers halt [] registers 0

/-- An operation that finds an operand first finds it by the rules of its mode. -/
theorem finds_of_bind {mode : Mode} {registers after : Registers} {accesses : List WatchHit}
    {extra : Nat} {follow : Location × Registers → Transaction (Registers × Nat)}
    (yields : (mode.locate registers >>= follow).Yields accesses (after, extra)) :
    ∃ reads location uses, mode.Finds registers reads location ∧
      (follow (location, mode.pass registers)).Yields uses (after, extra) ∧
        accesses = reads ++ uses := by
  obtain ⟨reads, ⟨location, found⟩, uses, located, rest, rfl⟩ := yields_bind_iff.mp yields
  obtain ⟨finds, rfl⟩ := Mode.finds_of_yields located
  exact ⟨reads, location, uses, finds, rest, rfl⟩

/-- Every way through an operation is one of those that are listed. -/
theorem performed_of_yields {operation : Operation} {mode : Mode} {registers after : Registers}
    {accesses : List WatchHit} {extra : Nat}
    (yields : (operation.perform mode registers).Yields accesses (after, extra)) :
    Performed mode registers operation accesses after extra := by
  cases operation with
  | consume use =>
      obtain ⟨reads, location, _, found, rest, rfl⟩ := finds_of_bind yields
      obtain ⟨uses, value, _, read, ⟨rfl, same⟩, rfl⟩ := yields_bind_iff.mp rest
      cases same
      rw [List.append_nil]
      exact .consume found read
  | modify change use =>
      obtain ⟨reads, location, _, found, rest, rfl⟩ := finds_of_bind yields
      obtain ⟨uses, ⟨result, changed⟩, _, modified, ⟨rfl, same⟩, rfl⟩ := yields_bind_iff.mp rest
      cases same
      rw [List.append_nil]
      exact .modify found modified
  | store source =>
      obtain ⟨reads, location, _, found, rest, rfl⟩ := finds_of_bind yields
      obtain ⟨uses, stored, _, written, ⟨rfl, same⟩, rfl⟩ := yields_bind_iff.mp rest
      cases same
      rw [List.append_nil]
      exact .store found written
  | storeMasked source keep =>
      obtain ⟨reads, ⟨operand, crossed⟩, uses, found, rest, rfl⟩ := finds_of_bind yields
      cases operand with
      | accumulator =>
          obtain ⟨rfl, same⟩ := rest
          cases same
          rw [List.append_nil]
          exact .storeNowhere found rfl
      | memory address =>
          obtain ⟨_, rfl, rfl, same⟩ := rest
          cases same
          exact .storeMasked found rfl
  | compute change =>
      obtain ⟨rfl, same⟩ := yields
      cases same
      exact .compute change
  | branch flag on =>
      obtain ⟨reads, ⟨operand, crossed⟩, uses, found, rest, rfl⟩ := finds_of_bind yields
      dsimp only at rest
      split at rest
      · rename_i target named holds
        obtain ⟨rfl, same⟩ := rest
        cases same
        cases operand with
        | accumulator => cases named
        | memory address =>
            cases named
            rw [List.append_nil]
            exact .branchTaken found rfl (beq_iff_eq.mp holds)
      · rename_i other
        obtain ⟨rfl, same⟩ := rest
        cases same
        rw [List.append_nil]
        refine .branchPassed found ?_
        cases operand with
        | accumulator => exact .inl rfl
        | memory address => exact .inr fun holds => other address rfl (beq_iff_eq.mpr holds)
  | jump =>
      obtain ⟨reads, location, uses, found, ⟨rfl, same⟩, rfl⟩ := finds_of_bind yields
      cases same
      rw [List.append_nil]
      exact .jump found
  | call =>
      obtain ⟨reads, location, _, found, rest, rfl⟩ := finds_of_bind yields
      obtain ⟨uses, pushed, _, saved, ⟨rfl, same⟩, rfl⟩ := yields_bind_iff.mp rest
      cases same
      rw [List.append_nil]
      exact .call found saved
  | returnFromCall =>
      obtain ⟨accesses, ⟨address, pulled⟩, _, taken, ⟨rfl, same⟩, rfl⟩ := yields_bind_iff.mp yields
      cases same
      rw [List.append_nil]
      exact .returnFromCall taken
  | returnFromInterrupt =>
      obtain ⟨first, ⟨status, middle⟩, _, flags, rest, rfl⟩ := yields_bind_iff.mp yields
      obtain ⟨second, ⟨address, pulled⟩, _, taken, ⟨rfl, same⟩, rfl⟩ := yields_bind_iff.mp rest
      cases same
      rw [List.append_nil]
      exact .returnFromInterrupt flags taken
  | interrupt =>
      obtain ⟨accesses, entered, _, pushes, ⟨rfl, same⟩, rfl⟩ := yields_bind_iff.mp yields
      cases same
      rw [List.append_nil]
      exact .interrupt pushes
  | push source =>
      obtain ⟨_, rfl, rfl, same⟩ := yields
      cases same
      exact .push source
  | pull use =>
      obtain ⟨value, _, rfl, rfl, same⟩ := yields
      cases same
      exact .pull use value
  | halt =>
      obtain ⟨rfl, same⟩ := yields
      cases same
      exact .halt

/-- A changed operand: the accumulator takes the result without any access; memory is read, and gets
first the byte that it held and then the result. -/
theorem modified_of_yields {change : Modification} {operand : Operand}
    {registers changed : Registers} {uses : List WatchHit} {result : UInt8}
    (yields : (modifyOperand change operand registers).Yields uses (result, changed)) :
    (operand = .accumulator ∧ uses = [] ∧ result = (change registers.p registers.a).1 ∧
        changed = { registers with a := result, p := (change registers.p registers.a).2 }) ∨
      ∃ address value, operand = .memory address ∧
        uses = [⟨.read, address, value⟩, ⟨.write, address, value⟩, ⟨.write, address, result⟩] ∧
        result = (change registers.p value).1 ∧
        changed = { registers with p := (change registers.p value).2 } := by
  cases operand with
  | accumulator =>
      obtain ⟨rfl, same⟩ := yields
      cases same
      exact .inl ⟨rfl, rfl, rfl, rfl⟩
  | memory address =>
      obtain ⟨value, _, rfl, _, rfl, _, rfl, rfl, same⟩ := yields
      cases same
      exact .inr ⟨address, value, rfl, rfl, rfl, rfl⟩

end Operation

namespace Instruction

/-- An instruction does what its operation does from the byte after the opcode on. -/
theorem performed_of_yields {opcode : UInt8} {registers after : Registers}
    {accesses : List WatchHit} {spent : Nat}
    (yields : ((ofOpcode opcode).execute registers).Yields accesses (after, spent)) :
    ∃ extra, spent = (ofOpcode opcode).cycles + extra ∧
      Operation.Performed (ofOpcode opcode).mode { registers with pc := registers.pc.next }
        (ofOpcode opcode).mnemonic.operation accesses after extra := by
  rw [execute_ofOpcode] at yields
  obtain ⟨accesses, ⟨last, extra⟩, _, performed, ⟨rfl, same⟩, rfl⟩ := yields_bind_iff.mp yields
  cases same
  rw [List.append_nil]
  exact ⟨extra, rfl, Operation.performed_of_yields performed⟩

end Instruction

end EightBit
