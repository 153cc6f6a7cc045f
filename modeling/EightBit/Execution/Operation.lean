import EightBit.Execution.Compute
import EightBit.Execution.Locate
import EightBit.Execution.Stack
import EightBit.Opcode.Table

/-
What the instructions do. Each mnemonic has one operation, and each operation says which accesses
are made to the operand and to the stack.
-/

namespace EightBit

inductive Operation where
  /-- The operand is read and used. -/
  | consume (use : Registers → UInt8 → Registers)
  /-- The operand is read, written back, changed and written again; then the result is used. -/
  | modify (change : Modification) (use : Registers → UInt8 → Registers)
  | store (source : Registers → UInt8)
  /-- The stored byte is masked by the high byte of the base address plus one. -/
  | storeMasked (source : Registers → UInt8) (keep : Registers → UInt8 → Registers)
  | compute (change : Registers → Registers)
  | branch (flag : Flag) (on : Bool)
  | jump
  | call
  | returnFromCall
  | returnFromInterrupt
  | interrupt
  | push (source : Registers → UInt8)
  | pull (use : Registers → UInt8 → Registers)
  | halt

namespace Mnemonic

open Registers in
def operation : Mnemonic → Operation
  | adc => .consume addToA
  | and => .consume andA
  | asl => .modify .shiftLeft ignore
  | bcc => .branch .carry false
  | bcs => .branch .carry true
  | beq => .branch .zero true
  | bit => .consume testBits
  | bmi => .branch .negative true
  | bne => .branch .zero false
  | bpl => .branch .negative false
  | brk => .interrupt
  | bvc => .branch .overflow false
  | bvs => .branch .overflow true
  | clc => .compute (setFlag .carry false)
  | cld => .compute (setFlag .decimal false)
  | cli => .compute (setFlag .interruptDisable false)
  | clv => .compute (setFlag .overflow false)
  | cmp => .consume compareA
  | cpx => .consume compareX
  | cpy => .consume compareY
  | dec => .modify .decrement ignore
  | dex => .compute fun registers => registers.loadX (registers.x - 1)
  | dey => .compute fun registers => registers.loadY (registers.y - 1)
  | eor => .consume xorA
  | inc => .modify .increment ignore
  | inx => .compute fun registers => registers.loadX (registers.x + 1)
  | iny => .compute fun registers => registers.loadY (registers.y + 1)
  | jmp => .jump
  | jsr => .call
  | lda => .consume loadA
  | ldx => .consume loadX
  | ldy => .consume loadY
  | lsr => .modify .shiftRight ignore
  | nop => .consume ignore
  | ora => .consume orA
  | pha => .push Registers.a
  | php => .push fun registers => registers.p.pushed true
  | pla => .pull loadA
  | plp => .pull fun registers value => { registers with p := .pulled value }
  | rol => .modify .rotateLeft ignore
  | ror => .modify .rotateRight ignore
  | rti => .returnFromInterrupt
  | rts => .returnFromCall
  | sbc => .consume subtractFromA
  | sec => .compute (setFlag .carry true)
  | sed => .compute (setFlag .decimal true)
  | sei => .compute (setFlag .interruptDisable true)
  | sta => .store Registers.a
  | stx => .store Registers.x
  | sty => .store Registers.y
  | tax => .compute fun registers => registers.loadX registers.a
  | tay => .compute fun registers => registers.loadY registers.a
  | tsx => .compute fun registers => registers.loadX registers.s
  | txa => .compute fun registers => registers.loadA registers.x
  | txs => .compute fun registers => { registers with s := registers.x }
  | tya => .compute fun registers => registers.loadA registers.y
  | jam => .halt
  | alr => .consume andShift
  | anc => .consume andCarry
  | arr => .consume andRotate
  | axs => .consume subtractFromX
  | dcp => .modify .decrement compareA
  | isb => .modify .increment subtractFromA
  | las => .consume loadThroughS
  | lax => .consume loadAX
  | lxa => .consume unstableLoadAX
  | rla => .modify .rotateLeft andA
  | rra => .modify .rotateRight addToA
  | sax => .store aAndX
  | sha => .storeMasked aAndX ignore
  | shx => .storeMasked Registers.x ignore
  | shy => .storeMasked Registers.y ignore
  | slo => .modify .shiftLeft orA
  | sre => .modify .shiftRight xorA
  | tas => .storeMasked aAndX fun registers value => { registers with s := value }
  | xaa => .consume unstableLoadA

end Mnemonic

namespace Operation

/-- Read, write the byte back unchanged, write the result. The accumulator form makes no access. -/
def modifyOperand (change : Modification) (operand : Operand) (registers : Registers) :
    Transaction (UInt8 × Registers) := do
  let value ← operand.read registers
  if let some address := operand.address? then
    Transaction.writeByte address value
  let (result, status) := change registers.p value
  let registers ← operand.write result { registers with p := status }
  return (result, registers)

/-- Where a masked store goes and what it stores. The mask is the high byte of the base address
plus one; when indexing led into another page, the stored byte replaces the high byte of the
address. -/
def maskedStore (value : UInt8) (crossed : Bool) (address : Address) : Address × UInt8 :=
  if crossed then
    let stored := value &&& address.hi
    (Address.ofBytes address.lo stored, stored)
  else
    (address, value &&& (address.hi + 1))

/-- The registers afterwards, and the cycles on top of the base cost. -/
def perform (operation : Operation) (mode : Mode) (registers : Registers) :
    Transaction (Registers × Nat) :=
  match operation with
  | consume use => do
      let (location, registers) ← mode.locate registers
      let value ← location.operand.read registers
      return (use registers value, location.penalty)
  | modify change use => do
      let (location, registers) ← mode.locate registers
      let (result, registers) ← modifyOperand change location.operand registers
      return (use registers result, 0)
  | store source => do
      let (location, registers) ← mode.locate registers
      let registers ← location.operand.write (source registers) registers
      return (registers, 0)
  | storeMasked source keep => do
      let (location, registers) ← mode.locate registers
      let value := source registers
      if let some address := location.operand.address? then
        let (target, stored) := maskedStore value location.pageCrossed address
        Transaction.writeByte target stored
      return (keep registers value, 0)
  | compute change => return (change registers, 0)
  | branch flag on => do
      let (location, registers) ← mode.locate registers
      match location.operand.address?, registers.p.has flag == on with
      | some target, true => return ({ registers with pc := target }, 1 + location.penalty)
      | _, _ => return (registers, 0)
  | jump => do
      let (location, registers) ← mode.locate registers
      return ({ registers with pc := location.operand.address?.getD registers.pc }, 0)
  | call => do
      let (location, registers) ← mode.locate registers
      let registers ← pushAddress (registers.pc.retreat 1) registers
      return ({ registers with pc := location.operand.address?.getD registers.pc }, 0)
  | returnFromCall => do
      let (address, registers) ← pullAddress registers
      return ({ registers with pc := address.next }, 0)
  | returnFromInterrupt => do
      let (status, registers) ← EightBit.pull registers
      let (address, registers) ← pullAddress registers
      return ({ registers with p := .pulled status, pc := address }, 0)
  | interrupt => do
      let registers ← Interrupt.break_.enter { registers with pc := registers.pc.next }
      return (registers, 0)
  | push source => do
      let registers ← EightBit.push (source registers) registers
      return (registers, 0)
  | pull use => do
      let (value, registers) ← EightBit.pull registers
      return (use registers value, 0)
  | halt => return (registers, 0)

end Operation

namespace Instruction

/-- The program counter is on the opcode, which is not read again. -/
def execute (instruction : Instruction) (registers : Registers) :
    Transaction (Registers × Nat) := do
  let registers := { registers with pc := registers.pc.next }
  let handler := instruction.handler
  let (registers, extra) ← handler.runs.operation.perform handler.mode registers
  return (registers, instruction.cycles + extra)

end Instruction

end EightBit
