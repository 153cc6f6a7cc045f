import EightBit.Processor
import EightBit.Proofs.Outcome

/-
The two bits of the status that are not flags of the processor. In the register the reserved bit is
always set and the break mark is always clear; whatever the processor does keeps them so.
-/

namespace EightBit

namespace Status

/-- The bits that are not stored in a register are as they always read there. -/
structure Settled (status : Status) : Prop where
  reserved : status.reserved = true
  breakMark : status.breakMark = false

theorem settled_initial : initial.Settled := ⟨rfl, rfl⟩

/-- Whatever byte is pulled, the status is settled. -/
theorem settled_pulled (byte : UInt8) : (pulled byte).Settled := ⟨rfl, rfl⟩

/-- A settled status survives the way through a save state. -/
theorem pulled_toByte {status : Status} (settled : status.Settled) :
    pulled status.toByte = status := by
  obtain ⟨n, v, u, b, d, i, z, c⟩ := status
  obtain ⟨rfl, rfl⟩ := settled
  rw [pulled, ofByte, unpack_toByte]

end Status

open Status

namespace Modification

/-- The change keeps a settled status settled. -/
def Keeps (change : Modification) : Prop :=
  ∀ status value, status.Settled → (change status value).2.Settled

end Modification

namespace Operation

/-- What the operation computes keeps a settled status settled. -/
def Keeps : Operation → Prop
  | consume use => ∀ registers value, registers.p.Settled → (use registers value).p.Settled
  | modify change use => change.Keeps ∧
      ∀ registers value, registers.p.Settled → (use registers value).p.Settled
  | storeMasked _ keep => ∀ registers value, registers.p.Settled → (keep registers value).p.Settled
  | compute change => ∀ registers, registers.p.Settled → (change registers).p.Settled
  | pull use => ∀ registers value, registers.p.Settled → (use registers value).p.Settled
  | _ => True

end Operation

/-- The rotation with its fix-ups keeps a settled status. -/
theorem Registers.andRotate_settled {registers : Registers} (settled : registers.p.Settled)
    (value : UInt8) : (registers.andRotate value).p.Settled := by
  unfold andRotate
  dsimp only
  split
  · exact ⟨settled.reserved, settled.breakMark⟩
  · exact ⟨settled.reserved, settled.breakMark⟩

/-- No mnemonic touches the two bits. Only a pull replaces the whole status. -/
theorem Mnemonic.operation_keeps (mnemonic : Mnemonic) : mnemonic.operation.Keeps := by
  cases mnemonic with
  | arr => exact fun _ value settled => Registers.andRotate_settled settled value
  | plp => exact fun _ value _ => settled_pulled value
  | _ =>
      first
      | trivial
      | exact fun _ settled => ⟨settled.reserved, settled.breakMark⟩
      | exact fun _ _ settled => ⟨settled.reserved, settled.breakMark⟩
      | exact ⟨fun _ _ settled => ⟨settled.reserved, settled.breakMark⟩,
          fun _ _ settled => ⟨settled.reserved, settled.breakMark⟩⟩

/-- Finding an operand moves the program counter only. -/
theorem Mode.locate_status (mode : Mode) (registers : Registers) :
    (mode.locate registers).Ensures fun found => found.2.p = registers.p := by
  cases mode with
  | accumulator => rfl
  | implied => rfl
  | immediate => rfl
  | zeroPage => exact fun _ => rfl
  | zeroPageX => exact fun _ => rfl
  | zeroPageY => exact fun _ => rfl
  | relative => exact fun _ => rfl
  | absolute => exact fun _ _ => rfl
  | absoluteX => exact fun _ _ => rfl
  | absoluteY => exact fun _ _ => rfl
  | indirect => exact fun _ _ _ _ => rfl
  | indexedIndirect => exact fun _ _ _ => rfl
  | indirectIndexed => exact fun _ _ _ => rfl

/-- A write keeps a settled status, also to the accumulator. -/
theorem Operand.write_settled (operand : Operand) (value : UInt8) {registers : Registers}
    (settled : registers.p.Settled) :
    (operand.write value registers).Ensures fun after => after.p.Settled := by
  cases operand with
  | accumulator => exact settled
  | memory address => exact settled

namespace Operation

/-- The operand is written with the status of the change. -/
theorem modifyOperand_settled {change : Modification} (keeps : change.Keeps) (operand : Operand)
    {registers : Registers} (settled : registers.p.Settled) :
    (modifyOperand change operand registers).Ensures fun after => after.2.p.Settled := by
  cases operand with
  | accumulator => exact keeps _ _ settled
  | memory address => exact fun value => keeps _ value settled

/-- An operation keeps a settled status settled if what it computes does. -/
theorem perform_settled {operation : Operation} (keeps : operation.Keeps) (mode : Mode)
    {registers : Registers} (settled : registers.p.Settled) :
    (operation.perform mode registers).Ensures fun after => after.1.p.Settled := by
  have located : (mode.locate registers).Ensures fun found => found.2.p.Settled :=
    (mode.locate_status registers).mono fun found same => same ▸ settled
  cases operation with
  | consume use =>
      refine located.bind fun ⟨⟨operand, crossed⟩, found⟩ start => ?_
      cases operand with
      | accumulator => exact keeps _ _ start
      | memory address => exact fun value => keeps _ value start
  | modify change use =>
      refine located.bind fun ⟨location, found⟩ start => ?_
      exact (modifyOperand_settled keeps.1 _ start).bind fun ⟨result, after⟩ kept =>
        keeps.2 _ _ kept
  | store source =>
      refine located.bind fun ⟨location, found⟩ start => ?_
      exact (Operand.write_settled _ _ start).bind fun after kept => kept
  | storeMasked source keep =>
      refine located.bind fun ⟨⟨operand, crossed⟩, found⟩ start => ?_
      cases operand with
      | accumulator => exact keeps _ _ start
      | memory address => exact keeps _ _ start
  | compute change => exact keeps _ settled
  | branch flag on =>
      refine located.bind fun ⟨location, found⟩ start => ?_
      dsimp only
      split
      · exact start
      · exact start
  | jump => exact located.bind fun ⟨location, found⟩ start => start
  | call => exact located.bind fun ⟨location, found⟩ start => start
  | returnFromCall => exact fun _ _ => settled
  | returnFromInterrupt => exact fun status _ _ => settled_pulled status
  | interrupt => exact fun _ _ => ⟨settled.reserved, settled.breakMark⟩
  | push source => exact settled
  | pull use => exact fun value => keeps _ value settled
  | halt => exact settled

end Operation

/-- No instruction unsettles the status. -/
theorem Instruction.execute_settled (instruction : Instruction) {registers : Registers}
    (settled : registers.p.Settled) :
    (instruction.execute registers).Ensures fun after => after.1.p.Settled := by
  have moved : Settled { registers with pc := registers.pc.next }.p := settled
  exact (Operation.perform_settled instruction.handler.runs.operation_keeps
    instruction.handler.mode moved).bind fun _ kept => kept

/-- A handler starts with a settled status, also after a reset. -/
theorem Interrupt.enter_settled (interrupt : Interrupt) {registers : Registers}
    (settled : registers.p.Settled) :
    (interrupt.enter registers).Ensures fun after => after.p.Settled := by
  cases interrupt with
  | reset => exact fun _ _ => ⟨rfl, rfl⟩
  | nmi => exact fun _ _ => ⟨settled.reserved, settled.breakMark⟩
  | irq => exact fun _ _ => ⟨settled.reserved, settled.breakMark⟩
  | break_ => exact fun _ _ => ⟨settled.reserved, settled.breakMark⟩

namespace Processor

/-- The status register of the processor is settled. -/
def Settled (processor : Processor) : Prop := processor.registers.p.Settled

theorem reset_settled {processor : Processor} (settled : processor.Settled) :
    processor.reset.Ensures fun after => after.2.Settled :=
  (Interrupt.reset.enter_settled settled).bind fun _ kept => kept

theorem serve_settled {processor : Processor} (settled : processor.Settled) :
    processor.serve.Ensures fun after => after.2.Settled := by
  unfold serve
  split
  · exact settled
  · rename_i interrupt _
    exact (interrupt.enter_settled settled).bind fun _ kept => kept

/-- A step leaves a settled status, whatever the memory answers. -/
theorem step_settled {processor : Processor} (settled : processor.Settled) :
    processor.step.Ensures fun after => after.2.Settled := by
  intro opcode
  change Transaction.Ensures _ (if (Instruction.ofOpcode opcode).isValid = true then _ else _)
  split
  · refine ((Instruction.ofOpcode opcode).execute_settled settled).bind
      fun ⟨registers, spent⟩ kept => ?_
    have handed : Settled { processor with registers } := kept
    exact (serve_settled handed).bind fun _ served => served
  · exact settled

/-- A save state holds all there is to know about a settled processor. -/
theorem ofImage_image {processor : Processor} (settled : processor.Settled) :
    ofImage processor.image = processor := by
  obtain ⟨registers, cycles, pending⟩ := processor
  rw [ofImage, image]
  dsimp only
  rw [pulled_toByte settled, Pending.ofByte_toByte]

theorem settled_initial : initial.Settled := Status.settled_initial

/-- A processor that comes from a save state is settled, whatever the save state holds. -/
theorem settled_ofImage (image : ProcessorImage) : (ofImage image).Settled :=
  settled_pulled image.p

end Processor

end EightBit
