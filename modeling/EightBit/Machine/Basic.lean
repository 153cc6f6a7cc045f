import EightBit.Bus.Copy
import EightBit.Opcode.Listing
import EightBit.Processor

/-
A machine: a processor wired to a bus, and the lines by which peripherals request interrupts. A
step runs one instruction, lets the same time pass for the peripherals, and senses the lines.
-/

namespace EightBit

structure Machine (D : Type) where
  processor : Processor
  bus : Bus D
  irqLines : List Line
  nmiLines : List Line
  /-- Every instruction is reported before it runs. -/
  trace : Bool

namespace Machine

variable {D : Type}

def ofBus (bus : Bus D) (trace : Bool) : Machine D := ⟨.initial, bus, [], [], trace⟩

/-- A machine with one block of storage for the whole address space. -/
def flat : Machine D := ofBus .flat false

def report (machine : Machine D) (event : Event) : Machine D :=
  { machine with bus := machine.bus.report event }

/-- Any raised line of those connected requests an interrupt. -/
def connectIrq (machine : Machine D) (line : Line) : Machine D :=
  { machine with irqLines := machine.irqLines ++ [line] }

def connectNmi (machine : Machine D) (line : Line) : Machine D :=
  { machine with nmiLines := machine.nmiLines ++ [line] }

/-- A peripheral is mapped over its range and shadows what answered there before. -/
def attachIo (machine : Machine D) (name : String) (range : AddressRange) (device : D) :
    Nat × Machine D :=
  let (id, bus) := machine.bus.add (.io name range device)
  (id, { machine with bus })

def request (machine : Machine D) (interrupt : Interrupt) : Machine D :=
  let machine := machine.report (.requested interrupt machine.processor.registers.pc)
  { machine with processor := machine.processor.request interrupt }

def withdraw (machine : Machine D) (interrupt : Interrupt) : Machine D :=
  { machine with processor := machine.processor.withdraw interrupt }

/-- The lines are sensed; if one was raised, the interrupt is requested. -/
def sample (machine : Machine D) (lines : List Line) (interrupt : Interrupt) : Machine D :=
  let ⟨processor, bus, irqLines, nmiLines, trace⟩ := machine
  let (raised, bus) := bus.senseAny lines
  let machine : Machine D := ⟨processor, bus, irqLines, nmiLines, trace⟩
  if raised then machine.request interrupt else machine

def sampleLines (machine : Machine D) : Machine D :=
  let irqLines := machine.irqLines
  let nmiLines := machine.nmiLines
  (machine.sample irqLines .irq).sample nmiLines .nmi

variable [Peripheral D]

/-- The processor makes a transaction with the bus. -/
def transact {α : Type} (machine : Machine D) (act : Processor → Transaction (α × Processor)) :
    Except Crash (α × Machine D) :=
  let ⟨processor, bus, irqLines, nmiLines, trace⟩ := machine
  match (act processor).run bus with
  | .ok ((result, processor), bus) => .ok (result, ⟨processor, bus, irqLines, nmiLines, trace⟩)
  | .error crash => .error crash

def tick (machine : Machine D) (cycles : Nat) : Machine D :=
  let ⟨processor, bus, irqLines, nmiLines, trace⟩ := machine
  ⟨processor, bus.tick cycles, irqLines, nmiLines, trace⟩

/-- Loading fills read-only storage as well. -/
def load (machine : Machine D) (address : Address) (bytes : List UInt8) :
    Except Crash (Except Fault Unit × Machine D) :=
  let ⟨processor, bus, irqLines, nmiLines, trace⟩ := machine
  match bus.copy address bytes with
  | .ok (result, bus) => .ok (result, ⟨processor, bus, irqLines, nmiLines, trace⟩)
  | .error crash => .error crash

def setResetVector (machine : Machine D) (address : Address) :
    Except Crash (Except Fault Unit × Machine D) :=
  machine.load Interrupt.reset.vector [address.lo, address.hi]

def reset (machine : Machine D) : Except Crash (Nat × Machine D) := do
  let (cycles, machine) ← machine.transact Processor.reset
  return (cycles, machine.tick cycles)

/-- The instruction at the program counter is reported if the machine traces. -/
def traceInstruction (machine : Machine D) : Except Crash (Machine D) := do
  if machine.trace then
    let (line, _) ← Listing.lineAt machine.bus.peek machine.processor.registers.pc
    return machine.report (.instruction line)
  else
    return machine

/-- A step that fails lets no time pass and senses no line. -/
def step (machine : Machine D) : Except Crash (Except Fault Nat × Machine D) := do
  let machine ← machine.traceInstruction
  let (result, machine) ← machine.transact Processor.step
  match result with
  | .ok cycles => return (.ok cycles, (machine.tick cycles).sampleLines)
  | .error fault => return (.error fault, machine)

end Machine

end EightBit
