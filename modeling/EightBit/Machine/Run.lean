import EightBit.Machine.Basic

/-
Running a machine: step after step until a condition holds or a watchpoint fires.
-/

namespace EightBit

/-- What a run did: the cycles it took and the hits that ended it. -/
structure RunReport where
  cycles : Nat
  hits : Array WatchHit
  deriving DecidableEq, Repr

namespace RunReport

def stoppedOnWatchpoint (report : RunReport) : Bool := !report.hits.isEmpty

end RunReport

/-- A condition on the processor and the bus; it may look at memory. -/
abbrev Stop (D : Type) := Processor → Bus D → Except Crash Bool

namespace Stop

variable {D : Type}

def never : Stop D := fun _ _ => return false

def at_ (address : Address) : Stop D := fun processor _ =>
  return processor.registers.pc == address

def after (cycles : UInt64) : Stop D := fun processor _ =>
  return decide (cycles ≤ processor.cycles)

def when_ [Peripheral D] (opcode : UInt8) : Stop D := fun processor bus =>
  return (← bus.peek processor.registers.pc) == opcode

end Stop

namespace Machine

variable {D : Type}

/-- Hits from before a run are dropped. -/
def dropStaleHits (machine : Machine D) : Machine D :=
  let ⟨processor, bus, irqLines, nmiLines, trace⟩ := machine
  let (stale, bus) := bus.takeHits
  let bus := if stale.isEmpty then bus else bus.report (.staleHits stale.size)
  ⟨processor, bus, irqLines, nmiLines, trace⟩

def takeHits (machine : Machine D) : Array WatchHit × Machine D :=
  let ⟨processor, bus, irqLines, nmiLines, trace⟩ := machine
  let (hits, bus) := bus.takeHits
  (hits, ⟨processor, bus, irqLines, nmiLines, trace⟩)

variable [Peripheral D]

/-- Steps until the condition on the cycles so far and the machine holds, a step leaves a hit or
fails, or as many steps as allowed are done. The condition is looked at once more in that case. -/
def stepUntil (done : Nat → Machine D → Except Crash Bool) :
    Nat → Nat → Machine D → Except Crash (Except Fault Nat × Machine D)
  | allowed, cycles, machine => do
      if ← done cycles machine then
        return (.ok cycles, machine)
      match allowed with
      | 0 => return (.ok cycles, machine)
      | allowed + 1 =>
          let (result, machine) ← machine.step
          match result with
          | .error fault => return (.error fault, machine)
          | .ok spent =>
              if machine.bus.hasHits then
                return (.ok (cycles + spent), machine)
              stepUntil done allowed (cycles + spent) machine

def finish (outcome : Except Fault Nat × Machine D) :
    Except Fault RunReport × Machine D :=
  match outcome with
  | (.error fault, machine) => (.error fault, machine)
  | (.ok cycles, machine) =>
      let (hits, machine) := machine.takeHits
      (.ok ⟨cycles, hits⟩, machine)

/-- At most `limit` instructions run before the condition holds or a watchpoint fires. -/
def run (machine : Machine D) (stop : Stop D) (limit : Nat) :
    Except Crash (Except Fault RunReport × Machine D) :=
  finish <$> stepUntil (fun _ machine => stop machine.processor machine.bus) limit 0
    machine.dropStaleHits

/-- Runs for at least the given time unless a watchpoint fires; every step takes some of it. -/
def runFor (machine : Machine D) (cycles : Nat) :
    Except Crash (Except Fault RunReport × Machine D) :=
  finish <$> stepUntil (fun elapsed _ => return decide (cycles ≤ elapsed)) cycles 0
    machine.dropStaleHits

/-- The processor alone runs: no time passes for the peripherals and no line is sensed. -/
def runProcessor (stop : Stop D) :
    Nat → Machine D → Except Crash (Except Fault Unit × Machine D)
  | limit, machine => do
      if ← stop machine.processor machine.bus then
        return (.ok (), machine)
      match limit with
      | 0 => return (.ok (), machine)
      | limit + 1 =>
          let (result, machine) ← machine.transact Processor.step
          match result with
          | .error fault => return (.error fault, machine)
          | .ok _ => runProcessor stop limit machine

end Machine

end EightBit
