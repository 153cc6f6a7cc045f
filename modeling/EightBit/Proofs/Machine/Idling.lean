import EightBit.Proofs.Bus.Service
import EightBit.Proofs.Machine.Reachable
import EightBit.Proofs.Processor.Step

/-
Machines that do nothing. Wherever such a machine looks, it finds an instruction without effect, so
what its steps do is known: the program counter moves on, time passes, and the lines are sensed.
-/

namespace EightBit

open Outcome

variable {D : Type} [Peripheral D]

namespace Bus

/-- Every read finds an instruction without effect, and leaves the bus as it is. -/
def Idles (bus : Bus D) : Prop := ∀ address, bus.read address = .ok (0xea, bus)

/-- One region answers for every address, and it holds nothing else. -/
theorem idles_of_rom {bus : Bus D} {id : Nat} {name : String}
    (owned : ∀ address, bus.owner address = some id)
    (attached : bus.regions[id]? = some (.rom name .full 0xea))
    (unwatched : bus.watchpoints = []) : bus.Idles := by
  intro address
  have storage : (Region.rom name .full 0xea : Region D).kind ≠ .io := nofun
  have seen : (Region.rom name .full 0xea : Region D).peek
      (AddressRange.full.offsetOf address) = .ok 0xea := by
    rw [(Region.peek_storage storage _).1]
    refine (Region.byteAt_inside ?_).trans (congrArg Except.ok (Array.getElem_replicate ..))
    exact Nat.lt_of_lt_of_eq (UInt16.toNat_lt _) Array.size_replicate.symm
  rw [read_attached (owned address) attached, (Region.peek_storage storage _).2]
  change _ <$> _ <$> (Region.rom name .full 0xea : Region D).peek
    (AddressRange.full.offsetOf address) = _
  rw [seen, map_ok, map_ok]
  dsimp only
  rw [withRegion_attached attached, absorb, notice, unwatched]
  rfl

end Bus

/-- The processor after an instruction without effect. -/
def Processor.idled (processor : Processor) : Processor :=
  ⟨{ processor.registers with pc := processor.registers.pc.next }, processor.cycles + 2, .none⟩

namespace Machine

/-- Nothing waits in the latch, and nothing is reported. -/
structure Idles (machine : Machine D) : Prop where
  bus : machine.bus.Idles
  pending : machine.processor.pending = .none
  trace : machine.trace = false

namespace Idles

variable {machine : Machine D}

/-- An idle processor takes two cycles for nothing. -/
theorem run_step (idles : machine.Idles) :
    machine.processor.step.run machine.bus =
      .ok ((.ok 2, machine.processor.idled), machine.bus) := by
  obtain ⟨⟨registers, cycles, pending⟩, bus, irqLines, nmiLines, trace⟩ := machine
  obtain ⟨idle, rfl, _⟩ := idles
  have unasked : ∀ handed : Processor, handed.pending = .none →
      handed.serve.run bus = .ok ((0, handed), bus) := by
    intro handed none
    rw [Processor.serve_idle (by rw [none]; rfl)]
    rfl
  rw [Processor.step_fetch, Bus.run_read_eq_bind, idle, bind_ok]
  dsimp only
  rw [if_pos (by decide)]
  refine Transaction.run_bind_eq_ok_iff.mpr ⟨_, _, rfl, ?_⟩
  exact Transaction.run_bind_eq_ok_iff.mpr ⟨_, _, unasked _ rfl, rfl⟩

/-- A machine that idles lets two cycles pass, and senses its lines. -/
theorem step (idles : machine.Idles) :
    machine.step = .ok (.ok 2,
      (({ machine with processor := machine.processor.idled } : Machine D).tick
        2).sampleLines) := by
  have traced : machine.traceInstruction = .ok machine := by
    rw [traceInstruction, idles.trace]
    rfl
  rw [Machine.step, traced, bind_ok, transact_eq, idles.run_step, map_ok, bind_ok]
  rfl

end Idles

/-- A machine that finds an instruction without effect wherever it looks. -/
def idling (registers : Registers) (cycles : UInt64) : Machine Unpopulated :=
  ⟨⟨registers, cycles, .none⟩, (Bus.empty.add (.rom "rom" .full 0xea)).2, [], [], false⟩

variable (registers : Registers) (cycles : UInt64)

/-- One region of read-only storage owns the whole address space. -/
theorem idling_bus : ∃ log, (idling registers cycles).bus =
    ⟨#[.rom "rom" .full 0xea], Dispatch.empty.assign .full 0, [], #[], #[], log, #[]⟩ :=
  ⟨_, rfl⟩

/-- The machine idles wherever it is. -/
theorem idling_idles : (idling registers cycles).Idles where
  bus := by
    have owned : ∀ address, (idling registers cycles).bus.owner address = some 0 := fun address =>
      (Dispatch.owner_assign ..).trans (if_pos (AddressRange.containsAddress_full address))
    exact Bus.idles_of_rom owned rfl rfl
  pending := rfl
  trace := rfl

/-- Time does not change storage. -/
theorem idling_tick (spent : Nat) :
    (idling registers cycles).bus.tick spent = (idling registers cycles).bus := by
  obtain ⟨log, same⟩ := idling_bus registers cycles
  rw [same]
  simp [Bus.tick, Region.tick, Region.rom, Bus.absorb]

/-- A step goes to the next address in two cycles, and changes nothing else. -/
theorem idling_step : (idling registers cycles).step =
    .ok (.ok 2, idling { registers with pc := registers.pc.next } (cycles + 2)) := by
  rw [(idling_idles registers cycles).step]
  change Except.ok (_, sampleLines ⟨_, (idling registers cycles).bus.tick 2, [], [], false⟩) = _
  rw [idling_tick]
  rfl

/-- Before the time is over the run goes on, two cycles later. -/
theorem idling_goesOn {time elapsed : Nat} (early : elapsed < time) (allowed : Nat) :
    stepUntil (fun elapsed _ => return decide (time ≤ elapsed)) (allowed + 1) elapsed
        (idling registers cycles) =
      stepUntil (fun elapsed _ => return decide (time ≤ elapsed)) allowed (elapsed + 2)
        (idling { registers with pc := registers.pc.next } (cycles + 2)) := by
  rw [stepUntil_unfold, pure_eq_ok, bind_ok, if_neg (by simpa using early), idling_step]
  rfl

end Machine

end EightBit
