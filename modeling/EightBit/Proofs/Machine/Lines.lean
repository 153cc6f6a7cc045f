import EightBit.Proofs.Machine.Idling
import EightBit.Proofs.Machine.Steps

/-
Interrupt lines. A line stays raised until it is sensed, and a step that succeeds senses every
connected line once time has passed: first the lines of the maskable request, then those of the
non-maskable one. Sensing lowers a line, so one that is connected to both inputs requests only the
maskable interrupt.
-/

namespace EightBit

open Outcome

variable {D : Type}

namespace Bus

/-- A line that does not exist is not raised. -/
theorem isRaised_eq (bus : Bus D) (line : Line) :
    bus.isRaised line = bus.lines[line]?.getD false := Array.getD_eq_getD_getElem? ..

/-- No line is lowered. -/
def StaysRaised (before after : Bus D) : Prop :=
  ∀ line, before.isRaised line = true → after.isRaised line = true

/-- Lines that are left alone stay raised. -/
theorem StaysRaised.of_lines {before after : Bus D} (lines : after.lines = before.lines) :
    StaysRaised before after := fun line raised => by
  rw [isRaised, lines]
  exact raised

theorem StaysRaised.trans {first second third : Bus D} (start : StaysRaised first second)
    (rest : StaysRaised second third) : StaysRaised first third :=
  fun line raised => rest line (start line raised)

/-- Raising a line lowers no other one. -/
theorem raise_staysRaised (bus : Bus D) (other : Line) : StaysRaised bus (bus.raise other) := by
  intro line raised
  rw [isRaised_eq] at raised ⊢
  rw [raise, Array.getElem?_setIfInBounds]
  split
  · split
    · rfl
    · rename_i here outside
      rw [here] at outside
      rw [Array.getElem?_eq_none (Nat.not_lt.mp outside)] at raised
      exact raised
  · exact raised

/-- Effects lower no line. -/
theorem absorb_staysRaised (bus : Bus D) (effects : List Effect) :
    StaysRaised bus (bus.absorb effects) := by
  induction effects generalizing bus with
  | nil => exact .of_lines rfl
  | cons effect effects ih =>
      cases effect with
      | raise other => exact (bus.raise_staysRaised other).trans (ih _)
      | report event => exact ih (bus.report event)
      | note book entry => exact ih { bus with notes := bus.notes.push (book, entry) }

theorem notice_staysRaised (bus : Bus D) (access : Access) (address : Address) (value : UInt8) :
    StaysRaised bus (bus.notice access address value) := by
  obtain ⟨hits, log, same⟩ := bus.notice_frame access address value
  rw [same]
  exact .of_lines rfl

/-- Nothing that is done to a region lowers a line. -/
theorem onRegion_staysRaised {α : Type} {bus after : Bus D} {id : Nat} {result : α}
    {act : Region D → Except Crash (α × Region D × List Effect)}
    (done : bus.onRegion id act = .ok (result, after)) : StaysRaised bus after := by
  cases attached : bus.regions[id]? with
  | none =>
      rw [onRegion_missing attached] at done
      cases done
  | some region =>
      rw [onRegion_attached attached] at done
      obtain ⟨⟨value, next, effects⟩, _, same⟩ := map_eq_ok_iff.mp done
      cases same
      exact (bus.withRegion id next).absorb_staysRaised effects

/-- Sensing a line lowers that line only. -/
theorem isRaised_sense (bus : Bus D) (line other : Line) :
    (bus.sense line).2.isRaised other = (bus.isRaised other && other != line) := by
  rw [isRaised_eq, isRaised_eq, sense, Array.getElem?_setIfInBounds]
  by_cases here : line = other
  · rw [if_pos here, here, bne_self_eq_false, Bool.and_false]
    split <;> rfl
  · rw [if_neg here, bne_iff_ne.mpr (Ne.symm here), Bool.and_true]

/-- Of the lines that are sensed some may be the same; what was raised at first counts. -/
theorem senseAny_fst (bus : Bus D) (connected : List Line) :
    (bus.senseAny connected).1 = connected.any bus.isRaised := by
  induction connected generalizing bus with
  | nil => rfl
  | cons line connected ih =>
      change (bus.isRaised line || ((bus.sense line).2.senseAny connected).1) = _
      rw [ih, List.any_cons]
      cases raised : bus.isRaised line with
      | true => rfl
      | false =>
          have unchanged : (bus.sense line).2.isRaised = bus.isRaised := by
            funext other
            rw [isRaised_sense]
            by_cases here : other = line
            · rw [here, raised, Bool.false_and]
            · rw [bne_iff_ne.mpr here, Bool.and_true]
          rw [unchanged]

/-- Sensing lowers all lines that are connected, and no other one. -/
theorem isRaised_senseAny (bus : Bus D) (connected : List Line) (line : Line) :
    (bus.senseAny connected).2.isRaised line =
      (bus.isRaised line && !connected.contains line) := by
  induction connected generalizing bus with
  | nil => exact (Bool.and_true _).symm
  | cons first connected ih =>
      change ((bus.sense first).2.senseAny connected).2.isRaised line = _
      rw [ih, isRaised_sense, List.contains_cons, Bool.not_or, Bool.and_assoc]
      rfl

variable [Peripheral D]

/-- A read lowers no line. -/
theorem read_staysRaised {bus after : Bus D} {address : Address} {value : UInt8}
    (done : bus.read address = .ok (value, after)) : StaysRaised bus after := by
  obtain ⟨id, middle, served, rfl⟩ := read_eq_ok done
  exact (onRegion_staysRaised served).trans (middle.notice_staysRaised _ _ _)

theorem write_staysRaised {bus after : Bus D} {address : Address} {value : UInt8}
    (done : bus.write address value = .ok after) : StaysRaised bus after := by
  obtain ⟨id, middle, served, rfl⟩ := write_eq_ok done
  exact (onRegion_staysRaised served).trans (middle.notice_staysRaised _ _ _)

/-- No transaction lowers a line. -/
theorem run_staysRaised {α : Type} {act : Transaction α} {bus after : Bus D} {result : α}
    (served : act.run bus = .ok (result, after)) : StaysRaised bus after :=
  run_keeps StaysRaised (fun _ => .of_lines rfl) .trans read_staysRaised write_staysRaised
    (fun _ _ => .of_lines rfl) served

/-- Time does not lower a line either. -/
theorem tick_staysRaised (bus : Bus D) (cycles : Nat) : StaysRaised bus (bus.tick cycles) := by
  obtain ⟨effects, same⟩ := bus.tick_frame cycles
  rw [same]
  have ticked : StaysRaised bus { bus with
      regions := bus.regions.map fun region : Region D => (region.tick cycles).1 } := .of_lines rfl
  exact ticked.trans (absorb_staysRaised _ effects)

end Bus

namespace Machine

/-- The latch gets the request if some connected line is raised; nothing else of the processor
changes. -/
theorem sample_processor (machine : Machine D) (connected : List Line) (interrupt : Interrupt) :
    (machine.sample connected interrupt).processor =
      if connected.any machine.bus.isRaised = true then machine.processor.request interrupt
      else machine.processor := by
  rw [← Bus.senseAny_fst]
  obtain ⟨processor, bus, irqLines, nmiLines, trace⟩ := machine
  unfold sample
  dsimp only
  split <;> rfl

/-- Sampling requests the interrupt if one of its lines is raised. -/
theorem sample_contains (machine : Machine D) (connected : List Line)
    (interrupt kind : Interrupt) :
    (machine.sample connected interrupt).processor.pending.contains kind =
      (machine.processor.pending.contains kind ||
        kind == interrupt && connected.any machine.bus.isRaised) := by
  rw [sample_processor]
  split
  · rename_i raised
    rw [raised, Bool.and_true]
    exact Pending.contains_raise ..
  · rename_i unraised
    rw [Bool.eq_false_iff.mpr unraised, Bool.and_false, Bool.or_false]

/-- Sampling lowers the lines that it senses. -/
theorem isRaised_sample (machine : Machine D) (connected : List Line) (interrupt : Interrupt)
    (line : Line) : (machine.sample connected interrupt).bus.isRaised line =
      (machine.bus.isRaised line && !connected.contains line) := by
  rw [← Bus.isRaised_senseAny]
  obtain ⟨processor, bus, irqLines, nmiLines, trace⟩ := machine
  unfold sample
  dsimp only
  split <;> rfl

/-- The lines and the latch before the lines are sensed, and afterwards. -/
structure Sampled (before after : Machine D) : Prop where
  /-- Every connected line is lowered, and no other. -/
  lines : ∀ line, after.bus.isRaised line =
    (before.bus.isRaised line && !(before.irqLines ++ before.nmiLines).contains line)
  irq : after.processor.pending.contains .irq =
    (before.processor.pending.contains .irq || before.irqLines.any before.bus.isRaised)
  /-- What is connected to both inputs has been lowered by then. -/
  nmi : after.processor.pending.contains .nmi =
    (before.processor.pending.contains .nmi ||
      before.nmiLines.any fun line =>
        before.bus.isRaised line && !before.irqLines.contains line)
  other : ∀ kind, kind ≠ .irq → kind ≠ .nmi →
    after.processor.pending.contains kind = before.processor.pending.contains kind
  processor : after.processor =
    { before.processor with pending := after.processor.pending }

/-- Both kinds of lines are sensed, the maskable ones first. -/
theorem sampleLines_sampled (machine : Machine D) : Sampled machine machine.sampleLines := by
  have pending : ∀ kind, machine.sampleLines.processor.pending.contains kind =
      (machine.processor.pending.contains kind ||
        kind == .irq && machine.irqLines.any machine.bus.isRaised ||
        kind == .nmi && machine.nmiLines.any fun line =>
          machine.bus.isRaised line && !machine.irqLines.contains line) := by
    intro kind
    -- What the first sampling has lowered, the second one does not see.
    have lowered : (machine.sample machine.irqLines .irq).bus.isRaised =
        fun line => machine.bus.isRaised line && !machine.irqLines.contains line :=
      funext (machine.isRaised_sample machine.irqLines .irq)
    rw [sampleLines, sample_contains, sample_contains, lowered]
  refine ⟨fun line => ?_, ?_, ?_, fun kind ordinary maskable => ?_, ?_⟩
  · rw [sampleLines, isRaised_sample, isRaised_sample, List.contains_append, Bool.not_or,
      Bool.and_assoc]
  · rw [pending]
    exact Bool.or_false _
  · rw [pending]
    exact congrArg (· || _) (Bool.or_false _)
  · rw [pending, beq_eq_false_iff_ne.mpr ordinary, beq_eq_false_iff_ne.mpr maskable]
    simp only [Bool.false_and, Bool.or_false]
  · obtain ⟨latch, lines, log, same⟩ := machine.sampleLines_frame
    rw [same]

/-- Where no raised line is connected to both inputs, every raised line requests its interrupt. -/
theorem Sampled.nmi_apart {before after : Machine D} (sampled : Sampled before after)
    (apart : ∀ line ∈ before.nmiLines, before.bus.isRaised line = true →
      line ∉ before.irqLines) :
    after.processor.pending.contains .nmi =
      (before.processor.pending.contains .nmi || before.nmiLines.any before.bus.isRaised) := by
  have same : (before.nmiLines.any fun line =>
      before.bus.isRaised line && !before.irqLines.contains line) =
        before.nmiLines.any before.bus.isRaised := by
    rw [Bool.eq_iff_iff, List.any_eq_true, List.any_eq_true]
    constructor
    · rintro ⟨line, connected, counted⟩
      exact ⟨line, connected, (Bool.and_eq_true_iff.mp counted).1⟩
    · rintro ⟨line, connected, raised⟩
      have elsewhere := apart line connected raised
      exact ⟨line, connected, by simp [raised, elsewhere]⟩
  rw [sampled.nmi, same]

variable [Peripheral D]

/-- What a step does to the lines and to the latch. -/
structure LineLaws (machine : Machine D) : Prop where
  /-- The lines are sensed once the processor has stepped and time has passed. If no raised line is
  connected to both inputs then, each of them requests its own interrupt. -/
  succeeded : ∀ cycles after, machine.step = .ok (.ok cycles, after) →
    ∃ log processor bus,
      machine.processor.step.run { machine.bus with log } = .ok ((.ok cycles, processor), bus) ∧
        Sampled (({ machine with processor, bus } : Machine D).tick cycles) after ∧
        ((∀ line ∈ machine.nmiLines, (bus.tick cycles).isRaised line = true →
            line ∉ machine.irqLines) →
          after.processor.pending.contains .nmi =
            (processor.pending.contains .nmi || machine.nmiLines.any (bus.tick cycles).isRaised))
  /-- No line is sensed, and the latch stays as it was. -/
  failed : ∀ fault after, machine.step = .ok (.error fault, after) →
    after.processor = machine.processor ∧
      (∃ log bus,
        machine.processor.step.run { machine.bus with log } =
            .ok ((.error fault, machine.processor), bus) ∧
          after = { machine with bus }) ∧
        ∀ line, machine.bus.isRaised line = true → after.bus.isRaised line = true

/-- Every machine obeys the laws of the lines. -/
theorem step_samples_lines (machine : Machine D) : machine.LineLaws where
  succeeded cycles after stepped := by
    obtain ⟨log, processor, bus, served, rfl⟩ := step_eq_ok stepped
    have sampled := sampleLines_sampled (({ machine with processor, bus } : Machine D).tick cycles)
    exact ⟨log, processor, bus, served, sampled, sampled.nmi_apart⟩
  failed fault after failed := by
    obtain ⟨log, bus, served, rfl⟩ := step_eq_error failed
    refine ⟨rfl, ⟨log, bus, served, rfl⟩, fun line raised => ?_⟩
    exact Bus.run_staysRaised served line raised

/-- A machine whose only line is raised, and connected to both inputs. -/
def shared : Machine Unpopulated :=
  { idling .initial 0 with
    bus := { (idling .initial 0).bus with lines := #[true] }, irqLines := [0], nmiLines := [0] }

/-- The machine with the shared line idles. -/
theorem shared_idles : shared.Idles where
  bus := by
    have owned : ∀ address, shared.bus.owner address = some 0 := fun address =>
      (Dispatch.owner_assign ..).trans (if_pos (AddressRange.containsAddress_full address))
    exact Bus.idles_of_rom owned rfl rfl
  pending := rfl
  trace := rfl

/-- The line is still raised when time has passed, but no non-maskable interrupt is requested. -/
theorem shared_line_requests_no_nmi : ∃ processor bus after,
    shared.processor.step.run shared.bus = .ok ((.ok 2, processor), bus) ∧
      0 ∈ shared.nmiLines ∧ (bus.tick 2).isRaised 0 = true ∧
        shared.step = .ok (.ok 2, after) ∧ after.processor.pending.contains .nmi = false := by
  refine ⟨_, _, _, shared_idles.run_step, List.mem_singleton_self 0, ?_, shared_idles.step, ?_⟩
  · have raised : shared.bus.isRaised 0 = true := rfl
    exact Bus.tick_staysRaised _ 2 0 raised
  · rw [(sampleLines_sampled _).nmi]
    change (false || (List.any [0] fun line => _ && !List.contains [0] line)) = false
    simp

end Machine

end EightBit
