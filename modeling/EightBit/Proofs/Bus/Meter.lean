import EightBit.Proofs.Bus.Sound
import EightBit.Proofs.Bus.View

/-
Meters. A meter stands before a peripheral and writes down the time that passes for it. Apart from
that it is the peripheral. Accesses and copies leave every meter as it is, and time reaches all of
them, whether their regions are mapped or not.
-/

namespace EightBit

open Outcome

variable {D : Type}

/-- A peripheral, and the spans of time that have passed for it, the earliest one first. -/
structure Metered (D : Type) where
  device : D
  ticks : List Nat

namespace Metered

/-- No time has passed yet. -/
def fresh (device : D) : Metered D := ⟨device, []⟩

variable [Peripheral D]

instance : Peripheral (Metered D) where
  name meter := Peripheral.name meter.device
  peek meter offset := Peripheral.peek meter.device offset
  read meter offset :=
    let (value, device, effects) := Peripheral.read meter.device offset
    (value, { meter with device }, effects)
  write meter offset value :=
    let (device, effects) := Peripheral.write meter.device offset value
    ({ meter with device }, effects)
  step meter cycles :=
    let (device, effects) := Peripheral.step meter.device cycles
    (⟨device, meter.ticks ++ [cycles]⟩, effects)
  restore? meter bytes :=
    (Peripheral.restore? meter.device bytes).map fun device => { meter with device }

/-- Nobody can tell a peripheral from one with a meter. -/
theorem faithful_device : Peripheral.Faithful (Metered.device (D := D)) where
  name _ := rfl
  peek _ _ := rfl
  read _ _ := rfl
  write _ _ _ := rfl
  step _ _ := rfl

end Metered

namespace Region

/-- What the meter of the region shows, if there is one. -/
def ticks? (region : Region (Metered D)) : Option (List Nat) :=
  match region.contents with
  | .io meter => some meter.ticks
  | _ => none

/-- A fresh meter has counted nothing. -/
theorem ticks?_fresh {region : Region D} (peripheral : region.kind = .io) :
    (region.view Metered.fresh).ticks? = some [] := by
  obtain ⟨name, range, contents⟩ := region
  cases contents with
  | io device => rfl
  | ram bytes => cases peripheral
  | rom bytes => cases peripheral

theorem ticks?_append_nil (region : Region (Metered D)) :
    (region.ticks?.map fun ticks => ticks ++ []) = region.ticks? := by
  simp only [List.append_nil, Option.map_id']

variable [Peripheral D] {region next : Region (Metered D)} {effects : List Effect}

/-- A read lets no time pass. -/
theorem ticks?_read {offset : UInt16} {value : UInt8}
    (done : region.read offset = .ok (value, next, effects)) : next.ticks? = region.ticks? := by
  obtain ⟨name, range, contents⟩ := region
  cases contents with
  | io meter =>
      cases done
      rfl
  | ram bytes =>
      obtain ⟨_, _, rest⟩ := bind_eq_ok_iff.mp done
      cases rest
      rfl
  | rom bytes =>
      obtain ⟨_, _, rest⟩ := bind_eq_ok_iff.mp done
      cases rest
      rfl

theorem ticks?_write {offset : UInt16} {value : UInt8}
    (done : region.write offset value = .ok (next, effects)) : next.ticks? = region.ticks? := by
  obtain ⟨name, range, contents⟩ := region
  cases contents with
  | io meter =>
      cases done
      rfl
  | rom bytes =>
      cases done
      rfl
  | ram bytes =>
      obtain ⟨_, _, rest⟩ := bind_eq_ok_iff.mp done
      cases rest
      rfl

theorem ticks_loadDevice (name : String) (meter : Metered D) (offset : UInt16)
    (values : List UInt8) : (loadDevice name meter offset values).1.ticks = meter.ticks := by
  induction values generalizing meter offset with
  | nil => rfl
  | cons value values ih => exact ih (writeDevice name meter offset value).1 (offset + 1)

theorem ticks?_load {offset : UInt16} {values : List UInt8}
    (done : region.load offset values = .ok (next, effects)) : next.ticks? = region.ticks? := by
  obtain ⟨name, range, contents⟩ := region
  cases contents with
  | io meter =>
      cases done
      exact congrArg some (ticks_loadDevice name meter offset values)
  | ram bytes =>
      obtain ⟨_, _, rest⟩ := bind_eq_ok_iff.mp done
      cases rest
      rfl
  | rom bytes =>
      obtain ⟨_, _, rest⟩ := bind_eq_ok_iff.mp done
      cases rest
      rfl

/-- Every tick is counted with its cycles. -/
theorem ticks?_tick (region : Region (Metered D)) (cycles : Nat) :
    (region.tick cycles).1.ticks? = region.ticks?.map fun ticks => ticks ++ [cycles] := by
  obtain ⟨name, range, contents⟩ := region
  cases contents with
  | io meter => rfl
  | ram bytes => rfl
  | rom bytes => rfl

end Region

namespace Bus

/-- The meters that were there before have gone on by the given spans of time, one after the
other. -/
def Ticked (spent : List Nat) (before after : Bus (Metered D)) : Prop :=
  ∀ ⦃id : Nat⦄ ⦃region : Region (Metered D)⦄, before.regions[id]? = some region →
    ∃ next, after.regions[id]? = some next ∧
      next.ticks? = region.ticks?.map fun ticks => ticks ++ spent

variable {bus before after : Bus (Metered D)}

/-- What leaves the regions alone lets no time pass. -/
theorem Ticked.of_regions (regions : after.regions = before.regions) : Ticked [] before after := by
  intro id region attached
  exact ⟨region, regions ▸ attached, region.ticks?_append_nil.symm⟩

/-- What passes in two parts passes one after the other. -/
theorem Ticked.trans {spent more : List Nat} {middle : Bus (Metered D)}
    (start : Ticked spent before middle) (rest : Ticked more middle after) :
    Ticked (spent ++ more) before after := by
  intro id region attached
  obtain ⟨next, found, shown⟩ := start attached
  obtain ⟨last, present, later⟩ := rest found
  refine ⟨last, present, ?_⟩
  rw [later, shown, Option.map_map]
  simp only [Function.comp_def, List.append_assoc]

theorem attach_ticked (bus : Bus (Metered D)) (region : Region (Metered D)) :
    Ticked [] bus (bus.attach region).2 := by
  intro id other attached
  have inside := (Array.getElem?_eq_some_iff.mp attached).1
  refine ⟨other, ?_, other.ticks?_append_nil.symm⟩
  rw [getElem?_attach, if_neg (Nat.ne_of_lt inside)]
  exact attached

/-- What lets no time pass for one region lets none pass for the bus. -/
theorem onRegion_ticked {α : Type} {id : Nat} {result : α}
    {act : Region (Metered D) → Except Crash (α × Region (Metered D) × List Effect)}
    (keeps : ∀ region result next effects, act region = .ok (result, next, effects) →
      next.ticks? = region.ticks?)
    (done : bus.onRegion id act = .ok (result, after)) : Ticked [] bus after := by
  cases attached : bus.regions[id]? with
  | none =>
      rw [onRegion_missing attached] at done
      cases done
  | some region =>
      rw [onRegion_attached attached] at done
      obtain ⟨⟨value, next, effects⟩, acted, rest⟩ := map_eq_ok_iff.mp done
      cases rest
      intro other old found
      -- The region in hand keeps its meter, and the others are as they were.
      rw [absorb_regions, getElem?_withRegion attached]
      by_cases same : id = other
      · subst same
        cases attached.symm.trans found
        have kept : next.ticks? = region.ticks? := keeps region _ next effects acted
        exact ⟨next, if_pos rfl, kept.trans region.ticks?_append_nil.symm⟩
      · exact ⟨old, by rw [if_neg same, found], old.ticks?_append_nil.symm⟩

variable [Peripheral D]

/-- Time passes for every region, mapped or not. -/
theorem tick_ticked (bus : Bus (Metered D)) (cycles : Nat) :
    Ticked [cycles] bus (bus.tick cycles) := by
  intro id region attached
  refine ⟨(region.tick cycles).1, ?_, region.ticks?_tick cycles⟩
  rw [tick_eq, absorb_regions]
  simp only [Array.getElem?_map, attached, Option.map_some]

theorem read_ticked {address : Address} {value : UInt8}
    (done : bus.read address = .ok (value, after)) : Ticked [] bus after := by
  obtain ⟨id, middle, served, rfl⟩ := read_eq_ok done
  exact (onRegion_ticked (fun _ _ _ _ => Region.ticks?_read) served).trans
    (.of_regions (notice_regions ..))

theorem write_ticked {address : Address} {value : UInt8}
    (done : bus.write address value = .ok after) : Ticked [] bus after := by
  obtain ⟨id, middle, served, rfl⟩ := write_eq_ok done
  refine Ticked.trans (onRegion_ticked (fun region _ next effects acted => ?_) served)
    (.of_regions (notice_regions ..))
  obtain ⟨outcome, written, rest⟩ := bind_eq_ok_iff.mp acted
  cases rest
  exact Region.ticks?_write written

theorem loadOwned_ticked {id : Nat} {address : Address} {bytes : List UInt8}
    (done : bus.loadOwned id address bytes = .ok after) : Ticked [] bus after := by
  obtain ⟨⟨_, middle⟩, served, rest⟩ := bind_eq_ok_iff.mp done
  cases rest
  refine onRegion_ticked (fun region _ next effects acted => ?_) served
  obtain ⟨outcome, loaded, rest⟩ := bind_eq_ok_iff.mp acted
  cases rest
  exact Region.ticks?_load loaded

theorem copyBytes_ticked {address : Address} {bytes : List UInt8} {result : Except Fault Unit}
    (done : bus.copyBytes address bytes = .ok (result, after)) : Ticked [] bus after := by
  induction bytes generalizing bus address with
  | nil =>
      cases done
      exact .of_regions rfl
  | cons byte bytes ih =>
      rw [copyBytes] at done
      split at done
      · cases done
        exact .of_regions rfl
      · obtain ⟨middle, loaded, rest⟩ := bind_eq_ok_iff.mp done
        exact (loadOwned_ticked loaded).trans (ih rest)

/-- A copy lets no time pass. -/
theorem copy_ticked {address : Address} {bytes : List UInt8} {result : Except Fault Unit}
    (done : bus.copy address bytes = .ok (result, after)) : Ticked [] bus after := by
  rw [copy] at done
  split at done
  · cases done
    exact .of_regions rfl
  · split at done
    · cases done
      exact .of_regions rfl
    · split at done
      · obtain ⟨middle, loaded, rest⟩ := bind_eq_ok_iff.mp done
        cases rest
        exact loadOwned_ticked loaded
      · have copied : Ticked [] (bus.report _) after := copyBytes_ticked done
        exact copied

/-- No transaction lets time pass by itself. -/
theorem run_ticked {α : Type} {act : Transaction α} {result : α}
    (served : act.run bus = .ok (result, after)) : Ticked [] bus after :=
  run_keeps (Ticked []) (fun _ => .of_regions rfl) .trans read_ticked write_ticked
    (fun _ _ => .of_regions rfl) served

end Bus

end EightBit
