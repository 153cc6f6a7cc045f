import EightBit.Proofs.Bus.Service

/-
Views. A peripheral may keep more than another one that reacts in the same way. What forgets the
difference is a view, and it goes along with all that is done to regions and to the bus: whatever
happens first, the view of the result is the result for the view.
-/

namespace EightBit

open Outcome

variable {D E : Type}

/-- What is left of the peripheral reacts as the peripheral does. -/
structure Peripheral.Faithful [Peripheral D] [Peripheral E] (view : E → D) : Prop where
  name : ∀ device, Peripheral.name (view device) = Peripheral.name device
  peek : ∀ device offset, Peripheral.peek (view device) offset = Peripheral.peek device offset
  read : ∀ device offset, Peripheral.read (view device) offset =
    Prod.map id (Prod.map view id) (Peripheral.read device offset)
  write : ∀ device offset value, Peripheral.write (view device) offset value =
    Prod.map view id (Peripheral.write device offset value)
  step : ∀ device cycles, Peripheral.step (view device) cycles =
    Prod.map view id (Peripheral.step device cycles)

/-- The contents with its device seen through a view. -/
def Contents.view (view : E → D) : Contents E → Contents D
  | .ram bytes => .ram bytes
  | .rom bytes => .rom bytes
  | .io device => .io (view device)

namespace Region

/-- The region with its device seen through a view. -/
def view (view : E → D) (region : Region E) : Region D :=
  ⟨region.name, region.range, region.contents.view view⟩

/-- What a view adds, the other one forgets. -/
theorem view_view {view : E → D} {fit : D → E} (fits : ∀ device, view (fit device) = device)
    (region : Region D) : (region.view fit).view view = region := by
  obtain ⟨name, range, contents⟩ := region
  cases contents with
  | ram bytes => rfl
  | rom bytes => rfl
  | io device => exact congrArg (io name range) (fits device)

variable [Peripheral D] [Peripheral E] {view : E → D}

theorem peek_view (faithful : Peripheral.Faithful view) (region : Region E) (offset : UInt16) :
    (region.view view).peek offset = region.peek offset := by
  obtain ⟨name, range, contents⟩ := region
  cases contents with
  | ram bytes => rfl
  | rom bytes => rfl
  | io device => exact congrArg Except.ok (faithful.peek device offset)

/-- A read of the view is the view of a read. -/
theorem read_view (faithful : Peripheral.Faithful view) (region : Region E) (offset : UInt16) :
    (region.view view).read offset =
      Prod.map id (Prod.map (Region.view view) id) <$> region.read offset := by
  obtain ⟨name, range, contents⟩ := region
  cases contents with
  | ram bytes =>
      change (_ >>= _) = _ <$> (byteAt bytes offset >>= _)
      cases byteAt bytes offset <;> rfl
  | rom bytes =>
      change (_ >>= _) = _ <$> (byteAt bytes offset >>= _)
      cases byteAt bytes offset <;> rfl
  | io device =>
      simp only [Region.view, Contents.view, Region.read, faithful.read, faithful.name, map_ok,
        Prod.map, id]

theorem writeDevice_view (faithful : Peripheral.Faithful view) (name : String) (device : E)
    (offset : UInt16) (value : UInt8) :
    writeDevice name (view device) offset value =
      Prod.map view id (writeDevice name device offset value) := by
  simp only [writeDevice, faithful.write, faithful.name, Prod.map, id]

/-- A write to the view is the view of a write. -/
theorem write_view (faithful : Peripheral.Faithful view) (region : Region E) (offset : UInt16)
    (value : UInt8) :
    (region.view view).write offset value =
      Prod.map (Region.view view) id <$> region.write offset value := by
  obtain ⟨name, range, contents⟩ := region
  cases contents with
  | ram bytes =>
      change (_ >>= _) = _ <$> (store bytes offset [value] >>= _)
      cases store bytes offset [value] <;> rfl
  | rom bytes => rfl
  | io device =>
      simp only [Region.view, Contents.view, Region.write, writeDevice_view faithful, map_ok,
        Prod.map, id]

theorem loadDevice_view (faithful : Peripheral.Faithful view) (name : String) (device : E)
    (offset : UInt16) (values : List UInt8) :
    loadDevice name (view device) offset values =
      Prod.map view id (loadDevice name device offset values) := by
  induction values generalizing device offset with
  | nil => rfl
  | cons value values ih =>
      simp only [loadDevice, writeDevice_view faithful, ih, Prod.map, id]

theorem load_view (faithful : Peripheral.Faithful view) (region : Region E) (offset : UInt16)
    (values : List UInt8) :
    (region.view view).load offset values =
      Prod.map (Region.view view) id <$> region.load offset values := by
  obtain ⟨name, range, contents⟩ := region
  cases contents with
  | ram bytes =>
      change (_ >>= _) = _ <$> (store bytes offset values >>= _)
      cases store bytes offset values <;> rfl
  | rom bytes =>
      change (_ >>= _) = _ <$> (store bytes offset values >>= _)
      cases store bytes offset values <;> rfl
  | io device =>
      simp only [Region.view, Contents.view, Region.load, loadDevice_view faithful, map_ok,
        Prod.map, id]

theorem tick_view (faithful : Peripheral.Faithful view) (region : Region E) (cycles : Nat) :
    (region.view view).tick cycles = Prod.map (Region.view view) id (region.tick cycles) := by
  obtain ⟨name, range, contents⟩ := region
  cases contents with
  | ram bytes => rfl
  | rom bytes => rfl
  | io device =>
      simp only [Region.view, Contents.view, Region.tick, faithful.step, Prod.map, id]

end Region

namespace Bus

/-- The bus with its devices seen through a view. -/
def view (view : E → D) (bus : Bus E) : Bus D :=
  ⟨bus.regions.map (Region.view view), bus.dispatch, bus.watchpoints, bus.hits, bus.lines, bus.log,
    bus.notes⟩

variable {view : E → D}

/-- The regions of the view are the views of the regions. -/
theorem getElem?_view (bus : Bus E) (id : Nat) :
    (bus.view view).regions[id]? = bus.regions[id]?.map (Region.view view) := Array.getElem?_map

/-- A view that undoes a fit shows the bus as it was. -/
theorem view_view {fit : D → E} (fits : ∀ device, view (fit device) = device) (bus : Bus D) :
    (bus.view fit).view view = bus := by
  have regions : (bus.regions.map (Region.view fit)).map (Region.view view) = bus.regions := by
    simp only [Array.map_map, Function.comp_def, Region.view_view fits, Array.map_id']
  rw [Bus.view, Bus.view, regions]

theorem absorb_view (bus : Bus E) (effects : List Effect) :
    (bus.absorb effects).view view = (bus.view view).absorb effects := by
  induction effects generalizing bus with
  | nil => rfl
  | cons effect effects ih =>
      cases effect with
      | raise line => exact ih (bus.raise line)
      | report event => exact ih (bus.report event)
      | note book entry => exact ih { bus with notes := bus.notes.push (book, entry) }

theorem notice_view (bus : Bus E) (access : Access) (address : Address) (value : UInt8) :
    (bus.notice access address value).view view =
      (bus.view view).notice access address value := by
  have watchpoints : (bus.view view).watchpoints = bus.watchpoints := rfl
  have hits : (bus.view view).hits = bus.hits := rfl
  rw [notice, notice, watchpoints, hits]
  split
  · split
    · rfl
    · rfl
  · rfl

theorem withRegion_view (bus : Bus E) (id : Nat) (region : Region E) :
    (bus.withRegion id region).view view =
      (bus.view view).withRegion id (region.view view) := by
  simp only [withRegion, Bus.view, Array.map_setIfInBounds]

/-- A result, and the view of the bus that comes with it. -/
def seen {α : Type} (view : E → D) (outcome : α × Bus E) : α × Bus D :=
  (outcome.1, outcome.2.view view)

theorem senseAny_view (bus : Bus E) (connected : List Line) :
    (bus.view view).senseAny connected = seen view (bus.senseAny connected) := by
  induction connected generalizing bus with
  | nil => rfl
  | cons line connected ih =>
      have rest := ih (bus.sense line).2
      have sensed : ((bus.view view).sense line).2 = (bus.sense line).2.view view := rfl
      rw [← sensed] at rest
      simp only [senseAny, rest]
      rfl

/-- An action on a region, and its like for the view. -/
theorem onRegion_view {α : Type} (bus : Bus E) (number : Nat)
    (act : Region D → Except Crash (α × Region D × List Effect))
    (like : Region E → Except Crash (α × Region E × List Effect))
    (same : ∀ region, act (region.view view) =
      Prod.map id (Prod.map (Region.view view) id) <$> like region) :
    (bus.view view).onRegion number act = seen view <$> bus.onRegion number like := by
  have placed : (bus.view view).regions[number]? = bus.regions[number]?.map (Region.view view) :=
    bus.getElem?_view number
  cases attached : bus.regions[number]? with
  | none =>
      rw [attached, Option.map_none] at placed
      rw [onRegion_missing attached, onRegion_missing placed]
      rfl
  | some region =>
      rw [attached, Option.map_some] at placed
      rw [onRegion_attached attached, onRegion_attached placed, same]
      cases like region with
      | error crash => rfl
      | ok outcome =>
          rw [map_ok, map_ok, map_ok, map_ok, seen, absorb_view, withRegion_view]
          rfl

/-- A change of a region, and its like for the view. -/
theorem onRegion_change_view (bus : Bus E) (number : Nat)
    (change : Region D → Except Crash (Region D × List Effect))
    (like : Region E → Except Crash (Region E × List Effect))
    (same : ∀ region, change (region.view view) =
      Prod.map (Region.view view) id <$> like region) :
    ((bus.view view).onRegion number fun region => do
        let (region, effects) ← change region
        return ((), region, effects)) =
      seen view <$> bus.onRegion number fun region => do
        let (region, effects) ← like region
        return ((), region, effects) := by
  refine bus.onRegion_view number _ _ fun region => ?_
  rw [same]
  cases like region with
  | error crash => rfl
  | ok outcome => rfl

theorem regionName_view (bus : Bus E) : (bus.view view).regionName = bus.regionName := by
  funext id
  rw [regionName, regionName, getElem?_view, Option.map_map]
  rfl

/-- Attaching to the view is the view of attaching. -/
theorem attach_view (bus : Bus E) (region : Region E) :
    (bus.view view).attach (region.view view) = seen view (bus.attach region) := by
  have kind : (region.view view).kind = region.kind := by
    obtain ⟨name, range, contents⟩ := region
    cases contents <;> rfl
  have size : (bus.view view).regions.size = bus.regions.size := Array.size_map
  have pushed : (bus.attach region).2.view view =
      ⟨(bus.view view).regions.push (region.view view), bus.dispatch, bus.watchpoints, bus.hits,
        bus.lines, (bus.attach region).2.log, bus.notes⟩ :=
    congrArg (fun regions => Bus.mk regions _ _ _ _ _ _) Array.map_push
  rw [attach, seen, pushed, size, kind]
  rfl

theorem remap_view (bus : Bus E) (id : Nat) :
    (bus.view view).remap id = (bus.remap id).view view := by
  have dispatch : (bus.view view).dispatch = bus.dispatch := rfl
  rw [remap, remap, getElem?_view, regionName_view, dispatch]
  cases bus.regions[id]? with
  | none => rfl
  | some region => rfl

theorem map_view (bus : Bus E) (id : Nat) :
    (bus.view view).map id = seen view (bus.map id) := by
  have size : (bus.view view).regions.size = bus.regions.size := Array.size_map
  rw [map, map, size, remap_view]
  split
  · rfl
  · rfl

variable [Peripheral D] [Peripheral E]

theorem peek_view (faithful : Peripheral.Faithful view) (bus : Bus E) (address : Address) :
    (bus.view view).peek address = bus.peek address := by
  have owner : (bus.view view).owner address = bus.owner address := rfl
  rw [peek, peek, owner]
  cases bus.owner address with
  | none => rfl
  | some id =>
      dsimp only
      rw [getElem?_view]
      cases bus.regions[id]? with
      | none => rfl
      | some region => exact region.peek_view faithful _

/-- A read of the view of the bus is the view of a read. -/
theorem read_view (faithful : Peripheral.Faithful view) (bus : Bus E) (address : Address) :
    (bus.view view).read address = seen view <$> bus.read address := by
  have owner : (bus.view view).owner address = bus.owner address := rfl
  rw [read, read, owner]
  cases bus.owner address with
  | none => rfl
  | some id =>
      dsimp only
      rw [bus.onRegion_view id (fun region => region.read (region.range.offsetOf address))
        (fun region => region.read (region.range.offsetOf address))
        fun region => region.read_view faithful _]
      cases bus.onRegion id fun region => region.read (region.range.offsetOf address) with
      | error crash => rfl
      | ok outcome => simp only [map_ok, bind_ok, pure_eq_ok, seen, notice_view]

theorem write_view (faithful : Peripheral.Faithful view) (bus : Bus E) (address : Address)
    (value : UInt8) :
    (bus.view view).write address value = Bus.view view <$> bus.write address value := by
  have owner : (bus.view view).owner address = bus.owner address := rfl
  rw [write, write, owner]
  cases bus.owner address with
  | none => rfl
  | some id =>
      dsimp only
      rw [bus.onRegion_change_view id
        (fun region => region.write (region.range.offsetOf address) value)
        (fun region => region.write (region.range.offsetOf address) value)
        fun region => region.write_view faithful _ value]
      cases bus.onRegion id fun region => do
          let (region, effects) ← region.write (region.range.offsetOf address) value
          return ((), region, effects) with
      | error crash => rfl
      | ok outcome => simp only [map_ok, bind_ok, pure_eq_ok, seen, notice_view]

theorem loadOwned_view (faithful : Peripheral.Faithful view) (bus : Bus E) (id : Nat)
    (address : Address) (bytes : List UInt8) :
    (bus.view view).loadOwned id address bytes =
      Bus.view view <$> bus.loadOwned id address bytes := by
  rw [loadOwned, loadOwned, bus.onRegion_change_view id
    (fun region => region.load (region.range.offsetOf address) bytes)
    (fun region => region.load (region.range.offsetOf address) bytes)
    fun region => region.load_view faithful _ bytes]
  cases bus.onRegion id fun region => do
      let (region, effects) ← region.load (region.range.offsetOf address) bytes
      return ((), region, effects) with
  | error crash => rfl
  | ok outcome => rfl

theorem copyBytes_view (faithful : Peripheral.Faithful view) (bus : Bus E) (address : Address)
    (bytes : List UInt8) :
    (bus.view view).copyBytes address bytes = seen view <$> bus.copyBytes address bytes := by
  induction bytes generalizing bus address with
  | nil => rfl
  | cons byte bytes ih =>
      have owner : (bus.view view).owner address = bus.owner address := rfl
      rw [copyBytes, copyBytes, owner]
      cases bus.owner address with
      | none => rfl
      | some id =>
          dsimp only
          rw [loadOwned_view faithful]
          cases bus.loadOwned id address [byte] with
          | error crash => rfl
          | ok after => exact ih after address.next

/-- A copy into the view is the view of a copy. -/
theorem copy_view (faithful : Peripheral.Faithful view) (bus : Bus E) (address : Address)
    (bytes : List UInt8) :
    (bus.view view).copy address bytes = seen view <$> bus.copy address bytes := by
  have owner : (bus.view view).owner address = bus.owner address := rfl
  have owns : ∀ id, (bus.view view).ownsBlock id address bytes.length =
      bus.ownsBlock id address bytes.length := fun _ => rfl
  rw [copy, copy, owner]
  split
  · rfl
  · cases bus.owner address with
    | none => rfl
    | some id =>
        dsimp only
        rw [owns]
        split
        · rw [loadOwned_view faithful]
          cases bus.loadOwned id address bytes with
          | error crash => rfl
          | ok after => rfl
        · exact copyBytes_view faithful (bus.report _) address bytes

/-- Time passes for the view of the bus as it does for the bus. -/
theorem tick_view (faithful : Peripheral.Faithful view) (bus : Bus E) (cycles : Nat) :
    (bus.view view).tick cycles = (bus.tick cycles).view view := by
  have ticked : ∀ region : Region E, (region.view view).tick cycles =
      ((region.tick cycles).1.view view, (region.tick cycles).2) := fun region =>
    region.tick_view faithful cycles
  have regions : (bus.view view).regions = bus.regions.map (Region.view view) := rfl
  rw [tick_eq, tick_eq, absorb_view, regions]
  simp only [Array.map_map, Array.toList_map, List.flatMap_map, Function.comp_def, ticked,
    Bus.view]

/-- Whatever a transaction does, it gets the same result. -/
theorem run_view {α : Type} (faithful : Peripheral.Faithful view) (act : Transaction α)
    (bus : Bus E) : act.run (bus.view view) = seen view <$> act.run bus := by
  induction act generalizing bus with
  | done result => rfl
  | read address next ih =>
      rw [run_read_eq_bind, run_read_eq_bind, read_view faithful]
      cases bus.read address with
      | error crash => rfl
      | ok outcome => exact ih outcome.1 outcome.2
  | write address value next ih =>
      rw [run_write_eq_bind, run_write_eq_bind, write_view faithful]
      cases bus.write address value with
      | error crash => rfl
      | ok after => exact ih after
  | report event next ih => exact ih (bus.report event)

end Bus

end EightBit
