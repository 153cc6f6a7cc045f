import EightBit.Proofs.Bus.Service
import EightBit.Proofs.Processor.Calls

/-
Storage as one flat memory. Where storage answers for every address, the processor cannot tell the
bus from a single array of bytes with some protected addresses: how the addresses are divided among
regions, and what the regions hold that is not shown, makes no difference.
-/

namespace EightBit

open Outcome

/-- One byte for each address; what is stored at a protected address is ignored. -/
structure FlatMemory where
  bytes : Vector UInt8 65536
  readOnly : Address → Bool

namespace FlatMemory

/-- The byte at an address. -/
def get (memory : FlatMemory) (address : Address) : UInt8 :=
  have := address.toNat_lt
  memory.bytes[address.toNat]

/-- The memory after a write, which read-only addresses ignore. -/
def put (memory : FlatMemory) (address : Address) (value : UInt8) : FlatMemory :=
  have := address.toNat_lt
  if memory.readOnly address then memory
  else { memory with bytes := memory.bytes.set address.toNat value }

instance : Memory FlatMemory where
  read memory address := .ok (memory.get address, memory)
  write memory address value := .ok (memory.put address value)
  report memory _ := memory

/-- Memories are the same if they hold the same bytes and protect the same addresses. -/
theorem ext_get {first second : FlatMemory}
    (bytes : ∀ address, first.get address = second.get address)
    (readOnly : ∀ address, first.readOnly address = second.readOnly address) : first = second := by
  obtain ⟨left, protects⟩ := first
  obtain ⟨right, others⟩ := second
  have same : left = right := by
    apply Vector.ext
    intro index inside
    have place : (UInt16.ofNat index).toNat = index := UInt16.toNat_ofNat_of_lt' inside
    have here := bytes (UInt16.ofNat index)
    simpa only [get, place] using here
  have rules : protects = others := funext readOnly
  rw [same, rules]

/-- A write does not lift the protection of any address. -/
@[simp] theorem put_readOnly (memory : FlatMemory) (address : Address) (value : UInt8) :
    (memory.put address value).readOnly = memory.readOnly := by
  rw [put]
  split <;> rfl

/-- A write shows at its address and nowhere else. -/
theorem get_put {memory : FlatMemory} {address : Address}
    (writable : memory.readOnly address = false) (value : UInt8) (other : Address) :
    (memory.put address value).get other = if other = address then value else memory.get other := by
  simp [put, get, writable, Vector.getElem_set, UInt16.toNat_inj, eq_comm]

/-- One byte everywhere, and no way to change it. -/
def filled (value : UInt8) : FlatMemory := ⟨.replicate 65536 value, fun _ => true⟩

theorem get_filled (value : UInt8) (address : Address) : (filled value).get address = value :=
  Vector.getElem_replicate _

variable {α : Type}

/-- A read goes on with the byte at its address. -/
theorem run_read (memory : FlatMemory) (address : Address) (next : UInt8 → Transaction α) :
    (Transaction.read address next).run memory = (next (memory.get address)).run memory := rfl

/-- A write goes on with the memory that it leaves. -/
theorem run_write (memory : FlatMemory) (address : Address) (value : UInt8)
    (next : Transaction α) :
    (Transaction.write address value next).run memory = next.run (memory.put address value) := rfl

/-- A memory takes no notice of reports. -/
theorem run_report (memory : FlatMemory) (event : Event) (next : Transaction α) :
    (Transaction.report event next).run memory = next.run memory := rfl

end FlatMemory

namespace Bus

variable {D : Type}

/-- The kind of the region that answers for an address. -/
def ownerKind? (bus : Bus D) (address : Address) : Option RegionKind :=
  (bus.owner address).bind fun id => bus.regions[id]?.map Region.kind

/-- The kind of region that answers for an address is that of its owner. -/
theorem ownerKind?_attached {bus : Bus D} {address : Address} {id : Nat} {region : Region D}
    (owned : bus.owner address = some id) (attached : bus.regions[id]? = some region) :
    bus.ownerKind? address = some region.kind := by
  rw [ownerKind?, owned, Option.bind_some, attached, Option.map_some]

/-- The kinds of the regions stay. -/
theorem Follows.ownerKind? {earlier later : Bus D} (follows : Follows earlier later)
    (address : Address) : later.ownerKind? address = earlier.ownerKind? address := by
  have kinds : ∀ (bus : Bus D) (id : Nat),
      bus.regions[id]?.map Region.kind = bus.outlines[id]?.map Region.Outline.kind := by
    intro bus id
    rw [getElem?_outlines, Option.map_map]
    rfl
  simp only [Bus.ownerKind?, follows.owner, kinds, follows.outlines]

variable {bus : Bus D}

/-- Storage that answers for an address has a byte for it. -/
theorem Sound.cell (sound : bus.Sound) {address : Address} {kind : RegionKind}
    (answers : bus.ownerKind? address = some kind) (storage : kind ≠ .io) :
    ∃ id region, bus.owner address = some id ∧ bus.regions[id]? = some region ∧
      region.kind = kind ∧ (region.range.offsetOf address).toNat < region.stored.size := by
  cases owned : bus.owner address with
  | none => simp [ownerKind?, owned] at answers
  | some id =>
      obtain ⟨region, attached, filled, _, inside⟩ := sound.lookup owned
      rw [ownerKind?_attached owned attached, Option.some.injEq] at answers
      subst answers
      exact ⟨id, region, rfl, attached, rfl, by rw [filled storage]; exact inside⟩

/-- Where only storage answers, no peripheral owns an address. -/
theorem StorageOnly.kind (only : bus.StorageOnly) {address : Address} {kind : RegionKind}
    (answers : bus.ownerKind? address = some kind) : kind ≠ .io := by
  obtain ⟨id, _, found⟩ := Option.bind_eq_some_iff.mp answers
  obtain ⟨region, attached, rfl⟩ := Option.map_eq_some_iff.mp found
  exact only attached

section Cell

variable [Peripheral D] {address : Address}

/-- Reading storage finds the byte that is seen there, and only the watchpoints notice. -/
theorem Sound.read_storage (sound : bus.Sound) {kind : RegionKind}
    (answers : bus.ownerKind? address = some kind) (storage : kind ≠ .io) :
    ∃ value, bus.peek address = .ok value ∧
      bus.read address = .ok (value, bus.notice .read address value) := by
  obtain ⟨id, region, owned, attached, rfl, inside⟩ := sound.cell answers storage
  have seen : bus.peek address = .ok region.stored[(region.range.offsetOf address).toNat] := by
    rw [peek_attached owned attached, (Region.peek_storage storage _).1,
      Region.byteAt_inside inside]
  refine ⟨_, seen, ?_⟩
  rw [read_attached owned attached, (Region.peek_storage storage _).2,
    ← peek_attached owned attached, seen, map_ok, map_ok]
  dsimp only
  rw [withRegion_attached attached]
  rfl

/-- What is seen depends on the regions and the table only, gaps included. -/
theorem tryPeek_congr {first second : Bus D} (regions : first.regions = second.regions)
    (dispatch : first.dispatch = second.dispatch) (place : Address) :
    first.tryPeek place = second.tryPeek place := by
  simp only [tryPeek, owner, dispatch, peek_congr regions dispatch]

/-- A byte that is written to RAM is seen there afterwards. -/
theorem Sound.write_ram (sound : bus.Sound) (answers : bus.ownerKind? address = some .ram)
    (value : UInt8) : ∃ after, bus.write address value = .ok after ∧
      after.peek address = .ok value := by
  obtain ⟨id, region, owned, attached, ram, inside⟩ := sound.cell answers nofun
  have storage : region.kind ≠ .io := by rw [ram]; nofun
  have writable : region.kind ≠ .rom := by rw [ram]; nofun
  have fits : (region.range.offsetOf address).toNat + [value].length ≤ region.stored.size := inside
  obtain ⟨next, loaded, outline, bytes⟩ := Region.load_storage storage fits
  refine ⟨(bus.withRegion id next).notice .write address value, ?_, ?_⟩
  · rw [write_eq_loadOwned owned attached writable, loadOwned_attached attached, loaded]
    rfl
  · have still : (bus.withRegion id next).owner address = some id := owned
    have present := getElem?_withRegion attached next id
    rw [if_pos rfl] at present
    rw [← Region.kind_of_outline outline] at storage
    rw [notice_peek, peek_attached still present, (Region.peek_storage storage _).1,
      Region.byteAt, bytes, Region.range_of_outline outline, Region.overwrite, Region.overwrite,
      Array.getElem?_setIfInBounds_self_of_lt inside]

/-- Another byte in the cell of an address is seen at that address only. -/
theorem Sound.peek_stored (sound : bus.Sound) {id : Nat} {region next : Region D}
    (owned : bus.owner address = some id) (attached : bus.regions[id]? = some region)
    (outline : next.outline = region.outline) {value : UInt8}
    (bytes : next.stored =
      region.stored.setIfInBounds (region.range.offsetOf address).toNat value)
    {other : Address} {kind : RegionKind} (answers : bus.ownerKind? other = some kind)
    (storage : kind ≠ .io) :
    (bus.withRegion id next).peek other =
      if other = address then .ok value else bus.peek other := by
  obtain ⟨owner, found, owns, present, rfl, inside⟩ := sound.cell answers storage
  have range : next.range = region.range := Region.range_of_outline outline
  have kind : next.kind = region.kind := Region.kind_of_outline outline
  have place := getElem?_withRegion attached next owner
  have still : (bus.withRegion id next).owner other = some owner := owns
  by_cases same : id = owner
  · subst same
    cases attached.symm.trans present
    rw [if_pos rfl] at place
    rw [← kind] at storage
    rw [peek_attached still place, (Region.peek_storage storage _).1, Region.byteAt, bytes, range,
      Array.getElem?_setIfInBounds]
    by_cases here : other = address
    · subst here
      rw [if_pos rfl, if_pos rfl, if_pos inside]
    · have apart : (region.range.offsetOf address).toNat ≠ (region.range.offsetOf other).toNat := by
        intro equal
        exact here (AddressRange.offsetOf_inj.mp (UInt16.toNat_inj.mp equal)).symm
      rw [if_neg here, if_neg apart, peek_attached owns present]
      rw [kind] at storage
      rw [(Region.peek_storage storage _).1, Region.byteAt]
  · rw [if_neg same] at place
    have apart : other ≠ address := by
      intro here
      rw [here, owned, Option.some.injEq] at owns
      exact same owns
    rw [if_neg apart, peek_attached still (place.trans present), peek_attached owns present]

/-- Where nothing but storage is attached, a byte that is written is seen at its address if that is
RAM, and nothing else changes. -/
theorem Sound.write_storage (sound : bus.Sound) (only : bus.StorageOnly) {kind : RegionKind}
    (answers : bus.ownerKind? address = some kind) (value : UInt8) :
    ∃ after, bus.write address value = .ok after ∧ ∀ other, after.tryPeek other =
      if other = address ∧ kind = .ram then .ok (.ok value) else bus.tryPeek other := by
  obtain ⟨id, region, owned, attached, rfl, inside⟩ := sound.cell answers (only.kind answers)
  by_cases readOnly : region.kind = .rom
  · refine ⟨_, write_readOnly owned attached readOnly value, fun other => ?_⟩
    have unwritable : ¬(other = address ∧ region.kind = .ram) := by
      rw [readOnly]
      exact fun both => nomatch both.2
    rw [if_neg unwritable]
    exact tryPeek_congr (notice_regions ..) (notice_dispatch ..) other
  · have storage : region.kind ≠ .io := only attached
    have ram : region.kind = .ram := by
      revert storage readOnly
      cases region.kind <;> simp
    have fits : (region.range.offsetOf address).toNat + [value].length ≤ region.stored.size :=
      inside
    obtain ⟨next, loaded, outline, bytes⟩ := Region.load_storage storage fits
    refine ⟨(bus.withRegion id next).notice .write address value, ?_, fun other => ?_⟩
    · rw [write_eq_loadOwned owned attached readOnly, loadOwned_attached attached, loaded]
      rfl
    · rw [tryPeek_congr (notice_regions ..) (notice_dispatch ..) other]
      cases owns : bus.owner other with
      | none =>
          have apart : ¬(other = address ∧ region.kind = .ram) := by
            rintro ⟨rfl, _⟩
            cases owned.symm.trans owns
          rw [if_neg apart, tryPeek_gap owns]
          exact tryPeek_gap owns
      | some owner =>
          obtain ⟨found, present, _⟩ := sound.owned owns
          have shown := sound.peek_stored owned attached outline bytes
            (ownerKind?_attached owns present) (only present)
          have still : (bus.withRegion id next).owner other = some owner := owns
          rw [tryPeek_owned owns, tryPeek_owned still, shown]
          by_cases here : other = address
          · rw [if_pos here, if_pos ⟨here, ram⟩]
            rfl
          · rw [if_neg here, if_neg fun both => here both.1]

end Cell

/-- Storage answers for every address. -/
structure Stocked (bus : Bus D) : Prop where
  sound : bus.Sound
  storage : ∀ address, bus.ownerKind? address = some .ram ∨ bus.ownerKind? address = some .rom

namespace Stocked

/-- On a stocked bus storage answers for every address. -/
theorem answers (stocked : bus.Stocked) (address : Address) :
    ∃ kind, bus.ownerKind? address = some kind ∧ kind ≠ .io := by
  rcases stocked.storage address with ram | rom
  · exact ⟨.ram, ram, nofun⟩
  · exact ⟨.rom, rom, nofun⟩

/-- The region that answers for an address stores a byte for it. -/
theorem lookup (stocked : bus.Stocked) (address : Address) :
    ∃ id region, bus.owner address = some id ∧ bus.regions[id]? = some region ∧
      region.kind ≠ .io ∧ (region.range.offsetOf address).toNat < region.stored.size := by
  obtain ⟨kind, answers, storage⟩ := stocked.answers address
  obtain ⟨id, region, owned, attached, rfl, inside⟩ := stocked.sound.cell answers storage
  exact ⟨id, region, owned, attached, storage, inside⟩

/-- A stocked bus with other contents is stocked. -/
theorem follows {after : Bus D} (stocked : bus.Stocked) (follows : Follows bus after) :
    after.Stocked where
  sound := stocked.sound.follows follows
  storage address := by
    rw [follows.ownerKind?]
    exact stocked.storage address

end Stocked

/-- Nothing changed between the two buses but bytes that the first one shows at some address. -/
structure Undisturbed (before after : Bus D) : Prop where
  follows : Follows before after
  hidden : ∀ {id : Nat} {region next : Region D}, before.regions[id]? = some region →
    after.regions[id]? = some next → ∀ offset,
      (∀ address, before.owner address = some id →
        (region.range.offsetOf address).toNat ≠ offset) →
      next.stored[offset]? = region.stored[offset]?
  unowned : ∀ id, (∀ address, before.owner address ≠ some id) →
    after.regions[id]? = before.regions[id]?

/-- What leaves the regions alone disturbs nothing. -/
theorem Undisturbed.of_frame {before after : Bus D} (follows : Follows before after)
    (regions : after.regions = before.regions) : Undisturbed before after where
  follows := follows
  hidden attached present _ _ := by
    rw [regions] at present
    cases attached.symm.trans present
    rfl
  unowned id _ := by rw [regions]

/-- What is undisturbed twice is undisturbed. -/
theorem Undisturbed.trans {first second third : Bus D} (start : Undisturbed first second)
    (rest : Undisturbed second third) : Undisturbed first third where
  follows := start.follows.trans rest.follows
  hidden {id region next} attached present offset free := by
    obtain ⟨middle, found, kept⟩ := start.follows.region attached
    have still : ∀ address, second.owner address = some id →
        (middle.range.offsetOf address).toNat ≠ offset := by
      intro address owned
      rw [start.follows.owner] at owned
      rw [kept.range]
      exact free address owned
    rw [rest.hidden found present offset still, start.hidden attached found offset free]
  unowned id free := by
    have still : ∀ address, second.owner address ≠ some id := by
      intro address
      rw [start.follows.owner]
      exact free address
    rw [rest.unowned id still, start.unowned id free]

/-- Another byte in a cell that some address shows. -/
theorem undisturbed_store {address : Address} {id : Nat} {region next : Region D}
    (owned : bus.owner address = some id) (attached : bus.regions[id]? = some region)
    (follows : region.Follows next) {value : UInt8}
    (bytes : next.stored =
      region.stored.setIfInBounds (region.range.offsetOf address).toNat value) :
    Undisturbed bus (bus.withRegion id next) where
  follows := withRegion_follows attached follows
  hidden {other old new} before after offset free := by
    rw [getElem?_withRegion attached] at after
    by_cases same : id = other
    · subst same
      cases attached.symm.trans before
      rw [if_pos rfl, Option.some.injEq] at after
      rw [← after, bytes, Array.getElem?_setIfInBounds_ne (free address owned)]
    · rw [if_neg same, before, Option.some.injEq] at after
      rw [after]
  unowned other free := by
    rw [getElem?_withRegion attached]
    by_cases same : id = other
    · exact absurd (same ▸ owned) (free address)
    · exact if_neg same

variable [Peripheral D]

/-- What the bus shows at each address, and where it ignores what the processor stores. -/
def flatten (bus : Bus D) : FlatMemory where
  bytes := Vector.ofFn fun index =>
    match bus.peek (UInt16.ofNat index) with
    | .ok value => value
    | .error _ => 0
  readOnly address := bus.ownerKind? address == some .rom

/-- The flat memory holds the byte that is seen on the bus. -/
theorem get_flatten {address : Address} {value : UInt8} (seen : bus.peek address = .ok value) :
    bus.flatten.get address = value := by
  simp [FlatMemory.get, flatten, seen]

/-- The view depends on the regions and the table only. -/
theorem flatten_congr {first second : Bus D} (regions : first.regions = second.regions)
    (dispatch : first.dispatch = second.dispatch) : first.flatten = second.flatten := by
  simp only [flatten, peek_congr regions dispatch, ownerKind?, owner, regions, dispatch]

/-- Reports do not show in the flat memory. -/
theorem report_flatten (bus : Bus D) (event : Event) :
    (bus.report event).flatten = bus.flatten := flatten_congr rfl rfl

/-- Watchpoints do not show in the flat memory. -/
theorem notice_flatten (bus : Bus D) (access : Access) (address : Address) (value : UInt8) :
    (bus.notice access address value).flatten = bus.flatten :=
  flatten_congr (notice_regions ..) (notice_dispatch ..)

namespace Stocked

/-- On a stocked bus a read answers with the byte that is seen, and is noticed. -/
theorem served (stocked : bus.Stocked) (address : Address) :
    ∃ value, bus.peek address = .ok value ∧
      bus.read address = .ok (value, bus.notice .read address value) := by
  obtain ⟨kind, answers, storage⟩ := stocked.answers address
  exact stocked.sound.read_storage answers storage

/-- On a stocked bus the flat memory holds what is seen. -/
theorem peek (stocked : bus.Stocked) (address : Address) :
    bus.peek address = .ok (bus.flatten.get address) := by
  obtain ⟨value, seen, _⟩ := stocked.served address
  rw [get_flatten seen, seen]

/-- On a stocked bus a read answers with the byte of the flat memory. -/
theorem read (stocked : bus.Stocked) (address : Address) :
    bus.read address =
      .ok (bus.flatten.get address, bus.notice .read address (bus.flatten.get address)) := by
  obtain ⟨value, seen, served⟩ := stocked.served address
  rw [get_flatten seen, served]

/-- A store is seen at its address if that is not protected, and disturbs nothing else. -/
theorem write (stocked : bus.Stocked) (address : Address) (value : UInt8) :
    ∃ after, bus.write address value = .ok after ∧
      after.flatten = bus.flatten.put address value ∧ Undisturbed bus after := by
  obtain ⟨id, region, owned, attached, storage, inside⟩ := stocked.lookup address
  have kind : bus.flatten.readOnly address = (some region.kind == some .rom) := by
    rw [← ownerKind?_attached owned attached]
    rfl
  by_cases readOnly : region.kind = .rom
  · have ignored : bus.flatten.put address value = bus.flatten := by
      rw [FlatMemory.put, kind, readOnly]
      rfl
    refine ⟨_, write_readOnly owned attached readOnly value, ?_, .of_frame ?_ ?_⟩
    · rw [ignored]
      exact flatten_congr (notice_regions ..) (notice_dispatch ..)
    · exact (report_follows ..).trans (notice_follows ..)
    · exact notice_regions ..
  · have fits : (region.range.offsetOf address).toNat + [value].length ≤ region.stored.size :=
      inside
    obtain ⟨next, loaded, outline, bytes⟩ := Region.load_storage storage fits
    have written : bus.write address value =
        .ok ((bus.withRegion id next).notice .write address value) := by
      rw [write_eq_loadOwned owned attached readOnly, loadOwned_attached attached, loaded]
      rfl
    have follows : region.Follows next := Region.load_follows loaded
    have kept := undisturbed_store owned attached follows bytes
    have quiet : Follows (bus.withRegion id next) _ := notice_follows _ .write address value
    refine ⟨_, written, ?_, kept.trans (.of_frame quiet (notice_regions ..))⟩
    have view := notice_flatten (bus.withRegion id next) .write address value
    have writable : bus.flatten.readOnly address = false := by
      rw [kind]
      simpa using readOnly
    rw [view]
    apply FlatMemory.ext_get
    · intro other
      obtain ⟨kind, answers, plain⟩ := stocked.answers other
      have shown := stocked.sound.peek_stored owned attached outline bytes answers plain
      rw [stocked.peek other, ← apply_ite Except.ok] at shown
      rw [get_flatten shown, FlatMemory.get_put writable]
    · intro other
      rw [FlatMemory.put_readOnly]
      change (Bus.ownerKind? _ other == _) = (bus.ownerKind? other == _)
      rw [kept.follows.ownerKind?]

/-- Each access is answered alike, so the rest of the transaction is the same on both sides. -/
theorem run (stocked : bus.Stocked) {α : Type} (act : Transaction α) :
    ∃ result after, act.run bus = .ok (result, after) ∧
      act.run bus.flatten = .ok (result, after.flatten) ∧ Undisturbed bus after := by
  induction act generalizing bus with
  | done result => exact ⟨result, bus, rfl, rfl, .of_frame (.refl bus) rfl⟩
  | read address next ih =>
      have served : Memory.read bus address = _ := stocked.read address
      generalize middle : bus.notice .read address (bus.flatten.get address) = noticed at served
      have kept : Undisturbed bus noticed := by
        rw [← middle]
        exact .of_frame (notice_follows ..) (notice_regions ..)
      have view : noticed.flatten = bus.flatten := by
        rw [← middle]
        exact notice_flatten ..
      obtain ⟨result, after, ours, flat, rest⟩ :=
        ih (bus.flatten.get address) (stocked.follows kept.follows)
      rw [view, ← FlatMemory.run_read] at flat
      refine ⟨result, after, ?_, flat, kept.trans rest⟩
      rw [Transaction.run, served]
      exact ours
  | write address value next ih =>
      obtain ⟨middle, written, view, kept⟩ := stocked.write address value
      have served : Memory.write bus address value = .ok middle := written
      obtain ⟨result, after, ours, flat, rest⟩ := ih (stocked.follows kept.follows)
      rw [view, ← FlatMemory.run_write] at flat
      refine ⟨result, after, ?_, flat, kept.trans rest⟩
      rw [Transaction.run, served]
      exact ours
  | report event next ih =>
      have kept : Undisturbed bus (bus.report event) := .of_frame (report_follows ..) rfl
      have view := bus.report_flatten event
      obtain ⟨result, after, ours, flat, rest⟩ := ih (stocked.follows kept.follows)
      rw [view, ← FlatMemory.run_report] at flat
      refine ⟨result, after, ?_, flat, kept.trans rest⟩
      rw [Transaction.run]
      exact ours

/-- What happens on the flat memory happens on the bus. -/
theorem run_of_flat (stocked : bus.Stocked) {α : Type} {act : Transaction α} {result : α}
    {memory : FlatMemory} (served : act.run bus.flatten = .ok (result, memory)) :
    ∃ after, act.run bus = .ok (result, after) ∧ after.flatten = memory ∧
      Undisturbed bus after := by
  obtain ⟨reached, after, ours, flat, kept⟩ := stocked.run act
  cases served.symm.trans flat
  exact ⟨after, ours, rfl, kept⟩

end Stocked

/-- What the caller sees of a call: the reply and the processor afterwards. -/
def visible {M : Type} (moment : Processor.Moment M) :
    Processor.Call × Processor.Reply × Processor := (moment.call, moment.reply, moment.after)

/-- What a history shows from outside: the calls, the replies and the processors. -/
def observed {M : Type} (history : List (Processor.Moment M)) :
    List (Processor.Call × Processor.Reply × Processor) := history.map visible

/-- After a call the flat memory is what the bus shows, and what it does not show is undisturbed
since the start. -/
structure Alike (start : Bus D) (ours : Processor.Moment (Bus D))
    (flat : Processor.Moment FlatMemory) : Prop where
  shows : ∀ address, ours.later.peek address = .ok (flat.later.get address)
  undisturbed : Undisturbed start ours.later

/-- All calls are answered, and each one on the bus as on the flat memory. -/
structure SideBySide (start : Bus D) (calls : List Processor.Call)
    (ours : List (Processor.Moment (Bus D))) (flat : List (Processor.Moment FlatMemory)) :
    Prop where
  complete : ours.map Processor.Moment.call = calls
  same : observed ours = observed flat
  alike : ∀ pair ∈ ours.zip flat, Alike start pair.1 pair.2

/-- Two histories run side by side if their first moments look alike and the others do. -/
theorem SideBySide.cons {start : Bus D} {calls : List Processor.Call}
    {ours : List (Processor.Moment (Bus D))} {flat : List (Processor.Moment FlatMemory)}
    (rest : SideBySide start calls ours flat) {left : Processor.Moment (Bus D)}
    {right : Processor.Moment FlatMemory}
    (answered : visible left = visible right)
    (alike : Alike start left right) :
    SideBySide start (left.call :: calls) (left :: ours) (right :: flat) where
  complete := congrArg (List.cons left.call) rest.complete
  same := by
    change visible left :: observed ours = visible right :: observed flat
    rw [answered, rest.same]
  alike pair member := by
    rw [List.zip_cons_cons, List.mem_cons] at member
    rcases member with rfl | later
    · exact alike
    · exact rest.alike pair later

/-- On a stocked bus and on its flat memory the same calls run side by side. -/
theorem Stocked.history {start : Bus D} (stocked : bus.Stocked) (kept : Undisturbed start bus)
    (processor : Processor) (calls : List Processor.Call) :
    SideBySide start calls (processor.history bus calls)
      (processor.history bus.flatten calls) := by
  induction calls generalizing bus processor with
  | nil => exact ⟨rfl, rfl, fun _ member => absurd member List.not_mem_nil⟩
  | cons call calls ih =>
      obtain ⟨⟨reply, next⟩, after, ours, flat, rest⟩ := stocked.run (processor.answer call)
      have later := stocked.follows rest.follows
      have others := ih later (kept.trans rest) next
      rw [Processor.history, Processor.history, ours, flat]
      have alike : Alike start ⟨call, processor, bus, reply, next, after⟩
          ⟨call, processor, bus.flatten, reply, next, after.flatten⟩ :=
        ⟨later.peek, kept.trans rest⟩
      exact others.cons rfl alike

/-- Where storage answers for every address, no call crashes, and the processor has the same history
on the bus as on one flat array that ignores stores to read-only addresses. The array stays what the
bus shows, bytes that are not shown stay as they are, and another bus that shows the same cannot be
told apart. -/
theorem stocked_bus_is_flat (reached : bus.Reachable)
    (storage : ∀ address, bus.ownerKind? address = some .ram ∨ bus.ownerKind? address = some .rom)
    (processor : Processor) (calls : List Processor.Call) :
    (∀ address, bus.peek address = .ok (bus.flatten.get address)) ∧
      SideBySide bus calls (processor.history bus calls) (processor.history bus.flatten calls) ∧
      ∀ other : Bus D, other.Reachable →
        (∀ address, other.ownerKind? address = bus.ownerKind? address) →
        (∀ address, other.peek address = bus.peek address) →
          observed (processor.history other calls) = observed (processor.history bus calls) := by
  have stocked : bus.Stocked := ⟨reached.sound, storage⟩
  have both := stocked.history (.of_frame (.refl bus) rfl) processor calls
  refine ⟨stocked.peek, both, ?_⟩
  intro other reachable kinds shown
  have likewise : other.Stocked := ⟨reachable.sound, fun address => kinds address ▸ storage address⟩
  have view : other.flatten = bus.flatten := by
    simp only [flatten, kinds, shown]
  have same := (likewise.history (.of_frame (.refl other) rfl) processor calls).same
  rw [view] at same
  rw [same, both.same]

/-- Read-only storage shadows the last page of a flat bus. -/
def romPaged : Bus Unpopulated := (flat.add (.rom "rom" (.page 0xff) 0xea)).2

/-- The bus with a page of read-only storage is made by two calls. -/
theorem romPaged_reachable : romPaged.Reachable :=
  .step reachable_flat (.add (Region.filled_rom _ _ _))

/-- Storage answers for every address of that bus. -/
theorem romPaged_storage (address : Address) :
    romPaged.ownerKind? address = some .ram ∨ romPaged.ownerKind? address = some .rom := by
  have regions : romPaged.regions = #[.fullRam, .rom "rom" (.page 0xff) 0xea] := by
    rw [romPaged, add_regions, flat_regions]
    rfl
  have lower : romPaged.regions[0]? = some .fullRam := by rw [regions]; rfl
  have upper : romPaged.regions[1]? = some (.rom "rom" (.page 0xff) 0xea) := by rw [regions]; rfl
  have owner : romPaged.owner address =
      if (AddressRange.page 0xff).containsAddress address then some 1 else some 0 := by
    have added := owner_add flat (.rom "rom" (.page 0xff) 0xea : Region Unpopulated) address
    rwa [flat_owner, flat_regions] at added
  by_cases inside : (AddressRange.page 0xff).containsAddress address
  · rw [if_pos inside] at owner
    exact .inr (ownerKind?_attached owner upper)
  · rw [if_neg inside] at owner
    exact .inl (ownerKind?_attached owner lower)

/-- A reset and a step look the same on that bus and on its flat memory. -/
theorem romPaged_is_flat :
    romPaged.Reachable ∧
      (∀ address, romPaged.ownerKind? address = some .ram ∨
        romPaged.ownerKind? address = some .rom) ∧
      observed (Processor.initial.history romPaged [.reset, .step]) =
        observed (Processor.initial.history romPaged.flatten [.reset, .step]) := by
  have same := stocked_bus_is_flat romPaged_reachable romPaged_storage .initial [.reset, .step]
  exact ⟨romPaged_reachable, romPaged_storage, same.2.1.same⟩

end Bus

end EightBit
