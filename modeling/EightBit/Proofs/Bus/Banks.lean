import EightBit.Proofs.Bus.Service
import EightBit.Proofs.Bus.Tracks

/-
Bank switching keeps storage apart. After any calls a bus of plain storage shows at every address
the byte that was stored last into the cell of its owner, and what is not mapped keeps its bytes.
-/

namespace EightBit.Bus

variable {D : Type} {bus : Bus D} {past : List (Call D)}

/-- How the calls of a history end: at an address without an owner, or with a bus that is what the
history says. -/
inductive Ends (past : List (Call D)) : Except Crash (Bus D) → Prop
  | crash {address : Address} (gap : History.ended past = some address) :
      Ends past (.error (.unmapped address))
  | done {bus : Bus D} (running : History.ended past = none) (tracks : bus.Tracks past) :
      Ends past (.ok bus)

/-- An access that cannot be refused ends the calls at a gap, and is served anywhere else. -/
theorem Tracks.ends_access (tracks : bus.Tracks past) (running : History.ended past = none)
    {call : Call D} {address : Address} {result : Except Crash (Bus D)}
    (stops : History.ended (call :: past) =
      (History.ended past).or (History.gap? past address))
    (owners : History.owner (call :: past) = History.owner past)
    (crashes : bus.owner address = none → result = .error (.unmapped address))
    (served : ∀ id, bus.owner address = some id → ∃ after, result = .ok after ∧
      after.dispatch = bus.dispatch ∧
        after.Holds (History.attached (call :: past)) (History.stores (call :: past))) :
    Ends (call :: past) result := by
  rw [running, Option.none_or] at stops
  cases owned : bus.owner address with
  | none =>
      have gap := (tracks.owner address).symm.trans owned
      rw [crashes owned]
      exact .crash (stops.trans (History.gap?_eq_some gap))
  | some id =>
      have known := (tracks.owner address).symm.trans owned
      obtain ⟨after, done, table, holds⟩ := served id owned
      rw [done]
      exact .done (stops.trans (History.gap?_eq_none known)) (tracks.access owners table holds)

variable [Peripheral D]

/-- An address that is owned is read as it is seen, and the history goes on. -/
theorem Tracks.read (tracks : bus.Tracks past) {address : Address} {id : Nat}
    (owned : bus.owner address = some id) :
    ∃ value after, bus.read address = .ok (value, after) ∧ after.dispatch = bus.dispatch ∧
      after.Holds (History.attached past) (History.stores past) := by
  obtain ⟨storage, found, _⟩ := tracks.holds.answers owned
  obtain ⟨value, seen, _⟩ := tracks.holds.peek owned found
  refine ⟨value, bus.notice .read address value, ?_, notice_dispatch .., ?_⟩
  · rw [read_storage tracks.holds.storageOnly, seen, Outcome.map_ok]
  · exact tracks.holds.notice _ _ _

/-- A call does what the history tells of it. -/
theorem Tracks.perform (tracks : bus.Tracks past) (running : History.ended past = none)
    (call : Call D) : Ends (call :: past) (call.perform bus) := by
  cases call with
  | attach storage => exact .done running (tracks.attach storage)
  | add storage => exact .done running (tracks.add storage)
  | map id => exact .done running (tracks.map id)
  | copy address bytes =>
      obtain ⟨result, after, copied, table, holds⟩ := tracks.copy address bytes
      rw [Call.perform, copied]
      exact .done running (tracks.access rfl table holds)
  | read address =>
      apply tracks.ends_access running rfl rfl
      · intro gap
        rw [Call.perform, read_storage tracks.holds.storageOnly, peek_gap gap]
        rfl
      · intro id owned
        obtain ⟨value, after, served, table, holds⟩ := tracks.read owned
        exact ⟨after, by rw [Call.perform, served]; rfl, table, holds⟩
  | write address value =>
      apply tracks.ends_access running rfl rfl
      · intro gap
        exact write_gap gap value
      · intro id owned
        exact tracks.write owned value
  | tryRead address =>
      rw [Call.perform]
      cases owned : bus.owner address with
      | none =>
          rw [tryRead_gap owned]
          exact .done running (tracks.access rfl rfl tracks.holds)
      | some id =>
          obtain ⟨value, after, served, table, holds⟩ := tracks.read owned
          rw [tryRead_owned owned, served]
          exact .done running (tracks.access rfl table holds)
  | tryWrite address value =>
      rw [Call.perform]
      cases owned : bus.owner address with
      | none =>
          have gap := (tracks.owner address).symm.trans owned
          have same : History.stores (.tryWrite address value :: past) = History.stores past := by
            rw [History.stores, History.made, History.written_gap gap, List.nil_append]
          have holds := tracks.holds
          rw [← same] at holds
          rw [tryWrite_gap owned]
          exact .done running (tracks.access rfl rfl holds)
      | some id =>
          obtain ⟨after, served, table, holds⟩ := tracks.write owned value
          rw [tryWrite_owned owned, served]
          exact .done running (tracks.access rfl table holds)

/-- However many calls are made, the bus is what their history says. -/
theorem run_ends (past : List (Call D)) : Ends past (History.run past) := by
  induction past with
  | nil => exact .done rfl ⟨holds_empty, Dispatch.owner_empty⟩
  | cons call past ih =>
      rw [History.run]
      cases result : History.run past with
      | error crash =>
          rw [result] at ih
          cases ih with
          | crash gap => exact .crash (History.ended_cons gap call)
      | ok bus =>
          rw [result] at ih
          cases ih with
          | done running tracks => exact tracks.perform running call

/-- A bus that comes from a history tracks it. -/
theorem tracks_of_run (made : History.run past = .ok bus) : bus.Tracks past := by
  have ends := run_ends past
  rw [made] at ends
  cases ends with
  | done _ tracks => exact tracks

/-- What a bus shows after the calls of a history. -/
structure Shows (past : List (Call D)) (bus : Bus D) : Prop where
  /-- The owner of an address is the region that was added or mapped last over it. -/
  owner : ∀ address, bus.owner address = History.owner past address
  gap : ∀ address, History.owner past address = none → bus.peek address = .error (.unmapped address)
  /-- At an owned address stands the byte that was stored last into its cell, or else the first. -/
  cell : ∀ address id, History.owner past address = some id →
    ∃ storage value, (History.attached past)[id]? = some storage ∧
      storage.region.range.containsAddress address ∧ bus.peek address = .ok value ∧
      (lastStored (History.stores past) ⟨id, (storage.region.range.offsetOf address).toNat⟩).or
        storage.region.stored[(storage.region.range.offsetOf address).toNat]? = some value
  /-- A write changes what is seen at its own address only. -/
  elsewhere : ∀ place value, History.owner past place ≠ none →
    ∃ after, bus.write place value = .ok after ∧
      ∀ other, other ≠ place → after.peek other = bus.peek other
  /-- A write to read-only storage changes no region and no owner. -/
  readOnly : ∀ place value id storage, History.owner past place = some id →
    (History.attached past)[id]? = some storage → storage.region.kind = .rom →
      ∃ after, bus.write place value = .ok after ∧ after.regions = bus.regions ∧
        after.dispatch = bus.dispatch
  /-- A region that is shadowed at an address shows the same byte there when it is mapped again. -/
  again : ∀ address id later after, History.owner past address = some id →
    History.Shadowed past later id address →
      History.run (.map id :: later ++ past) = .ok after →
        after.owner address = some id ∧ after.peek address = bus.peek address

/-- A cell into which the same byte was stored last shows the same byte. -/
theorem Holds.peek_congr {attached later : List (Storage D)} {stores others : List Store}
    {after : Bus D} (first : bus.Holds attached stores) (second : after.Holds later others)
    {address : Address} {id : Nat} {storage : Storage D} (owned : bus.owner address = some id)
    (owns : after.owner address = some id) (found : attached[id]? = some storage)
    (present : later[id]? = some storage)
    (same : lastStored others ⟨id, (storage.region.range.offsetOf address).toNat⟩ =
      lastStored stores ⟨id, (storage.region.range.offsetOf address).toNat⟩) :
    after.peek address = bus.peek address := by
  obtain ⟨value, seen, here⟩ := first.peek owned found
  obtain ⟨again, shown, there⟩ := second.peek owns present
  rw [same, here, Option.some.injEq] at there
  rw [seen, shown, there]

/-- Different addresses stand for different cells, so a write to one is not seen at the others. -/
theorem Tracks.write_elsewhere (tracks : bus.Tracks past) {place : Address} {value : UInt8}
    {after : Bus D} (table : after.dispatch = bus.dispatch)
    (holds : after.Holds (History.attached past)
      (History.written past place value ++ History.stores past))
    {other : Address} (different : other ≠ place) : after.peek other = bus.peek other := by
  have owners : after.owner other = bus.owner other := by
    rw [Bus.owner, table, Bus.owner]
  cases owned : bus.owner other with
  | none => rw [peek_gap owned, peek_gap (owners.trans owned)]
  | some id =>
      obtain ⟨storage, found, _⟩ := tracks.holds.answers owned
      have cell := History.cell?_eq_some ((tracks.owner other).symm.trans owned) found
      have missed : ∀ store ∈ History.written past place value,
          store.cell ≠ ⟨id, (storage.region.range.offsetOf other).toNat⟩ := by
        intro store member same
        obtain ⟨block, served⟩ := History.cell_of_written member
        rw [same] at served
        exact different (History.cell?_inj cell served)
      exact tracks.holds.peek_congr holds owned (owners.trans owned) found found
        (lastStored_append missed _)

/-- A write to storage that cannot be written leaves regions and table as they are. -/
theorem Tracks.write_readOnly (tracks : bus.Tracks past) {place : Address} {id : Nat}
    {storage : Storage D} (owned : bus.owner place = some id)
    (found : (History.attached past)[id]? = some storage) (readOnly : storage.region.kind = .rom)
    (value : UInt8) :
    ∃ after, bus.write place value = .ok after ∧ after.regions = bus.regions ∧
      after.dispatch = bus.dispatch := by
  obtain ⟨region, present, outline, _⟩ := tracks.holds.region found
  have kind : region.kind = storage.region.kind := Region.kind_of_outline outline
  exact ⟨_, Bus.write_readOnly owned present (kind.trans readOnly) value, notice_regions ..,
    notice_dispatch ..⟩

/-- Whatever is done while a region is shadowed, its cell is as it was. -/
theorem Tracks.map_again (tracks : bus.Tracks past) {later : List (Call D)} {id : Nat}
    {address : Address} {after : Bus D} (owned : bus.owner address = some id)
    (shadowed : History.Shadowed past later id address)
    (follows : after.Tracks (.map id :: later ++ past)) :
    after.owner address = some id ∧ after.peek address = bus.peek address := by
  obtain ⟨storage, found, inside⟩ := tracks.holds.answers owned
  have present : (History.attached (later ++ past))[id]? = some storage :=
    History.attached_append found later
  have owns : after.owner address = some id := by
    rw [follows.owner, List.cons_append, History.owner, present]
    exact if_pos inside
  exact ⟨owns, tracks.holds.peek_congr follows.holds owned owns found present
    (shadowed.lastStored found)⟩

/-- What tracks a history shows it at every address. -/
theorem Tracks.shows (tracks : bus.Tracks past) : Shows past bus where
  owner := tracks.owner
  gap address missing := peek_gap ((tracks.owner address).trans missing)
  cell address id answers := by
    have owned := (tracks.owner address).trans answers
    obtain ⟨storage, found, inside⟩ := tracks.holds.answers owned
    obtain ⟨value, seen, last⟩ := tracks.holds.peek owned found
    exact ⟨storage, value, found, inside, seen, last⟩
  elsewhere place value answers := by
    obtain ⟨id, owned⟩ := Option.ne_none_iff_exists'.mp answers
    obtain ⟨after, written, table, holds⟩ :=
      tracks.write ((tracks.owner place).trans owned) value
    exact ⟨after, written, fun other different => tracks.write_elsewhere table holds different⟩
  readOnly place value id storage answers found kind :=
    tracks.write_readOnly ((tracks.owner place).trans answers) found kind value
  again address id later after answers shadowed made :=
    tracks.map_again ((tracks.owner address).trans answers) shadowed (tracks_of_run made)

/-- Bank switching never loses, duplicates or mixes storage: a run of calls ends only at an access
to an address without an owner, and otherwise the bus shows what was stored. -/
theorem run_shows_history (past : List (Call D)) :
    match History.ended past with
    | some address => History.run past = .error (.unmapped address)
    | none => ∃ bus, History.run past = .ok bus ∧ Shows past bus := by
  have ends := run_ends past
  generalize History.run past = result at ends
  cases ends with
  | crash gap => rw [gap]
  | done running tracks =>
      rw [running]
      exact ⟨_, rfl, tracks.shows⟩

end EightBit.Bus
