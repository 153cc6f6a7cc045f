import EightBit.Proofs.Bus.Flat
import EightBit.Proofs.Execution.Stack

/-
The bytes that a transaction can change. A read changes nothing that a region stores, and a write
changes one cell of the region that answers for its address; every other stored byte stays, whether
an address shows it or not.
-/

namespace EightBit

open Transaction

namespace Region

variable {D : Type} [Peripheral D] {region next : Region D} {offset : UInt16} {value : UInt8}
  {effects : List Effect}

/-- A read leaves the stored bytes as they are. -/
theorem read_stored (done : region.read offset = .ok (value, next, effects)) :
    next.stored = region.stored := by
  by_cases storage : region.kind = .io
  · obtain ⟨name, range, contents⟩ := region
    cases contents with
    | ram bytes => cases storage
    | rom bytes => cases storage
    | io device =>
        cases done
        rfl
  · rw [(peek_storage storage offset).2] at done
    obtain ⟨seen, _, same⟩ := Outcome.map_eq_ok_iff.mp done
    cases same
    rfl

/-- One byte is loaded into one cell; a peripheral has none. -/
theorem load_stored (done : region.load offset [value] = .ok (next, effects)) :
    next.stored = region.stored.setIfInBounds offset.toNat value := by
  obtain ⟨name, range, contents⟩ := region
  cases contents with
  | ram bytes =>
      obtain ⟨after, stored, same⟩ := Outcome.bind_eq_ok_iff.mp done
      cases same
      exact (store_eq_ok_iff.mp stored).2.symm
  | rom bytes =>
      obtain ⟨after, stored, same⟩ := Outcome.bind_eq_ok_iff.mp done
      cases same
      exact (store_eq_ok_iff.mp stored).2.symm
  | io device =>
      cases done
      rfl

/-- A write leaves the stored bytes at other offsets as they are. -/
theorem write_stored (done : region.write offset value = .ok (next, effects)) {other : Nat}
    (apart : offset.toNat ≠ other) : next.stored[other]? = region.stored[other]? := by
  by_cases readOnly : region.kind = .rom
  · rw [write_rom readOnly] at done
    cases done
    rfl
  · rw [write_eq_load readOnly] at done
    rw [load_stored done, Array.getElem?_setIfInBounds_ne apart]

end Region

namespace Bus

variable {D : Type}

/-- Nothing that a region stores is different on the second bus, but in the cells that one of the
addresses names in the region that answers for it. -/
structure ChangesOnly (places : List Address) (before after : Bus D) : Prop where
  follows : Follows before after
  stored : ∀ {id : Nat} {region next : Region D}, before.regions[id]? = some region →
    after.regions[id]? = some next → ∀ offset,
      (∀ place ∈ places, before.owner place = some id →
        (region.range.offsetOf place).toNat ≠ offset) →
      next.stored[offset]? = region.stored[offset]?

/-- What leaves the regions alone changes no stored byte. -/
theorem ChangesOnly.of_regions {before after : Bus D} (follows : Follows before after)
    (regions : after.regions = before.regions) (places : List Address) :
    ChangesOnly places before after where
  follows := follows
  stored attached present _ _ := by
    rw [regions] at present
    cases attached.symm.trans present
    rfl

/-- What is done in two parts changes the places of both. -/
theorem ChangesOnly.trans {first second third : Bus D} {places more : List Address}
    (start : ChangesOnly places first second) (rest : ChangesOnly more second third) :
    ChangesOnly (places ++ more) first third where
  follows := start.follows.trans rest.follows
  stored {id region next} attached present offset free := by
    obtain ⟨middle, found, kept⟩ := start.follows.region attached
    have early : ∀ place ∈ places, first.owner place = some id →
        (region.range.offsetOf place).toNat ≠ offset := fun place member =>
      free place (List.mem_append_left _ member)
    -- Owners and ranges are the same on all three buses, so a cell free at last was free before.
    have late : ∀ place ∈ more, second.owner place = some id →
        (middle.range.offsetOf place).toNat ≠ offset := by
      intro place member owned
      rw [start.follows.owner] at owned
      rw [kept.range]
      exact free place (List.mem_append_right _ member) owned
    rw [rest.stored found present offset late, start.stored attached found offset early]

/-- A region in another state leaves the other regions as they are. -/
theorem withRegion_changesOnly {bus : Bus D} {id : Nat} {region next : Region D}
    {places : List Address} (attached : bus.regions[id]? = some region)
    (follows : region.Follows next)
    (keeps : ∀ offset,
      (∀ place ∈ places, bus.owner place = some id →
        (region.range.offsetOf place).toNat ≠ offset) →
      next.stored[offset]? = region.stored[offset]?) (effects : List Effect) :
    ChangesOnly places bus ((bus.withRegion id next).absorb effects) where
  follows := (withRegion_follows attached follows).trans (absorb_follows ..)
  stored {other old new} before present offset free := by
    rw [absorb_regions, getElem?_withRegion attached] at present
    by_cases same : id = other
    · subst same
      cases attached.symm.trans before
      rw [if_pos rfl, Option.some.injEq] at present
      rw [← present, keeps offset free]
    · rw [if_neg same, before, Option.some.injEq] at present
      rw [present]

/-- An action on one region changes no other one. -/
theorem onRegion_changesOnly {α : Type} {bus after : Bus D} {id : Nat} {result : α}
    {act : Region D → Except Crash (α × Region D × List Effect)} {places : List Address}
    (done : bus.onRegion id act = .ok (result, after))
    (keeps : ∀ region next effects, act region = .ok (result, next, effects) →
      region.Follows next ∧ ∀ offset,
        (∀ place ∈ places, bus.owner place = some id →
          (region.range.offsetOf place).toNat ≠ offset) →
        next.stored[offset]? = region.stored[offset]?) : ChangesOnly places bus after := by
  cases attached : bus.regions[id]? with
  | none =>
      rw [onRegion_missing attached] at done
      cases done
  | some region =>
      rw [onRegion_attached attached] at done
      obtain ⟨⟨value, next, effects⟩, served, same⟩ := Outcome.map_eq_ok_iff.mp done
      cases same
      obtain ⟨follows, stored⟩ := keeps region next effects served
      exact withRegion_changesOnly attached follows stored effects

variable [Peripheral D]

/-- RAM shows the same byte at every other address. -/
theorem ChangesOnly.peek {before after : Bus D} {places : List Address}
    (kept : ChangesOnly places before after) {address : Address}
    (ram : before.ownerKind? address = some .ram) (free : address ∉ places) :
    after.peek address = before.peek address := by
  obtain ⟨id, owned, found⟩ := Option.bind_eq_some_iff.mp ram
  obtain ⟨region, attached, kind⟩ := Option.map_eq_some_iff.mp found
  obtain ⟨next, present, follows⟩ := kept.follows.region attached
  have still : after.owner address = some id := (kept.follows.owner address).trans owned
  have storage : region.kind ≠ .io := by rw [kind]; nofun
  have stays : next.kind ≠ .io := by rw [follows.kind, kind]; nofun
  have same := kept.stored attached present (region.range.offsetOf address).toNat (by
    intro place member _ equal
    exact free (AddressRange.offsetOf_inj.mp (UInt16.toNat_inj.mp equal) ▸ member))
  rw [peek_attached still present, peek_attached owned attached, (Region.peek_storage stays _).1,
    (Region.peek_storage storage _).1, Region.byteAt, Region.byteAt, follows.range, same]

/-- A read changes no stored byte. -/
theorem read_changesOnly {bus after : Bus D} {address : Address} {value : UInt8}
    (done : bus.read address = .ok (value, after)) : ChangesOnly [] bus after := by
  obtain ⟨id, middle, served, rfl⟩ := read_eq_ok done
  have kept : ChangesOnly [] bus middle :=
    onRegion_changesOnly served fun region next effects acted =>
      ⟨Region.read_follows acted, fun offset _ => by rw [Region.read_stored acted]⟩
  exact kept.trans (.of_regions (notice_follows ..) (notice_regions ..) [])

/-- A write changes the stored byte at its address at most. -/
theorem write_changesOnly {bus after : Bus D} {address : Address} {value : UInt8}
    (done : bus.write address value = .ok after) :
    ChangesOnly [address] bus after := by
  rw [write] at done
  split at done
  · cases done
  · rename_i id owned
    obtain ⟨⟨_, middle⟩, served, rest⟩ := Outcome.bind_eq_ok_iff.mp done
    cases rest
    have kept : ChangesOnly [address] bus middle := by
      refine onRegion_changesOnly served fun region next effects acted => ?_
      obtain ⟨_, stored, rest⟩ := Outcome.bind_eq_ok_iff.mp acted
      cases rest
      exact ⟨Region.write_follows stored, fun offset free =>
        Region.write_stored stored (free _ List.mem_cons_self owned)⟩
    exact kept.trans (.of_regions (notice_follows ..) (notice_regions ..) [])

/-- A transaction changes nothing but the cells that its writes reach. -/
theorem run_changesOnly {α : Type} {act : Transaction α} {bus after : Bus D} {result : α}
    (served : act.run bus = .ok (result, after)) :
    ChangesOnly ((writesIn (act.accesses bus)).map WatchHit.address) bus after := by
  induction act generalizing bus with
  | done value =>
      cases served
      exact .of_regions (.refl _) rfl _
  | read address next ih =>
      rw [run] at served
      cases answer : Memory.read bus address with
      | error crash =>
          rw [answer] at served
          cases served
      | ok outcome =>
          obtain ⟨value, middle⟩ := outcome
          rw [answer] at served
          rw [accesses_read answer]
          exact (read_changesOnly answer).trans (ih value served)
  | write address value next ih =>
      rw [run] at served
      cases answer : Memory.write bus address value with
      | error crash =>
          rw [answer] at served
          cases served
      | ok middle =>
          rw [answer] at served
          rw [accesses_write answer]
          exact (write_changesOnly answer).trans (ih served)
  | report event next ih =>
      rw [run] at served
      rw [accesses_report]
      have start : ChangesOnly [] bus (bus.report event) :=
        .of_regions (report_follows ..) rfl _
      exact start.trans (ih served)

end Bus

end EightBit
