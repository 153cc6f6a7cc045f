import EightBit.Proofs.Bus.Sound
import Mathlib.Logic.Relation

/-
The canonical form of a layout. Many lists of spans describe one table, but only one of them is in
canonical form, and that is the one by which a table is written down. So a bus gets its table back
from its own layout, and writes any other layout it takes over in canonical form.
-/

namespace EightBit

namespace MappedSpan

/-- The second span lies above the first one, and if they touch they name different regions. -/
def Precedes (first second : MappedSpan) : Prop :=
  first.stop ≤ second.start.toNat ∧
    (first.stop = second.start.toNat → first.region ≠ second.region)

/-- No span is empty, each lies above the one before it, and no two could be merged. -/
structure Canonical (layout : List MappedSpan) : Prop where
  nonempty : ∀ span ∈ layout, 0 < span.size.toNat
  fits : ∀ span ∈ layout, span.stop ≤ 65536
  ordered : layout.Pairwise Precedes

/-- The form names the same owners as the layout. -/
structure CanonicalForm (layout form : List MappedSpan) : Prop where
  canonical : Canonical form
  owners : ∀ address, lastOver form address = lastOver layout address

/-- The region that a layout names for an address is that of one of its spans. -/
theorem mem_of_lastOver {layout : List MappedSpan} {address : Address} {id : Nat}
    (named : lastOver layout address = some id) :
    ∃ span ∈ layout, span.Covers address ∧ span.region = id := by
  obtain ⟨span, found, rfl⟩ := Option.map_eq_some_iff.mp named
  have covers : span.Covers address := by simpa using List.find?_some found
  exact ⟨span, List.mem_reverse.mp (List.mem_of_find?_eq_some found), covers, rfl⟩

namespace Canonical

variable {first second : MappedSpan} {firsts seconds : List MappedSpan}

/-- The first span of a canonical layout is not empty and ends within the address space. -/
theorem head (canonical : Canonical (first :: firsts)) :
    0 < first.size.toNat ∧ first.stop ≤ 65536 :=
  ⟨canonical.nonempty first List.mem_cons_self, canonical.fits first List.mem_cons_self⟩

/-- What follows the first span of a canonical layout is canonical. -/
theorem tail (canonical : Canonical (first :: firsts)) : Canonical firsts where
  nonempty span member := canonical.nonempty span (List.mem_cons_of_mem _ member)
  fits span member := canonical.fits span (List.mem_cons_of_mem _ member)
  ordered := (List.pairwise_cons.mp canonical.ordered).2

/-- The first span of a canonical layout covers the address where it starts. -/
theorem covers_start (canonical : Canonical (first :: firsts)) : first.Covers first.start :=
  ⟨Nat.le_refl _, Nat.lt_add_of_pos_right canonical.head.1⟩

/-- The later spans begin where the first one ends, or above. -/
theorem lastOver_tail (canonical : Canonical (first :: firsts)) {address : Address}
    (before : address.toNat < first.stop) : lastOver firsts address = none := by
  cases named : lastOver firsts address with
  | none => rfl
  | some id =>
      obtain ⟨span, member, covers, _⟩ := mem_of_lastOver named
      have above := ((List.pairwise_cons.mp canonical.ordered).1 span member).1
      have reached := covers.1
      omega

/-- In canonical form no later span overrides the first one. -/
theorem lastOver_head (canonical : Canonical (first :: firsts)) (address : Address) :
    lastOver (first :: firsts) address =
      if first.Covers address then some first.region else lastOver firsts address := by
  rw [lastOver_cons]
  split
  · rename_i covers
    rw [canonical.lastOver_tail covers.2, Option.none_or]
  · exact Option.or_none

variable (left : Canonical (first :: firsts)) (right : Canonical (second :: seconds))
  (same : ∀ address, lastOver (first :: firsts) address = lastOver (second :: seconds) address)
include left right same

/-- The first owned address lies in the first span. -/
theorem start_le : second.start.toNat ≤ first.start.toNat := by
  have named : lastOver (second :: seconds) first.start = some first.region := by
    rw [← same, left.lastOver_head, if_pos left.covers_start]
  obtain ⟨span, member, covers, _⟩ := mem_of_lastOver named
  have reached := covers.1
  rcases List.mem_cons.mp member with rfl | later
  · exact reached
  · have above := ((List.pairwise_cons.mp right.ordered).1 span later).1
    rw [stop] at above
    omega

/-- The first span goes on as long as the owner stays the same. -/
theorem stop_le (start : first.start = second.start) (region : first.region = second.region) :
    second.stop ≤ first.stop := by
  apply Nat.le_of_not_lt
  intro longer
  have fits := right.head.2
  have place : (UInt16.ofNat first.stop).toNat = first.stop :=
    UInt16.toNat_ofNat_of_lt' (show first.stop < 65536 by omega)
  have reached : first.start.toNat ≤ first.stop := Nat.le_add_right _ _
  have covered : second.Covers (UInt16.ofNat first.stop) :=
    ⟨by rw [place, ← start]; exact reached, by rw [place]; exact longer⟩
  have missed : ¬first.Covers (UInt16.ofNat first.stop) := by
    rintro ⟨_, before⟩
    omega
  have named : lastOver firsts (UInt16.ofNat first.stop) = some first.region := by
    have agree := same (UInt16.ofNat first.stop)
    rw [left.lastOver_head, if_neg missed, right.lastOver_head, if_pos covered] at agree
    rw [agree, region]
  obtain ⟨span, member, covers, owner⟩ := mem_of_lastOver named
  have precedes := (List.pairwise_cons.mp left.ordered).1 span member
  have touches : first.stop = span.start.toNat := by
    have above := precedes.1
    have below := covers.1
    omega
  exact precedes.2 touches owner.symm

/-- The first spans have the same start, the same owner there, and the same end. -/
theorem head_eq : first = second := by
  have back := fun address => (same address).symm
  have start : first.start = second.start :=
    UInt16.toNat_inj.mp (Nat.le_antisymm (right.start_le left back) (left.start_le right same))
  have region : first.region = second.region := by
    have owned := same first.start
    rw [left.lastOver_head, if_pos left.covers_start, right.lastOver_head, start,
      if_pos right.covers_start] at owned
    exact Option.some.inj owned
  have stop : first.stop = second.stop :=
    Nat.le_antisymm (right.stop_le left back start.symm region.symm)
      (left.stop_le right same start region)
  have size : first.size = second.size := by
    rw [MappedSpan.stop, MappedSpan.stop, start] at stop
    exact UInt32.toNat_inj.mp (Nat.add_left_cancel stop)
  obtain ⟨_, _, _⟩ := first
  obtain ⟨_, _, _⟩ := second
  cases start
  cases region
  cases size
  rfl

end Canonical

/-- A layout has one canonical form only. -/
theorem Canonical.unique {first second : List MappedSpan} (left : Canonical first)
    (right : Canonical second)
    (same : ∀ address, lastOver first address = lastOver second address) : first = second := by
  induction first generalizing second with
  | nil =>
      cases second with
      | nil => rfl
      | cons other others =>
          have owned := same other.start
          rw [right.lastOver_head, if_pos right.covers_start] at owned
          cases owned
  | cons span rest ih =>
      cases second with
      | nil =>
          have owned := same span.start
          rw [left.lastOver_head, if_pos left.covers_start] at owned
          cases owned
      | cons other others =>
          obtain rfl := left.head_eq right same
          rw [ih left.tail right.tail fun address => ?_]
          by_cases covers : span.Covers address
          · rw [left.lastOver_tail covers.2, right.lastOver_tail covers.2]
          · have agree := same address
            rwa [left.lastOver_head, right.lastOver_head, if_neg covers, if_neg covers] at agree

end MappedSpan

namespace Dispatch

open MappedSpan

/-- The spans found so far, the highest one first. -/
def Descending (found : List MappedSpan) : Prop :=
  found.Pairwise fun later earlier => earlier.Precedes later

/-- Another address extends the last span or starts a new one that cannot be merged with it. -/
theorem extend_ordered {count id : Nat} {found : List MappedSpan} (below : count < 65536)
    (bounds : ∀ span ∈ found, 0 < span.size.toNat ∧ span.stop ≤ count)
    (ordered : Descending found) : Descending (extend count id found) := by
  have place : (UInt16.ofNat count).toNat = count := UInt16.toNat_ofNat_of_lt' below
  cases found with
  | nil => exact List.pairwise_singleton _ _
  | cons last earlier =>
      obtain ⟨before, rest⟩ := List.pairwise_cons.mp ordered
      rw [extend]
      split
      · exact List.pairwise_cons.mpr ⟨before, rest⟩
      · rename_i apart
        refine List.pairwise_cons.mpr ⟨fun span member => ?_, ordered⟩
        have bound := (bounds span member).2
        refine ⟨by rw [place]; exact bound, fun touches => ?_⟩
        rw [place] at touches
        rcases List.mem_cons.mp member with rfl | older
        · exact fun region => apart ⟨region, touches⟩
        · -- An earlier span ends before the last one does, so it cannot reach the address.
          have above := (before span older).1
          have last := bounds last List.mem_cons_self
          rw [stop] at last
          omega

/-- The spans of a table are in canonical form. -/
theorem spans_canonical (table : Dispatch) : Canonical table.spans := by
  obtain ⟨listed, ordered⟩ : Listed table 65536 table.spans.reverse ∧
      Descending table.spans.reverse :=
    table.spans_induction (fun count found => Listed table count found ∧ Descending found)
      ⟨⟨by simp, by simp, by omega⟩, List.Pairwise.nil⟩
      (fun below gap found => ⟨found.1.skip below gap, found.2⟩)
      (fun below owned found =>
        ⟨found.1.extend below owned, extend_ordered below found.1.bounds found.2⟩)
  exact ⟨fun span member => (listed.bounds span (List.mem_reverse.mpr member)).1,
    fun span member => (listed.bounds span (List.mem_reverse.mpr member)).2,
    List.pairwise_reverse.mp ordered⟩

/-- A table is written down in the canonical form of every layout that describes it. -/
theorem canonicalForm_iff {table : Dispatch} {layout : List MappedSpan}
    (described : ∀ address, table.owner address = lastOver layout address)
    (form : List MappedSpan) : CanonicalForm layout form ↔ form = table.spans := by
  constructor
  · rintro ⟨canonical, owners⟩
    apply canonical.unique table.spans_canonical
    intro address
    rw [owners, lastOver_spans, described]
  · rintro rfl
    exact ⟨table.spans_canonical, fun address =>
      (table.lastOver_spans address).trans (described address)⟩

end Dispatch

namespace Bus

variable {D : Type}

/-- A layout that is taken over decides about all owners, and is written down again in canonical
form. -/
theorem applyLayout_ok {bus after : Bus D} {layout : List MappedSpan}
    (applied : bus.applyLayout layout = (.ok (), after)) :
    (∀ address, after.owner address = MappedSpan.lastOver layout address) ∧
      ∀ form, MappedSpan.CanonicalForm layout form ↔ form = after.layout := by
  by_cases accepted : ∀ span ∈ layout, bus.Admits span
  · obtain ⟨log, dispatch, same, owners⟩ := applyLayout_accepted accepted
    cases same.symm.trans applied
    exact ⟨owners, Dispatch.canonicalForm_iff owners⟩
  · obtain ⟨fault, same⟩ := applyLayout_refused accepted
    cases same.symm.trans applied

/-- A layout that is refused changes nothing. -/
theorem applyLayout_error {bus after : Bus D} {layout : List MappedSpan} {fault : Fault}
    (applied : bus.applyLayout layout = (.error fault, after)) : after = bus := by
  by_cases accepted : ∀ span ∈ layout, bus.Admits span
  · obtain ⟨log, dispatch, same, _⟩ := applyLayout_accepted accepted
    cases same.symm.trans applied
  · obtain ⟨_, same⟩ := applyLayout_refused accepted
    cases same.symm.trans applied
    rfl

/-- The layout covers an address for a region exactly if that region owns the address. -/
theorem mem_layout_iff (bus : Bus D) (address : Address) (id : Nat) :
    (∃ span ∈ bus.layout, span.Covers address ∧ span.region = id) ↔
      bus.owner address = some id := by
  constructor
  · rintro ⟨span, member, covers, rfl⟩
    exact bus.dispatch.spans_listed.sound span member address covers
  · intro owned
    exact MappedSpan.mem_of_lastOver ((bus.dispatch.lastOver_spans address).trans owned)

/-- A new region gets a number of its own. -/
theorem attach_keeps (bus : Bus D) (region : Region D) : Keeps bus (bus.attach region).2 := by
  intro id other attached
  have older : id ≠ bus.regions.size := Nat.ne_of_lt (Array.getElem?_eq_some_iff.mp attached).1
  exact ⟨other, by rw [getElem?_attach, if_neg older, attached], rfl⟩

/-- A layout maps regions without touching them. -/
@[simp] theorem applyLayout_regions (bus : Bus D) (layout : List MappedSpan) :
    (bus.applyLayout layout).2.regions = bus.regions := by
  unfold applyLayout
  split <;> rfl

variable [Peripheral D]

/-- No call takes a region away. -/
theorem Step.keeps {bus after : Bus D} (step : Step bus after) : Keeps bus after := by
  cases step with
  | attach filled => exact bus.attach_keeps _
  | @add region filled =>
      exact (bus.attach_keeps region).trans (.of_regions (remap_regions ..))
  | map id => exact .of_regions (bus.map_regions id)
  | applyLayout layout => exact .of_regions (bus.applyLayout_regions layout)
  | read done => exact .of_outlines (read_follows done).outlines
  | write done => exact .of_outlines (write_follows done).outlines
  | copy done => exact .of_outlines (copy_follows done).outlines
  | region attached step =>
      have taken := withRegion_follows attached step.follows
      exact .of_outlines (taken.trans (absorb_follows ..)).outlines
  | tick cycles => exact .of_outlines (bus.tick_follows cycles).outlines
  | watch range trigger => exact .of_regions rfl
  | clearWatchpoints => exact .of_regions rfl
  | takeHits => exact .of_regions rfl
  | newLine => exact .of_regions rfl
  | raise line => exact .of_regions rfl
  | sense line => exact .of_regions rfl
  | report event => exact .of_regions rfl

/-- Calls on a bus, one after the other. -/
abbrev Steps : Bus D → Bus D → Prop := Relation.ReflTransGen Step

/-- No step takes a region away. -/
theorem Steps.keeps {bus later : Bus D} (steps : Steps bus later) : Keeps bus later := by
  induction steps with
  | refl => exact .refl bus
  | tail _ step ih => exact ih.trans step.keeps

/-- A bus takes its own layout over, and whatever is called on it in between, it then has the same
table again. -/
theorem Sound.layout_restores {bus later : Bus D} (sound : Sound bus) (steps : Steps bus later) :
    ∃ after, later.applyLayout bus.layout = (.ok (), after) ∧
      ∀ address, after.owner address = bus.owner address := by
  have accepted : ∀ span ∈ bus.layout, later.Admits span := fun span member =>
    (sound.admits_layout span member).kept steps.keeps
  obtain ⟨log, dispatch, applied, owners⟩ := applyLayout_accepted accepted
  exact ⟨_, applied, fun address => (owners address).trans (bus.dispatch.lastOver_spans address)⟩

/-- How the layout of a bus and the layouts that it takes over belong together. -/
structure LayoutLaws (bus : Bus D) : Prop where
  canonical : MappedSpan.Canonical bus.layout
  owners : ∀ address id, (∃ span ∈ bus.layout, span.Covers address ∧ span.region = id) ↔
    bus.owner address = some id
  passes : bus.checkLayout bus.layout = .ok ()
  restores : ∀ later, Steps bus later →
    ∃ after, later.applyLayout bus.layout = (.ok (), after) ∧
      ∀ address, after.owner address = bus.owner address
  accepted : ∀ layout after, bus.applyLayout layout = (.ok (), after) →
    (∀ address, after.owner address = MappedSpan.lastOver layout address) ∧
      ∀ form, MappedSpan.CanonicalForm layout form ↔ form = after.layout
  refused : ∀ layout fault after, bus.applyLayout layout = (.error fault, after) → after = bus

/-- Writing the table down and taking a layout over are inverse to each other, on every bus that
calls lead to. -/
theorem reachable_layout_laws {bus : Bus D} (reached : bus.Reachable) : bus.LayoutLaws where
  canonical := bus.dispatch.spans_canonical
  owners := bus.mem_layout_iff
  passes := checkLayout_eq_ok_iff.mpr reached.sound.admits_layout
  restores _ steps := reached.sound.layout_restores steps
  accepted _ _ applied := applyLayout_ok applied
  refused _ _ _ applied := applyLayout_error applied

/-- Memory everywhere, with a page of read-only storage in front of it. -/
def basicPaged : Bus Unpopulated := (flat.add (.rom "basic" (.page 0xa0) 0x60)).2

/-- The page is covered by the memory, and then comes back. -/
theorem basicPaged_layout_laws :
    basicPaged.Reachable ∧
      ∃ after, (basicPaged.map 0).2.applyLayout basicPaged.layout = (.ok (), after) ∧
        after.owner 0xa000 = some 1 := by
  have reached : basicPaged.Reachable := .step reachable_flat (.add (Region.filled_rom _ _ _))
  have owned : basicPaged.owner 0xa000 = some 1 := by
    rw [basicPaged, owner_add, if_pos (by decide), flat_regions]
    rfl
  obtain ⟨after, applied, owners⟩ :=
    (reachable_layout_laws reached).restores (basicPaged.map 0).2 (.single (.map 0))
  exact ⟨reached, after, applied, (owners 0xa000).trans owned⟩

end Bus

end EightBit
