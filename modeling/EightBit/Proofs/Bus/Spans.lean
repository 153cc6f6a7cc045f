import EightBit.Bus.Layout

/-
The written form of a dispatch table. The spans of a table cover exactly the owned addresses, each
under its owner, and a table is determined by the owners of its addresses; so a table that is built
from the spans of another one equals it.
-/

namespace EightBit

namespace MappedSpan

/-- The end is exclusive. -/
def stop (span : MappedSpan) : Nat := span.start.toNat + span.size.toNat

/-- The span names its region as the owner of the address. -/
def Covers (span : MappedSpan) (address : Address) : Prop :=
  span.start.toNat ≤ address.toNat ∧ address.toNat < span.stop

instance (span : MappedSpan) (address : Address) : Decidable (span.Covers address) :=
  inferInstanceAs (Decidable (_ ∧ _))

/-- The region that the last span over an address names. -/
def lastOver (layout : List MappedSpan) (address : Address) : Option Nat :=
  (layout.reverse.find? fun span => span.Covers address).map region

@[simp] theorem lastOver_nil (address : Address) : lastOver [] address = none := rfl

/-- The first span of a layout counts only where no later one covers the address. -/
theorem lastOver_cons (span : MappedSpan) (layout : List MappedSpan) (address : Address) :
    lastOver (span :: layout) address =
      (lastOver layout address).or (if span.Covers address then some span.region else none) := by
  rw [lastOver, List.reverse_cons, List.find?_append, Option.map_or, ← lastOver,
    List.find?_singleton]
  split <;> rename_i covered
  · rw [if_pos (of_decide_eq_true covered), Option.map_some]
  · rw [if_neg (fun covers => covered (decide_eq_true covers)), Option.map_none]

/-- The addresses of a span that fits into the address space. -/
def range (span : MappedSpan) (fits : span.stop ≤ 65536) : AddressRange :=
  ⟨span.start, span.size.toNat, fits⟩

/-- The range of a span has the addresses that the span covers. -/
theorem containsAddress_range {span : MappedSpan} (fits : span.stop ≤ 65536)
    (address : Address) : (span.range fits).containsAddress address ↔ span.Covers address :=
  AddressRange.containsAddress_iff

/-- A range contains that of a span exactly if the span starts and stops inside. -/
theorem contains_range {span : MappedSpan} (fits : span.stop ≤ 65536) (outer : AddressRange) :
    outer.contains (span.range fits) ↔
      outer.start.toNat ≤ span.start.toNat ∧ span.stop ≤ outer.stop :=
  decide_eq_true_iff

/-- A span that ends within the address space has a range. -/
theorem make_fits {span : MappedSpan} (fits : span.stop ≤ 65536) :
    AddressRange.make span.start span.size = .ok (span.range fits) :=
  dif_pos fits

/-- A span that ends past the address space has none. -/
theorem make_past {span : MappedSpan} (past : 65536 < span.stop) :
    AddressRange.make span.start span.size = .error (.invalidRange span.start span.size) :=
  dif_neg (Nat.not_le.mpr past)

end MappedSpan

namespace Dispatch

/-- Two tables with the same owners are the same table. -/
theorem ext_owner {first second : Dispatch}
    (same : ∀ address, first.owner address = second.owner address) : first = second := by
  obtain ⟨first⟩ := first
  obtain ⟨second⟩ := second
  congr 1
  apply Vector.ext
  intro index inside
  have agrees := same (UInt16.ofNat index)
  simpa only [owner, UInt16.toNat_ofNat_of_lt' inside] using agrees

/-- A span is assigned as a whole if it fits into the address space. -/
theorem owner_assignSpan {span : MappedSpan} (fits : span.stop ≤ 65536) (table : Dispatch)
    (address : Address) :
    (Bus.assignSpan table span).owner address =
      if span.Covers address then some span.region else table.owner address := by
  rw [Bus.assignSpan, MappedSpan.make_fits fits]
  dsimp only
  rw [owner_assign]
  by_cases covers : span.Covers address
  · rw [if_pos covers, if_pos ((MappedSpan.containsAddress_range fits address).mpr covers)]
  · rw [if_neg covers, if_neg (mt (MappedSpan.containsAddress_range fits address).mp covers)]

/-- Of the spans over an address the last one wins, and where there is none the table stays. -/
theorem owner_foldl_assignSpan {layout : List MappedSpan}
    (fits : ∀ span ∈ layout, span.stop ≤ 65536) (table : Dispatch) (address : Address) :
    (layout.foldl Bus.assignSpan table).owner address =
      (MappedSpan.lastOver layout address).or (table.owner address) := by
  induction layout generalizing table with
  | nil => rfl
  | cons span layout ih =>
      rw [List.foldl_cons, ih (fun other member => fits other (List.mem_cons_of_mem _ member)),
        owner_assignSpan (fits span List.mem_cons_self), MappedSpan.lastOver_cons, Option.or_assoc]
      split <;> rfl

/-- The spans cover exactly the owned addresses below the count, each under its owner. -/
structure Listed (table : Dispatch) (count : Nat) (found : List MappedSpan) : Prop where
  bounds : ∀ span ∈ found, 0 < span.size.toNat ∧ span.stop ≤ count
  sound : ∀ span ∈ found, ∀ address, span.Covers address →
    table.owner address = some span.region
  complete : ∀ address : Address, address.toNat < count → table.owner address ≠ none →
    ∃ span ∈ found, span.Covers address

/-- An address without an owner adds no span. -/
theorem Listed.skip {table : Dispatch} {count : Nat} {found : List MappedSpan}
    (listed : Listed table count found) (below : count < 65536)
    (gap : table.owner (UInt16.ofNat count) = none) : Listed table (count + 1) found where
  bounds span member := ⟨(listed.bounds span member).1, by
    have := (listed.bounds span member).2
    omega⟩
  sound := listed.sound
  complete address inside owned := by
    refine listed.complete address ?_ owned
    have different : address.toNat ≠ count := by
      rintro rfl
      rw [UInt16.ofNat_toNat] at gap
      exact owned gap
    omega

/-- An address whose owner is not that of the span before it starts a span of its own. -/
theorem Listed.start {table : Dispatch} {count id : Nat} {found : List MappedSpan}
    (listed : Listed table count found) (below : count < 65536)
    (owned : table.owner (UInt16.ofNat count) = some id) :
    Listed table (count + 1) (⟨id, UInt16.ofNat count, 1⟩ :: found) := by
  have place : (UInt16.ofNat count).toNat = count := UInt16.toNat_ofNat_of_lt' below
  have one : (1 : UInt32).toNat = 1 := rfl
  refine ⟨?_, ?_, ?_⟩
  · intro span member
    rcases List.mem_cons.mp member with rfl | old
    · simp only [MappedSpan.stop, place, one]
      omega
    · have := listed.bounds span old
      omega
  · intro span member address covers
    rcases List.mem_cons.mp member with rfl | old
    · have same : address = UInt16.ofNat count := by
        apply UInt16.toNat_inj.mp
        simp only [MappedSpan.Covers, MappedSpan.stop, place, one] at covers
        omega
      rw [same, owned]
    · exact listed.sound span old address covers
  · intro address inside present
    by_cases here : address.toNat = count
    · refine ⟨_, List.mem_cons_self, ?_⟩
      simp only [MappedSpan.Covers, MappedSpan.stop, place, one]
      omega
    · obtain ⟨span, member, covers⟩ := listed.complete address (by omega) present
      exact ⟨span, List.mem_cons_of_mem _ member, covers⟩

/-- An address with the owner of the span that ends just before it makes that span longer. -/
theorem Listed.grow {table : Dispatch} {count : Nat} {last : MappedSpan}
    {earlier : List MappedSpan} (listed : Listed table count (last :: earlier))
    (below : count < 65536) (owned : table.owner (UInt16.ofNat count) = some last.region)
    (touches : last.stop = count) :
    Listed table (count + 1) ({ last with size := last.size + 1 } :: earlier) := by
  have lastBounds := listed.bounds last List.mem_cons_self
  have size : (last.size + 1).toNat = last.size.toNat + 1 := by
    rw [MappedSpan.stop] at touches
    rw [UInt32.toNat_add, UInt32.toNat_one, Nat.mod_eq_of_lt (by omega)]
  rw [MappedSpan.stop] at touches
  refine ⟨?_, ?_, ?_⟩
  · intro span member
    rcases List.mem_cons.mp member with rfl | old
    · simp only [MappedSpan.stop, size]
      omega
    · have := listed.bounds span (List.mem_cons_of_mem _ old)
      omega
  · intro span member address covers
    rcases List.mem_cons.mp member with rfl | old
    · simp only [MappedSpan.Covers, MappedSpan.stop, size] at covers
      by_cases here : address.toNat = count
      · have same : address = UInt16.ofNat count := by rw [← here, UInt16.ofNat_toNat]
        rw [same, owned]
      · refine listed.sound last List.mem_cons_self address ?_
        simp only [MappedSpan.Covers, MappedSpan.stop]
        omega
    · exact listed.sound span (List.mem_cons_of_mem _ old) address covers
  · intro address inside present
    by_cases here : address.toNat = count
    · refine ⟨_, List.mem_cons_self, ?_⟩
      simp only [MappedSpan.Covers, MappedSpan.stop, size]
      omega
    · obtain ⟨span, member, covers⟩ := listed.complete address (by omega) present
      rcases List.mem_cons.mp member with rfl | old
      · refine ⟨_, List.mem_cons_self, ?_⟩
        simp only [MappedSpan.Covers, MappedSpan.stop, size] at covers ⊢
        omega
      · exact ⟨span, List.mem_cons_of_mem _ old, covers⟩

/-- One more address with an owner extends the list of spans. -/
theorem Listed.extend {table : Dispatch} {count id : Nat} {found : List MappedSpan}
    (listed : Listed table count found) (below : count < 65536)
    (owned : table.owner (UInt16.ofNat count) = some id) :
    Listed table (count + 1) (Dispatch.extend count id found) := by
  cases found with
  | nil => exact listed.start below owned
  | cons last earlier =>
      rw [Dispatch.extend]
      split
      · rename_i touches
        exact listed.grow below (touches.1 ▸ owned) touches.2
      · exact listed.start below owned

section Induction

variable (table : Dispatch) (invariant : Nat → List MappedSpan → Prop) (start : invariant 0 [])
  (skip : ∀ {count found}, count < 65536 → table.owner (UInt16.ofNat count) = none →
    invariant count found → invariant (count + 1) found)
  (extend : ∀ {count id found}, count < 65536 → table.owner (UInt16.ofNat count) = some id →
    invariant count found → invariant (count + 1) (Dispatch.extend count id found))
include start skip extend

/-- What holds before the first address, and is kept by each address, holds of the spans found so
far. -/
theorem fold_induction {count : Nat} (within : count ≤ 65536) :
    invariant count (Nat.fold count (fun address bound found =>
      match table.owners.get ⟨address, Nat.lt_of_lt_of_le bound within⟩ with
      | some region => Dispatch.extend address region found
      | none => found) []) := by
  induction count with
  | zero => exact start
  | succ count ih =>
      have below : count < 65536 := by omega
      have here : table.owner (UInt16.ofNat count) = table.owners.get ⟨count, below⟩ := by
        simp only [owner, UInt16.toNat_ofNat_of_lt' below]
        rfl
      rw [Nat.fold_succ]
      split
      · rename_i id owned
        exact extend below (here.trans owned) (ih (by omega))
      · rename_i gap
        exact skip below (here.trans gap) (ih (by omega))

/-- The spans are found from the lowest address on, so the last one is the first in reverse. -/
theorem spans_induction : invariant 65536 table.spans.reverse := by
  rw [spans, List.reverse_reverse]
  exact table.fold_induction invariant start skip extend (Nat.le_refl 65536)

end Induction

/-- The spans of a table list all its owners. -/
theorem spans_listed (table : Dispatch) : Listed table 65536 table.spans := by
  obtain ⟨bounds, sound, complete⟩ : Listed table 65536 table.spans.reverse :=
    table.spans_induction (Listed table) ⟨by simp, by simp, by omega⟩
      (fun below gap listed => listed.skip below gap)
      (fun below owned listed => listed.extend below owned)
  refine ⟨?_, ?_, ?_⟩
  · exact fun span member => bounds span (List.mem_reverse.mpr member)
  · exact fun span member => sound span (List.mem_reverse.mpr member)
  · intro address inside owned
    obtain ⟨span, member, covers⟩ := complete address inside owned
    exact ⟨span, List.mem_reverse.mp member, covers⟩

/-- The spans of a table name the owner of every address. -/
theorem lastOver_spans (table : Dispatch) (address : Address) :
    MappedSpan.lastOver table.spans address = table.owner address := by
  have listed := table.spans_listed
  rw [MappedSpan.lastOver]
  cases found : table.spans.reverse.find? fun span => span.Covers address with
  | some span =>
      have member := List.mem_reverse.mp (List.mem_of_find?_eq_some found)
      have covers : span.Covers address := by simpa using List.find?_some found
      rw [Option.map_some, listed.sound span member address covers]
  | none =>
      rw [Option.map_none]
      cases owned : table.owner address with
      | none => rfl
      | some id =>
          obtain ⟨span, member, covers⟩ :=
            listed.complete address address.toNat_lt (by rw [owned]; exact Option.some_ne_none id)
          have missed := List.find?_eq_none.mp found span (List.mem_reverse.mpr member)
          exact absurd (decide_eq_true covers) missed

/-- A table is written down as no span at all exactly if nobody owns an address. -/
theorem spans_eq_nil_iff (table : Dispatch) :
    table.spans = [] ↔ ∀ address, table.owner address = none := by
  constructor
  · intro empty address
    rw [← lastOver_spans, empty, MappedSpan.lastOver_nil]
  · intro gaps
    apply List.eq_nil_iff_forall_not_mem.mpr
    intro span member
    obtain ⟨positive, fits⟩ := table.spans_listed.bounds span member
    have owned := table.spans_listed.sound span member span.start
      ⟨Nat.le_refl _, by rw [MappedSpan.stop]; omega⟩
    rw [gaps] at owned
    cases owned

end Dispatch

end EightBit
