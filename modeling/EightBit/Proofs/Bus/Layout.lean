import EightBit.Proofs.Bus.Spans
import EightBit.Proofs.Outcome

/-
Which layouts a bus accepts, the first span that it refuses otherwise, and who owns an address once
a layout is applied.
-/

namespace EightBit.Bus

variable {D : Type}

/-- The span names an attached region, fits into the address space and lies inside the range of
that region. -/
def Admits (bus : Bus D) (span : MappedSpan) : Prop :=
  ∃ region, bus.regions[span.region]? = some region ∧ span.stop ≤ 65536 ∧
    region.range.start.toNat ≤ span.start.toNat ∧ span.stop ≤ region.range.stop

/-- Why a span is refused. -/
inductive Refuses (bus : Bus D) (span : MappedSpan) : Fault → Prop
  | unknown (missing : bus.regions[span.region]? = none) :
      Refuses bus span (.unknownRegion span.region)
  | invalid {region : Region D} (attached : bus.regions[span.region]? = some region)
      (past : 65536 < span.stop) : Refuses bus span (.invalidRange span.start span.size)
  | outside {region : Region D} (attached : bus.regions[span.region]? = some region)
      (fits : span.stop ≤ 65536)
      (outside : ¬(region.range.start.toNat ≤ span.start.toNat ∧
        span.stop ≤ region.range.stop)) :
      Refuses bus span (.spanOutsideRegion region.name span.start span.size)

/-- A span that is refused is not admitted. -/
theorem Refuses.not_admits {bus : Bus D} {span : MappedSpan} {fault : Fault}
    (refuses : bus.Refuses span fault) : ¬bus.Admits span := by
  rintro ⟨region, attached, fits, inside⟩
  cases refuses with
  | unknown missing => cases missing.symm.trans attached
  | invalid other past => omega
  | outside other _ outside =>
      cases other.symm.trans attached
      exact outside inside

/-- A span is refused for one reason only. -/
theorem Refuses.unique {bus : Bus D} {span : MappedSpan} {fault other : Fault}
    (first : bus.Refuses span fault) (second : bus.Refuses span other) : fault = other := by
  cases first with
  | unknown missing =>
      cases second with
      | unknown _ => rfl
      | invalid attached _ => cases missing.symm.trans attached
      | outside attached _ _ => cases missing.symm.trans attached
  | invalid attached past =>
      cases second with
      | unknown missing => cases missing.symm.trans attached
      | invalid _ _ => rfl
      | outside _ fits _ => omega
  | outside attached fits _ =>
      cases second with
      | unknown missing => cases missing.symm.trans attached
      | invalid _ past => omega
      | outside found _ _ =>
          cases attached.symm.trans found
          rfl

open Classical in
/-- Behind spans that are admitted stands the first one that is not. -/
theorem find?_refused {bus : Bus D} {layout earlier later : List MappedSpan} {span : MappedSpan}
    (order : layout = earlier ++ span :: later) (passed : ∀ before ∈ earlier, bus.Admits before)
    (refused : ¬bus.Admits span) :
    layout.find? (fun span => decide ¬bus.Admits span) = some span := by
  refine List.find?_eq_some_iff_append.mpr ⟨decide_eq_true refused, earlier, later, order, ?_⟩
  intro before member
  simpa using passed before member

/-- A span passes if the bus admits it, and otherwise the reason is reported. -/
theorem checkSpan_cases (bus : Bus D) (span : MappedSpan) :
    (bus.Admits span ∧ bus.checkSpan span = .ok ()) ∨
      ∃ fault, bus.Refuses span fault ∧ bus.checkSpan span = .error fault := by
  unfold checkSpan
  cases attached : bus.regions[span.region]? with
  | none => exact .inr ⟨_, .unknown attached, rfl⟩
  | some region =>
      dsimp only
      by_cases fits : span.stop ≤ 65536
      · rw [MappedSpan.make_fits fits, Outcome.bind_ok]
        by_cases inside : region.range.start.toNat ≤ span.start.toNat ∧
            span.stop ≤ region.range.stop
        · rw [if_pos ((MappedSpan.contains_range fits region.range).mpr inside)]
          exact .inl ⟨⟨region, attached, fits, inside⟩, rfl⟩
        · rw [if_neg (mt (MappedSpan.contains_range fits region.range).mp inside)]
          exact .inr ⟨_, .outside attached fits inside, rfl⟩
      · have past : 65536 < span.stop := Nat.lt_of_not_le fits
        rw [MappedSpan.make_past past]
        exact .inr ⟨_, .invalid attached past, rfl⟩

/-- A layout passes if the bus admits all its spans, and otherwise the first one that it does not
admit is reported. -/
theorem checkLayout_cases (bus : Bus D) (layout : List MappedSpan) :
    ((∀ span ∈ layout, bus.Admits span) ∧ bus.checkLayout layout = .ok ()) ∨
      ∃ fault earlier span later, layout = earlier ++ span :: later ∧
        (∀ passed ∈ earlier, bus.Admits passed) ∧ bus.Refuses span fault ∧
          bus.checkLayout layout = .error fault := by
  induction layout with
  | nil => exact .inl ⟨by simp, rfl⟩
  | cons span layout ih =>
      have unfolded : bus.checkLayout (span :: layout) =
          (bus.checkSpan span >>= fun _ => bus.checkLayout layout) := rfl
      rcases bus.checkSpan_cases span with ⟨admits, passes⟩ | ⟨fault, refuses, fails⟩
      · rw [unfolded, passes, Outcome.bind_ok]
        rcases ih with ⟨all, passed⟩ | ⟨fault, earlier, bad, later, rfl, before, refuses, fails⟩
        · exact .inl ⟨List.forall_mem_cons.mpr ⟨admits, all⟩, passed⟩
        · exact .inr ⟨fault, span :: earlier, bad, later, rfl,
            List.forall_mem_cons.mpr ⟨admits, before⟩, refuses, fails⟩
      · rw [unfolded, fails, Outcome.bind_error]
        exact .inr ⟨fault, [], span, layout, rfl, by simp, refuses, rfl⟩

/-- A layout passes exactly if all its spans are admitted. -/
theorem checkLayout_eq_ok_iff {bus : Bus D} {layout : List MappedSpan} :
    bus.checkLayout layout = .ok () ↔ ∀ span ∈ layout, bus.Admits span := by
  rcases bus.checkLayout_cases layout with
    ⟨all, passes⟩ | ⟨fault, earlier, span, later, rfl, before, refuses, fails⟩
  · exact ⟨fun _ => all, fun _ => passes⟩
  · rw [fails]
    constructor
    · intro passes
      cases passes
    · intro all
      exact absurd (all span (by simp)) refuses.not_admits

/-- An accepted layout replaces the table, and the last span over an address names its owner. -/
theorem applyLayout_accepted {bus : Bus D} {layout : List MappedSpan}
    (accepted : ∀ span ∈ layout, bus.Admits span) :
    ∃ log dispatch, bus.applyLayout layout = (.ok (), { bus with dispatch, log }) ∧
      ∀ address, dispatch.owner address = MappedSpan.lastOver layout address := by
  refine ⟨bus.log.push (.layoutRestored layout.length), layout.foldl assignSpan .empty, ?_, ?_⟩
  · rw [applyLayout, checkLayout_eq_ok_iff.mpr accepted]
    rfl
  · intro address
    have fits : ∀ span ∈ layout, span.stop ≤ 65536 := by
      intro span member
      obtain ⟨_, _, fits, _⟩ := accepted span member
      exact fits
    rw [Dispatch.owner_foldl_assignSpan fits, Dispatch.owner_empty, Option.or_none]

/-- A refused layout changes nothing. -/
theorem applyLayout_refused {bus : Bus D} {layout : List MappedSpan}
    (refused : ¬∀ span ∈ layout, bus.Admits span) :
    ∃ fault, bus.applyLayout layout = (.error fault, bus) := by
  rcases bus.checkLayout_cases layout with ⟨all, _⟩ | ⟨fault, _, _, _, _, _, _, fails⟩
  · exact absurd all refused
  · exact ⟨fault, by rw [applyLayout, fails]⟩

end EightBit.Bus
