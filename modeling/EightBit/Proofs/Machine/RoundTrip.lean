import EightBit.Proofs.Machine.Restore

/-
Restoring what another machine saved. A machine with the same regions takes over the registers, the
contents and the mapping of the saved one; only a saved machine that maps nothing says nothing about
the mapping.
-/

namespace EightBit

variable {D : Type} [Peripheral D]

/-- Storage is what it is by its outline and its bytes. -/
theorem Region.ext_storage {first second : Region D} (outline : first.outline = second.outline)
    (storage : first.kind ≠ .io) (bytes : first.bytes = second.bytes) : first = second := by
  obtain ⟨name, range, contents⟩ := first
  obtain ⟨otherName, otherRange, otherContents⟩ := second
  obtain ⟨rfl, kinds, rfl⟩ := Outline.mk.inj outline
  cases contents <;> cases otherContents <;> cases kinds
  · cases bytes
    rfl
  · cases bytes
    rfl
  · exact absurd rfl storage

/-- Storage saves the bytes it holds. -/
theorem Region.bytes_storage {region : Region D} (storage : region.kind ≠ .io) :
    region.bytes = region.stored := by
  obtain ⟨name, range, contents⟩ := region
  cases contents with
  | ram bytes => rfl
  | rom bytes => rfl
  | io device => exact absurd rfl storage

namespace Machine

/-- A save state has the name and the bytes of every region at its place. -/
theorem getElem?_save (machine : Machine D) (index : Nat) :
    machine.save.regions[index]? =
      machine.bus.regions[index]?.map fun region => ⟨region.name, region.bytes⟩ := by
  rw [save, List.getElem?_map, Array.getElem?_toList]

/-- A save state of storage fits every machine with the same regions. -/
theorem accepts_save {source target : Machine D} (sound : source.bus.Sound)
    (storage : source.bus.StorageOnly)
    (same : target.bus.outlines = source.bus.outlines) : target.bus.Accepts source.save where
  images index region image attached present := by
    rw [getElem?_save] at present
    obtain ⟨saved, found, rfl⟩ := Option.map_eq_some_iff.mp present
    obtain ⟨like, other, outline⟩ := Bus.attached_of_outlines same found
    cases attached.symm.trans other
    obtain ⟨name, _, range⟩ := Region.Outline.mk.inj outline
    refine ⟨name, ?_⟩
    rw [Region.bytes_storage (storage found), range]
    exact sound.filled found (storage found)
  layout span member := (sound.admits_layout span member).kept (.of_outlines same)

/-- The machine takes over the registers and the regions of the saved one, and the table as well,
unless that is empty. -/
theorem restore_save {source target : Machine D} (sound : source.bus.Sound)
    (storage : source.bus.StorageOnly)
    (filled : target.bus.Filled)
    (same : target.bus.outlines = source.bus.outlines) :
    ∃ dispatch log, target.restore source.save =
        .ok (.ok (), { target with
          processor := .ofImage source.processor.image
          bus := { target.bus with regions := source.bus.regions, dispatch, log } }) ∧
      dispatch = if source.bus.layout = [] then target.bus.dispatch else source.bus.dispatch := by
  obtain ⟨processor, bus, irqLines, nmiLines, trace⟩ := target
  have accepts := accepts_save sound storage same
  rcases restoreBus_cases filled source.save with ⟨after, _, restored, done⟩ |
    ⟨fault, log, first, _⟩
  · obtain ⟨regions, dispatch, log, rfl⟩ := restored.frame
    refine ⟨dispatch, log, ?_, ?_⟩
    · have taken : regions = source.bus.regions := by
        apply Array.ext_getElem?
        intro index
        cases found : source.bus.regions[index]? with
        | none =>
            have outside := Array.getElem?_eq_none_iff.mp found
            rw [← Bus.size_of_outlines same] at outside
            exact Array.getElem?_eq_none (Nat.le_trans (Nat.le_of_eq restored.size) outside)
        | some region =>
            obtain ⟨like, attached, outline⟩ := Bus.attached_of_outlines same found
            have kind : like.kind = region.kind := Region.kind_of_outline outline
            have present : source.save.regions[index]? = some ⟨region.name, region.bytes⟩ := by
              rw [getElem?_save, found, Option.map_some]
            obtain ⟨next, resumed, resumes⟩ := restored.resumed attached present
            have equal : region = next := Region.ext_storage (resumes.outline.trans outline).symm
              (storage found) (resumes.storage (kind ▸ storage found)).symm
            rw [equal]
            exact resumed
      rw [restore, done, taken]
      rfl
    · apply Dispatch.ext_owner
      intro address
      refine (restored.owner address).trans ?_
      change (if source.bus.layout = [] then _ else _) = _
      split
      · rfl
      · exact source.bus.dispatch.lastOver_spans address
  · exact absurd accepts first.not_accepts

/-- A machine that takes over a save state gets back the mapping at the time it was taken, however
many gaps that has. Only if nothing was mapped at all it keeps the mapping it has. -/
theorem restore_brings_back_mapping {source target : Machine D} (reached : source.bus.Reachable)
    (storage : source.bus.StorageOnly)
    (filled : target.bus.Filled)
    (same : target.bus.outlines = source.bus.outlines) :
    ∃ after, target.restore source.save = .ok (.ok (), after) ∧
      ((∃ address, source.bus.owner address ≠ none) →
        (∀ address, after.bus.owner address = source.bus.owner address) ∧
          after.bus.layout = source.bus.layout) ∧
      ((∀ address, source.bus.owner address = none) →
        (∀ address, after.bus.owner address = target.bus.owner address) ∧
          after.bus.layout = target.bus.layout) := by
  obtain ⟨dispatch, log, restored, mapping⟩ := restore_save reached.sound storage filled same
  have blank : source.bus.layout = [] ↔ ∀ address, source.bus.owner address = none :=
    source.bus.dispatch.spans_eq_nil_iff
  refine ⟨_, restored, ?_, ?_⟩
  · rintro ⟨address, owned⟩
    rw [if_neg (fun gaps => owned (blank.mp gaps address))] at mapping
    subst mapping
    exact ⟨fun _ => rfl, rfl⟩
  · intro gaps
    rw [if_pos (blank.mpr gaps)] at mapping
    subst mapping
    exact ⟨fun _ => rfl, rfl⟩

/-- One page of storage that is attached but not mapped. -/
def unmappedPage : Machine Unpopulated := ofBus (Bus.empty.attach (.ram "ram" (.page 0) 0)).2 false

/-- The same page where it is mapped. -/
def mappedPage : Machine Unpopulated := ofBus (Bus.empty.add (.ram "ram" (.page 0) 0)).2 false

theorem unmappedPage_reachable : unmappedPage.bus.Reachable :=
  .step .empty (.attach (Region.filled_ram _ _ _))

theorem mappedPage_reachable : mappedPage.bus.Reachable :=
  .step .empty (.add (Region.filled_ram _ _ _))

/-- Both machines have the same regions. -/
theorem mappedPage_regions : mappedPage.bus.regions = unmappedPage.bus.regions :=
  (Bus.add_regions ..).trans rfl

/-- No peripheral answers on the unmapped page. -/
theorem unmappedPage_storage : unmappedPage.bus.StorageOnly := by
  intro id region attached
  cases id with
  | zero =>
      cases attached
      exact nofun
  | succ id => cases attached

/-- Nobody owns an address there. -/
theorem unmappedPage_owner (address : Address) : unmappedPage.bus.owner address = none :=
  Dispatch.owner_empty address

/-- The mapped page owns the lowest address. -/
theorem mappedPage_owner : mappedPage.bus.owner 0 = some 0 := by
  have attached : (Bus.empty.attach (.ram "ram" (.page 0) 0)).2.regions[0]? =
      some (.ram "ram" (.page 0) 0 : Region Unpopulated) := rfl
  exact (Bus.owner_remap attached 0).trans (if_pos (by decide))

/-- A machine that maps nothing does not take away the mapping of another one. -/
theorem restore_unmapped_keeps_mapping :
    ∃ after, mappedPage.restore unmappedPage.save = .ok (.ok (), after) ∧
      after.bus.owner 0 = some 0 ∧ unmappedPage.bus.owner 0 = none := by
  obtain ⟨dispatch, log, restored, mapping⟩ := restore_save unmappedPage_reachable.sound
    unmappedPage_storage mappedPage_reachable.sound.filled
    (congrArg (Array.map Region.outline) mappedPage_regions)
  have blank : unmappedPage.bus.layout = [] :=
    (Dispatch.spans_eq_nil_iff _).mpr unmappedPage_owner
  rw [if_pos blank] at mapping
  subst mapping
  exact ⟨_, restored, mappedPage_owner, unmappedPage_owner 0⟩

/-- A machine that maps a page gives its mapping to another one. -/
theorem restore_mapped_brings_back_mapping :
    ∃ after, unmappedPage.restore mappedPage.save = .ok (.ok (), after) ∧
      after.bus.owner 0 = some 0 := by
  obtain ⟨after, restored, mapping, _⟩ := restore_brings_back_mapping mappedPage_reachable
    (fun _ _ attached => unmappedPage_storage (mappedPage_regions ▸ attached))
    unmappedPage_reachable.sound.filled
    (congrArg (Array.map Region.outline) mappedPage_regions.symm)
  have owned : mappedPage.bus.owner 0 ≠ none := by
    rw [mappedPage_owner]
    exact Option.some_ne_none 0
  exact ⟨after, restored, ((mapping ⟨0, owned⟩).1 0).trans mappedPage_owner⟩

end Machine

end EightBit
