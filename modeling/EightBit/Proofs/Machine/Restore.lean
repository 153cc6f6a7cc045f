import EightBit.Machine.SaveState
import EightBit.Proofs.Bus.Sound

/-
Restoring a save state. The whole save state is compared with the machine before anything changes,
and what passes the comparison cannot fail afterwards, so a restore happens entirely or not at all.
-/

namespace EightBit

variable {D : Type}

/-- The image has the name of the region and one byte for each of its addresses. -/
def Region.Fits (region : Region D) (image : RegionImage) : Prop :=
  region.name = image.name ∧ image.bytes.size = region.range.size

/-- Why an image is refused at its place. The name is looked at first. -/
inductive Region.Mismatch (region : Region D) (image : RegionImage) (index : Nat) : Fault → Prop
  | name (differs : region.name ≠ image.name) :
      Mismatch region image index (.regionMismatch index image.name region.name)
  | size (named : region.name = image.name)
      (differs : image.bytes.size ≠ region.range.size) :
      Mismatch region image index
        (.snapshotSize image.name region.range.size image.bytes.size)

/-- An image that is refused does not fit. -/
theorem Region.Mismatch.not_fits {region : Region D} {image : RegionImage} {index : Nat}
    {fault : Fault} (mismatch : region.Mismatch image index fault) : ¬region.Fits image := by
  rintro ⟨named, sized⟩
  cases mismatch with
  | name differs => exact differs named
  | size _ differs => exact differs sized

/-- An image is refused for one reason only. -/
theorem Region.Mismatch.unique {region : Region D} {image : RegionImage} {index : Nat}
    {fault other : Fault} (first : region.Mismatch image index fault)
    (second : region.Mismatch image index other) : fault = other := by
  cases first with
  | name differs =>
      cases second with
      | name _ => rfl
      | size named _ => exact absurd named differs
  | size named differs =>
      cases second with
      | name unnamed => exact absurd named unnamed
      | size _ _ => rfl

namespace Bus

/-- The image at this place fits the region attached there, if there are both. -/
def FitsAt (bus : Bus D) (saved : SaveState) (index : Nat) : Prop :=
  ∀ region image, bus.regions[index]? = some region → saved.regions[index]? = some image →
    region.Fits image

/-- The save state fits the bus: all its images do, and so does its layout. -/
structure Accepts (bus : Bus D) (saved : SaveState) : Prop where
  images : ∀ index, bus.FitsAt saved index
  layout : ∀ span ∈ saved.layout, bus.Admits span

/-- What is wrong first: an image at the lowest place, and the layout only after all images. -/
inductive FirstFault (bus : Bus D) (saved : SaveState) : Fault → Prop
  | image {index : Nat} {region : Region D} {image : RegionImage} {fault : Fault}
      (attached : bus.regions[index]? = some region)
      (present : saved.regions[index]? = some image)
      (earlier : ∀ before < index, bus.FitsAt saved before)
      (mismatch : region.Mismatch image index fault) : FirstFault bus saved fault
  | layout {earlier later : List MappedSpan} {span : MappedSpan} {fault : Fault}
      (images : ∀ index, bus.FitsAt saved index)
      (order : saved.layout = earlier ++ span :: later)
      (passed : ∀ before ∈ earlier, bus.Admits before)
      (refuses : bus.Refuses span fault) : FirstFault bus saved fault

/-- A save state has one first fault at most. -/
theorem FirstFault.unique {bus : Bus D} {saved : SaveState} {fault other : Fault}
    (first : bus.FirstFault saved fault) (second : bus.FirstFault saved other) :
    fault = other := by
  cases first with
  | @image index region image _ attached present earlier mismatch =>
      cases second with
      | @image place _ _ _ found imaged before differs =>
          have same : index = place := by
            rcases Nat.lt_trichotomy index place with below | same | above
            · exact absurd (before index below _ _ attached present) mismatch.not_fits
            · exact same
            · exact absurd (earlier place above _ _ found imaged) differs.not_fits
          subst same
          cases attached.symm.trans found
          cases present.symm.trans imaged
          exact mismatch.unique differs
      | layout images _ _ _ =>
          exact absurd (images index _ _ attached present) mismatch.not_fits
  | layout images order passed refuses =>
      cases second with
      | image found imaged _ differs => exact absurd (images _ _ _ found imaged) differs.not_fits
      | layout _ split admitted rejects =>
          have refused := find?_refused order passed refuses.not_admits
          cases refused.symm.trans (find?_refused split admitted rejects.not_admits)
          exact refuses.unique rejects

/-- A save state with a fault is not accepted. -/
theorem FirstFault.not_accepts {bus : Bus D} {saved : SaveState} {fault : Fault}
    (first : bus.FirstFault saved fault) : ¬bus.Accepts saved := by
  intro accepts
  cases first with
  | image attached present _ mismatch =>
      exact mismatch.not_fits (accepts.images _ _ _ attached present)
  | layout _ order _ refuses =>
      exact refuses.not_admits (accepts.layout _ (by rw [order]; simp))

end Bus

namespace Machine

/-- Either all images fit the regions at their places, or the first one that does not is
reported. -/
theorem checkRegions_cases (regions : List (Region D)) (images : List RegionImage)
    (index : Nat) :
    ((∀ (place : Nat) (region : Region D) (image : RegionImage), regions[place]? = some region →
        images[place]? = some image → region.Fits image) ∧
        checkRegions index regions images = .ok ()) ∨
      ∃ (fault : Fault) (place : Nat) (region : Region D) (image : RegionImage),
        regions[place]? = some region ∧ images[place]? = some image ∧
        (∀ before < place, ∀ (other : Region D) (earlier : RegionImage),
          regions[before]? = some other → images[before]? = some earlier →
            other.Fits earlier) ∧
        region.Mismatch image (index + place) fault ∧
          checkRegions index regions images = .error fault := by
  induction regions generalizing images index with
  | nil => exact .inl ⟨by simp, by unfold checkRegions; rfl⟩
  | cons region regions ih =>
      cases images with
      | nil => exact .inl ⟨by simp, by unfold checkRegions; rfl⟩
      | cons image images =>
          rw [checkRegions]
          by_cases named : region.name = image.name
          · by_cases sized : image.bytes.size = region.range.size
            · rw [if_pos named, if_pos sized]
              rcases ih images (index + 1) with ⟨all, passes⟩ |
                ⟨fault, place, other, later, attached, present, earlier, mismatch, fails⟩
              · refine .inl ⟨?_, passes⟩
                rintro (_ | place) other later attached present
                · cases attached
                  cases present
                  exact ⟨named, sized⟩
                · exact all place other later attached present
              · refine .inr ⟨fault, place + 1, other, later, attached, present, ?_, ?_, fails⟩
                · rintro (_ | before) below first saved found imaged
                  · cases found
                    cases imaged
                    exact ⟨named, sized⟩
                  · exact earlier before (by omega) first saved found imaged
                · rwa [Nat.add_assoc, Nat.add_comm 1] at mismatch
            · rw [if_pos named, if_neg sized]
              exact .inr ⟨_, 0, region, image, rfl, rfl, by simp, .size named sized, rfl⟩
          · rw [if_neg named]
            exact .inr ⟨_, 0, region, image, rfl, rfl, by simp, .name named, rfl⟩

/-- Warnings go to the log. -/
theorem warnUnmatched_frame (bus : Bus D) (index : Nat) (images : List RegionImage) :
    ∃ log, warnUnmatched bus index images = { bus with log } := by
  induction images generalizing bus index with
  | nil => exact ⟨bus.log, rfl⟩
  | cons image images ih =>
      obtain ⟨log, same⟩ := ih (bus.report (.unmatchedRegion index image.name)) (index + 1)
      exact ⟨log, same⟩

/-- A layout that was checked takes the place of the table, unless it is empty. -/
theorem restoreLayout_checked {bus : Bus D} {layout : List MappedSpan}
    (checked : ∀ span ∈ layout, bus.Admits span) :
    ∃ dispatch log, restoreLayout bus layout = (.ok (), { bus with dispatch, log }) ∧
      ∀ address, dispatch.owner address =
        if layout = [] then bus.owner address else MappedSpan.lastOver layout address := by
  rw [restoreLayout]
  by_cases blank : layout = []
  · rw [if_pos (List.isEmpty_iff.mpr blank)]
    exact ⟨bus.dispatch, bus.log, rfl, fun address => (if_pos blank).symm⟩
  · rw [if_neg (mt List.isEmpty_iff.mp blank)]
    obtain ⟨log, dispatch, applied, owners⟩ := Bus.applyLayout_accepted checked
    exact ⟨dispatch, log, applied, fun address => (owners address).trans (if_neg blank).symm⟩

end Machine

variable [Peripheral D]

/-- The region as it is after the bytes were restored. A peripheral takes them its own way. -/
structure Region.Resumes (region : Region D) (saved : Array UInt8) (next : Region D) : Prop where
  outline : next.outline = region.outline
  storage : region.kind ≠ .io → next.bytes = saved
  device : ∀ device, region.contents = .io device →
    next.contents = .io ((Peripheral.restore? device saved).getD device)

/-- As many bytes as the region has addresses are never refused. -/
theorem Region.restore_sized {region : Region D} {saved : Array UInt8} (filled : region.Filled)
    (sized : saved.size = region.range.size) :
    ∃ next effects, region.restore saved = (.ok (), next, effects) ∧
      region.Resumes saved next ∧ ∀ bus : Bus D, ∃ log, bus.absorb effects = { bus with log } := by
  obtain ⟨name, range, contents⟩ := region
  cases contents with
  | ram bytes =>
      have fits : saved.size = bytes.size := sized.trans (filled (by simp [kind])).symm
      exact ⟨⟨name, range, .ram saved⟩, [], by rw [restore, if_pos fits],
        ⟨rfl, fun _ => rfl, by rintro _ ⟨⟩⟩, fun bus => ⟨bus.log, rfl⟩⟩
  | rom bytes =>
      have fits : saved.size = bytes.size := sized.trans (filled (by simp [kind])).symm
      exact ⟨⟨name, range, .rom saved⟩, [], by rw [restore, if_pos fits],
        ⟨rfl, fun _ => rfl, by rintro _ ⟨⟩⟩, fun bus => ⟨bus.log, rfl⟩⟩
  | io device =>
      rw [restore, if_pos sized]
      cases restored : Peripheral.restore? device saved with
      | none =>
          refine ⟨_, _, rfl, ⟨rfl, fun storage => absurd rfl storage, ?_⟩, fun bus => ⟨_, rfl⟩⟩
          rintro _ ⟨⟩
          rw [restored, Option.getD_none]
      | some next =>
          refine ⟨_, _, rfl, ⟨rfl, fun storage => absurd rfl storage, ?_⟩,
            fun bus => ⟨bus.log, rfl⟩⟩
          rintro _ ⟨⟩
          rw [restored, Option.getD_some]

namespace Machine

/-- Restoring the regions changes contents at most, also where it stops. -/
theorem restoreRegions_follows {images : List RegionImage} {index : Nat} {bus after : Bus D}
    {result : Except Fault Unit}
    (done : restoreRegions bus index images = .ok (result, after)) : Bus.Follows bus after := by
  induction images generalizing index bus with
  | nil =>
      unfold restoreRegions at done
      cases done
      exact .refl _
  | cons image images ih =>
      unfold restoreRegions at done
      by_cases inside : index < bus.regions.size
      · rw [if_pos inside] at done
        obtain ⟨⟨outcome, middle⟩, restored, rest⟩ := Outcome.bind_eq_ok_iff.mp done
        have start : Bus.Follows bus middle := Bus.onRegion_follows
          (fun region _ _ _ acted => by
            have kept := region.restore_follows image.bytes
            rwa [Except.ok.inj acted] at kept) restored
        cases outcome with
        | error fault =>
            cases rest
            exact start
        | ok _ => exact start.trans (ih rest)
      · rw [if_neg inside] at done
        cases done
        exact .refl _

/-- A restore reports something at most, or then stores the images, and may map the regions after
that. -/
theorem restoreBus_stages {bus after : Bus D} {saved : SaveState} {result : Except Fault Unit}
    (done : restoreBus bus saved = .ok (result, after)) :
    ∃ log, after = { bus with log } ∨
      ∃ outcome middle,
        restoreRegions { bus with log } 0 saved.regions = .ok (outcome, middle) ∧
          (after = middle ∨ after = (middle.applyLayout saved.layout).2) := by
  rw [restoreBus] at done
  split at done
  · cases done
    exact ⟨bus.log, .inl rfl⟩
  · obtain ⟨log, warned⟩ := warnUnmatched_frame bus bus.regions.size
      (saved.regions.drop bus.regions.size)
    dsimp only at done
    rw [warned] at done
    split at done
    · cases done
      exact ⟨log, .inl rfl⟩
    · obtain ⟨⟨outcome, middle⟩, restored, rest⟩ := Outcome.bind_eq_ok_iff.mp done
      refine ⟨log, .inr ⟨outcome, middle, restored, ?_⟩⟩
      cases outcome with
      | error fault =>
          cases rest
          exact .inl rfl
      | ok _ =>
          have mapped : (restoreLayout middle saved.layout).2 = after :=
            congrArg Prod.snd (Except.ok.inj rest)
          rw [restoreLayout] at mapped
          split at mapped
          · exact .inl mapped.symm
          · exact .inr mapped.symm

/-- The images from the index on are in their regions, and no other region has changed. -/
structure RegionsResumed (bus : Bus D) (index : Nat) (images : List RegionImage)
    (regions : Array (Region D)) : Prop where
  kept : ∀ id, id < index ∨ images[id - index]? = none → regions[id]? = bus.regions[id]?
  resumed : ∀ (place : Nat) (region : Region D) (image : RegionImage),
    bus.regions[index + place]? = some region → images[place]? = some image →
      ∃ next, regions[index + place]? = some next ∧ region.Resumes image.bytes next

/-- An image of the right size goes into its region, and the rest goes on from there. -/
theorem restoreRegions_step {bus : Bus D} {index : Nat} {region : Region D} {image : RegionImage}
    (attached : bus.regions[index]? = some region) (filled : region.Filled)
    (sized : image.bytes.size = region.range.size) (images : List RegionImage) :
    ∃ next log, restoreRegions bus index (image :: images) =
        restoreRegions { bus.withRegion index next with log } (index + 1) images ∧
      region.Resumes image.bytes next ∧ region.Follows next := by
  have inside : index < bus.regions.size := (Array.getElem?_eq_some_iff.mp attached).1
  obtain ⟨next, effects, restored, resumes, quiet⟩ := Region.restore_sized filled sized
  obtain ⟨log, absorbed⟩ := quiet (bus.withRegion index next)
  have follows := region.restore_follows image.bytes
  rw [restored] at follows
  refine ⟨next, log, ?_, resumes, follows⟩
  rw [restoreRegions, if_pos inside, Bus.onRegion_attached attached, Outcome.pure_eq_ok, restored,
    Outcome.map_ok, Outcome.bind_ok]
  dsimp only
  rw [absorbed]

/-- The first image and the others make up all images. -/
theorem RegionsResumed.cons {bus : Bus D} {index : Nat} {region next : Region D}
    {image : RegionImage} {images : List RegionImage} {regions : Array (Region D)}
    {log : Array Event} (attached : bus.regions[index]? = some region)
    (resumes : region.Resumes image.bytes next)
    (rest : RegionsResumed { bus.withRegion index next with log } (index + 1) images regions) :
    RegionsResumed bus index (image :: images) regions where
  kept id other := by
    have past : index ≠ id := by
      intro same
      subst same
      simp at other
    have skipped : id < index + 1 ∨ images[id - (index + 1)]? = none := by
      rcases other with before | missing
      · exact .inl (by omega)
      · by_cases before : id < index + 1
        · exact .inl before
        · have shifted : id - index = id - (index + 1) + 1 := by omega
          rw [shifted, List.getElem?_cons_succ] at missing
          exact .inr missing
    rw [rest.kept id skipped]
    exact (Bus.getElem?_withRegion attached next id).trans (if_neg past)
  resumed place other saved found present := by
    cases place with
    | zero =>
        cases present
        cases attached.symm.trans found
        refine ⟨next, ?_, resumes⟩
        rw [Nat.add_zero, rest.kept index (.inl (Nat.lt_succ_self index))]
        exact (Bus.getElem?_withRegion attached next index).trans (if_pos rfl)
    | succ place =>
        have later : index ≠ index + 1 + place := by omega
        rw [← Nat.add_assoc, Nat.add_right_comm] at found ⊢
        apply rest.resumed place other saved _ present
        rw [← found]
        exact (Bus.getElem?_withRegion attached next _).trans (if_neg later)

/-- Images of the right sizes go into their regions one after another. -/
theorem restoreRegions_sized (images : List RegionImage) (index : Nat) (bus : Bus D)
    (filled : bus.Filled)
    (sized : ∀ (place : Nat) (region : Region D) (image : RegionImage),
      bus.regions[index + place]? = some region → images[place]? = some image →
        image.bytes.size = region.range.size) :
    ∃ regions log, restoreRegions bus index images = .ok (.ok (), { bus with regions, log }) ∧
      RegionsResumed bus index images regions := by
  induction images generalizing index bus with
  | nil =>
      refine ⟨bus.regions, bus.log, by rw [restoreRegions], ?_⟩
      exact ⟨fun _ _ => rfl, by simp⟩
  | cons image images ih =>
      by_cases inside : index < bus.regions.size
      · have attached := Array.getElem?_eq_getElem inside
        obtain ⟨next, log, step, resumes, follows⟩ :=
          restoreRegions_step attached (filled attached) (sized 0 _ _ attached rfl) images
        have changed := Bus.getElem?_withRegion attached next
        have start := Bus.withRegion_follows attached follows
        have reported : Bus.Follows (bus.withRegion index next)
            { bus.withRegion index next with log } := .of_frame rfl rfl rfl
        obtain ⟨regions, last, done, rest⟩ :=
          ih (index + 1) _ (filled.follows (start.trans reported)) (by
            intro place region other found present
            change (bus.withRegion index next).regions[index + 1 + place]? = some region at found
            have later : index ≠ index + 1 + place := by omega
            rw [changed, if_neg later, Nat.add_assoc, Nat.add_comm 1] at found
            exact sized (place + 1) region other found present)
        exact ⟨regions, last, step.trans done, rest.cons attached resumes⟩
      · refine ⟨bus.regions, bus.log, by rw [restoreRegions, if_neg inside]; rfl,
          fun _ _ => rfl, ?_⟩
        intro place region other found present
        have missing : bus.regions[index + place]? = none :=
          Array.getElem?_eq_none (by omega)
        cases missing.symm.trans found

end Machine

/-- What a bus is after it took over a save state: the images are in their regions, and the table
is the layout unless that is empty. -/
structure Bus.Restored (bus : Bus D) (saved : SaveState) (after : Bus D) : Prop where
  frame : ∃ regions dispatch log, after = { bus with regions, dispatch, log }
  size : after.regions.size = bus.regions.size
  resumed : ∀ {index : Nat} {region : Region D} {image : RegionImage},
    bus.regions[index]? = some region → saved.regions[index]? = some image →
      ∃ next, after.regions[index]? = some next ∧ region.Resumes image.bytes next
  unmatched : ∀ {index : Nat}, saved.regions[index]? = none →
    after.regions[index]? = bus.regions[index]?
  owner : ∀ address, after.owner address =
    if saved.layout = [] then bus.owner address else MappedSpan.lastOver saved.layout address

namespace Machine

/-- A bus takes over what it accepts, and reports the first fault of what it does not accept. -/
theorem restoreBus_cases {bus : Bus D}
    (filled : bus.Filled)
    (saved : SaveState) :
    (∃ after, bus.Accepts saved ∧ bus.Restored saved after ∧
        restoreBus bus saved = .ok (.ok (), after)) ∨
      ∃ fault log, bus.FirstFault saved fault ∧
        restoreBus bus saved = .ok (.error fault, { bus with log }) := by
  rw [restoreBus]
  rcases checkRegions_cases bus.regions.toList saved.regions 0 with ⟨images, passes⟩ |
    ⟨fault, place, region, image, attached, present, earlier, mismatch, fails⟩
  · simp only [Array.getElem?_toList] at images
    obtain ⟨log, warned⟩ := warnUnmatched_frame bus bus.regions.size
      (saved.regions.drop bus.regions.size)
    have unwarned : Bus.checkLayout { bus with log } saved.layout =
        bus.checkLayout saved.layout := rfl
    rw [passes]
    dsimp only
    rw [warned, unwarned]
    rcases bus.checkLayout_cases saved.layout with ⟨admitted, accepted⟩ |
      ⟨fault, earlier, span, later, order, passed, refuses, refused⟩
    · obtain ⟨regions, last, done, kept, resumed⟩ :=
        restoreRegions_sized saved.regions 0 { bus with log } filled
          fun place region image found imaged => by
            rw [Nat.zero_add] at found
            exact (images place region image found imaged).2
      simp only [Nat.zero_add] at resumed
      have reported : Bus.Follows bus { bus with log } := .of_frame rfl rfl rfl
      have follows : Bus.Follows bus { bus with regions, log := last } :=
        reported.trans (restoreRegions_follows done)
      have checked : ∀ span ∈ saved.layout,
          Bus.Admits { bus with regions, log := last } span :=
        fun span member => (admitted span member).kept (.of_outlines follows.outlines)
      obtain ⟨dispatch, final, applied, owners⟩ := restoreLayout_checked checked
      rw [accepted, done, Outcome.bind_ok]
      dsimp only
      rw [applied]
      refine .inl ⟨{ bus with regions, dispatch, log := final }, ⟨images, admitted⟩, ?_, rfl⟩
      refine ⟨⟨_, _, _, rfl⟩, follows.size, ?_, ?_, owners⟩
      · exact fun {index region image} => resumed index region image
      · exact fun {index} missing => kept index (.inr missing)
    · rw [refused]
      exact .inr ⟨fault, log, .layout images order passed refuses, rfl⟩
  · simp only [Array.getElem?_toList] at attached earlier
    rw [Nat.zero_add] at mismatch
    rw [fails]
    exact .inr ⟨fault, bus.log, .image attached present earlier mismatch, rfl⟩

/-- A restore is all or nothing. It fails exactly if an image does not fit the region at its place
or a span is not admitted; then it reports what is wrong first, and only the log has changed. If it
succeeds, the processor and the bus are as the save state describes them, and nothing else has
changed. Storage that fills its range is what every reachable bus has. -/
theorem restore_all_or_nothing (machine : Machine D)
    (filled : machine.bus.Filled) (saved : SaveState) :
    ∃ result after, machine.restore saved = .ok (result, after) ∧
      ((∃ fault, result = .error fault) ↔
        (∃ (index : Nat) (region : Region D) (image : RegionImage),
          machine.bus.regions[index]? = some region ∧ saved.regions[index]? = some image ∧
            (region.name ≠ image.name ∨ image.bytes.size ≠ region.range.size)) ∨
          ∃ span ∈ saved.layout, ¬machine.bus.Admits span) ∧
      (∀ fault, result = .error fault → machine.bus.FirstFault saved fault ∧
        ∃ log, after = { machine with bus := { machine.bus with log } }) ∧
      (result = .ok () → machine.bus.Restored saved after.bus ∧
        after = { machine with processor := .ofImage saved.processor, bus := after.bus }) := by
  obtain ⟨processor, bus, irqLines, nmiLines, trace⟩ := machine
  rw [restore]
  rcases restoreBus_cases filled saved with ⟨after, accepts, restored, done⟩ |
    ⟨fault, log, first, done⟩
  · rw [done]
    refine ⟨.ok (), _, rfl, ⟨nofun, ?_⟩, nofun, fun _ => ⟨restored, rfl⟩⟩
    rintro (⟨index, region, image, attached, present, differs⟩ | ⟨span, member, refused⟩)
    · have fits := accepts.images index region image attached present
      exact absurd differs (by simp [fits.1, fits.2])
    · exact absurd (accepts.layout span member) refused
  · rw [done]
    refine ⟨.error fault, _, rfl, ⟨fun _ => ?_, fun _ => ⟨fault, rfl⟩⟩, ?_, nofun⟩
    · cases first with
      | image attached present _ mismatch =>
          refine .inl ⟨_, _, _, attached, present, ?_⟩
          cases mismatch with
          | name differs => exact .inl differs
          | size _ differs => exact .inr differs
      | layout _ order _ refuses =>
          exact .inr ⟨_, by rw [order]; simp, refuses.not_admits⟩
    · rintro _ ⟨⟩
      exact ⟨first, log, rfl⟩

/-- A page that can be written and one that cannot, at the ends of the address space. -/
def twoPages : Machine Unpopulated :=
  ofBus ((Bus.empty.add (.ram "low" (.page 0) 0)).2.add (.rom "high" (.page 0xff) 0)).2 false

/-- Other bytes for the lower page. -/
def lowImage : RegionImage := ⟨"low", .replicate 256 1⟩

/-- A save state for the two pages, with another program counter. -/
def pagesSaved (images : List RegionImage) (layout : List MappedSpan) : SaveState :=
  ⟨{ Processor.initial.image with pc := 0x1234 }, images, layout⟩

theorem twoPages_filled : twoPages.bus.Filled :=
  ((Bus.sound_empty.add (Region.filled_ram _ _ _)).add (Region.filled_rom _ _ _)).filled

/-- The pages are attached in this order. -/
theorem twoPages_regions : twoPages.bus.regions =
    #[.ram "low" (.page 0) 0, .rom "high" (.page 0xff) 0] := by
  change ((Bus.empty.add _).2.add _).2.regions = _
  rw [Bus.add_regions, Bus.add_regions]
  rfl

theorem twoPages_low : twoPages.bus.regions[0]? = some (.ram "low" (.page 0) 0) := by
  rw [twoPages_regions]
  rfl

theorem twoPages_high : twoPages.bus.regions[1]? = some (.rom "high" (.page 0xff) 0) := by
  rw [twoPages_regions]
  rfl

/-- The image of the lower page fits, whatever comes behind it. -/
theorem lowImage_fitsAt (images : List RegionImage) (layout : List MappedSpan) :
    twoPages.bus.FitsAt (pagesSaved (lowImage :: images) layout) 0 := by
  intro region image attached present
  cases twoPages_low.symm.trans attached
  cases present
  exact ⟨rfl, Array.size_replicate⟩

/-- The image of the lower page fits by itself. -/
theorem lowImage_fits (layout : List MappedSpan) (index : Nat) :
    twoPages.bus.FitsAt (pagesSaved [lowImage] layout) index := by
  cases index with
  | zero => exact lowImage_fitsAt [] layout
  | succ index =>
      intro region image attached present
      cases present

/-- The upper page may be mapped over its range. -/
theorem twoPages_admits : twoPages.bus.Admits ⟨1, 0xff00, 256⟩ :=
  ⟨_, twoPages_high, by decide, by decide, by decide⟩

/-- The second image has another name. The second of two spans names a region that is not there. The
third save state is shorter than the machine, and its layout leaves the lower page out. -/
theorem restore_two_pages :
    (∃ log, twoPages.restore (pagesSaved [lowImage, ⟨"rom", .replicate 256 1⟩] []) =
      .ok (.error (.regionMismatch 1 "rom" "high"),
        { twoPages with bus := { twoPages.bus with log } })) ∧
    (∃ log, twoPages.restore (pagesSaved [lowImage] [⟨1, 0xff00, 256⟩, ⟨2, 0, 256⟩]) =
      .ok (.error (.unknownRegion 2), { twoPages with bus := { twoPages.bus with log } })) ∧
    ∃ processor bus, twoPages.restore (pagesSaved [lowImage] [⟨1, 0xff00, 256⟩]) =
        .ok (.ok (), { twoPages with processor, bus }) ∧
      processor.registers.pc = 0x1234 ∧
      bus.regions[0]?.map Region.bytes = some lowImage.bytes ∧
      bus.regions[1]? = some (.rom "high" (.page 0xff) 0) ∧
      bus.owner 0 = none ∧ bus.owner 0xff00 = some 1 := by
  refine ⟨?_, ?_, ?_⟩
  · obtain ⟨result, after, done, refused, failed, _⟩ := restore_all_or_nothing twoPages
      twoPages_filled (pagesSaved [lowImage, ⟨"rom", .replicate 256 1⟩] [])
    obtain ⟨fault, rfl⟩ := refused.mpr (.inl ⟨1, _, _, twoPages_high, rfl, .inl (by decide)⟩)
    obtain ⟨first, log, rfl⟩ := failed fault rfl
    have earlier : ∀ place < 1, twoPages.bus.FitsAt
        (pagesSaved [lowImage, ⟨"rom", .replicate 256 1⟩] []) place := by
      intro place below
      obtain rfl : place = 0 := by omega
      exact lowImage_fitsAt _ _
    cases first.unique (.image twoPages_high rfl earlier (.name (by decide)))
    exact ⟨log, done⟩
  · obtain ⟨result, after, done, refused, failed, _⟩ := restore_all_or_nothing twoPages
      twoPages_filled (pagesSaved [lowImage] [⟨1, 0xff00, 256⟩, ⟨2, 0, 256⟩])
    have stray : twoPages.bus.Refuses ⟨2, 0, 256⟩ (.unknownRegion 2) := by
      refine .unknown ?_
      rw [twoPages_regions]
      rfl
    obtain ⟨fault, rfl⟩ :=
      refused.mpr (.inr ⟨⟨2, 0, 256⟩, by simp [pagesSaved], stray.not_admits⟩)
    obtain ⟨first, log, rfl⟩ := failed fault rfl
    have passed : ∀ before ∈ [⟨1, 0xff00, 256⟩], twoPages.bus.Admits before := by
      simpa using twoPages_admits
    cases first.unique (.layout (lowImage_fits _) rfl passed stray)
    exact ⟨log, done⟩
  · obtain ⟨result, after, done, _, failed, restored⟩ := restore_all_or_nothing twoPages
      twoPages_filled (pagesSaved [lowImage] [⟨1, 0xff00, 256⟩])
    cases result with
    | error fault =>
        refine absurd ⟨lowImage_fits _, ?_⟩ (failed fault rfl).1.not_accepts
        intro span member
        cases List.mem_singleton.mp member
        exact twoPages_admits
    | ok _ =>
        obtain ⟨taken, same⟩ := restored rfl
        rw [same] at done
        obtain ⟨next, present, resumes⟩ := taken.resumed twoPages_low rfl
        refine ⟨_, after.bus, done, rfl, ?_, ?_, taken.owner 0, taken.owner 0xff00⟩
        · rw [present, Option.map_some, resumes.storage (by decide)]
        · exact (taken.unmatched rfl).trans twoPages_high

end Machine

end EightBit
