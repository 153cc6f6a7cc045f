import EightBit.Machine.Config
import EightBit.Proofs.Bus.Layers
import EightBit.Proofs.Machine.RoundTrip

/-
Machines that are built from a description. The first entry that cannot be a region is reported. If
there is none, every address shows the fill of the last entry that covers it, under the place of
that entry in the list.
-/

namespace EightBit

open Outcome

namespace RegionConfig

/-- The address lies in the described range. -/
def Covers (entry : RegionConfig) (address : Address) : Prop :=
  entry.start.toNat ≤ address.toNat ∧ address.toNat < entry.start.toNat + entry.size.toNat

instance (entry : RegionConfig) (address : Address) : Decidable (entry.Covers address) :=
  inferInstanceAs (Decidable (_ ∧ _))

/-- What a save state keeps of the region as it is built. -/
def image (entry : RegionConfig) : RegionImage :=
  ⟨entry.name, Array.replicate entry.size.toNat entry.fill⟩

/-- The entry is a region: storage that ends within the address space. -/
structure Accepted (entry : RegionConfig) : Prop where
  fits : entry.start.toNat + entry.size.toNat ≤ 65536
  storage : entry.kind ≠ .io

/-- What is reported of an entry that is no region. The range counts before the kind. -/
inductive Refused (entry : RegionConfig) : Fault → Prop
  | past (past : 65536 < entry.start.toNat + entry.size.toNat) :
      Refused entry (.invalidRange entry.start entry.size)
  | io (fits : entry.start.toNat + entry.size.toNat ≤ 65536) (io : entry.kind = .io) :
      Refused entry (.configuredIo entry.name)

variable {entry : RegionConfig} {D : Type}

/-- An entry is accepted or refused. -/
theorem accepted_or_refused (entry : RegionConfig) :
    entry.Accepted ∨ ∃ fault, entry.Refused fault := by
  by_cases fits : entry.start.toNat + entry.size.toNat ≤ 65536
  · by_cases io : entry.kind = .io
    · exact .inr ⟨_, .io fits io⟩
    · exact .inl ⟨fits, io⟩
  · exact .inr ⟨_, .past (Nat.lt_of_not_le fits)⟩

/-- An entry is refused for ending past the address space, or for its kind. -/
theorem Refused.past_or_io {fault : Fault} (refused : entry.Refused fault) :
    65536 < entry.start.toNat + entry.size.toNat ∨ entry.kind = .io := by
  cases refused with
  | past past => exact .inl past
  | io fits io => exact .inr io

/-- No region is made from an entry that is refused. -/
theorem Refused.region {fault : Fault} (refused : entry.Refused fault) :
    (entry.region : Except Fault (Region D)) = .error fault := by
  obtain ⟨name, kind, start, size, fill⟩ := entry
  cases refused with
  | past past => rw [region, AddressRange.make, dif_neg (Nat.not_le_of_lt past), bind_error]
  | io fits io =>
      cases io
      rw [region, AddressRange.make, dif_pos fits, bind_ok]
      rfl

/-- The region that an entry describes. -/
structure Describes (entry : RegionConfig) (region : Region D) : Prop where
  block : Bus.IsBlock region entry.kind entry.fill
  name : region.name = entry.name
  size : region.range.size = entry.size.toNat
  covers : ∀ address, region.range.containsAddress address ↔ entry.Covers address

/-- An accepted entry makes the region that it describes. -/
theorem Accepted.region (accepted : entry.Accepted) :
    ∃ region : Region D, entry.region = .ok region ∧ entry.Describes region := by
  obtain ⟨name, kind, start, size, fill⟩ := entry
  obtain ⟨fits, storage⟩ := accepted
  rw [RegionConfig.region, AddressRange.make, dif_pos fits, bind_ok]
  cases kind with
  | ram => exact ⟨_, rfl, Bus.isBlock_ram .., rfl, rfl, fun _ => AddressRange.containsAddress_iff⟩
  | rom => exact ⟨_, rfl, Bus.isBlock_rom .., rfl, rfl, fun _ => AddressRange.containsAddress_iff⟩
  | io => exact absurd rfl storage

end RegionConfig

namespace MachineConfig

/-- The last entry that covers the address, and its place in the list. -/
structure Answers (entries : List RegionConfig) (address : Address) (id : Nat)
    (entry : RegionConfig) : Prop where
  listed : entries[id]? = some entry
  covers : entry.Covers address
  last : ∀ other ∈ entries.drop (id + 1), ¬other.Covers address

/-- The fault of the first entry that is no region. -/
inductive FirstRefused : List RegionConfig → Fault → Prop
  | here {entry : RegionConfig} {later : List RegionConfig} {fault : Fault}
      (refused : entry.Refused fault) : FirstRefused (entry :: later) fault
  | later {entry : RegionConfig} {later : List RegionConfig} {fault : Fault}
      (accepted : entry.Accepted) (rest : FirstRefused later fault) :
      FirstRefused (entry :: later) fault

variable {entries : List RegionConfig} {entry : RegionConfig} {address : Address}

/-- Of a longer list the last entry answers if it covers the address, and otherwise the entry that
answered before. -/
theorem Answers.of_concat {id : Nat} {other : RegionConfig}
    (answers : Answers (entries ++ [entry]) address id other) :
    if entry.Covers address then id = entries.length ∧ other = entry
    else Answers entries address id other := by
  obtain ⟨listed, covers, last⟩ := answers
  have inside := (List.getElem?_eq_some_iff.mp listed).1
  rw [List.length_append, List.length_singleton] at inside
  rcases Nat.lt_or_eq_of_le (Nat.le_of_lt_succ inside) with before | rfl
  · rw [List.getElem?_append_left before] at listed
    rw [List.drop_append_of_le_length before] at last
    rw [if_neg (last entry (List.mem_append_right _ List.mem_cons_self))]
    exact ⟨listed, covers, fun next later => last next (List.mem_append_left _ later)⟩
  · rw [List.getElem?_concat_length, Option.some.injEq] at listed
    subst listed
    rw [if_pos covers]
    exact ⟨rfl, rfl⟩

/-- Either all entries are accepted, or one is the first to be refused. -/
theorem accepted_or_firstRefused (entries : List RegionConfig) :
    (∀ entry ∈ entries, entry.Accepted) ∨ ∃ fault, FirstRefused entries fault := by
  induction entries with
  | nil => exact .inl nofun
  | cons entry entries ih =>
      rcases entry.accepted_or_refused with accepted | ⟨fault, refused⟩
      · rcases ih with others | ⟨fault, later⟩
        · exact .inl (List.forall_mem_cons.mpr ⟨accepted, others⟩)
        · exact .inr ⟨fault, .later accepted later⟩
      · exact .inr ⟨fault, .here refused⟩

/-- The first entry that is refused is refused. -/
theorem FirstRefused.exists_refused {fault : Fault} (first : FirstRefused entries fault) :
    ∃ entry ∈ entries, entry.Refused fault := by
  induction first with
  | here refused => exact ⟨_, List.mem_cons_self, refused⟩
  | later accepted rest ih =>
      obtain ⟨entry, member, refused⟩ := ih
      exact ⟨entry, List.mem_cons_of_mem _ member, refused⟩

/-- If some entry covers the address, there is a last one that does. -/
theorem exists_answers (covered : ∃ entry ∈ entries, entry.Covers address) :
    ∃ id entry, Answers entries address id entry := by
  induction entries with
  | nil =>
      obtain ⟨_, member, _⟩ := covered
      exact absurd member List.not_mem_nil
  | cons entry entries ih =>
      by_cases behind : ∃ other ∈ entries, other.Covers address
      · obtain ⟨id, found, answers⟩ := ih behind
        exact ⟨id + 1, found, answers.listed, answers.covers, answers.last⟩
      · obtain ⟨other, member, covers⟩ := covered
        have first : other = entry := (List.mem_cons.mp member).resolve_right fun later =>
          behind ⟨other, later, covers⟩
        subst first
        exact ⟨0, other, rfl, covers, fun next later inside => behind ⟨next, later, inside⟩⟩

end MachineConfig

namespace Bus

variable {D : Type}

open MachineConfig

/-- The entries are added one after the other. -/
def addAll (entries : List RegionConfig) (bus : Bus D) : Except Fault (Bus D) :=
  entries.foldlM (fun (bus : Bus D) entry => do
    let region ← entry.region
    return (bus.add region).2) bus

/-- The first entry is added first. -/
theorem addAll_cons (entry : RegionConfig) (entries : List RegionConfig) (bus : Bus D) :
    addAll (entry :: entries) bus =
      entry.region >>= fun region => addAll entries (bus.add region).2 := by
  rw [addAll, List.foldlM_cons]
  cases (entry.region : Except Fault (Region D)) <;> rfl

variable {entries : List RegionConfig} {entry : RegionConfig}

/-- The fault is that of the first entry that is refused. -/
theorem addAll_refused {fault : Fault} (first : FirstRefused entries fault) (bus : Bus D) :
    bus.addAll entries = .error fault := by
  induction first generalizing bus with
  | here refused => rw [addAll_cons, refused.region, bind_error]
  | later accepted rest ih =>
      obtain ⟨region, described, _⟩ := accepted.region
      rw [addAll_cons, described]
      exact ih _

variable [Peripheral D]

/-- The bus shows the entries that have been added to it. -/
structure Built (entries : List RegionConfig) (bus : Bus D) : Prop where
  sound : bus.Sound
  only : bus.StorageOnly
  images : (bus.regions.toList.map fun region => ⟨region.name, region.bytes⟩) =
    entries.map RegionConfig.image
  covered : ∀ {address id entry}, Answers entries address id entry →
    bus.owner address = some id ∧ bus.ownerKind? address = some entry.kind ∧
      bus.peek address = .ok entry.fill
  uncovered : ∀ {address}, (∀ entry ∈ entries, ¬entry.Covers address) → bus.owner address = none

/-- No entries build the empty bus. -/
theorem built_empty : Built [] (empty : Bus D) where
  sound := sound_empty
  only := storageOnly_empty
  images := rfl
  covered answers := nomatch answers.listed
  uncovered _ := Dispatch.owner_empty _

variable {bus : Bus D}

/-- There are as many regions as entries. -/
theorem Built.size (built : Built entries bus) : bus.regions.size = entries.length := by
  simpa using congrArg List.length built.images

/-- The region that is added answers where its entry covers the address, and elsewhere nothing
changes. -/
theorem Built.add (built : Built entries bus) {region : Region D}
    (describes : entry.Describes region) : Built (entries ++ [entry]) (bus.add region).2 where
  sound := built.sound.add describes.block.filled
  only := built.only.add describes.block
  images := by
    rw [add_regions, Array.toList_push, List.map_append, List.map_append, built.images,
      List.map_singleton, List.map_singleton, RegionConfig.image, describes.name,
      Region.bytes_storage describes.block.only, describes.block.stored, describes.size]
  covered {address id other} answers := by
    have answering := answers.of_concat
    rw [owner_add, ownerKind?_add built.sound, peek_add built.sound describes.block]
    by_cases covers : entry.Covers address
    · have inside := (describes.covers address).mpr covers
      rw [if_pos covers] at answering
      obtain ⟨rfl, rfl⟩ := answering
      rw [if_pos inside, if_pos inside, if_pos inside, built.size, describes.block.kind]
      exact ⟨rfl, rfl, rfl⟩
    · have outside := mt (describes.covers address).mp covers
      rw [if_neg covers] at answering
      rw [if_neg outside, if_neg outside, if_neg outside]
      exact built.covered answering
  uncovered {address} free := by
    have outside : ¬region.range.containsAddress address := fun inside =>
      free entry (List.mem_append_right _ List.mem_cons_self) ((describes.covers address).mp inside)
    rw [owner_add, if_neg outside]
    exact built.uncovered fun other member => free other (List.mem_append_left _ member)

/-- An address is a gap if no entry covers it. -/
theorem Built.gap_iff (built : Built entries bus) (address : Address) :
    bus.Gap address ↔ ∀ entry ∈ entries, ¬entry.Covers address := by
  refine ⟨fun gap entry member covers => ?_, built.uncovered⟩
  obtain ⟨id, found, answers⟩ := exists_answers ⟨entry, member, covers⟩
  cases gap.symm.trans (built.covered answers).1

/-- An address is no gap exactly if an entry covers it. -/
theorem Built.not_gap_iff (built : Built entries bus) (address : Address) :
    ¬bus.Gap address ↔ ∃ entry ∈ entries, entry.Covers address := by
  rw [built.gap_iff]
  simp

/-- Accepted entries are added behind those that were built before. -/
theorem Built.addAll {done : List RegionConfig} (built : Built done bus)
    (accepted : ∀ entry ∈ entries, entry.Accepted) :
    ∃ after, bus.addAll entries = .ok after ∧ Built (done ++ entries) after := by
  induction entries generalizing done bus with
  | nil => exact ⟨bus, rfl, by rwa [List.append_nil]⟩
  | cons entry entries ih =>
      obtain ⟨first, others⟩ := List.forall_mem_cons.mp accepted
      obtain ⟨region, described, describes⟩ := first.region
      obtain ⟨after, added, shows⟩ := ih (built.add describes) others
      refine ⟨after, ?_, by rwa [List.append_cons]⟩
      rw [addAll_cons, described]
      exact added

end Bus

namespace Machine

variable {D : Type}

open MachineConfig

theorem ofConfig_eq (config : MachineConfig) :
    (ofConfig config : Except Fault (Machine D)) =
      Bus.addAll config.regions .empty >>= fun bus => .ok (.ofBus bus config.trace) := rfl

/-- A configuration with a refused entry makes no machine. -/
theorem ofConfig_refused {config : MachineConfig} {fault : Fault}
    (first : FirstRefused config.regions fault) :
    (ofConfig config : Except Fault (Machine D)) = .error fault := by
  rw [ofConfig_eq, Bus.addAll_refused first, bind_error]

variable [Peripheral D]

/-- The machine shows what the description says: at each address the last entry that covers it,
which is read as its fill and is stored to if it is RAM. Addresses that no entry covers are gaps,
and validation finds the lowest one. -/
structure MemoryMap (config : MachineConfig) (machine : Machine D) : Prop where
  covered : ∀ address id entry, Answers config.regions address id entry →
    machine.bus.owner address = some id ∧ machine.bus.peek address = .ok entry.fill ∧
      machine.bus.tryPeek address = .ok (.ok entry.fill) ∧
      ∀ value, ∃ after, machine.bus.write address value = .ok after ∧
        ∀ other, after.tryPeek other = if other = address ∧ entry.kind = .ram then .ok (.ok value)
          else machine.bus.tryPeek other
  uncovered : ∀ address, (∀ entry ∈ config.regions, ¬entry.Covers address) →
    machine.bus.owner address = none ∧
      machine.bus.tryPeek address = .ok (.error (.dispatchGap address))
  saved : machine.save.regions = config.regions.map RegionConfig.image
  valid : machine.bus.validate = .ok () ↔ ∀ address, ∃ entry ∈ config.regions, entry.Covers address
  invalid : ∀ fault, machine.bus.validate = .error fault ↔
    ∃ gap, fault = .dispatchGap gap ∧ (∀ entry ∈ config.regions, ¬entry.Covers gap) ∧
      ∀ lower < gap, ∃ entry ∈ config.regions, entry.Covers lower
  fresh : machine = .ofBus machine.bus config.trace

/-- A machine around what was built has the memory map of its configuration. -/
theorem MemoryMap.of_built {config : MachineConfig} {bus : Bus D}
    (built : bus.Built config.regions) : MemoryMap config (.ofBus bus config.trace) where
  covered address id entry answers := by
    obtain ⟨owned, kind, shown⟩ := built.covered answers
    refine ⟨owned, shown, ?_, built.sound.write_storage built.only kind⟩
    exact (Bus.tryPeek_owned owned).trans (by rw [shown, map_ok])
  uncovered address free := ⟨built.uncovered free, Bus.tryPeek_gap (built.uncovered free)⟩
  saved := built.images
  valid := by
    simp only [← built.not_gap_iff]
    exact bus.validate_eq_ok_iff
  invalid fault := by
    simp only [← built.not_gap_iff, ← built.gap_iff]
    exact bus.validate_eq_error_iff fault
  fresh := rfl

/-- A configuration whose entries are accepted makes a machine with their memory map. -/
theorem ofConfig_accepted {config : MachineConfig}
    (accepted : ∀ entry ∈ config.regions, entry.Accepted) :
    ∃ machine : Machine D, ofConfig config = .ok machine ∧ MemoryMap config machine := by
  obtain ⟨bus, added, shows⟩ := (Bus.built_empty : Bus.Built [] (.empty : Bus D)).addAll accepted
  exact ⟨.ofBus bus config.trace, by rw [ofConfig_eq, added, bind_ok], .of_built shows⟩

/-- A configuration fails with the fault of the first entry that is refused, and with no other. -/
theorem ofConfig_eq_error_iff (config : MachineConfig) (fault : Fault) :
    (ofConfig config : Except Fault (Machine D)) = .error fault ↔
      FirstRefused config.regions fault := by
  refine ⟨fun failed => ?_, ofConfig_refused⟩
  rcases accepted_or_firstRefused config.regions with accepted | ⟨other, first⟩
  · obtain ⟨machine, built, _⟩ := (ofConfig_accepted accepted : ∃ machine : Machine D, _)
    cases built.symm.trans failed
  · have refused : (ofConfig config : Except Fault (Machine D)) = .error other :=
      ofConfig_refused first
    cases refused.symm.trans failed
    exact first

/-- A description with an entry that is no region is refused, and the first such entry is reported.
Any other description is built. -/
theorem ofConfig_builds_memory_map (config : MachineConfig) :
    ((∃ fault, (ofConfig config : Except Fault (Machine D)) = .error fault) ↔
      ∃ entry ∈ config.regions,
        65536 < entry.start.toNat + entry.size.toNat ∨ entry.kind = .io) ∧
    (∀ fault, (ofConfig config : Except Fault (Machine D)) = .error fault ↔
      FirstRefused config.regions fault) ∧
    ∀ machine : Machine D, ofConfig config = .ok machine → MemoryMap config machine := by
  refine ⟨⟨?_, ?_⟩, ofConfig_eq_error_iff config, ?_⟩
  · rintro ⟨fault, failed⟩
    obtain ⟨entry, member, refused⟩ :=
      ((ofConfig_eq_error_iff config fault).mp failed).exists_refused
    exact ⟨entry, member, refused.past_or_io⟩
  · rintro ⟨entry, member, wrong⟩
    rcases accepted_or_firstRefused config.regions with accepted | ⟨fault, first⟩
    · have fine := accepted entry member
      exact (wrong.elim (Nat.not_lt_of_le fine.fits) fine.storage).elim
    · exact ⟨fault, ofConfig_refused first⟩
  · intro machine built
    rcases accepted_or_firstRefused config.regions with accepted | ⟨fault, first⟩
    · obtain ⟨other, same, shows⟩ := (ofConfig_accepted accepted : ∃ other : Machine D, _)
      cases built.symm.trans same
      exact shows
    · cases built.symm.trans (ofConfig_refused first)

/-- RAM below, ROM in the last page, and a region without addresses. -/
def twoBlocks : MachineConfig :=
  ⟨[.ram "ram" 0 0x8000, .rom "os" 0xff00 0x100, .ram "none" 0xffff 0], false⟩

/-- The empty region covers nothing, so the last address is read from the ROM, and the lowest gap is
where the RAM ends. One more entry that runs past the top is reported, and its kind is not. -/
theorem ofConfig_builds_two_blocks :
    (∃ machine : Machine Unpopulated, ofConfig twoBlocks = .ok machine ∧
      machine.bus.owner 0xffff = some 1 ∧ machine.bus.peek 0xffff = .ok 0xff ∧
        machine.bus.validate = .error (.dispatchGap 0x8000)) ∧
    (ofConfig ⟨twoBlocks.regions ++ [⟨"top", .io, 0xffff, 2, 0⟩], false⟩ :
      Except Fault (Machine Unpopulated)) = .error (.invalidRange 0xffff 2) := by
  obtain ⟨refuses, _, builds⟩ := @ofConfig_builds_memory_map Unpopulated _ twoBlocks
  obtain ⟨_, reports, _⟩ := @ofConfig_builds_memory_map Unpopulated _
    ⟨twoBlocks.regions ++ [⟨"top", .io, 0xffff, 2, 0⟩], false⟩
  constructor
  · have fine : ∀ entry ∈ twoBlocks.regions,
        ¬(65536 < entry.start.toNat + entry.size.toNat ∨ entry.kind = .io) := by decide
    cases built : (ofConfig twoBlocks : Except Fault (Machine Unpopulated)) with
    | error fault =>
        obtain ⟨entry, member, wrong⟩ := refuses.mp ⟨fault, built⟩
        exact absurd wrong (fine entry member)
    | ok machine =>
        have shows := builds machine built
        obtain ⟨owned, shown, _⟩ := shows.covered 0xffff 1 (.rom "os" 0xff00 0x100)
          ⟨rfl, by decide, by decide⟩
        refine ⟨machine, rfl, owned, shown, ?_⟩
        refine (shows.invalid _).mpr ⟨0x8000, rfl, by decide, fun lower below => ?_⟩
        have under : lower.toNat < 0x8000 := UInt16.lt_iff_toNat_lt.mp below
        exact ⟨.ram "ram" 0 0x8000, List.mem_cons_self, Nat.zero_le _, under⟩
  · refine (reports _).mpr (.later ?_ (.later ?_ (.later ?_ (.here (.past (by decide))))))
    · exact ⟨by decide, by decide⟩
    · exact ⟨by decide, by decide⟩
    · exact ⟨by decide, by decide⟩

end Machine

end EightBit
