import EightBit.Proofs.Address.Range
import EightBit.Proofs.Form.Fields

/-
The written forms of configurations and save states are faithful. What is encoded is decoded to the
same value, in each way to write a structure down; a field that is left out has its usual value; and
a range is decoded exactly if its two numbers are in their limits and fit into the address space.
-/

namespace EightBit

open Form

variable {α : Type} [Coded α]

namespace Form

/-- A number below the limit is read as it stands. -/
theorem natural_of_lt {limit n : Nat} (inside : n < limit) :
    (integer n).natural limit = .ok n := by
  have limits : 0 ≤ (n : Int) ∧ (n : Int) < limit := ⟨Int.natCast_nonneg n, by omega⟩
  rw [natural, if_pos limits]
  rfl

/-- Only whole numbers below the limit are taken. -/
theorem natural_eq_ok_iff {form : Form} {limit n : Nat} :
    form.natural limit = .ok n ↔ form = integer n ∧ n < limit := by
  refine ⟨fun taken => ?_, fun ⟨same, inside⟩ => same ▸ natural_of_lt inside⟩
  cases form with
  | integer value =>
      rw [natural] at taken
      split at taken
      · rename_i limits
        cases taken
        have same : (value.toNat : Int) = value := Int.toNat_of_nonneg limits.1
        exact ⟨congrArg integer same.symm, by omega⟩
      · cases taken
  | _ => cases taken

end Form

/-- A number of fixed width is decoded from itself alone. -/
theorem decode_number_iff {β : Type} {limit : Nat} {toNat : β → Nat} {ofNat : Nat → β} {form : Form}
    {value : β} (inside : toNat value < limit) (back : ofNat (toNat value) = value)
    (forth : ∀ n < limit, toNat (ofNat n) = n) :
    (do return ofNat (← form.natural limit)) = Except.ok value ↔ form = integer (toNat value) := by
  rw [Outcome.bind_eq_ok_iff]
  constructor
  · rintro ⟨n, taken, built⟩
    obtain ⟨same, below⟩ := natural_eq_ok_iff.mp taken
    cases built
    rw [same, forth n below]
  · rintro rfl
    exact ⟨toNat value, natural_of_lt inside, congrArg Except.ok back⟩

/-- A byte has one form. -/
theorem decode_byte_iff {form : Form} {value : UInt8} :
    decode form = .ok value ↔ form = encode value :=
  decode_number_iff value.toNat_lt UInt8.ofNat_toNat fun _ => UInt8.toNat_ofNat_of_lt'

theorem decode_word_iff {form : Form} {value : UInt16} :
    decode form = .ok value ↔ form = encode value :=
  decode_number_iff value.toNat_lt UInt16.ofNat_toNat fun _ => UInt16.toNat_ofNat_of_lt'

theorem decode_size_iff {form : Form} {value : UInt32} :
    decode form = .ok value ↔ form = encode value :=
  decode_number_iff value.toNat_lt UInt32.ofNat_toNat fun _ => UInt32.toNat_ofNat_of_lt'

theorem decode_count_iff {form : Form} {value : UInt64} :
    decode form = .ok value ↔ form = encode value :=
  decode_number_iff value.toNat_lt UInt64.ofNat_toNat fun _ => UInt64.toNat_ofNat_of_lt'

/-- A value that is written without parts has one form only. -/
theorem Faithful.of_single {fits : α → Prop} (single : ∀ value : α, (encode value).Single)
    (returns : ∀ value : α, decode (encode value) = .ok value ↔ fits value) : Faithful α fits where
  returns := returns
  reads value form fit writes := by
    rw [writes.eq_of_single (single value)]
    exact (returns value).mpr fit

/-- Truth values come back as they were written. -/
theorem bool_faithful : Faithful Bool fun _ => True :=
  .of_single (fun _ => trivial) fun _ => iff_of_true rfl trivial

/-- Texts come back as they were written. -/
theorem string_faithful : Faithful String fun _ => True :=
  .of_single (fun _ => trivial) fun _ => iff_of_true rfl trivial

theorem byte_faithful : Faithful UInt8 fun _ => True :=
  .of_single (fun _ => trivial) fun _ => iff_of_true (decode_byte_iff.mpr rfl) trivial

theorem word_faithful : Faithful UInt16 fun _ => True :=
  .of_single (fun _ => trivial) fun _ => iff_of_true (decode_word_iff.mpr rfl) trivial

theorem size_faithful : Faithful UInt32 fun _ => True :=
  .of_single (fun _ => trivial) fun _ => iff_of_true (decode_size_iff.mpr rfl) trivial

theorem count_faithful : Faithful UInt64 fun _ => True :=
  .of_single (fun _ => trivial) fun _ => iff_of_true (decode_count_iff.mpr rfl) trivial

/-- Indices may have any size, but only those below the limit can be read again. -/
theorem index_faithful : Faithful Nat (· < UInt64.size) :=
  .of_single (fun _ => trivial) fun _ => natural_eq_ok_iff.trans (and_iff_right rfl)

/-- Kinds of regions come back as they were written. -/
theorem kind_faithful : Faithful RegionKind fun _ => True :=
  .of_single (fun _ => trivial) fun kind => by cases kind <;> exact iff_of_true rfl trivial

section Lists

variable {fits : α → Prop}

/-- A list comes back exactly if each of its values does. -/
theorem decode_encode_list {values : List α} : decode (encode values) = .ok values ↔
    ∀ value ∈ values, decode (encode value) = .ok value := by
  change (values.map encode).mapM decode = .ok values ↔ _
  induction values with
  | nil => exact ⟨fun _ => nofun, fun _ => rfl⟩
  | cons value values ih =>
      rw [List.map_cons, List.mapM_cons, List.forall_mem_cons, ← ih, Outcome.bind_eq_ok_iff]
      constructor
      · rintro ⟨first, decoded, rest⟩
        obtain ⟨others, same, done⟩ := Outcome.bind_eq_ok_iff.mp rest
        cases done
        exact ⟨decoded, same⟩
      · rintro ⟨decoded, same⟩
        exact ⟨value, decoded, Outcome.bind_eq_ok_iff.mpr ⟨values, same, rfl⟩⟩

/-- A list comes back if its items do. -/
theorem Faithful.reads_list (faithful : Faithful α fits) {values : List α} {form : Form}
    (fit : ∀ value ∈ values, fits value) (writes : form.Writes (encode values)) :
    decode form = .ok values := by
  induction values generalizing form with
  | nil =>
      rw [writes.eq_of_single trivial]
      rfl
  | cons value values ih =>
      obtain ⟨item, items, rfl, first, rest⟩ := writes.exists_of_cons
      obtain ⟨fitFirst, fitRest⟩ := List.forall_mem_cons.mp fit
      have decoded := faithful.reads value item fitFirst first
      have others : items.mapM decode = .ok values := ih fitRest rest
      change (item :: items).mapM decode = .ok (value :: values)
      rw [List.mapM_cons, decoded, Outcome.bind_ok, others]
      rfl

/-- Lists of what is faithful are faithful. -/
theorem list_faithful (faithful : Faithful α fits) :
    Faithful (List α) fun values => ∀ value ∈ values, fits value where
  returns _ := decode_encode_list.trans (forall₂_congr fun value _ => faithful.returns value)
  reads _ _ := faithful.reads_list

/-- Arrays of what is faithful are faithful. -/
theorem array_faithful (faithful : Faithful α fun _ => True) :
    Faithful (Array α) fun _ => True := by
  have reads (values : Array α) (form : Form) (writes : form.Writes (encode values)) :
      decode form = .ok values := by
    have listed : decode form = .ok values.toList :=
      faithful.reads_list (fun _ _ => trivial) writes
    change (decode form >>= fun items : List α => pure items.toArray) = _
    rw [listed]
    rfl
  exact ⟨fun values => iff_of_true (reads values _ (.same _)) trivial,
    fun values form _ writes => reads values form writes⟩

end Lists

/-- Every form says itself what it says. -/
theorem Faithful.of_reads {fits : α → Prop}
    (reads : ∀ value form, fits value → form.Writes (encode value) → decode form = .ok value)
    (only : ∀ value : α, decode (encode value) = .ok value → fits value) : Faithful α fits where
  returns value := ⟨only value, fun fit => reads value _ fit (.same _)⟩
  reads := reads

/-- The state of a processor comes back as it was written. -/
theorem processorImage_faithful : Faithful ProcessorImage fun _ => True := by
  refine .of_reads ?_ fun _ _ => trivial
  intro image form _ writes
  have shows := writes.shows (by simp)
  have shape : form.structureOf ["a", "x", "y", "s", "pc", "p", "cycles", "pending"] = .ok () :=
    shows.shape
  have a : form.required 0 "a" = .ok image.a := shows.required rfl byte_faithful trivial
  have x : form.required 1 "x" = .ok image.x := shows.required rfl byte_faithful trivial
  have y : form.required 2 "y" = .ok image.y := shows.required rfl byte_faithful trivial
  have s : form.required 3 "s" = .ok image.s := shows.required rfl byte_faithful trivial
  have pc : form.required 4 "pc" = .ok image.pc := shows.required rfl word_faithful trivial
  have p : form.required 5 "p" = .ok image.p := shows.required rfl byte_faithful trivial
  have cycles : form.required 6 "cycles" = .ok image.cycles :=
    shows.required rfl count_faithful trivial
  have pending : form.optional 7 "pending" 0 = .ok image.pending :=
    shows.optional rfl byte_faithful trivial 0
  simp only [decode, shape, a, x, y, s, pc, p, cycles, pending, Outcome.bind_ok,
    Outcome.pure_eq_ok]

/-- Spans come back if the number of their region fits a word of 64 bits. -/
theorem mappedSpan_faithful : Faithful MappedSpan fun span => span.region < UInt64.size := by
  refine .of_reads ?_ ?_
  · intro span form fits writes
    have shows := writes.shows (by simp)
    have shape : form.structureOf ["region", "start", "size"] = .ok () := shows.shape
    have region : form.required 0 "region" = .ok span.region :=
      shows.required rfl index_faithful fits
    have start : form.required 1 "start" = .ok span.start :=
      shows.required rfl word_faithful trivial
    have size : form.required 2 "size" = .ok span.size := shows.required rfl size_faithful trivial
    simp only [decode, shape, region, start, size, Outcome.bind_ok, Outcome.pure_eq_ok]
  · intro span decoded
    obtain ⟨_, _, rest⟩ := Outcome.bind_eq_ok_iff.mp decoded
    obtain ⟨region, taken, rest⟩ := Outcome.bind_eq_ok_iff.mp rest
    obtain ⟨start, _, rest⟩ := Outcome.bind_eq_ok_iff.mp rest
    obtain ⟨size, _, built⟩ := Outcome.bind_eq_ok_iff.mp rest
    cases built
    exact (index_faithful.returns _).mp taken

/-- The configuration of a region comes back as it was written. -/
theorem regionConfig_faithful : Faithful RegionConfig fun _ => True := by
  refine .of_reads ?_ fun _ _ => trivial
  intro config form _ writes
  have shows := writes.shows (by simp)
  have shape : form.structureOf ["name", "kind", "start", "size", "fill"] = .ok () := shows.shape
  have name : form.required 0 "name" = .ok config.name :=
    shows.required rfl string_faithful trivial
  have kind : form.required 1 "kind" = .ok config.kind := shows.required rfl kind_faithful trivial
  have start : form.required 2 "start" = .ok config.start :=
    shows.required rfl word_faithful trivial
  have size : form.required 3 "size" = .ok config.size := shows.required rfl size_faithful trivial
  have fill : form.optional 4 "fill" 0 = .ok config.fill :=
    shows.optional rfl byte_faithful trivial 0
  simp only [decode, shape, name, kind, start, size, fill, Outcome.bind_ok, Outcome.pure_eq_ok]

/-- The configuration of a machine comes back as it was written. -/
theorem machineConfig_faithful : Faithful MachineConfig fun _ => True := by
  refine .of_reads ?_ fun _ _ => trivial
  intro config form _ writes
  have shows := writes.shows (by simp)
  have shape : form.structureOf ["regions", "trace_instructions"] = .ok () := shows.shape
  have regions : form.required 0 "regions" = .ok config.regions :=
    shows.required rfl (list_faithful regionConfig_faithful) fun _ _ => trivial
  have trace : form.optional 1 "trace_instructions" false = .ok config.trace :=
    shows.optional rfl bool_faithful trivial false
  simp only [decode, shape, regions, trace, Outcome.bind_ok, Outcome.pure_eq_ok]

/-- The bytes of a region come back under its name. -/
theorem regionImage_faithful : Faithful RegionImage fun _ => True := by
  refine .of_reads ?_ fun _ _ => trivial
  intro image form _ writes
  have shows := writes.shows (by simp)
  have shape : form.structureOf ["name", "bytes"] = .ok () := shows.shape
  have name : form.required 0 "name" = .ok image.name :=
    shows.required rfl string_faithful trivial
  have bytes : form.required 1 "bytes" = .ok image.bytes :=
    shows.required rfl (array_faithful byte_faithful) trivial
  simp only [decode, shape, name, bytes, Outcome.bind_ok, Outcome.pure_eq_ok]

/-- The index of every region in the layout has to fit into its 64 bits. -/
theorem saveState_faithful :
    Faithful SaveState fun state => ∀ span ∈ state.layout, span.region < UInt64.size := by
  refine .of_reads ?_ ?_
  · intro state form fits writes
    have shows := writes.shows (by simp)
    have shape : form.structureOf ["registers", "regions", "layout"] = .ok () := shows.shape
    have processor : form.required 0 "registers" = .ok state.processor :=
      shows.required rfl processorImage_faithful trivial
    have regions : form.required 1 "regions" = .ok state.regions :=
      shows.required rfl (list_faithful regionImage_faithful) fun _ _ => trivial
    have layout : form.optional 2 "layout" [] = .ok state.layout :=
      shows.optional rfl (list_faithful mappedSpan_faithful) fits []
    simp only [decode, shape, processor, regions, layout, Outcome.bind_ok, Outcome.pure_eq_ok]
  · intro state decoded
    obtain ⟨_, _, rest⟩ := Outcome.bind_eq_ok_iff.mp decoded
    obtain ⟨processor, _, rest⟩ := Outcome.bind_eq_ok_iff.mp rest
    obtain ⟨regions, _, rest⟩ := Outcome.bind_eq_ok_iff.mp rest
    obtain ⟨layout, taken, built⟩ := Outcome.bind_eq_ok_iff.mp rest
    cases built
    exact ((list_faithful mappedSpan_faithful).returns _).mp taken

/-- The size is written as a number, whatever its width. -/
theorem encode_size {range : AddressRange} {size : UInt32} (counted : range.size = size.toNat) :
    encode range.size = encode size := congrArg (fun n : Nat => integer n) counted

/-- Ranges come back as they were written. -/
theorem range_faithful : Faithful AddressRange fun _ => True := by
  refine .of_reads ?_ fun _ _ => trivial
  intro range form _ writes
  have counted : range.size = (UInt32.ofNat range.size).toNat := by
    have within := range.within
    have below : range.size < 4294967296 := by omega
    exact (UInt32.toNat_ofNat_of_lt' below).symm
  have shows := writes.shows (by simp)
  rw [encode_size counted] at shows
  have shape : form.structureOf ["start", "size"] = .ok () := shows.shape
  have start : form.required 0 "start" = .ok range.start :=
    shows.required rfl word_faithful trivial
  have size : form.required 1 "size" = .ok (UInt32.ofNat range.size) :=
    shows.required rfl size_faithful trivial
  have made : AddressRange.make range.start (UInt32.ofNat range.size) = .ok range :=
    AddressRange.make_eq_ok_iff.mpr ⟨rfl, counted⟩
  simp only [decode, shape, start, size, Outcome.bind_ok, Outcome.mapError_eq_ok_iff, made]

/-- A form is decoded to the range whose numbers it holds. -/
theorem decode_range_iff {form : Form} {range : AddressRange} : decode form = .ok range ↔
    form.Holds [("start", encode range.start), ("size", encode range.size)] := by
  constructor
  · intro decoded
    obtain ⟨_, shape, rest⟩ := Outcome.bind_eq_ok_iff.mp decoded
    obtain ⟨start, first, rest⟩ := Outcome.bind_eq_ok_iff.mp rest
    obtain ⟨size, second, taken⟩ := Outcome.bind_eq_ok_iff.mp rest
    obtain ⟨rfl, counted⟩ :=
      AddressRange.make_eq_ok_iff.mp (Outcome.mapError_eq_ok_iff.mp taken)
    have startStands : form.field? 0 "start" = some (encode range.start) :=
      (required_eq_ok_iff fun _ => decode_word_iff).mp first
    have sizeStands : form.field? 1 "size" = some (encode size) :=
      (required_eq_ok_iff fun _ => decode_size_iff).mp second
    rw [encode_size counted]
    refine holds_of_field? shape fun index field stands => ?_
    match index, stands with
    | 0, rfl => exact startStands
    | 1, rfl => exact sizeStands
  · intro holds
    exact range_faithful.reads range form trivial holds.writes

/-- The form holds two whole numbers, each in its limits, that make a range of addresses. -/
structure AddressRange.Written (form : Form) (start size : Int) : Prop where
  fields : form.Holds [("start", .integer start), ("size", .integer size)]
  start_limits : 0 ≤ start ∧ start < 65536
  size_limits : 0 ≤ size ∧ size < 4294967296
  within : start + size ≤ 65536

/-- A form is read as a range exactly if it holds its start and its size. -/
theorem decode_range_iff_written {form : Form} {range : AddressRange} :
    decode form = .ok range ↔ AddressRange.Written form range.start.toNat range.size := by
  have below := range.start.toNat_lt
  have within := range.within
  rw [decode_range_iff]
  exact ⟨fun fields => ⟨fields, by omega, by omega, by omega⟩, fun written => written.fields⟩

/-- A form is decoded to a range exactly if it holds one. -/
theorem decodes_range_iff {form : Form} : (∃ range : AddressRange, decode form = .ok range) ↔
    ∃ start size, AddressRange.Written form start size := by
  constructor
  · rintro ⟨range, decoded⟩
    exact ⟨_, _, decode_range_iff_written.mp decoded⟩
  · rintro ⟨start, size, written⟩
    have below := written.start_limits
    have limits := written.size_limits
    have within := written.within
    obtain ⟨first, rfl⟩ := Int.eq_ofNat_of_zero_le below.1
    obtain ⟨count, rfl⟩ := Int.eq_ofNat_of_zero_le limits.1
    have small : first < 65536 := by omega
    have same : (UInt16.ofNat first).toNat = first := UInt16.toNat_ofNat_of_lt' small
    have fits : (UInt16.ofNat first).toNat + count ≤ 65536 := by omega
    refine ⟨⟨UInt16.ofNat first, count, fits⟩, decode_range_iff_written.mpr ?_⟩
    change AddressRange.Written form (UInt16.ofNat first).toNat count
    rwa [same]

/-- The two forms are decoded to the same value, or they are refused alike. -/
def Alike (α : Type) [Coded α] (first second : Form) : Prop :=
  (decode first : Except DecodeError α) = decode second

/-- Where one value of a list is written in another way, the list is decoded alike. -/
theorem alike_list {part other : Form} {before after : List Form}
    (alike : Alike α part other) :
    Alike (List α) (.list (before ++ part :: after)) (.list (before ++ other :: after)) := by
  rw [Alike] at alike
  change (before ++ part :: after).mapM decode = (before ++ other :: after).mapM decode
  rw [List.mapM_append, List.mapM_append, List.mapM_cons, List.mapM_cons, alike]

variable {full short : Form}

/-- A region that is silent about its filling is filled with zeros. -/
theorem alike_regionConfig (leaves : LeavesOut 4 "fill" (encode (0 : UInt8)) full short) :
    Alike RegionConfig full short := by
  have shape : full.structureOf ["name", "kind", "start", "size", "fill"] = short.structureOf _ :=
    leaves.structureOf (by decide)
  have fill : full.optional 4 "fill" (0 : UInt8) = short.optional 4 "fill" 0 :=
    leaves.optional (decode_byte_iff.mpr rfl)
  simp [Alike, decode, shape, leaves.required, fill]

/-- A processor that is silent about its requests has none. -/
theorem alike_processorImage (leaves : LeavesOut 7 "pending" (encode (0 : UInt8)) full short) :
    Alike ProcessorImage full short := by
  have shape : full.structureOf ["a", "x", "y", "s", "pc", "p", "cycles", "pending"] =
      short.structureOf _ := leaves.structureOf (by decide)
  have pending : full.optional 7 "pending" (0 : UInt8) = short.optional 7 "pending" 0 :=
    leaves.optional (decode_byte_iff.mpr rfl)
  simp [Alike, decode, shape, leaves.required, pending]

/-- The second form of a configuration is silent where the first one gives a usual value: whether
instructions are traced, or with which byte a region is filled. -/
inductive MachineConfig.Abridges : Form → Form → Prop
  | trace {full short : Form}
      (leaves : LeavesOut 1 "trace_instructions" (encode false) full short) : Abridges full short
  | fill {full short region other : Form} {before after : List Form}
      (leaves : LeavesOut 4 "fill" (encode (0 : UInt8)) region other)
      (inside : Exchanges 0 "regions" (.list (before ++ region :: after))
        (.list (before ++ other :: after)) full short) : Abridges full short

/-- Both forms of a configuration are read alike. -/
theorem MachineConfig.Abridges.alike (abridges : MachineConfig.Abridges full short) :
    Alike MachineConfig full short := by
  cases abridges with
  | trace leaves =>
      have shape : full.structureOf ["regions", "trace_instructions"] = short.structureOf _ :=
        leaves.structureOf (by decide)
      have trace : full.optional 1 "trace_instructions" false =
          short.optional 1 "trace_instructions" false := leaves.optional rfl
      simp [Alike, decode, shape, leaves.required, trace]
  | fill leaves inside =>
      have regions : (full.required 0 "regions" : Except DecodeError (List RegionConfig)) =
          short.required 0 "regions" :=
        inside.required_self (alike_list (alike_regionConfig leaves))
      simp [Alike, decode, inside.structureOf, regions, inside.optional]

/-- The second form of a save state is silent where the first one gives a usual value: an empty
layout, or that no interrupt is requested. -/
inductive SaveState.Abridges : Form → Form → Prop
  | layout {full short : Form}
      (leaves : LeavesOut 2 "layout" (encode ([] : List MappedSpan)) full short) :
      Abridges full short
  | pending {full short registers other : Form}
      (leaves : LeavesOut 7 "pending" (encode (0 : UInt8)) registers other)
      (inside : Exchanges 0 "registers" registers other full short) : Abridges full short

/-- Both forms of a save state are read alike. -/
theorem SaveState.Abridges.alike (abridges : SaveState.Abridges full short) :
    Alike SaveState full short := by
  cases abridges with
  | layout leaves =>
      have shape : full.structureOf ["registers", "regions", "layout"] = short.structureOf _ :=
        leaves.structureOf (by decide)
      have layout : full.optional 2 "layout" ([] : List MappedSpan) =
          short.optional 2 "layout" [] := leaves.optional rfl
      simp [Alike, decode, shape, leaves.required, layout]
  | pending leaves inside =>
      have processor : (full.required 0 "registers" : Except DecodeError ProcessorImage) =
          short.required 0 "registers" :=
        inside.required_self (alike_processorImage leaves)
      simp [Alike, decode, inside.structureOf, processor, inside.required, inside.optional]

/-- Configurations, save states and their parts come back from what they are encoded as, and from
each form that says the same. Where a field is left out, the form is decoded as if the usual value
stood there. A range is decoded exactly from two numbers that are in their limits and make one. -/
theorem written_forms_are_faithful :
    Faithful MachineConfig (fun _ => True) ∧
      Faithful SaveState (fun state => ∀ span ∈ state.layout, span.region < UInt64.size) ∧
      Faithful ProcessorImage (fun _ => True) ∧
      Faithful MappedSpan (fun span => span.region < UInt64.size) ∧
      Faithful AddressRange (fun _ => True) ∧
      (∀ full short, MachineConfig.Abridges full short → Alike MachineConfig full short) ∧
      (∀ full short, SaveState.Abridges full short → Alike SaveState full short) ∧
      (∀ full short, LeavesOut 4 "fill" (encode (0 : UInt8)) full short →
        Alike RegionConfig full short) ∧
      (∀ full short, LeavesOut 7 "pending" (encode (0 : UInt8)) full short →
        Alike ProcessorImage full short) ∧
      (∀ form, (∃ range : AddressRange, decode form = .ok range) ↔
        ∃ start size, AddressRange.Written form start size) ∧
      ∀ form, ∀ range : AddressRange, decode form = .ok range ↔
        AddressRange.Written form range.start.toNat range.size :=
  ⟨machineConfig_faithful, saveState_faithful, processorImage_faithful, mappedSpan_faithful,
    range_faithful, fun _ _ => MachineConfig.Abridges.alike, fun _ _ => SaveState.Abridges.alike,
    fun _ _ => alike_regionConfig, fun _ _ => alike_processorImage, fun _ => decodes_range_iff,
    fun _ _ => decode_range_iff_written⟩

/-- The last page, mapped to the last region that has an index. -/
def lastSpan : MappedSpan := ⟨18446744073709551615, 0xff00, 0x100⟩

/-- Registers as they are at first, up to the cycles. -/
def firstRegisters : List Form := [0, 0, 0, 255, 0, 32, 0].map .integer

/-- The last page as a list, a machine without regions whether or not it says that it does not
trace, and a save state whether or not it says that no interrupt is requested. -/
theorem written_forms_are_faithful_in_lists :
    (list [.integer 18446744073709551615, .integer 0xff00, .integer 0x100]).Writes
        (encode lastSpan) ∧
      decode (list [.integer 18446744073709551615, .integer 0xff00, .integer 0x100]) =
        .ok lastSpan ∧
      Alike MachineConfig (list [list [], bool false]) (list [list []]) ∧
      Alike SaveState (list [list (firstRegisters ++ [.integer 0]), list []])
        (list [list firstRegisters, list []]) ∧
      ∃ range : AddressRange, decode (list [.integer 0xff00, .integer 0x100]) = .ok range := by
  obtain ⟨_, _, _, span, _, config, state, _, _, range, _⟩ := written_forms_are_faithful
  have fits : lastSpan.region < UInt64.size := by decide
  have trace : MachineConfig.Abridges (list [list [], bool false]) (list [list []]) :=
    .trace (@LeavesOut.list _ _ _ [list []] rfl)
  have pending : SaveState.Abridges (list [list (firstRegisters ++ [.integer 0]), list []])
      (list [list firstRegisters, list []]) :=
    .pending (.list rfl) (@Exchanges.list _ _ _ _ [] [list []] rfl)
  have listed : (list [.integer 18446744073709551615, .integer 0xff00, .integer 0x100]).Writes
      (encode lastSpan) := Holds.writes rfl
  exact ⟨listed, span.reads lastSpan _ fits listed, config _ _ trace, state _ _ pending,
    (range _).mpr ⟨0xff00, 0x100, rfl, by decide, by decide, by decide⟩⟩

end EightBit
