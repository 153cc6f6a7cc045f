import EightBit.Form.Machine
import EightBit.Proofs.Outcome

/-
The fields of a structure in its written forms. A form holds them under their names or as a list in
their order, and a decoder sees nothing else of it. So it makes no difference where the fields
stand, what else stands there, and whether a field at its usual value stands there at all. In each
field another form of the same value may stand.
-/

namespace EightBit

namespace Form

/-- The fields of a structure stand in the form: each of them once under its name, among any
others, or all of them as a list in their order. -/
def Holds (fields : List (String × Form)) : Form → Prop
  | record others => ∀ field ∈ fields, others.filter (·.1 == field.1) = [field]
  | list items => items = fields.map Prod.snd
  | _ => False

/-- The form has no parts. -/
def Single : Form → Prop
  | list (_ :: _) | record _ => False
  | _ => True

/-- The form says what the plain one does, which is how a value is encoded: its lists item by item,
and its structures field by field, in either way to write them down. -/
inductive Writes : Form → Form → Prop
  | same (plain : Form) : Writes plain plain
  | cons {item plain : Form} {items plains : List Form} (first : Writes item plain)
      (rest : Writes (list items) (list plains)) :
      Writes (list (item :: items)) (list (plain :: plains))
  | fields {form : Form} {written fields : List (String × Form)} (holds : form.Holds written)
      (names : written.map Prod.fst = fields.map Prod.fst)
      (each : ∀ (index : Nat) name part plain, written[index]? = some (name, part) →
        fields[index]? = some (name, plain) → Writes part plain) : Writes form (record fields)

/-- All fields are found at their places or under their names, and say what they should. -/
structure Shows (form : Form) (fields : List (String × Form)) : Prop where
  shape : form.structureOf (fields.map Prod.fst) = .ok ()
  found : ∀ (index : Nat) name plain, fields[index]? = some (name, plain) →
    ∃ part, form.field? index name = some part ∧ part.Writes plain

/-- The first form says that a field has its usual value, and the second one is silent about it. -/
inductive LeavesOut (index : Nat) (name : String) (usual : Form) : Form → Form → Prop
  | record {before after : List (String × Form)}
      (absent : ∀ field ∈ before ++ after, field.1 ≠ name) :
      LeavesOut index name usual (record (before ++ (name, usual) :: after))
        (record (before ++ after))
  | list {items : List Form} (last : items.length = index) :
      LeavesOut index name usual (list (items ++ [usual])) (list items)

/-- The forms have one form and another one in a field, and agree otherwise. -/
inductive Exchanges (index : Nat) (name : String) (part other : Form) : Form → Form → Prop
  | record {before after : List (String × Form)} (first : ∀ field ∈ before, field.1 ≠ name) :
      Exchanges index name part other (record (before ++ (name, part) :: after))
        (record (before ++ (name, other) :: after))
  | list {before after : List Form} (place : before.length = index) :
      Exchanges index name part other (list (before ++ part :: after))
        (list (before ++ other :: after))

end Form

/-- Exactly the values that fit come back from what they are encoded as, and each of them comes back
from every form that says the same. -/
structure Faithful (α : Type) [Coded α] (fits : α → Prop) : Prop where
  returns : ∀ value, decode (encode value) = .ok value ↔ fits value
  reads : ∀ value form, fits value → form.Writes (encode value) → decode form = .ok value

namespace Form

variable {α : Type} [Coded α] {form : Form} {fields : List (String × Form)} {index : Nat}
  {name : String}

/-- An entry of another name does not change what is found under a name. -/
theorem lookup_insert_ne {before after : List (String × Form)} {part : Form} {other : String}
    (apart : other ≠ name) :
    (before ++ (name, part) :: after).lookup other = (before ++ after).lookup other := by
  have skipped : ((name, part) :: after).lookup other = after.lookup other := by
    rw [List.lookup_cons, beq_false_of_ne apart]
  rw [List.lookup_append, List.lookup_append, skipped]

/-- The first entry of a name is the one that is found under it. -/
theorem lookup_insert_self {before after : List (String × Form)} {part : Form}
    (first : ∀ field ∈ before, field.1 ≠ name) :
    (before ++ (name, part) :: after).lookup name = some part :=
  List.lookup_eq_some_iff.mpr
    ⟨before, after, rfl, fun field among => bne_iff_ne.mpr (first field among).symm⟩

/-- Two records have the shape of the same structures if the same names stand in them twice. -/
theorem structureOf_record_congr {names : List String} {first second : List (String × Form)}
    (alike : ∀ name ∈ names,
      first.countP (·.1 == name) ≤ 1 ↔ second.countP (·.1 == name) ≤ 1) :
    (record first).structureOf names = (record second).structureOf names := by
  have same : (names.all fun name => decide (first.countP (·.1 == name) ≤ 1)) =
      names.all fun name => decide (second.countP (·.1 == name) ≤ 1) := by
    refine Bool.eq_iff_iff.mpr ?_
    simp only [List.all_eq_true, decide_eq_true_eq]
    exact forall₂_congr alike
  rw [Form.structureOf, Form.structureOf, same]

/-- An entry counts once for its own name. -/
theorem countP_cons_self {after : List (String × Form)} {part : Form} :
    ((name, part) :: after).countP (·.1 == name) = after.countP (·.1 == name) + 1 :=
  List.countP_cons_of_pos (beq_self_eq_true name)

/-- An entry does not count for any other name. -/
theorem countP_cons_ne {after : List (String × Form)} {part : Form} {other : String}
    (apart : other ≠ name) :
    ((name, part) :: after).countP (·.1 == other) = after.countP (·.1 == other) :=
  List.countP_cons_of_neg fun named => apart (beq_iff_eq.mp named).symm

/-- A field is found at its own name. -/
theorem filter_cons_self {after : List (String × Form)} {part : Form} :
    ((name, part) :: after).filter (·.1 == name) =
      (name, part) :: after.filter (·.1 == name) :=
  List.filter_cons_of_pos (beq_self_eq_true name)

/-- Entries of other names are all left out. -/
theorem filter_eq_nil_of_ne {others : List (String × Form)}
    (apart : ∀ field ∈ others, field.1 ≠ name) : others.filter (·.1 == name) = [] :=
  List.filter_eq_nil_iff.mpr fun field among => by
    rw [beq_iff_eq]
    exact apart field among

/-- A record holds its own fields if no two of them have the same name. -/
theorem holds_record (distinct : (fields.map Prod.fst).Nodup) : (record fields).Holds fields := by
  intro ⟨name, part⟩ member
  obtain ⟨before, after, rfl⟩ := List.append_of_mem member
  rw [List.map_append, List.map_cons] at distinct
  obtain ⟨_, rest, apart⟩ := List.nodup_append.mp distinct
  have earlier : ∀ other ∈ before, other.1 ≠ name := fun other among =>
    apart _ (List.mem_map_of_mem among) _ List.mem_cons_self
  have later : ∀ other ∈ after, other.1 ≠ name := fun other among same =>
    (List.nodup_cons.mp rest).1 (List.mem_map.mpr ⟨other, among, same⟩)
  rw [List.filter_append, filter_eq_nil_of_ne earlier, List.nil_append, filter_cons_self,
    filter_eq_nil_of_ne later]

/-- What holds the fields of a structure has the shape of one. -/
theorem Holds.structureOf (holds : form.Holds fields) :
    form.structureOf (fields.map Prod.fst) = .ok () := by
  cases form with
  | record others =>
      refine if_pos (List.all_eq_true.mpr fun name named => decide_eq_true ?_)
      obtain ⟨field, member, rfl⟩ := List.mem_map.mp named
      rw [List.countP_eq_length_filter, holds field member]
      exact Nat.le_refl 1
  | list items =>
      have same : items = fields.map Prod.snd := holds
      rw [Form.structureOf, same, List.length_map, List.length_map, if_pos (Nat.le_refl _)]
  | _ => exact holds.elim

/-- A form that holds its fields shows each one under its place or its name. -/
theorem Holds.field? (holds : form.Holds fields) {part : Form}
    (stands : fields[index]? = some (name, part)) : form.field? index name = some part := by
  cases form with
  | record others =>
      have only := holds (name, part) (List.mem_of_getElem? stands)
      obtain ⟨before, after, rfl, earlier, _⟩ := List.filter_eq_cons_iff.mp only
      exact lookup_insert_self fun field among => fun same =>
        earlier field among (beq_iff_eq.mpr same)
  | list items =>
      have same : items = fields.map Prod.snd := holds
      rw [Form.field?, same, List.getElem?_map, stands, Option.map_some]
  | _ => exact holds.elim

/-- Fields stand in a form of a structure if each is found at its place or under its name. -/
theorem holds_of_field? (shape : form.structureOf (fields.map Prod.fst) = .ok ())
    (found : ∀ index field, fields[index]? = some field →
      form.field? index field.1 = some field.2) : form.Holds fields := by
  cases form with
  | record others =>
      intro ⟨name, part⟩ member
      obtain ⟨index, stands⟩ := List.mem_iff_getElem?.mp member
      obtain ⟨before, after, rfl, earlier⟩ :=
        List.lookup_eq_some_iff.mp (found index (name, part) stands)
      rw [Form.structureOf] at shape
      split at shape
      · rename_i once
        have most := of_decide_eq_true
          (List.all_eq_true.mp once name (List.mem_map_of_mem member))
        rw [List.countP_append, countP_cons_self] at most
        have none : after.countP (·.1 == name) = 0 := by omega
        have skipped : ∀ other ∈ before, other.1 ≠ name := fun other among same =>
          bne_iff_ne.mp (earlier other among) same.symm
        rw [List.filter_append, filter_eq_nil_of_ne skipped, List.nil_append, filter_cons_self,
          List.filter_eq_nil_iff.mpr (List.countP_eq_zero.mp none)]
      · cases shape
  | list items =>
      rw [Form.structureOf] at shape
      split at shape
      · rename_i short
        rw [List.length_map] at short
        refine List.ext_getElem? fun index => ?_
        rw [List.getElem?_map]
        cases stands : fields[index]? with
        | some field => exact found index field stands
        | none =>
            have past := List.getElem?_eq_none_iff.mp stands
            exact List.getElem?_eq_none (Nat.le_trans short past)
      · cases shape
  | _ => cases shape

/-- A field whose values have one form each is read where that form stands. -/
theorem required_eq_ok_iff {value : α}
    (only : ∀ part, decode part = .ok value ↔ part = encode value) :
    form.required index name = .ok value ↔ form.field? index name = some (encode value) := by
  rw [Form.required]
  cases form.field? index name with
  | none => exact ⟨nofun, nofun⟩
  | some part => exact (only part).trans (Option.some_inj.symm)

/-- A form that is not made of parts is written in one way only. -/
theorem Writes.eq_of_single {plain : Form} (writes : form.Writes plain) (single : plain.Single) :
    form = plain := by
  cases writes with
  | same => rfl
  | cons first rest => exact single.elim
  | fields holds names each => exact single.elim

/-- A list is written item by item. -/
theorem Writes.exists_of_cons {plain : Form} {plains : List Form}
    (writes : form.Writes (.list (plain :: plains))) :
    ∃ item items, form = .list (item :: items) ∧ item.Writes plain ∧
      (Form.list items).Writes (.list plains) := by
  cases writes with
  | same => exact ⟨plain, plains, rfl, .same plain, .same (.list plains)⟩
  | @cons item _ items _ first rest => exact ⟨item, items, rfl, first, rest⟩

/-- A written record shows its fields. -/
theorem Writes.shows (writes : form.Writes (record fields))
    (distinct : (fields.map Prod.fst).Nodup) : form.Shows fields := by
  cases writes with
  | same =>
      have holds := holds_record distinct
      exact ⟨holds.structureOf,
        fun index name plain stands => ⟨plain, holds.field? stands, .same plain⟩⟩
  | @fields _ written _ holds names each =>
      refine ⟨names ▸ holds.structureOf, fun index name plain stands => ?_⟩
      have named : (written.map Prod.fst)[index]? = some name := by
        rw [names, List.getElem?_map, stands, Option.map_some]
      rw [List.getElem?_map, Option.map_eq_some_iff] at named
      obtain ⟨⟨_, part⟩, place, rfl⟩ := named
      exact ⟨part, holds.field? place, each index _ part plain place stands⟩

/-- A form that holds the fields of a record writes that record. -/
theorem Holds.writes (holds : form.Holds fields) : form.Writes (record fields) := by
  refine .fields holds rfl fun index name part plain stands other => ?_
  cases stands.symm.trans other
  exact .same part

variable {fits : α → Prop} {value : α}

/-- A required field that is shown is read. -/
theorem Shows.required (shows : form.Shows fields)
    (stands : fields[index]? = some (name, encode value)) (faithful : Faithful α fits)
    (fit : fits value) : form.required index name = .ok value := by
  obtain ⟨part, found, writes⟩ := shows.found index name _ stands
  rw [Form.required, found]
  exact faithful.reads value part fit writes

/-- An optional field that is shown is read, whatever stands for an absent one. -/
theorem Shows.optional (shows : form.Shows fields)
    (stands : fields[index]? = some (name, encode value)) (faithful : Faithful α fits)
    (fit : fits value) (absent : α) : form.optional index name absent = .ok value := by
  obtain ⟨part, found, writes⟩ := shows.found index name _ stands
  rw [Form.optional, found]
  exact faithful.reads value part fit writes

section LeavesOut

variable {usual full short : Form} {place : Nat} {other : String}

/-- A form that is silent about a field still has the shape of the structure. -/
theorem LeavesOut.structureOf (leaves : LeavesOut index name usual full short)
    {names : List String} (inside : index < names.length) :
    full.structureOf names = short.structureOf names := by
  cases leaves with
  | @record before after absent =>
      refine structureOf_record_congr fun other _ => ?_
      rw [List.countP_append, List.countP_append]
      by_cases same : other = name
      · subst same
        have left : before.countP (·.1 == other) = 0 := List.countP_eq_zero.mpr fun field among =>
          fun named => absent field (List.mem_append_left after among) (beq_iff_eq.mp named)
        have right : after.countP (·.1 == other) = 0 := List.countP_eq_zero.mpr fun field among =>
          fun named => absent field (List.mem_append_right before among) (beq_iff_eq.mp named)
        rw [countP_cons_self, left, right]
        decide
      · rw [countP_cons_ne same]
  | list last =>
      rw [Form.structureOf, Form.structureOf, List.length_append, List.length_singleton, last,
        if_pos (Nat.le_of_lt inside), if_pos (Nat.succ_le_of_lt inside)]

/-- The other fields stand where they were. -/
theorem LeavesOut.field? (leaves : LeavesOut index name usual full short) (apart : other ≠ name)
    (earlier : place < index) : full.field? place other = short.field? place other := by
  cases leaves with
  | record absent => exact lookup_insert_ne apart
  | list last => exact List.getElem?_append_left (last ▸ earlier)

/-- A field that is left out does not matter to those before it. -/
theorem LeavesOut.required (leaves : LeavesOut index name usual full short) (apart : other ≠ name)
    (earlier : place < index) :
    (full.required place other : Except DecodeError α) = short.required place other := by
  rw [Form.required, Form.required, leaves.field? apart earlier]

/-- The field is read as if it stood there. -/
theorem LeavesOut.optional (leaves : LeavesOut index name usual full short) {absent : α}
    (decoded : decode usual = .ok absent) :
    full.optional index name absent = short.optional index name absent := by
  have stands : full.field? index name = some usual ∧ short.field? index name = none := by
    cases leaves with
    | @record before after missing =>
        have first : ∀ field ∈ before, field.1 ≠ name := fun field among =>
          missing field (List.mem_append_left after among)
        exact ⟨lookup_insert_self first, List.lookup_eq_none_iff.mpr fun field among =>
          bne_iff_ne.mpr (missing field among).symm⟩
    | @list items last =>
        subst last
        exact ⟨List.getElem?_concat_length, List.getElem?_eq_none (Nat.le_refl _)⟩
  rw [Form.optional, Form.optional, stands.1, stands.2]
  exact decoded

end LeavesOut

section Exchanges

variable {part other whole changed : Form} {place : Nat} {label : String}

theorem getElem?_insert_self {before after : List Form} :
    (before ++ part :: after)[before.length]? = some part := by
  rw [List.getElem?_append_right (Nat.le_refl _), Nat.sub_self, List.getElem?_cons_zero]

/-- The shape does not depend on what stands in a field. -/
theorem Exchanges.structureOf (exchanges : Exchanges index name part other whole changed)
    (names : List String) : whole.structureOf names = changed.structureOf names := by
  cases exchanges with
  | record first =>
      refine structureOf_record_congr fun label _ => ?_
      rw [List.countP_append, List.countP_append, List.countP_cons, List.countP_cons]
  | list place =>
      rw [Form.structureOf, Form.structureOf, List.length_append, List.length_append,
        List.length_cons, List.length_cons]

/-- An exchange leaves the other fields alone. -/
theorem Exchanges.field? (exchanges : Exchanges index name part other whole changed)
    (apart : label ≠ name) (elsewhere : place ≠ index) :
    whole.field? place label = changed.field? place label := by
  cases exchanges with
  | record first => exact (lookup_insert_ne apart).trans (lookup_insert_ne apart).symm
  | @list before after counted =>
      change (before ++ part :: after)[place]? = (before ++ other :: after)[place]?
      rw [List.getElem?_append, List.getElem?_append]
      split
      · rfl
      · have later : place - before.length ≠ 0 := by omega
        rw [List.getElem?_cons, List.getElem?_cons, if_neg later, if_neg later]

/-- The other fields are read as before. -/
theorem Exchanges.required (exchanges : Exchanges index name part other whole changed)
    (apart : label ≠ name) (elsewhere : place ≠ index) :
    (whole.required place label : Except DecodeError α) = changed.required place label := by
  rw [Form.required, Form.required, exchanges.field? apart elsewhere]

/-- An exchange does not matter to the other optional fields. -/
theorem Exchanges.optional (exchanges : Exchanges index name part other whole changed)
    (apart : label ≠ name) (elsewhere : place ≠ index) (absent : α) :
    whole.optional place label absent = changed.optional place label absent := by
  rw [Form.optional, Form.optional, exchanges.field? apart elsewhere]

/-- The field itself is read alike, if the two forms are. -/
theorem Exchanges.required_self (exchanges : Exchanges index name part other whole changed)
    (alike : (decode part : Except DecodeError α) = decode other) :
    (whole.required index name : Except DecodeError α) = changed.required index name := by
  have stands : whole.field? index name = some part ∧ changed.field? index name = some other := by
    cases exchanges with
    | record first => exact ⟨lookup_insert_self first, lookup_insert_self first⟩
    | @list before after counted =>
        subst counted
        exact ⟨getElem?_insert_self, getElem?_insert_self⟩
  rw [Form.required, Form.required, stands.1, stands.2]
  exact alike

end Exchanges

end Form

end EightBit
