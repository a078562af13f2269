import SchemaLoom.Proofs.Transport

/-!
# What is read and what can be written

Whatever an object holds, a record read from it conforms: it has exactly the fields of its type,
with values of their shapes and kinds, declared enumeration values, countable collections and keys
apart.  And every record with values of the right shapes and kinds can be written.
-/

namespace SchemaLoom.Codec

open Wire

variable {codec : Codec} {read : Decoder} {nested : Encoder} {bound : Nat}

/-! ## What is read conforms -/

/-- Every record the reader gives conforms to the type it was read for. -/
def ReadsConforming (codec : Codec) (read : Decoder) : Prop :=
  ∀ name object record, read name object = .ok record →
    Record.obeys codec (.conforming codec) name record

theorem declares_of_checkValue {name : String} {number : UInt32}
    (hcheck : codec.checkValue name number = .ok ()) : codec.declares name number := by
  unfold checkValue at hcheck
  unfold declares
  cases henum : codec.enum? name with
  | none =>
    rw [henum] at hcheck
    cases hcheck
  | some decl =>
    rw [henum] at hcheck
    by_cases hdeclared : decl.values.any (·.value == number)
    · exact hdeclared
    · simp [hdeclared] at hcheck

theorem obeys_scalar (kind : ScalarKind) {scalar : Scalar} (hkind : scalar.kind = kind) :
    (Value.atom (.scalar scalar)).obeys codec (.conforming codec) (.scalar kind) :=
  Rules.conforming_element (by simp [Element.carries, hkind]) (by simp)

theorem obeys_acceptEnum {name : String} {number : UInt32} {value : Value}
    (haccept : codec.acceptEnum name number = .ok value) :
    value.obeys codec (.conforming codec) (.enumeration name) := by
  obtain ⟨_, hcheck, rfl⟩ := Outcome.map_eq_ok_iff.mp haccept
  apply Rules.conforming_element rfl
  rintro _ _ ⟨⟩ ⟨⟩
  exact declares_of_checkValue hcheck

theorem obeys_nested (hreads : ReadsConforming codec read) {name : String} {object : Object}
    {value : Value} (hread : (read name object).map Value.record = .ok value) :
    value.obeys codec (.conforming codec) (.named name) := by
  obtain ⟨record, hrecord, rfl⟩ := Outcome.map_eq_ok_iff.mp hread
  have helement : (Rules.conforming codec).element (.named name) (.record record) :=
    Rules.conforming_element rfl (by simp)
  exact Value.obeys_record_iff.mpr ⟨helement, hreads name object record hrecord⟩

theorem kind_of_mem_scalars {object : Object} {kind : ScalarKind} {id : UInt32} {scalar : Scalar}
    (hmem : scalar ∈ object.scalars kind id) : scalar.kind = kind := by
  obtain ⟨atom, -, hatom⟩ := List.mem_filterMap.mp hmem
  simpa using (Option.filter_eq_some_iff.mp hatom).2

theorem kind_lastScalar (object : Object) (kind : ScalarKind) (id : UInt32) :
    (object.lastScalar kind id).kind = kind := by
  unfold Object.lastScalar
  cases hlast : (object.scalars kind id).getLast? with
  | none => exact Scalar.kind_zero kind
  | some scalar => exact kind_of_mem_scalars (List.mem_of_getLast? hlast)

theorem obeys_readLast (hreads : ReadsConforming codec read) {element : Element} {object : Object}
    {id : UInt32} {value : Value} (hread : codec.readLast read element object id = .ok value) :
    value.obeys codec (.conforming codec) element := by
  cases element with
  | scalar kind =>
    cases hread
    exact obeys_scalar kind (kind_lastScalar object kind id)
  | enumeration name => exact obeys_acceptEnum hread
  | named name => exact obeys_nested hreads hread

theorem obeys_readAll (hreads : ReadsConforming codec read) {element : Element} {object : Object}
    {id : UInt32} {values : List Value}
    (hread : codec.readAll read element object id = .ok values) :
    values.length ≤ greatestCount ∧
      ∀ value ∈ values, value.obeys codec (.conforming codec) element := by
  cases element with
  | scalar kind =>
    cases hread
    constructor
    · rw [List.length_map]
      exact List.length_take_le _ _
    intro value hvalue
    obtain ⟨scalar, hscalar, rfl⟩ := List.mem_map.mp hvalue
    exact obeys_scalar kind (kind_of_mem_scalars (List.mem_of_mem_take hscalar))
  | enumeration name =>
    have hall := Outcome.mapM_eq_ok_iff.mp hread
    refine ⟨hall.length_eq ▸ List.length_take_le _ _, fun value hvalue => ?_⟩
    obtain ⟨number, -, hnumber⟩ := Outcome.exists_left_of_mem hall hvalue
    exact obeys_acceptEnum hnumber
  | named name =>
    have hall := Outcome.mapM_eq_ok_iff.mp hread
    refine ⟨hall.length_eq ▸ List.length_take_le _ _, fun value hvalue => ?_⟩
    obtain ⟨inner, -, hinner⟩ := Outcome.exists_left_of_mem hall hvalue
    exact obeys_nested hreads hinner

theorem obeys_readEntry (hreads : ReadsConforming codec read) {keyElement valueElement : Element}
    {pair : Object} {entry : Value × Value}
    (hread : codec.readEntry read keyElement valueElement pair = .ok entry) :
    entry.1.obeys codec (.conforming codec) keyElement ∧
      entry.2.obeys codec (.conforming codec) valueElement := by
  simp only [readEntry, Outcome.bind_eq_ok_iff, Outcome.pure_eq_ok_iff] at hread
  obtain ⟨key, hkey, value, hvalue, rfl⟩ := hread
  exact ⟨obeys_readLast hreads hkey, obeys_readLast hreads hvalue⟩

theorem one_le_greatestCount : 1 ≤ greatestCount := by decide

/-- The value read for a field, whatever the object holds under the number of the field. -/
theorem obeys_readField (hreads : ReadsConforming codec read) {field : ResolvedField}
    {object : Object} {value : FieldValue}
    (hread : codec.readField read field object = .ok value) :
    value.obeys codec (.conforming codec) field.shape := by
  rw [FieldValue.obeys_iff]
  rw [readField.eq_def] at hread
  cases hshape : field.shape with
  | singular element =>
    rw [hshape] at hread
    obtain ⟨only, honly, rfl⟩ := Outcome.map_eq_ok_iff.mp hread
    refine ⟨Rules.conforming_field rfl one_le_greatestCount (by simp), fun part hpart => ?_⟩
    rw [List.mem_singleton.mp hpart]
    exact obeys_readLast hreads honly
  | option element =>
    rw [hshape] at hread
    simp only at hread
    split at hread
    · cases hread
      exact ⟨Rules.conforming_field rfl (by decide) (by simp), by simp [FieldValue.parts]⟩
    · obtain ⟨only, honly, rfl⟩ := Outcome.map_eq_ok_iff.mp hread
      refine ⟨Rules.conforming_field rfl one_le_greatestCount (by simp), fun part hpart => ?_⟩
      rw [List.mem_singleton.mp hpart]
      exact obeys_readLast hreads honly
  | list element =>
    rw [hshape] at hread
    obtain ⟨values, hvalues, rfl⟩ := Outcome.map_eq_ok_iff.mp hread
    obtain ⟨hlength, hobeys⟩ := obeys_readAll hreads hvalues
    refine ⟨Rules.conforming_field rfl hlength (by simp), fun part hpart => ?_⟩
    obtain ⟨value, hvalue, rfl⟩ := List.mem_map.mp hpart
    exact hobeys value hvalue
  | map keyElement valueElement =>
    rw [hshape] at hread
    simp only [Outcome.bind_eq_ok_iff, Outcome.pure_eq_ok_iff, Outcome.mapM_eq_ok_iff] at hread
    obtain ⟨entries, hentries, rfl⟩ := hread
    have hlength : (Keyed.ofList Value.alike entries).length ≤ greatestCount :=
      Nat.le_trans (Keyed.length_ofList_le entries)
        (hentries.length_eq ▸ List.length_take_le _ _)
    have hkeys : ∀ others, FieldValue.map (Keyed.ofList Value.alike entries) = .map others →
        Keyed.Apart Value.alike others := by
      intro others heq
      exact FieldValue.map.inj heq ▸ Keyed.apart_ofList entries
    have hobeys : ∀ entry ∈ entries, entry.1.obeys codec (.conforming codec) keyElement ∧
        entry.2.obeys codec (.conforming codec) valueElement := by
      intro entry hentry
      obtain ⟨pair, -, hpair⟩ := Outcome.exists_left_of_mem hentries hentry
      exact obeys_readEntry hreads hpair
    refine ⟨Rules.conforming_field rfl hlength hkeys, FieldValue.forall_mem_parts_map.mpr ?_⟩
    exact Keyed.forall_mem_ofList
      (fun key : Value => key.obeys codec (.conforming codec) keyElement)
      (fun value : Value => value.obeys codec (.conforming codec) valueElement) hobeys

theorem nodup_map_fst (hunique : codec.UniqueIds) {typeName : String} {type : ResolvedType}
    (htype : codec.type typeName = .ok type) {values : List (UInt32 × FieldValue)}
    (hids : List.Forall₂ (fun (field : ResolvedField) entry => entry.1 = field.id)
      type.fields values) : (values.map (·.1)).Nodup := by
  rw [← Outcome.map_eq_map hids fun _ _ hid => hid.symm]
  exact hunique type (mem_types_of_type_eq_ok htype)

/-- A record with one conforming value for each field of its type conforms. -/
theorem obeys_ofList (hunique : codec.UniqueIds) {typeName : String} {type : ResolvedType}
    (htype : codec.type typeName = .ok type) {values : List (UInt32 × FieldValue)}
    (hvalues : List.Forall₂
      (fun field entry => entry.1 = field.id ∧
        entry.2.obeys codec (.conforming codec) field.shape) type.fields values) :
    (Record.ofList values).obeys codec (.conforming codec) typeName := by
  have hnodup := nodup_map_fst hunique htype (hvalues.imp fun _ _ hentry => hentry.1)
  have hascending := Record.ascending_ofList values
  -- With different numbers no value displaces another: each stands for a field of its own.
  have hfields : ∀ entry ∈ Record.ofList values, ∃ field ∈ type.fields, entry.1 = field.id ∧
      entry.2.obeys codec (.conforming codec) field.shape := by
    intro entry hentry
    have hget := Record.get?_eq_some_of_mem hascending hentry
    rw [Record.get?_ofList hnodup] at hget
    exact Outcome.exists_left_of_mem hvalues (Record.mem_of_get?_eq_some hget)
  have hfilled : codec.isFilled typeName (Record.ofList values) := by
    rw [isFilled, htype]
    simp only [List.all_eq_true]
    intro field hfield
    obtain ⟨entry, hentry, hid, -⟩ := Outcome.exists_right_of_mem hvalues hfield
    rw [Record.get?_ofList hnodup, ← hid]
    exact Record.isSome_get?_of_mem hentry
  have hplanned : ∀ entry ∈ Record.ofList values, (codec.field? typeName entry.1).isSome := by
    intro entry hentry
    obtain ⟨field, hfield, hid, -⟩ := hfields entry hentry
    rw [hid, field?_of_mem hunique htype hfield]
    rfl
  rw [Record.obeys_conforming_iff]
  constructor
  · exact ⟨hascending, hfilled, hplanned⟩
  · intro id value hmem other hother
    obtain ⟨field, hfield, heq, hvalue⟩ := hfields (id, value) hmem
    replace heq : id = field.id := heq
    obtain rfl : field = other := by
      rw [heq, field?_of_mem hunique htype hfield] at hother
      exact Option.some.inj hother
    exact hvalue

/-- One more level of nesting: if the inner records conform, so does the record. -/
theorem readsConforming_step (hunique : codec.UniqueIds) (hreads : ReadsConforming codec read) :
    ReadsConforming codec (codec.decodeFields read) := by
  intro typeName object record hread
  obtain ⟨type, htype, values, hvalues, rfl⟩ := decodeFields_eq_ok_iff.mp hread
  refine obeys_ofList hunique htype (hvalues.imp fun field entry hentry => ⟨hentry.1, ?_⟩)
  exact obeys_readField hreads (decodeField_eq_ok_iff.mp hentry.2).2

theorem readsConforming_decodeTo (hunique : codec.UniqueIds) (depth : Nat) :
    ReadsConforming codec (codec.decodeTo depth) := by
  induction depth with
  | zero =>
    intro typeName object record hread
    cases hread
  | succ depth ih => exact readsConforming_step hunique ih

/-! ## The numbers of a conforming record -/

section Conforming

variable {typeName : String} {record : Record}

theorem field?_eq_some_iff_mem (hunique : codec.UniqueIds) {id : UInt32} {field : ResolvedField} :
    codec.field? typeName id = some field ↔
      ∃ type, codec.type typeName = .ok type ∧ field ∈ type.fields ∧ field.id = id := by
  constructor
  · intro hfield
    obtain ⟨type, htype, hfind⟩ := field?_eq_some_iff.mp hfield
    exact ⟨type, htype, List.mem_of_find?_eq_some hfind, by simpa using List.find?_some hfind⟩
  · rintro ⟨type, htype, hmem, rfl⟩
    exact field?_of_mem hunique htype hmem

/-- A conforming record has exactly the numbers of its type. -/
theorem isSome_get?_iff (hconforming : record.obeys codec (.conforming codec) typeName)
    (id : UInt32) : (record.get? id).isSome ↔ (codec.field? typeName id).isSome := by
  obtain ⟨⟨-, hfilled, hplanned⟩, -⟩ := Record.obeys_conforming_iff.mp hconforming
  constructor
  · intro hsome
    obtain ⟨value, hget⟩ := Option.isSome_iff_exists.mp hsome
    exact hplanned (id, value) (Record.mem_of_get?_eq_some hget)
  · intro hsome
    obtain ⟨field, hfield⟩ := Option.isSome_iff_exists.mp hsome
    exact Option.isSome_iff_exists.mpr (exists_value_of_isFilled hfilled hfield)

theorem map_fst_perm (hunique : codec.UniqueIds) {type : ResolvedType}
    (htype : codec.type typeName = .ok type)
    (hconforming : record.obeys codec (.conforming codec) typeName) :
    (record.map (·.1)).Perm (type.fields.map (·.id)) := by
  have hascending := (Record.obeys_conforming_iff.mp hconforming).1.1
  have hnodup := hunique type (mem_types_of_type_eq_ok htype)
  rw [List.perm_ext_iff_of_nodup hascending.nodup hnodup]
  intro id
  rw [Record.mem_map_fst_iff, isSome_get?_iff hconforming, Option.isSome_iff_exists]
  simp [field?_eq_some_iff_mem hunique, htype]

end Conforming

/-! ## What conforms can be written -/

/-- An element of the right kind can be written, given that the record it may be can. -/
theorem exists_writesElement {id : UInt32} {element : Element} {value : Value}
    (hinner : ∀ (name : String) (inner : Record), value = .record inner →
      inner.obeys codec (.writable codec) name → ∃ written,
        nested name inner .empty = (written, .ok ()))
    (hwritable : value.obeys codec (.writable codec) element) :
    ∃ part, WritesElement nested id element value part := by
  cases element with
  | scalar kind =>
    rcases value with (scalar | number) | record
    · have hkind : scalar.kind = kind := by
        simpa [Value.obeys, Rules.writable, Element.carries] using hwritable
      subst hkind
      exact ⟨_, .scalar scalar⟩
    · cases hwritable
    · cases hwritable
  | enumeration name =>
    rcases value with (scalar | number) | record
    · cases hwritable
    · exact ⟨_, .enumeration name number⟩
    · cases hwritable
  | named name =>
    cases value with
    | atom _ => cases hwritable
    | record inner =>
      have hobeys := (Value.obeys_record_iff.mp hwritable).2
      obtain ⟨written, hwritten⟩ := hinner name inner rfl hobeys
      exact ⟨_, .named hwritten⟩

theorem exists_writesField {id : UInt32} {shape : Shape Element} {value : FieldValue}
    (hinner : ∀ (name : String) (inner : Record), .record inner ∈ value.elements →
      inner.obeys codec (.writable codec) name → ∃ written,
        nested name inner .empty = (written, .ok ()))
    (hwritable : value.obeys codec (.writable codec) shape) :
    ∃ parts, WritesField nested id shape value parts := by
  obtain ⟨hfits, hparts⟩ := FieldValue.obeys_iff.mp hwritable
  have hpart : ∀ under, ∀ part ∈ value.parts shape, ∃ written,
      WritesElement nested under part.1 part.2 written := by
    intro under part hmem
    refine exists_writesElement (fun name inner heq => ?_) (hparts part hmem)
    exact hinner name inner (heq ▸ FieldValue.mem_elements_of_mem_parts hmem)
  cases shape with
  | singular element =>
    cases value with
    | singular value =>
      obtain ⟨part, hvalue⟩ := hpart id (element, value) List.mem_cons_self
      exact ⟨[part], .singular hvalue⟩
    | _ => cases hfits
  | option element =>
    rcases value with _ | value | _ | _
    · cases hfits
    · cases value with
      | none => exact ⟨[], .absent element⟩
      | some value =>
        obtain ⟨part, hvalue⟩ := hpart id (element, value) List.mem_cons_self
        exact ⟨[part], .present hvalue⟩
    · cases hfits
    · cases hfits
  | list element =>
    cases value with
    | list values =>
      have hvalues : ∃ parts, List.Forall₂ (WritesElement nested id element) values parts :=
        Outcome.exists_forall₂ fun value hvalue =>
          hpart id (element, value) (List.mem_map_of_mem hvalue)
      obtain ⟨parts, hvalues⟩ := hvalues
      exact ⟨parts, .list hvalues⟩
    | _ => cases hfits
  | map keyElement valueElement =>
    cases value with
    | map entries =>
      have hentries : ∃ parts,
          List.Forall₂ (WritesEntry nested id keyElement valueElement) entries parts := by
        refine Outcome.exists_forall₂ fun entry hentry => ?_
        obtain ⟨keyPart, hkey⟩ :=
          (FieldValue.forall_mem_parts_map.mp (hpart mapKeyId) entry hentry).1
        obtain ⟨valuePart, hvalue⟩ :=
          (FieldValue.forall_mem_parts_map.mp (hpart mapValueId) entry hentry).2
        exact ⟨_, .pair hkey hvalue⟩
      obtain ⟨parts, hentries⟩ := hentries
      exact ⟨parts, .map hentries⟩
    | _ => cases hfits

/-- One more level of nesting: a record can be written if its inner records can. -/
theorem exists_encodeFields {typeName : String} {record : Record}
    (hinner : ∀ id value, (id, value) ∈ record → ∀ (name : String) (inner : Record),
      .record inner ∈ value.elements → inner.obeys codec (.writable codec) name → ∃ written,
        nested name inner .empty = (written, .ok ()))
    (hwritable : record.obeys codec (.writable codec) typeName) (hunique : codec.UniqueIds) :
    ∃ written, codec.encodeFields nested typeName record .empty = (written, .ok ()) := by
  rw [Record.obeys, Bool.and_eq_true, Record.obeysFields_iff] at hwritable
  obtain ⟨hfilled, hfields⟩ := hwritable
  replace hfilled : codec.isFilled typeName record := hfilled
  unfold isFilled at hfilled
  rw [encodeFields_eq]
  cases htype : codec.type typeName with
  | error error => simp [htype] at hfilled
  | ok type =>
    simp only [htype, List.all_eq_true] at hfilled
    have hparts : ∃ parts, List.Forall₂
        (fun field part => encodeEntry nested typeName record field .empty = (part, .ok ()))
        type.fields parts := by
      refine Outcome.exists_forall₂ fun field hfield => ?_
      obtain ⟨value, hget⟩ := Option.isSome_iff_exists.mp (hfilled field hfield)
      have hmem := Record.mem_of_get?_eq_some hget
      have hvalue := hfields field.id value hmem field (field?_of_mem hunique htype hfield)
      obtain ⟨parts, hwrites⟩ := exists_writesField (hinner field.id value hmem) hvalue
      refine ⟨.concat parts, ?_⟩
      rw [encodeEntry, hget]
      exact encodeField_of_parts hwrites
    obtain ⟨parts, hparts⟩ := hparts
    exact ⟨.concat parts, (writeAll_eq_ok_iff fun field _ =>
      appends_encodeEntry nested typeName record field).mpr ⟨parts, hparts, rfl⟩⟩

theorem exists_encodeTo (hunique : codec.UniqueIds) {typeName : String} {record : Record}
    {depth : Nat} (hdepth : Record.depth record < depth)
    (hwritable : record.obeys codec (.writable codec) typeName) :
    ∃ written, codec.encodeTo depth typeName record .empty = (written, .ok ()) := by
  induction record using Record.nested_induction generalizing typeName depth with
  | step record ih =>
    cases depth with
    | zero => omega
    | succ depth =>
      apply exists_encodeFields _ hwritable hunique
      intro id value hmem name inner hinner hobeys
      have hless := Record.depth_lt_of_mem hmem hinner
      exact ih id value hmem inner hinner (by omega) hobeys

end SchemaLoom.Codec
