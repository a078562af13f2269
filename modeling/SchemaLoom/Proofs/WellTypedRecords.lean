import SchemaLoom.Proofs.EncodingDepth
import SchemaLoom.Proofs.KnownNames
import SchemaLoom.Proofs.NormalForm

/-!
# Well-typed records

A record is well typed if it has, for every field of its type, a value of the shape of the field
whose elements are of its kinds, and if the records among the elements are well typed in turn.
Encoding succeeds exactly on well-typed records.  It fails with the first flaw in the order of the
fields, depth first, and what it writes is appended to whatever the object holds already.
-/

namespace SchemaLoom

open Wire

/-! ## Typing rules -/

mutual

/-- The element is of the kind asked for.  The number of an enumeration may be any. -/
inductive Value.WellTyped (codec : Codec) : Element → Value → Prop
  | scalar (value : Scalar) : Value.WellTyped codec (.scalar value.kind) (.atom (.scalar value))
  | enumeration (name : String) (number : UInt32) :
    Value.WellTyped codec (.enumeration name) (.atom (.enumeration number))
  | named {name : String} {record : Record} (hrecord : Record.WellTyped codec name record) :
    Value.WellTyped codec (.named name) (.record record)

/-- The value is of the shape, and its elements are of the kinds of the shape. -/
inductive FieldValue.WellTyped (codec : Codec) : Shape Element → FieldValue → Prop
  | singular {element : Element} {value : Value} (hvalue : Value.WellTyped codec element value) :
    FieldValue.WellTyped codec (.singular element) (.singular value)
  | absent (element : Element) : FieldValue.WellTyped codec (.option element) (.option none)
  | present {element : Element} {value : Value} (hvalue : Value.WellTyped codec element value) :
    FieldValue.WellTyped codec (.option element) (.option (some value))
  | list {element : Element} {values : List Value}
    (hvalues : ∀ value ∈ values, Value.WellTyped codec element value) :
    FieldValue.WellTyped codec (.list element) (.list values)
  | map {keyElement valueElement : Element} {entries : List (Value × Value)}
    (hkeys : ∀ entry ∈ entries, Value.WellTyped codec keyElement entry.1)
    (hvalues : ∀ entry ∈ entries, Value.WellTyped codec valueElement entry.2) :
    FieldValue.WellTyped codec (.map keyElement valueElement) (.map entries)

/-- The record has a well-typed value for every field of the type.  Numbers that are no field of
the type may stand for anything. -/
inductive Record.WellTyped (codec : Codec) : String → Record → Prop
  | fields {typeName : String} {record : Record} {type : ResolvedType}
    (htype : codec.type typeName = .ok type)
    (hfilled : ∀ field ∈ type.fields, (record.get? field.id).isSome)
    (hvalues : ∀ field ∈ type.fields, ∀ value, record.get? field.id = some value →
      FieldValue.WellTyped codec field.shape value) :
    Record.WellTyped codec typeName record

end

/-- The record has a well-typed value for the field. -/
def ResolvedField.WellTyped (codec : Codec) (record : Record) (field : ResolvedField) : Prop :=
  ∃ value, record.get? field.id = some value ∧ value.WellTyped codec field.shape

theorem Record.wellTyped_iff {codec : Codec} {typeName : String} {record : Record}
    {type : ResolvedType} (htype : codec.type typeName = .ok type) :
    record.WellTyped codec typeName ↔ ∀ field ∈ type.fields, field.WellTyped codec record := by
  constructor
  · rintro ⟨htype', hfilled, hvalues⟩ field hfield
    cases htype.symm.trans htype'
    obtain ⟨value, hget⟩ := Option.isSome_iff_exists.mp (hfilled field hfield)
    exact ⟨value, hget, hvalues field hfield value hget⟩
  · intro hfields
    refine .fields htype (fun field hfield => ?_) fun field hfield value hget => ?_
    · obtain ⟨value, hget, -⟩ := hfields field hfield
      exact Option.isSome_of_eq_some hget
    · obtain ⟨value', hget', hvalue⟩ := hfields field hfield
      exact Option.some.inj (hget'.symm.trans hget) ▸ hvalue

theorem FieldValue.wellTyped_iff {codec : Codec} {shape : Shape Element} {value : FieldValue} :
    value.WellTyped codec shape ↔
      Codec.fits shape value ∧ ∀ part ∈ value.parts shape, part.2.WellTyped codec part.1 := by
  constructor
  · rintro (hvalue | element | hvalue | hvalues | ⟨hkeys, hvalues⟩)
    · exact ⟨rfl, by simpa [parts] using hvalue⟩
    · exact ⟨rfl, by simp [parts]⟩
    · exact ⟨rfl, by simpa [parts] using hvalue⟩
    · exact ⟨rfl, by simpa [parts] using hvalues⟩
    · refine ⟨rfl, forall_mem_parts_map.mpr fun entry hentry => ?_⟩
      exact ⟨hkeys entry hentry, hvalues entry hentry⟩
  · rintro ⟨hfits, hparts⟩
    cases shape with
    | singular element =>
      cases value with
      | singular value => exact .singular (hparts _ List.mem_cons_self)
      | _ => cases hfits
    | option element =>
      cases value with
      | option value =>
        cases value with
        | none => exact .absent element
        | some value => exact .present (hparts _ List.mem_cons_self)
      | _ => cases hfits
    | list element =>
      cases value with
      | list values => exact .list fun value hvalue => hparts _ (List.mem_map_of_mem hvalue)
      | _ => cases hfits
    | map keyElement valueElement =>
      cases value with
      | map entries =>
        have hentries := forall_mem_parts_map.mp hparts
        exact .map (fun entry hentry => (hentries entry hentry).1)
          fun entry hentry => (hentries entry hentry).2
      | _ => cases hfits

theorem FieldValue.mem_shape_elements_of_mem_parts {shape : Shape Element} {value : FieldValue}
    {part : Element × Value} (hmem : part ∈ value.parts shape) : part.1 ∈ shape.elements := by
  obtain ⟨element, only⟩ := part
  cases shape <;> cases value <;> simp only [parts, List.not_mem_nil] at hmem
  case singular.singular => simp_all [Shape.elements]
  case option.option => simp_all [Shape.elements]
  case list.list => simp_all [Shape.elements]
  case map.map =>
    obtain ⟨entry, -, hentry⟩ := List.mem_flatMap.mp hmem
    simp only [List.mem_cons, List.not_mem_nil, or_false, Prod.mk.injEq] at hentry
    rcases hentry with ⟨rfl, -⟩ | ⟨rfl, -⟩ <;> simp [Shape.elements]

/-! ## The first flaw -/

mutual

/-- An element of another kind, or a record with a flaw. -/
inductive Value.FirstFlaw (codec : Codec) : String → Element → Value → CodecError → Prop
  | kind {fieldName : String} {element : Element} {value : Value}
    (hkind : element.carries value = false) :
    Value.FirstFlaw codec fieldName element value (.shapeMismatch fieldName)
  | inside {fieldName name : String} {record : Record} {error : CodecError}
    (hrecord : Record.FirstFlaw codec name record error) :
    Value.FirstFlaw codec fieldName (.named name) (.record record) error

/-- A value of another shape, or the first element with a flaw.  Of an entry of a map, the key comes
before the value. -/
inductive FieldValue.FirstFlaw (codec : Codec) :
    String → Shape Element → FieldValue → CodecError → Prop
  | shape {fieldName : String} {shape : Shape Element} {value : FieldValue}
    (hshape : Codec.fits shape value = false) :
    FieldValue.FirstFlaw codec fieldName shape value (.shapeMismatch fieldName)
  | element {fieldName : String} {shape : Shape Element} {value : FieldValue}
    {done rest : List (Element × Value)} {part : Element × Value} {error : CodecError}
    (hparts : value.parts shape = done ++ part :: rest)
    (hdone : ∀ earlier ∈ done, earlier.2.WellTyped codec earlier.1)
    (hpart : Value.FirstFlaw codec fieldName part.1 part.2 error) :
    FieldValue.FirstFlaw codec fieldName shape value error

/-- The first field without a value, or whose value has a flaw.  The record has well-typed values
for the fields before it. -/
inductive Record.FirstFlaw (codec : Codec) : String → Record → CodecError → Prop
  | missing {typeName : String} {record : Record} {type : ResolvedType} {field : ResolvedField}
    {before after : List ResolvedField} (htype : codec.type typeName = .ok type)
    (hfields : type.fields = before ++ field :: after)
    (hbefore : ∀ earlier ∈ before, earlier.WellTyped codec record)
    (hmissing : record.get? field.id = none) :
    Record.FirstFlaw codec typeName record (.missingValue typeName field.name)
  | value {typeName : String} {record : Record} {type : ResolvedType} {field : ResolvedField}
    {before after : List ResolvedField} {value : FieldValue} {error : CodecError}
    (htype : codec.type typeName = .ok type)
    (hfields : type.fields = before ++ field :: after)
    (hbefore : ∀ earlier ∈ before, earlier.WellTyped codec record)
    (hget : record.get? field.id = some value)
    (hvalue : FieldValue.FirstFlaw codec field.name field.shape value error) :
    Record.FirstFlaw codec typeName record error

end

/-- The first flaw that a field of a record has. -/
def ResolvedField.FirstFlaw (codec : Codec) (typeName : String) (record : Record)
    (field : ResolvedField) (error : CodecError) : Prop :=
  record.get? field.id = none ∧ error = .missingValue typeName field.name ∨
    ∃ value, record.get? field.id = some value ∧
      value.FirstFlaw codec field.name field.shape error

theorem Record.firstFlaw_iff {codec : Codec} {typeName : String} {record : Record}
    {type : ResolvedType} {error : CodecError} (htype : codec.type typeName = .ok type) :
    record.FirstFlaw codec typeName error ↔
      ∃ before field after, type.fields = before ++ field :: after ∧
        (∀ earlier ∈ before, earlier.WellTyped codec record) ∧
          field.FirstFlaw codec typeName record error := by
  constructor
  · intro hflaw
    cases hflaw with
    | missing htype' hfields hbefore hmissing =>
      cases htype.symm.trans htype'
      exact ⟨_, _, _, hfields, hbefore, .inl ⟨hmissing, rfl⟩⟩
    | value htype' hfields hbefore hget hvalue =>
      cases htype.symm.trans htype'
      exact ⟨_, _, _, hfields, hbefore, .inr ⟨_, hget, hvalue⟩⟩
  · rintro ⟨before, field, after, hfields, hbefore, ⟨hmissing, rfl⟩ | ⟨value, hget, hvalue⟩⟩
    · exact .missing htype hfields hbefore hmissing
    · exact .value htype hfields hbefore hget hvalue

/-- Every flaw is a field without a value, or one with a value of another shape or kind. -/
theorem Record.FirstFlaw.exists_field {codec : Codec} {typeName : String} {record : Record}
    {error : CodecError} (hflaw : record.FirstFlaw codec typeName error) :
    ∃ owner type field, codec.type owner = .ok type ∧ field ∈ type.fields ∧
      (error = .missingValue owner field.name ∨ error = .shapeMismatch field.name) := by
  induction record using Record.nested_induction generalizing typeName with
  | step record ih =>
    cases hflaw with
    | @missing _ _ type field _ _ htype hfields _ _ =>
      exact ⟨typeName, type, field, htype, by simp [hfields], .inl rfl⟩
    | @value _ _ type field _ _ value _ htype hfields _ hget hvalue =>
      have howner : field ∈ type.fields := by simp [hfields]
      cases hvalue with
      | shape _ => exact ⟨typeName, type, field, htype, howner, .inr rfl⟩
      | @element _ _ _ done rest part _ hparts _ hpart =>
        obtain ⟨element, value'⟩ := part
        cases hpart with
        | kind _ => exact ⟨typeName, type, field, htype, howner, .inr rfl⟩
        | inside hinner =>
          have hmem : (_, Value.record _) ∈ value.parts field.shape :=
            hparts ▸ List.mem_append_right done List.mem_cons_self
          exact ih field.id value (Record.mem_of_get?_eq_some hget) _
            (FieldValue.mem_elements_of_mem_parts hmem) hinner

/-! ## Encoding as a list of checks -/

namespace Codec

/-- How writing one element ends, given a writer of nested records. -/
def acceptElement (nested : Encoder) (fieldName : String) : Element × Value → Except CodecError Unit
  | (.named name, .record record) => (nested name record .empty).2
  | (element, value) =>
    if element.carries value then .ok () else .error (.shapeMismatch fieldName)

theorem snd_writeElement (nested : Encoder) (fieldName : String) (element : Element) (id : UInt32)
    (value : Value) (object : Object) :
    (writeElement nested fieldName element id value object).2 =
      acceptElement nested fieldName (element, value) := by
  cases element with
  | scalar kind =>
    cases value with
    | record record => rfl
    | atom atom =>
      cases atom with
      | enumeration number => rfl
      | scalar scalar =>
        by_cases hkind : scalar.kind = kind
        · simp [writeElement, acceptElement, Element.carries, hkind]
        · simp [writeElement, acceptElement, Element.carries, hkind]
  | enumeration name =>
    cases value with
    | record record => rfl
    | atom atom => cases atom <;> rfl
  | named name =>
    cases value with
    | atom atom => cases atom <;> rfl
    | record record => rw [writeElement_named, acceptElement]

/-- Writers that append are as many checks, whatever the object holds. -/
theorem snd_writeAll {α : Type} {write : α → Object → Written} {items : List α}
    (happends : ∀ item ∈ items, Appends (write item)) (object : Object) :
    (writeAll write items object).2 = items.forM fun item => (write item .empty).2 := by
  induction items generalizing object with
  | nil => rfl
  | cons item items ih =>
    obtain ⟨hitem, hitems⟩ := List.forall_mem_cons.mp happends
    rw [writeAll, hitem.eq_append object, Outcome.forM_cons]
    cases (write item .empty).2 with
    | error error => rfl
    | ok => exact ih hitems _

theorem snd_writeEntry (nested : Encoder) (fieldName : String) (keyElement valueElement : Element)
    (id : UInt32) (entry : Value × Value) (object : Object) :
    (writeEntry nested fieldName keyElement valueElement id entry object).2 =
      [(keyElement, entry.1), (valueElement, entry.2)].forM (acceptElement nested fieldName) := by
  have hkey := snd_writeElement nested fieldName keyElement mapKeyId entry.1 .empty
  rw [writeEntry_eq, writePair, Outcome.forM_cons, Outcome.forM_singleton, ← hkey]
  obtain ⟨pair, outcome⟩ := writeElement nested fieldName keyElement mapKeyId entry.1 .empty
  cases outcome with
  | error error => rfl
  | ok => exact snd_writeElement nested fieldName valueElement mapValueId entry.2 pair

/-- A value of the shape of the field is checked element by element. -/
theorem snd_encodeField (nested : Encoder) (field : ResolvedField) (value : FieldValue)
    (object : Object) :
    (encodeField nested field value object).2 =
      if fits field.shape value then
        (value.parts field.shape).forM (acceptElement nested field.name)
      else .error (.shapeMismatch field.name) := by
  unfold encodeField
  cases field.shape with
  | singular element =>
    cases value with
    | singular value =>
      exact (snd_writeElement nested field.name element field.id value object).trans
        (Outcome.forM_singleton _ _).symm
    | _ => rfl
  | option element =>
    cases value with
    | option value =>
      cases value with
      | none => rfl
      | some value =>
        exact (snd_writeElement nested field.name element field.id value object).trans
          (Outcome.forM_singleton _ _).symm
    | _ => rfl
  | list element =>
    cases value with
    | list values =>
      have hchecks := snd_writeAll (fun value (_ : value ∈ values) =>
        appends_writeElement nested field.name element field.id value) object
      simp only [snd_writeElement] at hchecks
      exact hchecks.trans (List.forM_map (m := Except CodecError)).symm
    | _ => rfl
  | map keyElement valueElement =>
    cases value with
    | map entries =>
      have hchecks := snd_writeAll (fun entry (_ : entry ∈ entries) =>
        appends_writeEntry nested field.name keyElement valueElement field.id entry) object
      simp only [snd_writeEntry] at hchecks
      exact hchecks.trans (Outcome.forM_flatMap _ _ _).symm
    | _ => rfl

theorem snd_encodeFields {codec : Codec} {typeName : String} {type : ResolvedType}
    (htype : codec.type typeName = .ok type) (nested : Encoder) (record : Record)
    (object : Object) :
    (codec.encodeFields nested typeName record object).2 =
      type.fields.forM fun field => (encodeEntry nested typeName record field .empty).2 := by
  rw [encodeFields_eq, htype]
  exact snd_writeAll (fun field _ => appends_encodeEntry nested typeName record field) object

theorem appends_encode (codec : Codec) (typeName : String) (record : Record) :
    Appends (codec.encode typeName record) := by
  rw [encode_eq_encodeFields]
  cases htype : codec.type typeName with
  | error error =>
    simp only [funext (encodeFields_eq codec codec.encode typeName record), htype]
    exact appends_of_failure error
  | ok type =>
    simp only [funext (encodeFields_eq codec codec.encode typeName record), htype]
    exact appends_writeAll fun field _ => appends_encodeEntry codec.encode typeName record field

/-! ## Encoding decides whether a record is well typed -/

section Decides

variable {codec : Codec} {nested : Encoder} {typeName : String} {record : Record}

/-- The writer of nested records judges this one. -/
def JudgesRecord (codec : Codec) (nested : Encoder) (typeName : String) (record : Record) : Prop :=
  Outcome.Decides (nested typeName record .empty).2 (record.WellTyped codec typeName)
    (record.FirstFlaw codec typeName)

/-- An element is judged by its kind, and by the record that it may be. -/
theorem decides_acceptElement {element : Element} {value : Value}
    (hjudges : ∀ (name : String) (inner : Record), element = .named name → value = .record inner →
      JudgesRecord codec nested name inner) (fieldName : String) :
    Outcome.Decides (acceptElement nested fieldName (element, value))
      (value.WellTyped codec element) (value.FirstFlaw codec fieldName element) := by
  cases hcarries : element.carries value with
  | false =>
    have haccept : acceptElement nested fieldName (element, value) =
        .error (.shapeMismatch fieldName) := by
      cases element <;> cases value <;> simp_all [acceptElement, Element.carries]
    rw [haccept]
    refine .of_error (fun hvalue => ?_) fun error => ⟨fun hflaw => ?_, ?_⟩
    · cases hvalue <;> simp [Element.carries] at hcarries
    · cases hflaw with
      | kind _ => rfl
      | inside _ => simp [Element.carries] at hcarries
    · rintro rfl
      exact .kind hcarries
  | true =>
    unfold Element.carries at hcarries
    split at hcarries
    · next kind scalar =>
      obtain rfl : scalar.kind = kind := by simpa using hcarries
      have haccept : acceptElement nested fieldName (.scalar scalar.kind, .atom (.scalar scalar)) =
          .ok () := by
        simp [acceptElement, Element.carries]
      rw [haccept]
      refine .of_ok (.scalar scalar) fun error hflaw => ?_
      cases hflaw with
      | kind hkind => simp [Element.carries] at hkind
    · next name number =>
      refine .of_ok (.enumeration name number) fun error hflaw => ?_
      cases hflaw with
      | kind hkind => simp [Element.carries] at hkind
    · next name inner =>
      refine (hjudges name inner rfl rfl).congr ⟨.named, ?_⟩ fun error => ⟨.inside, ?_⟩
      · intro hvalue
        cases hvalue with
        | named hrecord => exact hrecord
      · intro hflaw
        cases hflaw with
        | kind hkind => simp [Element.carries] at hkind
        | inside hrecord => exact hrecord
    · cases hcarries

theorem decides_encodeField {field : ResolvedField} {value : FieldValue}
    (hjudges : ∀ (name : String) (inner : Record),
      (.named name, .record inner) ∈ value.parts field.shape → JudgesRecord codec nested name inner)
    (object : Object) :
    Outcome.Decides (encodeField nested field value object).2 (value.WellTyped codec field.shape)
      (value.FirstFlaw codec field.name field.shape) := by
  rw [snd_encodeField]
  cases hfits : fits field.shape value with
  | false =>
    rw [if_neg Bool.false_ne_true]
    have hparts : value.parts field.shape = [] := by
      cases hshape : field.shape <;> cases value <;> simp_all [fits, FieldValue.parts]
    refine .of_error (fun hvalue => ?_) fun error => ⟨fun hflaw => ?_, ?_⟩
    · simp [FieldValue.wellTyped_iff, hfits] at hvalue
    · cases hflaw with
      | shape _ => rfl
      | element hsplit => simp [hparts] at hsplit
    · rintro rfl
      exact .shape hfits
  | true =>
    rw [if_pos rfl]
    have haccepts : ∀ part ∈ value.parts field.shape,
        Outcome.Decides (acceptElement nested field.name part) (part.2.WellTyped codec part.1)
          (part.2.FirstFlaw codec field.name part.1) := by
      rintro ⟨element, only⟩ hpart
      refine decides_acceptElement (fun name inner helement honly => ?_) field.name
      exact hjudges name inner (helement ▸ honly ▸ hpart)
    refine (Outcome.Decides.forM haccepts).congr ?_ fun error => ⟨?_, fun hflaw => ?_⟩
    · simp [FieldValue.wellTyped_iff, hfits]
    · rintro ⟨done, part, rest, hsplit, hdone, hpart⟩
      exact .element hsplit hdone hpart
    · cases hflaw with
      | shape hshape => simp [hfits] at hshape
      | element hsplit hdone hpart => exact ⟨_, _, _, hsplit, hdone, hpart⟩

theorem decides_encodeEntry {field : ResolvedField}
    (hjudges : ∀ value, record.get? field.id = some value → ∀ (name : String) (inner : Record),
      (.named name, .record inner) ∈ value.parts field.shape → JudgesRecord codec nested name inner)
    (object : Object) :
    Outcome.Decides (encodeEntry nested typeName record field object).2
      (field.WellTyped codec record) (field.FirstFlaw codec typeName record) := by
  unfold encodeEntry
  cases hget : record.get? field.id with
  | none =>
    refine .of_error ?_ fun error => ?_
    · simp [ResolvedField.WellTyped, hget]
    · simp [ResolvedField.FirstFlaw, hget]
  | some value =>
    refine (decides_encodeField (hjudges value hget) object).congr ?_ fun error => ?_
    · simp [ResolvedField.WellTyped, hget]
    · simp [ResolvedField.FirstFlaw, hget]

/-- Encoding judges every record of a type it knows, by induction over the records inside. -/
theorem judgesRecord_encode (hclosed : codec.Closed) (hknows : codec.Knows (.named typeName)) :
    JudgesRecord codec codec.encode typeName record := by
  induction record using Record.nested_induction generalizing typeName with
  | step record ih =>
    -- The types of inner records are known as well, so that no failure but a flaw can come up.
    obtain ⟨type, htype⟩ := hknows
    rw [JudgesRecord, encode_eq_encodeFields, snd_encodeFields htype]
    have hentries : ∀ field ∈ type.fields,
        Outcome.Decides (encodeEntry codec.encode typeName record field .empty).2
          (field.WellTyped codec record) (field.FirstFlaw codec typeName record) := by
      intro field hfield
      refine decides_encodeEntry (fun value hget name inner hpart => ?_) .empty
      refine ih field.id value (Record.mem_of_get?_eq_some hget) inner
        (FieldValue.mem_elements_of_mem_parts hpart) ?_
      exact hclosed type (mem_types_of_type_eq_ok htype) field hfield _
        (FieldValue.mem_shape_elements_of_mem_parts hpart)
    exact (Outcome.Decides.forM hentries).congr (Record.wellTyped_iff htype).symm
      fun error => (Record.firstFlaw_iff htype).symm

end Decides

end Codec

namespace Resolution

/-- Encoding a record of a type or component succeeds exactly if the record is well typed, and
otherwise fails with its first flaw: a field without a value, or one with a value of another shape
or kind.  Whatever the object holds already, the outcome is the same, and what is written is
appended as it would be to an empty object. -/
theorem encode_eq_ok_iff_wellTyped (resolution : Resolution) {typeName : String}
    (hname : typeName ∈ resolution.index.resolvableNames) (record : Record) (object : Object) :
    ((resolution.codec.encode typeName record object).2 = .ok () ↔
        record.WellTyped resolution.codec typeName) ∧
      (∀ error, (resolution.codec.encode typeName record object).2 = .error error ↔
        record.FirstFlaw resolution.codec typeName error) ∧
      (∀ error, (resolution.codec.encode typeName record object).2 = .error error →
        ∃ owner type field, resolution.codec.type owner = .ok type ∧ field ∈ type.fields ∧
          (error = .missingValue owner field.name ∨ error = .shapeMismatch field.name)) ∧
      resolution.codec.encode typeName record object =
        (object ++ (resolution.codec.encode typeName record .empty).1,
          (resolution.codec.encode typeName record .empty).2) := by
  have happends := (resolution.codec.appends_encode typeName record).eq_append object
  have hjudges : resolution.codec.JudgesRecord resolution.codec.encode typeName record :=
    Codec.judgesRecord_encode resolution.closed (resolution.exists_type hname)
  rw [happends]
  refine ⟨hjudges.ok_iff, hjudges.error_iff, fun error hfailed => ?_, rfl⟩
  exact ((hjudges.error_iff error).mp hfailed).exists_field

/-- A node with an undeclared mode, and with a value for a number that no field has. -/
def oddNode : Record :=
  [(1, .singular (label "odd")), (2, .list []), (3, .map []),
    (5, .singular (.atom (.scalar (.double ⟨1⟩)))),
    (6, .map [(.atom (.enumeration 7), .atom (.scalar (.float ⟨2⟩)))]), (9, .option none)]

/-- A node that holds by name a node without children.  Its own weight is no number, but that comes
later. -/
def flawedNode : Record :=
  [(1, .singular (label "root")), (2, .list [.record oddNode]),
    (3, .map [(label "good", .record oddNode),
      (label "bad", .record [(1, .singular (label "x"))])]),
    (5, .singular (label "heavy")), (6, .map [])]

theorem encode_eq_ok_iff_wellTyped_nodes :
    "shapes.Node" ∈ ofNodes.index.resolvableNames ∧
      (oddNode.WellTyped ofNodes.codec "shapes.Node" ∧
        ofNodes.codec.encode "shapes.Node" oddNode (.mk [(1, .scalar (.string "old"))] []) =
          (.mk [(1, .scalar (.string "old")), (1, .scalar (.string "odd")),
              (5, .scalar (.double ⟨1⟩))]
            [(6, .mk [(1, .enumeration 7), (2, .scalar (.float ⟨2⟩))] [])], .ok ())) ∧
      flawedNode.FirstFlaw ofNodes.codec "shapes.Node"
        (.missingValue "shapes.Node" "children") := by
  have hname : "shapes.Node" ∈ ofNodes.index.resolvableNames := by decide
  have hodd : ofNodes.codec.encode "shapes.Node" oddNode .empty =
      (.mk [(1, .scalar (.string "odd")), (5, .scalar (.double ⟨1⟩))]
        [(6, .mk [(1, .enumeration 7), (2, .scalar (.float ⟨2⟩))] [])], .ok ()) := by
    with_unfolding_all rfl
  have hflawed : (ofNodes.codec.encode "shapes.Node" flawedNode .empty).2 =
      .error (.missingValue "shapes.Node" "children") := by
    with_unfolding_all rfl
  obtain ⟨htyped, -, -, happend⟩ := ofNodes.encode_eq_ok_iff_wellTyped hname oddNode
    (.mk [(1, .scalar (.string "old"))] [])
  rw [hodd] at happend
  obtain ⟨-, hfailures, -, -⟩ := ofNodes.encode_eq_ok_iff_wellTyped hname flawedNode .empty
  exact ⟨hname, ⟨htyped.mp (by rw [happend]), happend⟩, (hfailures _).mp hflawed⟩

end Resolution

end SchemaLoom
