import SchemaLoom.Proofs.RecordRules

/-!
# Normal forms of records

What comes out of the wire has exactly the fields of its type, in ascending order of their numbers,
and no two alike keys in a map.  `Record.normalize` brings any record into this form: it keeps the
numbers of the type and inserts the entries of maps one after the other, at every depth.  A record
that is in normal form already stays as it is.
-/

namespace SchemaLoom

open Wire

/-! ## Three sets of rules -/

/-- Whether a value is of the kind an element asks for. -/
def Element.carries : Element → Value → Bool
  | .scalar kind, .atom (.scalar value) => value.kind == kind
  | .enumeration _, .atom (.enumeration _) => true
  | .named _, .record _ => true
  | _, _ => false

/-- The number of elements or entries of a field value. -/
def FieldValue.size : FieldValue → Nat
  | .singular _ => 1
  | .option value => value.toList.length
  | .list values => values.length
  | .map entries => entries.length

namespace Codec

/-- Whether an enumeration has a value of the given number. -/
def declares (codec : Codec) (name : String) (number : UInt32) : Bool :=
  match codec.enum? name with
  | some decl => decl.values.any (·.value == number)
  | none => false

/-- Whether a record has a value for every field of a known type. -/
def isFilled (codec : Codec) (typeName : String) (record : Record) : Bool :=
  match codec.type typeName with
  | .ok type => type.fields.all fun field => (record.get? field.id).isSome
  | .error _ => false

theorem isFilled_iff {codec : Codec} {typeName : String} {record : Record} :
    codec.isFilled typeName record ↔
      ∃ type, codec.type typeName = .ok type ∧
        ∀ field ∈ type.fields, (record.get? field.id).isSome := by
  cases htype : codec.type typeName <;> simp [isFilled, htype]

theorem exists_value_of_isFilled {codec : Codec} {typeName : String} {record : Record}
    (hfilled : codec.isFilled typeName record) {id : UInt32} {field : ResolvedField}
    (hfield : codec.field? typeName id = some field) : ∃ value, record.get? id = some value := by
  obtain ⟨type, htype, hall⟩ := isFilled_iff.mp hfilled
  obtain ⟨other, hother, hfind⟩ := field?_eq_some_iff.mp hfield
  obtain rfl : type = other := Except.ok.inj (htype.symm.trans hother)
  have hid : field.id = id := by simpa using List.find?_some hfind
  exact hid ▸ Option.isSome_iff_exists.mp (hall field (List.mem_of_find?_eq_some hfind))

end Codec

namespace Rules

/-- What can be written: a value for each field, of the shape and the kinds of the field. -/
def writable (codec : Codec) : Rules where
  record := codec.isFilled
  field := Codec.fits
  element := Element.carries

/-- What can be read back: declared enumeration values, and collections no longer than a reader can
be told of. -/
def readable (codec : Codec) : Rules where
  record _ _ := true
  field _ value := value.size ≤ greatestCount
  element element value :=
    match element, value with
    | .enumeration name, .atom (.enumeration number) => codec.declares name number
    | _, _ => true

/-- Exactly the numbers of the type, ascending, and the keys of maps apart from each other. -/
def normal (codec : Codec) : Rules where
  record typeName record :=
    decide record.Ascending && codec.isFilled typeName record &&
      record.all fun entry => (codec.field? typeName entry.1).isSome
  field _ value :=
    match value with
    | .map entries => decide (Keyed.Apart Value.alike entries)
    | _ => true
  element _ _ := true

/-- What comes back from the wire as it was. -/
def stable (codec : Codec) : Rules :=
  (readable codec).and (normal codec)

/-- Everything that holds of a record that was read. -/
def conforming (codec : Codec) : Rules :=
  (writable codec).and (stable codec)

theorem stable_implies_readable (codec : Codec) : (stable codec).Implies (readable codec) :=
  and_implies_left _ _

theorem stable_implies_normal (codec : Codec) : (stable codec).Implies (normal codec) :=
  and_implies_right _ _

theorem conforming_implies_writable (codec : Codec) :
    (conforming codec).Implies (writable codec) :=
  and_implies_left _ _

theorem conforming_implies_stable (codec : Codec) : (conforming codec).Implies (stable codec) :=
  and_implies_right _ _

/-- What conformity asks of a record, apart from its fields. -/
theorem conforming_record_iff {codec : Codec} {typeName : String} {record : Record} :
    (conforming codec).record typeName record ↔
      record.Ascending ∧ codec.isFilled typeName record ∧
        ∀ entry ∈ record, (codec.field? typeName entry.1).isSome := by
  simp only [conforming, stable, Rules.and, writable, readable, normal, Bool.and_eq_true,
    decide_eq_true_eq, List.all_eq_true]
  constructor
  · rintro ⟨-, -, ⟨hascending, hfilled⟩, hplanned⟩
    exact ⟨hascending, hfilled, hplanned⟩
  · rintro ⟨hascending, hfilled, hplanned⟩
    exact ⟨hfilled, trivial, ⟨hascending, hfilled⟩, hplanned⟩

/-- What conformity asks of the value of a field as a whole. -/
theorem conforming_field_iff {codec : Codec} {shape : Shape Element} {value : FieldValue} :
    (conforming codec).field shape value ↔
      Codec.fits shape value ∧ value.size ≤ greatestCount ∧
        ∀ entries, value = .map entries → Keyed.Apart Value.alike entries := by
  have hnormal : (normal codec).field shape value ↔
      ∀ entries, value = .map entries → Keyed.Apart Value.alike entries := by
    cases value <;> simp [normal]
  simp only [conforming, stable, Rules.and, Bool.and_eq_true, hnormal]
  simp only [writable, readable, decide_eq_true_eq]

theorem conforming_field {codec : Codec} {shape : Shape Element} {value : FieldValue}
    (hfits : Codec.fits shape value) (hsize : value.size ≤ greatestCount)
    (hapart : ∀ entries, value = .map entries → Keyed.Apart Value.alike entries) :
    (conforming codec).field shape value :=
  conforming_field_iff.mpr ⟨hfits, hsize, hapart⟩

/-- What conformity asks of an element, apart from the record it may be. -/
theorem conforming_element {codec : Codec} {element : Element} {value : Value}
    (hcarries : element.carries value)
    (hdeclares : ∀ name number, element = .enumeration name → value = .atom (.enumeration number) →
      codec.declares name number) : (conforming codec).element element value := by
  have hreadable : (readable codec).element element value := by
    simp only [readable]
    split
    · next name number => exact hdeclares name number rfl rfl
    · rfl
  simp only [conforming, stable, Rules.and, Bool.and_eq_true]
  exact ⟨hcarries, hreadable, rfl⟩

end Rules

theorem Record.obeys_conforming_iff {codec : Codec} {typeName : String} {record : Record} :
    record.obeys codec (.conforming codec) typeName ↔
      (record.Ascending ∧ codec.isFilled typeName record ∧
        ∀ entry ∈ record, (codec.field? typeName entry.1).isSome) ∧
      ∀ id value, (id, value) ∈ record → ∀ field, codec.field? typeName id = some field →
        value.obeys codec (.conforming codec) field.shape := by
  rw [Record.obeys, Bool.and_eq_true, Record.obeysFields_iff, Rules.conforming_record_iff]

/-! ## Normalization -/

mutual

/-- Normalize the record that an element may be. -/
def Value.normalize (codec : Codec) : Element → Value → Value
  | .named name, .record fields => .record (Record.normalize codec name fields)
  | _, value => value

def FieldValue.normalize (codec : Codec) : Shape Element → FieldValue → FieldValue
  | .singular element, .singular value => .singular (value.normalize codec element)
  | .option element, .option (some value) => .option (some (value.normalize codec element))
  | .list element, .list values => .list (Value.normalizeAll codec element values)
  | .map key value, .map entries =>
    .map (Keyed.ofList Value.alike (Value.normalizeEntries codec key value entries))
  | _, value => value

/-- Keep the numbers of the named type, ascending, with their values normalized. -/
def Record.normalize (codec : Codec) (typeName : String) : List (UInt32 × FieldValue) → Record
  | [] => []
  | (id, value) :: rest =>
    match codec.field? typeName id with
    | some field =>
      Record.insert id (value.normalize codec field.shape) (Record.normalize codec typeName rest)
    | none => Record.normalize codec typeName rest

def Value.normalizeAll (codec : Codec) (element : Element) : List Value → List Value
  | [] => []
  | value :: rest => value.normalize codec element :: Value.normalizeAll codec element rest

def Value.normalizeEntries (codec : Codec) (keyElement valueElement : Element) :
    List (Value × Value) → List (Value × Value)
  | [] => []
  | (key, value) :: rest =>
    (key.normalize codec keyElement, value.normalize codec valueElement) ::
      Value.normalizeEntries codec keyElement valueElement rest

end

theorem Value.normalizeAll_eq_map (codec : Codec) (element : Element) (values : List Value) :
    Value.normalizeAll codec element values = values.map (Value.normalize codec element) := by
  induction values with
  | nil => rfl
  | cons value rest ih => simp [Value.normalizeAll, ih]

theorem Value.normalizeEntries_eq_map (codec : Codec) (keyElement valueElement : Element)
    (entries : List (Value × Value)) :
    Value.normalizeEntries codec keyElement valueElement entries =
      entries.map fun entry =>
        (entry.1.normalize codec keyElement, entry.2.normalize codec valueElement) := by
  induction entries with
  | nil => rfl
  | cons entry rest ih => simp [Value.normalizeEntries, ih]

namespace Record

variable {codec : Codec} {typeName : String}

theorem ascending_normalize (record : Record) :
    (Record.normalize codec typeName record).Ascending := by
  induction record with
  | nil => exact .nil
  | cons entry rest ih =>
    obtain ⟨id, value⟩ := entry
    rw [Record.normalize]
    split
    · exact ascending_insert ih id _
    · exact ih

/-- A number of the type looks up its normalized value, any other number nothing. -/
theorem get?_normalize (record : Record) (id : UInt32) :
    get? (Record.normalize codec typeName record) id =
      (codec.field? typeName id).bind fun field =>
        (record.get? id).map (FieldValue.normalize codec field.shape) := by
  induction record with
  | nil => simp [Record.normalize]
  | cons entry rest ih =>
    obtain ⟨first, value⟩ := entry
    rw [Record.normalize, get?_cons]
    by_cases heq : id = first
    · subst heq
      cases hfield : codec.field? typeName id with
      | none => simpa [hfield] using ih
      | some field => simp [get?_insert]
    · cases codec.field? typeName first with
      | none => simpa [heq] using ih
      | some field => simpa [heq, get?_insert] using ih

end Record

/-! ## Records in normal form -/

section Normal

variable {codec : Codec}

theorem Value.normalize_eq_self {element : Element} {value : Value}
    (hinner : ∀ (name : String) (inner : Record), value = .record inner →
      inner.obeys codec (.normal codec) name → Record.normalize codec name inner = inner)
    (hnormal : value.obeys codec (.normal codec) element) :
    value.normalize codec element = value := by
  cases element with
  | named name =>
    cases value with
    | atom _ => rfl
    | record inner =>
      rw [Value.normalize, hinner name inner rfl (Value.obeys_record_iff.mp hnormal).2]
  | scalar _ => cases value <;> rfl
  | enumeration _ => cases value <;> rfl

theorem FieldValue.normalize_eq_self {shape : Shape Element} {value : FieldValue}
    (hinner : ∀ (name : String) (inner : Record), .record inner ∈ value.elements →
      inner.obeys codec (.normal codec) name → Record.normalize codec name inner = inner)
    (hnormal : value.obeys codec (.normal codec) shape) : value.normalize codec shape = value := by
  rw [FieldValue.obeys_iff] at hnormal
  obtain ⟨hfield, hparts⟩ := hnormal
  have hpart : ∀ part ∈ value.parts shape, part.2.normalize codec part.1 = part.2 := by
    intro part hmem
    refine Value.normalize_eq_self (fun name inner heq => ?_) (hparts part hmem)
    exact hinner name inner (heq ▸ FieldValue.mem_elements_of_mem_parts hmem)
  cases shape <;> cases value <;> try rfl
  case singular.singular element value =>
    rw [FieldValue.normalize, hpart (element, value) List.mem_cons_self]
  case option.option element value =>
    cases value with
    | none => rfl
    | some value => rw [FieldValue.normalize, hpart (element, value) List.mem_cons_self]
  case list.list element values =>
    rw [FieldValue.normalize, Value.normalizeAll_eq_map, List.map_congr_left (g := id), List.map_id]
    exact fun value hmem => hpart (element, value) (List.mem_map_of_mem hmem)
  case map.map keyElement valueElement entries =>
    have hentry : ∀ entry ∈ entries,
        (entry.1.normalize codec keyElement, entry.2.normalize codec valueElement) = entry := by
      intro entry hmem
      obtain ⟨hkey, hvalue⟩ := FieldValue.forall_mem_parts_map.mp hpart entry hmem
      rw [hkey, hvalue]
    have hapart : Keyed.Apart Value.alike entries := by simpa [Rules.normal] using hfield
    rw [FieldValue.normalize, Value.normalizeEntries_eq_map, List.map_congr_left (g := id),
      List.map_id, Keyed.ofList_eq_self hapart]
    exact hentry

theorem Record.normalize_eq_self {typeName : String} {record : Record}
    (hnormal : record.obeys codec (.normal codec) typeName) :
    Record.normalize codec typeName record = record := by
  induction record using Record.nested_induction generalizing typeName with
  | step record ih =>
    rw [Record.obeys, Bool.and_eq_true, Record.obeysFields_iff] at hnormal
    obtain ⟨hrecord, hfields⟩ := hnormal
    simp only [Rules.normal, Bool.and_eq_true, decide_eq_true_eq, List.all_eq_true] at hrecord
    obtain ⟨⟨hascending, -⟩, hplanned⟩ := hrecord
    refine Record.ext_get? (Record.ascending_normalize record) hascending fun id => ?_
    rw [Record.get?_normalize]
    cases hget : record.get? id with
    | none => cases codec.field? typeName id <;> rfl
    | some value =>
      have hmem := Record.mem_of_get?_eq_some hget
      obtain ⟨field, hfield⟩ := Option.isSome_iff_exists.mp (hplanned (id, value) hmem)
      have hvalue : value.normalize codec field.shape = value :=
        FieldValue.normalize_eq_self (fun name inner hinner => ih id value hmem inner hinner)
          (hfields id value hmem field hfield)
      simp [hfield, hvalue]

theorem Value.normalize_of_normal {element : Element} {value : Value}
    (hnormal : value.obeys codec (.normal codec) element) : value.normalize codec element = value :=
  Value.normalize_eq_self (fun _ _ _ => Record.normalize_eq_self) hnormal

end Normal

end SchemaLoom
