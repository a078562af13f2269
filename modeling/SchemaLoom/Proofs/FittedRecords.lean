import SchemaLoom.Proofs.Transport

/-!
# Fitting records to a type

`Record.fit` gives a record exactly the numbers that another codec knows, at every depth.  Numbers
the codec does not know are left out, and collections the record does not have are empty.  Unlike
normalization it takes the entries of maps as they are; where no two keys become alike by it, the
two agree on every record that has all the numbers.
-/

namespace SchemaLoom

open Wire

/-- The empty collection of a shape. -/
def Shape.empty? : Shape Element → Option FieldValue
  | .list _ => some (.list [])
  | .map _ _ => some (.map [])
  | _ => none

theorem Shape.exists_empty? {shape : Shape Element} (hcollection : shape.isCollection) :
    ∃ value, shape.empty? = some value := by
  cases shape with
  | singular _ => cases hcollection
  | option _ => cases hcollection
  | list _ => exact ⟨.list [], rfl⟩
  | map _ _ => exact ⟨.map [], rfl⟩

/-- A record in which all collections among the fields are empty and nothing else has a value. -/
def Record.bare (fields : List ResolvedField) : Record :=
  fields.foldr
    (fun field record =>
      match field.shape.empty? with
      | some value => Record.insert field.id value record
      | none => record)
    []

def Codec.bare (codec : Codec) (typeName : String) : Record :=
  match codec.type typeName with
  | .ok type => .bare type.fields
  | .error _ => []

mutual

/-- Fit the record that an element may be. -/
def Value.fit (codec : Codec) : Element → Value → Value
  | .named name, .record fields => .record (Record.fit codec name fields)
  | _, value => value

def FieldValue.fit (codec : Codec) : Shape Element → FieldValue → FieldValue
  | .singular element, .singular value => .singular (value.fit codec element)
  | .option element, .option (some value) => .option (some (value.fit codec element))
  | .list element, .list values => .list (Value.fitAll codec element values)
  | .map key value, .map entries => .map (Value.fitEntries codec key value entries)
  | _, value => value

/-- Keep the numbers of the named type, and add its other collections as empty ones. -/
def Record.fit (codec : Codec) (typeName : String) : List (UInt32 × FieldValue) → Record
  | [] => codec.bare typeName
  | (id, value) :: rest =>
    match codec.field? typeName id with
    | some field =>
      Record.insert id (value.fit codec field.shape) (Record.fit codec typeName rest)
    | none => Record.fit codec typeName rest

def Value.fitAll (codec : Codec) (element : Element) : List Value → List Value
  | [] => []
  | value :: rest => value.fit codec element :: Value.fitAll codec element rest

def Value.fitEntries (codec : Codec) (keyElement valueElement : Element) :
    List (Value × Value) → List (Value × Value)
  | [] => []
  | (key, value) :: rest =>
    (key.fit codec keyElement, value.fit codec valueElement) ::
      Value.fitEntries codec keyElement valueElement rest

end

/-! ## The values of a field -/

section Values

variable (codec : Codec)

theorem Value.fitAll_eq_map (element : Element) (values : List Value) :
    Value.fitAll codec element values = values.map (Value.fit codec element) := by
  induction values with
  | nil => rfl
  | cons value rest ih => simp [Value.fitAll, ih]

theorem Value.fitEntries_eq_map (keyElement valueElement : Element)
    (entries : List (Value × Value)) :
    Value.fitEntries codec keyElement valueElement entries =
      entries.map fun entry =>
        (entry.1.fit codec keyElement, entry.2.fit codec valueElement) := by
  induction entries with
  | nil => rfl
  | cons entry rest ih => simp [Value.fitEntries, ih]

theorem Value.fit_of_not_named {element : Element} (hnamed : element.named? = none)
    (value : Value) : value.fit codec element = value := by
  cases element with
  | named _ => cases hnamed
  | scalar _ => cases value <;> rfl
  | enumeration _ => cases value <;> rfl

/-- The elements of a fitted value are the fitted elements of the value. -/
theorem FieldValue.parts_fit (shape : Shape Element) (value : FieldValue) :
    (value.fit codec shape).parts shape =
      (value.parts shape).map fun part => (part.1, part.2.fit codec part.1) := by
  cases shape <;> cases value
  case singular.singular => rfl
  case option.option value => cases value <;> rfl
  case list.list =>
    simp [FieldValue.fit, FieldValue.parts, Value.fitAll_eq_map]
  case map.map =>
    simp [FieldValue.fit, FieldValue.parts, Value.fitEntries_eq_map, List.flatMap_map,
      List.map_flatMap]
  all_goals rfl

theorem FieldValue.fits_fit (shape : Shape Element) (value : FieldValue) :
    Codec.fits shape (value.fit codec shape) = Codec.fits shape value := by
  cases shape <;> cases value
  case option.option value => cases value <;> rfl
  all_goals rfl

theorem FieldValue.size_fit (shape : Shape Element) (value : FieldValue) :
    (value.fit codec shape).size = value.size := by
  cases shape <;> cases value
  case option.option value => cases value <;> rfl
  case list.list => simp [FieldValue.fit, FieldValue.size, Value.fitAll_eq_map]
  case map.map => simp [FieldValue.fit, FieldValue.size, Value.fitEntries_eq_map]
  all_goals rfl

end Values

/-! ## The numbers of a fitted record -/

section Numbers

theorem Record.bare_cons (field : ResolvedField) (fields : List ResolvedField) :
    Record.bare (field :: fields) =
      match field.shape.empty? with
      | some value => Record.insert field.id value (Record.bare fields)
      | none => Record.bare fields := rfl

theorem Record.ascending_bare (fields : List ResolvedField) : (Record.bare fields).Ascending := by
  induction fields with
  | nil => exact .nil
  | cons field fields ih =>
    rw [Record.bare_cons]
    split
    · exact Record.ascending_insert ih field.id _
    · exact ih

theorem Record.get?_bare {fields : List ResolvedField} (hnodup : (fields.map (·.id)).Nodup)
    (id : UInt32) :
    (Record.bare fields).get? id =
      (fields.find? (·.id == id)).bind fun field => field.shape.empty? := by
  induction fields with
  | nil => rfl
  | cons field fields ih =>
    obtain ⟨hnew, hnodup⟩ := List.nodup_cons.mp hnodup
    rw [Record.bare_cons, List.find?_cons]
    by_cases heq : field.id = id
    · subst heq
      have hnone : fields.find? (·.id == field.id) = none := by
        rw [List.find?_eq_none]
        intro other hother hsame
        exact hnew (List.mem_map.mpr ⟨other, hother, by simpa using hsame⟩)
      cases hempty : field.shape.empty? with
      | none => simp [hempty, ih hnodup, hnone]
      | some value => simp [hempty, Record.get?_insert]
    · have hbeq : (field.id == id) = false := by simpa using heq
      rw [hbeq]
      cases field.shape.empty? with
      | none => exact ih hnodup
      | some value => simpa [Record.get?_insert, Ne.symm heq] using ih hnodup

variable {codec : Codec} {typeName : String}

theorem Codec.ascending_bare : (codec.bare typeName).Ascending := by
  unfold Codec.bare
  split
  · exact Record.ascending_bare _
  · exact .nil

theorem Codec.get?_bare (hunique : codec.UniqueIds) (id : UInt32) :
    Record.get? (codec.bare typeName) id =
      (codec.field? typeName id).bind fun field => field.shape.empty? := by
  unfold Codec.bare
  cases htype : codec.type typeName with
  | error error => simp [Codec.field?, htype]
  | ok type =>
    rw [Codec.field?_eq_find? htype]
    exact Record.get?_bare (hunique type (Codec.mem_types_of_type_eq_ok htype)) id

theorem Record.ascending_fit (record : Record) : (Record.fit codec typeName record).Ascending := by
  induction record with
  | nil => exact Codec.ascending_bare
  | cons entry rest ih =>
    obtain ⟨id, value⟩ := entry
    rw [Record.fit]
    cases codec.field? typeName id with
    | none => exact ih
    | some field => exact Record.ascending_insert ih id _

/-- A number of the type looks up its fitted value or else an empty collection, any other number
nothing. -/
theorem Record.get?_fit (hunique : codec.UniqueIds) (record : Record) (id : UInt32) :
    get? (Record.fit codec typeName record) id =
      (codec.field? typeName id).bind fun field =>
        ((record.get? id).map (FieldValue.fit codec field.shape)).or field.shape.empty? := by
  induction record with
  | nil => exact Codec.get?_bare hunique id
  | cons entry rest ih =>
    obtain ⟨first, value⟩ := entry
    rw [Record.fit, get?_cons]
    by_cases heq : id = first
    · subst heq
      cases hfield : codec.field? typeName id with
      | none => simpa [hfield] using ih
      | some field => simp [get?_insert]
    · cases codec.field? typeName first with
      | none => simpa [heq] using ih
      | some field => simpa [heq, get?_insert] using ih

end Numbers

/-! ## Keys that stay apart -/

/-- The keys of maps are apart from each other. -/
def Rules.apart : Rules where
  record _ _ := true
  field _ value :=
    match value with
    | .map entries => decide (Keyed.Apart Value.alike entries)
    | _ => true
  element _ _ := true

section Apart

variable {codec : Codec}

theorem Value.normalize_eq_fit {element : Element} {value : Value}
    (hinner : ∀ (name : String) (inner : Record), value = .record inner →
      inner.obeys codec (.writable codec) name →
      (Record.fit codec name inner).obeys codec .apart name →
        Record.normalize codec name inner = Record.fit codec name inner)
    (hwritable : value.obeys codec (.writable codec) element)
    (hapart : (value.fit codec element).obeys codec .apart element) :
    value.normalize codec element = value.fit codec element := by
  cases element with
  | named name =>
    cases value with
    | atom _ => rfl
    | record inner =>
      rw [Value.fit, Value.obeys_record_iff] at hapart
      rw [Value.normalize, Value.fit,
        hinner name inner rfl (Value.obeys_record_iff.mp hwritable).2 hapart.2]
  | scalar _ => cases value <;> rfl
  | enumeration _ => cases value <;> rfl

theorem FieldValue.normalize_eq_fit {shape : Shape Element} {value : FieldValue}
    (hinner : ∀ (name : String) (inner : Record), .record inner ∈ value.elements →
      inner.obeys codec (.writable codec) name →
      (Record.fit codec name inner).obeys codec .apart name →
        Record.normalize codec name inner = Record.fit codec name inner)
    (hwritable : value.obeys codec (.writable codec) shape)
    (hapart : (value.fit codec shape).obeys codec .apart shape) :
    value.normalize codec shape = value.fit codec shape := by
  rw [FieldValue.obeys_iff] at hwritable hapart
  rw [FieldValue.parts_fit, List.forall_mem_map] at hapart
  have hpart : ∀ part ∈ value.parts shape,
      part.2.normalize codec part.1 = part.2.fit codec part.1 := by
    intro part hmem
    refine Value.normalize_eq_fit (fun name inner heq => ?_) (hwritable.2 part hmem)
      (hapart.2 part hmem)
    exact hinner name inner (heq ▸ FieldValue.mem_elements_of_mem_parts hmem)
  cases shape <;> cases value <;> try rfl
  case singular.singular element value =>
    rw [FieldValue.normalize, FieldValue.fit, hpart (element, value) List.mem_cons_self]
  case option.option element value =>
    cases value with
    | none => rfl
    | some value =>
      rw [FieldValue.normalize, FieldValue.fit, hpart (element, value) List.mem_cons_self]
  case list.list element values =>
    rw [FieldValue.normalize, FieldValue.fit, Value.normalizeAll_eq_map, Value.fitAll_eq_map]
    congr 1
    exact List.map_congr_left fun value hmem => hpart (element, value) (List.mem_map_of_mem hmem)
  case map.map keyElement valueElement entries =>
    have hentries : Value.normalizeEntries codec keyElement valueElement entries =
        Value.fitEntries codec keyElement valueElement entries := by
      rw [Value.normalizeEntries_eq_map, Value.fitEntries_eq_map]
      refine List.map_congr_left fun entry hmem => ?_
      obtain ⟨hkey, hvalue⟩ := FieldValue.forall_mem_parts_map.mp hpart entry hmem
      rw [hkey, hvalue]
    have hkeys : Keyed.Apart Value.alike
        (Value.fitEntries codec keyElement valueElement entries) := by
      simpa [Rules.apart, FieldValue.fit] using hapart.1
    rw [FieldValue.normalize, FieldValue.fit, hentries, Keyed.ofList_eq_self hkeys]

/-- Where no two keys become alike by it, fitting is normalization. -/
theorem Record.normalize_eq_fit (hunique : codec.UniqueIds) {typeName : String} {record : Record}
    (hwritable : record.obeys codec (.writable codec) typeName)
    (hapart : (Record.fit codec typeName record).obeys codec .apart typeName) :
    Record.normalize codec typeName record = Record.fit codec typeName record := by
  induction record using Record.nested_induction generalizing typeName with
  | step record ih =>
    rw [Record.obeys, Bool.and_eq_true, Record.obeysFields_iff] at hwritable hapart
    refine Record.ext_get? (Record.ascending_normalize record) (Record.ascending_fit record)
      fun id => ?_
    rw [Record.get?_normalize, Record.get?_fit hunique]
    cases hfield : codec.field? typeName id with
    | none => rfl
    | some field =>
      obtain ⟨value, hget⟩ := Codec.exists_value_of_isFilled hwritable.1 hfield
      have hfitted : (Record.fit codec typeName record).get? id =
          some (value.fit codec field.shape) := by
        rw [Record.get?_fit hunique, hfield, hget]
        rfl
      have hmem := Record.mem_of_get?_eq_some hget
      have hvalue : value.normalize codec field.shape = value.fit codec field.shape :=
        FieldValue.normalize_eq_fit (fun name inner hinner => ih id value hmem inner hinner)
          (hwritable.2 id value hmem field hfield)
          (hapart.2 id _ (Record.mem_of_get?_eq_some hfitted) field hfield)
      simp [hget, hvalue]

end Apart

end SchemaLoom
