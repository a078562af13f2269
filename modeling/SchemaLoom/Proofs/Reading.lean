import SchemaLoom.Proofs.ObjectLog
import SchemaLoom.Proofs.Outcome
import SchemaLoom.Record.Codec

/-!
# What decoding reads

A field is read from the values under its number and from nothing else.  Where one value is wanted
it is the last of all, and the values of a field are the values of its log one by one.
-/

namespace SchemaLoom.Codec

open Wire

variable {codec : Codec} {read : Decoder}

/-! ## Reading looks at one number -/

theorem readLast_congr {id : UInt32} {left right : Object} (hsame : Object.SameAt id left right)
    (element : Element) :
    codec.readLast read element left id = codec.readLast read element right id := by
  cases element <;>
    simp only [readLast, Object.lastScalar, Object.lastEnumeration, Object.lastObject,
      hsame.scalars_eq, hsame.enumerations_eq, hsame.nested_eq]

theorem readAll_congr {id : UInt32} {left right : Object} (hsame : Object.SameAt id left right)
    (element : Element) :
    codec.readAll read element left id = codec.readAll read element right id := by
  cases element <;>
    simp only [readAll, hsame.scalars_eq, hsame.enumerations_eq, hsame.nested_eq]

theorem readField_congr {field : ResolvedField} {left right : Object}
    (hsame : Object.SameAt field.id left right) :
    codec.readField read field left = codec.readField read field right := by
  unfold readField
  cases field.shape <;>
    simp only [readLast_congr hsame, readAll_congr hsame, hsame.count_eq, hsame.nested_eq]

theorem decodeField_congr {field : ResolvedField} {left right : Object}
    (hsame : Object.SameAt field.id left right) (typeName : String) :
    codec.decodeField read typeName field left = codec.decodeField read typeName field right := by
  unfold decodeField
  rw [hsame.count_eq, readField_congr hsame]

/-! ## Success -/

/-- Decoding a field succeeds when it reads a value, which for a singular field must be there. -/
theorem decodeField_eq_ok_iff {typeName : String} {field : ResolvedField} {object : Object}
    {value : FieldValue} :
    codec.decodeField read typeName field object = .ok value ↔
      (∀ element, field.shape = .singular element → object.count field.wire field.id ≠ 0) ∧
        codec.readField read field object = .ok value := by
  unfold decodeField
  split
  · next element hshape hcount =>
    constructor
    · intro hfailed
      cases hfailed
    · intro hread
      exact absurd hcount (hread.1 element hshape)
  · next hother =>
    rw [Outcome.mapError_eq_ok_iff]
    constructor
    · intro hread
      exact ⟨fun element hshape hcount => hother element hshape hcount, hread⟩
    · exact And.right

theorem decodeField_of_readField {typeName : String} {field : ResolvedField} {object : Object}
    {value : FieldValue} (hshape : ∀ element, field.shape ≠ .singular element)
    (hread : codec.readField read field object = .ok value) :
    codec.decodeField read typeName field object = .ok value :=
  decodeField_eq_ok_iff.mpr ⟨fun element heq => absurd heq (hshape element), hread⟩

/-- One value for each field, in the order of the fields and under their numbers. -/
theorem mapM_entry_eq_ok_iff {valueOf : ResolvedField → Except CodecError FieldValue}
    {fields : List ResolvedField} {entries : List (UInt32 × FieldValue)} :
    (fields.mapM fun field => do
      let value ← valueOf field
      return (field.id, value)) = .ok entries ↔
      List.Forall₂ (fun field entry => entry.1 = field.id ∧ valueOf field = .ok entry.2)
        fields entries := by
  have hentry : ∀ (field : ResolvedField) (entry : UInt32 × FieldValue),
      (∃ result, valueOf field = .ok result ∧ (field.id, result) = entry) ↔
        entry.1 = field.id ∧ valueOf field = .ok entry.2 := by
    intro field entry
    constructor
    · rintro ⟨result, hresult, rfl⟩
      exact ⟨rfl, hresult⟩
    · rintro ⟨hid, hresult⟩
      exact ⟨entry.2, hresult, Prod.ext hid.symm rfl⟩
  simp only [Outcome.mapM_eq_ok_iff, Outcome.bind_eq_ok_iff, Outcome.pure_eq_ok_iff, hentry]

/-- A record is read when each field of its type is, in the order of the fields. -/
theorem decodeFields_eq_ok_iff {typeName : String} {object : Object} {record : Record} :
    codec.decodeFields read typeName object = .ok record ↔
      ∃ type, codec.type typeName = .ok type ∧ ∃ values : List (UInt32 × FieldValue),
        List.Forall₂
          (fun field entry => entry.1 = field.id ∧
            codec.decodeField read type.qualified field object = .ok entry.2)
          type.fields values ∧ Record.ofList values = record := by
  simp only [decodeFields, Outcome.bind_eq_ok_iff, mapM_entry_eq_ok_iff, Outcome.pure_eq_ok_iff]

theorem type_eq_ok_iff {typeName : String} {type : ResolvedType} :
    codec.type typeName = .ok type ↔
      codec.types.find? (·.qualified == typeName) = some type := by
  unfold Codec.type
  cases codec.types.find? (·.qualified == typeName) <;> simp

theorem mem_types_of_type_eq_ok {typeName : String} {type : ResolvedType}
    (htype : codec.type typeName = .ok type) : type ∈ codec.types :=
  List.mem_of_find?_eq_some (type_eq_ok_iff.mp htype)

theorem qualified_of_type_eq_ok {typeName : String} {type : ResolvedType}
    (htype : codec.type typeName = .ok type) : type.qualified = typeName := by
  simpa using List.find?_some (type_eq_ok_iff.mp htype)

/-! ## The last of all values -/

/-- As long as a reader is told of all values, the last value is the last of them. -/
theorem readLast_eq_getLast {element : Element} {object : Object} {id : UInt32}
    {values : List Value} {value : Value}
    (hcount : object.written element.wire id ≤ greatestCount)
    (hread : codec.readAll read element object id = .ok values)
    (hlast : values.getLast? = some value) :
    codec.readLast read element object id = .ok value := by
  cases element with
  | scalar kind =>
    simp only [readAll, List.take_of_length_le hcount, Except.ok.injEq] at hread
    subst hread
    obtain ⟨scalar, hscalar, rfl⟩ := Option.map_eq_some_iff.mp (List.getLast?_map ▸ hlast)
    simp [readLast, Object.lastScalar, hscalar]
  | enumeration name =>
    simp only [readAll, List.take_of_length_le hcount, Outcome.mapM_eq_ok_iff] at hread
    obtain ⟨number, hnumber, hvalue⟩ := Outcome.exists_getLast?_left hread hlast
    simpa [readLast, Object.lastEnumeration, hnumber] using hvalue
  | named name =>
    simp only [readAll, List.take_of_length_le hcount, Outcome.mapM_eq_ok_iff] at hread
    obtain ⟨inner, hinner, hvalue⟩ := Outcome.exists_getLast?_left hread hlast
    simpa [readLast, Object.lastObject, hinner] using hvalue

end SchemaLoom.Codec
