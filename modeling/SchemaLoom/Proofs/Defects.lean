import SchemaLoom.Proofs.KnownNames
import SchemaLoom.Proofs.NormalForm
import SchemaLoom.Proofs.ObjectLog

/-!
# Defects of objects

Decoding follows the fields of a type and looks at certain values of an object: the last value of a
field that holds one, all values of a list, and the parts of the entries of a map.  An object is
defective if one of the values it is followed to is an undeclared number, or an object without a
value for a singular field.  Decoding fails exactly on defective objects, and the failure is the
first defect in the order of reading, with the fields that lead to it.
-/

namespace SchemaLoom

open Wire

/-! ## What is read -/

/-- A value that decoding looks at, with what it is taken for. -/
inductive Reading where
  | scalar (value : Scalar)
  | number (enumName : String) (value : UInt32)
  | object (typeName : String) (object : Object)

namespace Element

/-- The last value at a field; where there is none, zero or the empty object. -/
def lastReading (element : Element) (object : Object) (id : UInt32) : Reading :=
  match element with
  | .scalar kind => .scalar (object.lastScalar kind id)
  | .enumeration name => .number name (object.lastEnumeration id)
  | .named name => .object name (object.lastObject id)

/-- All values at a field, as far as they are counted. -/
def readings (element : Element) (object : Object) (id : UInt32) : List Reading :=
  match element with
  | .scalar kind => ((object.scalars kind id).take greatestCount).map .scalar
  | .enumeration name => ((object.enumerations id).take greatestCount).map (.number name)
  | .named name => ((object.nested id).take greatestCount).map (.object name)

end Element

namespace ResolvedField

/-- The values that are read for a field, in order.  Of an entry of a map, the key comes first. -/
def readings (field : ResolvedField) (object : Object) : List Reading :=
  match field.shape with
  | .singular element | .option element =>
    if object.count field.wire field.id = 0 then [] else [element.lastReading object field.id]
  | .list element => element.readings object field.id
  | .map key value =>
    ((object.nested field.id).take greatestCount).flatMap fun pair =>
      [key.lastReading pair mapKeyId, value.lastReading pair mapValueId]

/-- There is no value for a field that must have one. -/
def IsMissing (field : ResolvedField) (object : Object) : Prop :=
  (∃ element, field.shape = .singular element) ∧ object.count field.wire field.id = 0

end ResolvedField

/-! ## Defects -/

/-- A defect of what is read, with the names of the fields that lead to it. -/
inductive Defect (codec : Codec) : Reading → List String → DecodeCause → Prop
  | undeclared {enumName : String} {value : UInt32}
    (hundeclared : codec.declares enumName value = false) :
    Defect codec (.number enumName value) [] (.unknownEnumValue enumName value)
  | missing {typeName : String} {object : Object} {type : ResolvedType} {field : ResolvedField}
    (htype : codec.type typeName = .ok type) (hfield : field ∈ type.fields)
    (hmissing : field.IsMissing object) :
    Defect codec (.object typeName object) [] (.missingField typeName field.name field.id)
  | inside {typeName : String} {object : Object} {type : ResolvedType} {field : ResolvedField}
    {reading : Reading} {trail : List String} {cause : DecodeCause}
    (htype : codec.type typeName = .ok type) (hfield : field ∈ type.fields)
    (hreading : reading ∈ field.readings object) (hdefect : Defect codec reading trail cause) :
    Defect codec (.object typeName object) (field.name :: trail) cause

/-- Nothing is wrong with what is read. -/
def Reading.Sound (codec : Codec) (reading : Reading) : Prop :=
  ∀ trail cause, ¬Defect codec reading trail cause

/-- The field is there if it must be, and nothing is wrong with what is read for it. -/
def ResolvedField.Sound (codec : Codec) (object : Object) (field : ResolvedField) : Prop :=
  ¬field.IsMissing object ∧ ∀ reading ∈ field.readings object, reading.Sound codec

/-- The first defect in the order of reading: the fields before it, and what is read before it for
its own field, are sound. -/
inductive FirstDefect (codec : Codec) : Reading → List String → DecodeCause → Prop
  | undeclared {enumName : String} {value : UInt32}
    (hundeclared : codec.declares enumName value = false) :
    FirstDefect codec (.number enumName value) [] (.unknownEnumValue enumName value)
  | missing {typeName : String} {object : Object} {type : ResolvedType} {field : ResolvedField}
    {before after : List ResolvedField} (htype : codec.type typeName = .ok type)
    (hfields : type.fields = before ++ field :: after)
    (hbefore : ∀ earlier ∈ before, earlier.Sound codec object)
    (hmissing : field.IsMissing object) :
    FirstDefect codec (.object typeName object) [] (.missingField typeName field.name field.id)
  | inside {typeName : String} {object : Object} {type : ResolvedType} {field : ResolvedField}
    {before after : List ResolvedField} {reading : Reading} {done rest : List Reading}
    {trail : List String} {cause : DecodeCause} (htype : codec.type typeName = .ok type)
    (hfields : type.fields = before ++ field :: after)
    (hbefore : ∀ earlier ∈ before, earlier.Sound codec object)
    (hreadings : field.readings object = done ++ reading :: rest)
    (hdone : ∀ earlier ∈ done, earlier.Sound codec)
    (hdefect : FirstDefect codec reading trail cause) :
    FirstDefect codec (.object typeName object) (field.name :: trail) cause

theorem FirstDefect.defect {codec : Codec} {reading : Reading} {trail : List String}
    {cause : DecodeCause} (hfirst : FirstDefect codec reading trail cause) :
    Defect codec reading trail cause := by
  induction hfirst with
  | undeclared hundeclared => exact .undeclared hundeclared
  | missing htype hfields _ hmissing => exact .missing htype (by simp [hfields]) hmissing
  | inside htype hfields _ hreadings _ _ ih =>
    exact .inside htype (by simp [hfields]) (by simp [hreadings]) ih

/-- An object is sound if all fields of its type are. -/
theorem Reading.sound_object_iff {codec : Codec} {typeName : String} {object : Object}
    {type : ResolvedType} (htype : codec.type typeName = .ok type) :
    (Reading.object typeName object).Sound codec ↔
      ∀ field ∈ type.fields, field.Sound codec object := by
  constructor
  · intro hsound field hfield
    refine ⟨fun hmissing => hsound _ _ (.missing htype hfield hmissing), ?_⟩
    intro reading hreading trail cause hdefect
    exact hsound _ _ (.inside htype hfield hreading hdefect)
  · intro hfields trail cause hdefect
    cases hdefect with
    | missing htype' hfield hmissing =>
      cases htype.symm.trans htype'
      exact (hfields _ hfield).1 hmissing
    | inside htype' hfield hreading hdefect =>
      cases htype.symm.trans htype'
      exact (hfields _ hfield).2 _ hreading _ _ hdefect

theorem Reading.sound_number_iff {codec : Codec} {enumName : String} {value : UInt32} :
    (Reading.number enumName value).Sound codec ↔ codec.declares enumName value := by
  constructor
  · intro hsound
    by_contra hnot
    exact hsound _ _ (.undeclared (by simpa using hnot))
  · intro hdeclared trail cause hdefect
    cases hdefect with
    | undeclared hundeclared => simp [hdeclared] at hundeclared

/-- A field is defective first because it is missing, or through the first defective value that is
read for it. -/
def ResolvedField.FirstDefect (codec : Codec) (typeName : String) (object : Object)
    (field : ResolvedField) (trail : List String) (cause : DecodeCause) : Prop :=
  field.IsMissing object ∧ trail = [] ∧ cause = .missingField typeName field.name field.id ∨
    ∃ done reading rest inner, field.readings object = done ++ reading :: rest ∧
      (∀ earlier ∈ done, earlier.Sound codec) ∧
        SchemaLoom.FirstDefect codec reading inner cause ∧ trail = field.name :: inner

/-- The first defect of an object is that of its first defective field. -/
theorem firstDefect_object_iff {codec : Codec} {typeName : String} {object : Object}
    {type : ResolvedType} {trail : List String} {cause : DecodeCause}
    (htype : codec.type typeName = .ok type) :
    FirstDefect codec (.object typeName object) trail cause ↔
      ∃ before field after, type.fields = before ++ field :: after ∧
        (∀ earlier ∈ before, earlier.Sound codec object) ∧
          field.FirstDefect codec typeName object trail cause := by
  constructor
  · intro hfirst
    cases hfirst with
    | missing htype' hfields hbefore hmissing =>
      cases htype.symm.trans htype'
      exact ⟨_, _, _, hfields, hbefore, .inl ⟨hmissing, rfl, rfl⟩⟩
    | inside htype' hfields hbefore hreadings hdone hdefect =>
      cases htype.symm.trans htype'
      exact ⟨_, _, _, hfields, hbefore, .inr ⟨_, _, _, _, hreadings, hdone, hdefect, rfl⟩⟩
  · rintro ⟨before, field, after, hfields, hbefore, hfield⟩
    rcases hfield with ⟨hmissing, rfl, rfl⟩ |
      ⟨done, reading, rest, inner, hreadings, hdone, hdefect, rfl⟩
    · exact .missing htype hfields hbefore hmissing
    · exact .inside htype hfields hbefore hreadings hdone hdefect

/-! ## What is read is known and not deep -/

namespace Reading

/-- The codec knows what the value is taken for. -/
def IsKnown (codec : Codec) : Reading → Prop
  | .scalar _ => True
  | .number enumName _ => codec.Knows (.enumeration enumName)
  | .object typeName _ => codec.Knows (.named typeName)

def depth : Reading → Nat
  | .scalar _ => 0
  | .number _ _ => 0
  | .object _ value => value.depth

end Reading

namespace Element

variable {codec : Codec} {element : Element} {object : Object} {id : UInt32}

theorem isKnown_lastReading (hknows : codec.Knows element) :
    (element.lastReading object id).IsKnown codec := by
  cases element <;> exact hknows

theorem isKnown_of_mem_readings (hknows : codec.Knows element) {reading : Reading}
    (hmem : reading ∈ element.readings object id) : reading.IsKnown codec := by
  cases element <;> obtain ⟨value, -, rfl⟩ := List.mem_map.mp hmem <;> exact hknows

/-- The last value is in the object or empty. -/
theorem depth_lastReading_le : (element.lastReading object id).depth ≤ object.depth := by
  cases element with
  | scalar kind => exact Nat.zero_le _
  | enumeration name => exact Nat.zero_le _
  | named name =>
    simp only [lastReading, Reading.depth, Object.lastObject]
    cases hlast : (object.nested id).getLast? with
    | none => exact Object.depth_pos object
    | some inner => exact Nat.le_of_lt (Object.depth_lt_of_mem_nested (List.mem_of_getLast? hlast))

theorem depth_lastReading_lt (hcount : object.count element.wire id ≠ 0) :
    (element.lastReading object id).depth < object.depth := by
  cases element with
  | scalar kind => exact Object.depth_pos object
  | enumeration name => exact Object.depth_pos object
  | named name =>
    simp only [lastReading, Reading.depth, Object.lastObject]
    cases hlast : (object.nested id).getLast? with
    | none =>
      have hnone : object.nested id = [] := List.getLast?_eq_none_iff.mp hlast
      simp [Object.count, Object.written, Element.wire, hnone] at hcount
    | some inner => exact Object.depth_lt_of_mem_nested (List.mem_of_getLast? hlast)

theorem depth_lt_of_mem_readings {reading : Reading}
    (hmem : reading ∈ element.readings object id) : reading.depth < object.depth := by
  cases element <;> obtain ⟨value, hvalue, rfl⟩ := List.mem_map.mp hmem
  · exact Object.depth_pos object
  · exact Object.depth_pos object
  · exact Object.depth_lt_of_mem_nested (List.mem_of_mem_take hvalue)

end Element

namespace ResolvedField

variable {codec : Codec} {field : ResolvedField} {object : Object} {reading : Reading}

theorem isKnown_of_mem_readings (hknows : ∀ element ∈ field.shape.elements, codec.Knows element)
    (hmem : reading ∈ field.readings object) : reading.IsKnown codec := by
  unfold readings at hmem
  split at hmem
  case h_1 | h_2 =>
    next element hshape =>
    rw [hshape] at hknows
    split at hmem
    · cases hmem
    · rw [List.mem_singleton.mp hmem]
      exact Element.isKnown_lastReading (hknows element List.mem_cons_self)
  case h_3 element hshape =>
    rw [hshape] at hknows
    exact Element.isKnown_of_mem_readings (hknows element List.mem_cons_self) hmem
  case h_4 key value hshape =>
    rw [hshape] at hknows
    obtain ⟨pair, -, hmem⟩ := List.mem_flatMap.mp hmem
    simp only [List.mem_cons, List.not_mem_nil, or_false] at hmem
    rcases hmem with rfl | rfl
    · exact Element.isKnown_lastReading (hknows key (by simp [Shape.elements]))
    · exact Element.isKnown_lastReading (hknows value (by simp [Shape.elements]))

/-- What is read for a field is nested less deeply than the object, also where a part of an entry
reads as the empty object. -/
theorem depth_lt_of_mem_readings (hmem : reading ∈ field.readings object) :
    reading.depth < object.depth := by
  unfold readings at hmem
  split at hmem
  case h_1 | h_2 =>
    next element hshape =>
    have hwire : field.wire = element.wire := by simp only [wire, hshape]
    split at hmem
    · cases hmem
    · next hcount =>
      rw [List.mem_singleton.mp hmem]
      exact Element.depth_lastReading_lt (hwire ▸ hcount)
  case h_3 element hshape => exact Element.depth_lt_of_mem_readings hmem
  case h_4 key value hshape =>
    obtain ⟨pair, hpair, hmem⟩ := List.mem_flatMap.mp hmem
    have hless := Object.depth_lt_of_mem_nested (List.mem_of_mem_take hpair)
    simp only [List.mem_cons, List.not_mem_nil, or_false] at hmem
    rcases hmem with rfl | rfl
    · exact Nat.lt_of_le_of_lt Element.depth_lastReading_le hless
    · exact Nat.lt_of_le_of_lt Element.depth_lastReading_le hless

end ResolvedField

/-! ## Decoding as a list of checks -/

namespace Codec

variable {codec : Codec} {read : Decoder}

/-- How reading one value ends, given a reader of nested objects. -/
def accept (codec : Codec) (read : Decoder) : Reading → Except CodecError Unit
  | .scalar _ => .ok ()
  | .number enumName value => codec.checkValue enumName value
  | .object typeName value => Outcome.verdict (read typeName value)

theorem verdict_acceptEnum (read : Decoder) (name : String) (value : UInt32) :
    Outcome.verdict (codec.acceptEnum name value) = codec.accept read (.number name value) := by
  rw [acceptEnum, Outcome.verdict_map]
  exact Outcome.verdict_unit _

theorem verdict_readLast (element : Element) (object : Object) (id : UInt32) :
    Outcome.verdict (codec.readLast read element object id) =
      codec.accept read (element.lastReading object id) := by
  cases element with
  | scalar kind => rfl
  | enumeration name => exact verdict_acceptEnum read name _
  | named name => exact Outcome.verdict_map _ _

theorem verdict_readAll (element : Element) (object : Object) (id : UInt32) :
    Outcome.verdict (codec.readAll read element object id) =
      (element.readings object id).forM (codec.accept read) := by
  cases element with
  | scalar kind =>
    have hok : ∀ reading ∈ (Element.scalar kind).readings object id,
        codec.accept read reading = .ok () := by
      intro reading hmem
      obtain ⟨value, -, rfl⟩ := List.mem_map.mp hmem
      rfl
    exact (Outcome.forM_eq_ok_iff.mpr hok).symm
  | enumeration name =>
    rw [readAll, Outcome.verdict_mapM]
    simp only [verdict_acceptEnum read]
    exact (List.forM_map (m := Except CodecError)).symm
  | named name =>
    rw [readAll, Outcome.verdict_mapM]
    simp only [Outcome.verdict_map]
    exact (List.forM_map (m := Except CodecError) (f := codec.accept read)
      (g := Reading.object name)).symm

theorem verdict_readEntry (key value : Element) (pair : Object) :
    Outcome.verdict (codec.readEntry read key value pair) =
      [key.lastReading pair mapKeyId, value.lastReading pair mapValueId].forM
        (codec.accept read) := by
  rw [Outcome.forM_cons, Outcome.forM_cons, ← verdict_readLast, ← verdict_readLast, readEntry]
  cases codec.readLast read key pair mapKeyId with
  | error error => rfl
  | ok keyRead => cases codec.readLast read value pair mapValueId <;> rfl

/-- A field that is not missing is read value by value. -/
theorem verdict_readField {field : ResolvedField} {object : Object}
    (hthere : ¬field.IsMissing object) :
    Outcome.verdict (codec.readField read field object) =
      (field.readings object).forM (codec.accept read) := by
  unfold readField ResolvedField.readings
  cases hshape : field.shape with
  | singular element =>
    have hcount : object.count field.wire field.id ≠ 0 :=
      fun hcount => hthere ⟨⟨element, hshape⟩, hcount⟩
    simp only [if_neg hcount, Outcome.verdict_map, verdict_readLast, Outcome.forM_singleton]
  | option element =>
    by_cases hcount : object.count field.wire field.id = 0
    · simp only [if_pos hcount]
      rfl
    · simp only [if_neg hcount, Outcome.verdict_map, verdict_readLast, Outcome.forM_singleton]
  | list element => simp only [Outcome.verdict_map, verdict_readAll]
  | map key value =>
    simp only [Outcome.forM_flatMap, ← verdict_readEntry, ← Outcome.verdict_mapM]
    exact Outcome.verdict_map _ _

theorem decodeField_of_isMissing {field : ResolvedField} {object : Object}
    (hmissing : field.IsMissing object) (typeName : String) :
    codec.decodeField read typeName field object =
      .error (.decode (.ofCause (.missingField typeName field.name field.id))) := by
  obtain ⟨⟨element, hshape⟩, hcount⟩ := hmissing
  simp only [decodeField, hshape, hcount]

theorem decodeField_of_not_isMissing {field : ResolvedField} {object : Object}
    (hthere : ¬field.IsMissing object) (typeName : String) :
    codec.decodeField read typeName field object =
      (codec.readField read field object).mapError (.inside field.name) := by
  rw [decodeField]
  split
  · next element hshape hcount => exact absurd ⟨⟨element, hshape⟩, hcount⟩ hthere
  · rfl

theorem verdict_decodeField {field : ResolvedField} {object : Object}
    (hthere : ¬field.IsMissing object) (typeName : String) :
    Outcome.verdict (codec.decodeField read typeName field object) =
      ((field.readings object).forM (codec.accept read)).mapError (.inside field.name) := by
  rw [← verdict_readField hthere, ← Outcome.verdict_mapError,
    decodeField_of_not_isMissing hthere]

/-- Decoding goes through the fields of the type in turn. -/
theorem verdict_decodeFields {typeName : String} {type : ResolvedType}
    (htype : codec.type typeName = .ok type) (object : Object) :
    Outcome.verdict (codec.decodeFields read typeName object) =
      type.fields.forM fun field =>
        Outcome.verdict (codec.decodeField read typeName field object) := by
  have hentry : ∀ field : ResolvedField,
      Outcome.verdict (codec.decodeField read type.qualified field object >>= fun value =>
          pure (field.id, value)) =
        Outcome.verdict (codec.decodeField read typeName field object) := by
    intro field
    rw [qualified_of_type_eq_ok htype]
    cases codec.decodeField read typeName field object <;> rfl
  calc
    Outcome.verdict (codec.decodeFields read typeName object)
      = Outcome.verdict (type.fields.mapM fun field =>
          codec.decodeField read type.qualified field object >>= fun value =>
            pure (field.id, value)) := by
        rw [decodeFields, htype]
        exact Outcome.verdict_map _ _
    _ = type.fields.forM fun field =>
          Outcome.verdict (codec.decodeField read typeName field object) := by
        rw [Outcome.verdict_mapM]
        simp only [hentry]

/-! ## Failures are first defects -/

/-- Reading a value succeeds if it is sound, and fails with its first defect. -/
structure Judges (codec : Codec) (read : Decoder) (reading : Reading) : Prop where
  ok_iff : codec.accept read reading = .ok () ↔ reading.Sound codec
  error_iff : ∀ error, codec.accept read reading = .error error ↔
    ∃ trail cause, error = .decode ⟨trail, cause⟩ ∧ FirstDefect codec reading trail cause

theorem judges_scalar (value : Scalar) : codec.Judges read (.scalar value) where
  ok_iff := by
    refine ⟨fun _ trail cause hdefect => ?_, fun _ => rfl⟩
    cases hdefect
  error_iff error := by
    constructor
    · intro hfailed
      cases hfailed
    · rintro ⟨trail, cause, -, hdefect⟩
      cases hdefect

theorem checkValue_eq {enumName : String} (hknows : codec.Knows (.enumeration enumName))
    (value : UInt32) :
    codec.checkValue enumName value =
      if codec.declares enumName value then .ok ()
      else .error (.decode (.ofCause (.unknownEnumValue enumName value))) := by
  obtain ⟨decl, hdecl⟩ := Option.isSome_iff_exists.mp hknows
  simp only [checkValue, declares, hdecl]

theorem judges_number {enumName : String} (hknows : codec.Knows (.enumeration enumName))
    (value : UInt32) : codec.Judges read (.number enumName value) := by
  have haccept : codec.accept read (.number enumName value) =
      if codec.declares enumName value then .ok ()
      else .error (.decode (.ofCause (.unknownEnumValue enumName value))) :=
    checkValue_eq hknows value
  cases hdeclared : codec.declares enumName value with
  | true =>
    rw [hdeclared, if_pos rfl] at haccept
    have hsound := Reading.sound_number_iff.mpr hdeclared
    refine ⟨iff_of_true haccept hsound, fun error => iff_of_false (by simp [haccept]) ?_⟩
    rintro ⟨trail, cause, -, hfirst⟩
    exact hsound trail cause hfirst.defect
  | false =>
    rw [hdeclared, if_neg Bool.false_ne_true] at haccept
    refine ⟨iff_of_false (by simp [haccept]) ?_, fun error => ?_⟩
    · simp [Reading.sound_number_iff, hdeclared]
    · rw [haccept, Except.error.injEq]
      constructor
      · rintro rfl
        exact ⟨[], _, rfl, .undeclared hdeclared⟩
      · rintro ⟨trail, cause, rfl, hdefect⟩
        cases hdefect
        rfl

section Field

variable {field : ResolvedField} {object : Object} {typeName : String}

theorem readings_eq_nil_of_isMissing (hmissing : field.IsMissing object) :
    field.readings object = [] := by
  obtain ⟨⟨element, hshape⟩, hcount⟩ := hmissing
  simp only [ResolvedField.readings, hshape, if_pos hcount]

variable (hjudges : ∀ reading ∈ field.readings object, codec.Judges read reading)

include hjudges

theorem verdict_decodeField_eq_ok_iff :
    Outcome.verdict (codec.decodeField read typeName field object) = .ok () ↔
      field.Sound codec object := by
  by_cases hmissing : field.IsMissing object
  · rw [decodeField_of_isMissing hmissing]
    exact iff_of_false (by simp) fun hsound => hsound.1 hmissing
  · rw [verdict_decodeField hmissing, Outcome.mapError_eq_ok_iff, Outcome.forM_eq_ok_iff]
    constructor
    · intro hok
      exact ⟨hmissing, fun reading hmem => (hjudges reading hmem).ok_iff.mp (hok reading hmem)⟩
    · intro hsound reading hmem
      exact (hjudges reading hmem).ok_iff.mpr (hsound.2 reading hmem)

theorem verdict_decodeField_eq_error_iff {error : CodecError} :
    Outcome.verdict (codec.decodeField read typeName field object) = .error error ↔
      ∃ trail cause, error = .decode ⟨trail, cause⟩ ∧
        field.FirstDefect codec typeName object trail cause := by
  by_cases hmissing : field.IsMissing object
  · rw [decodeField_of_isMissing hmissing]
    simp [ResolvedField.FirstDefect, hmissing, readings_eq_nil_of_isMissing hmissing,
      DecodeError.ofCause, eq_comm]
  · rw [verdict_decodeField hmissing, Outcome.mapError_eq_error_iff]
    constructor
    · rintro ⟨inner, hinner, rfl⟩
      obtain ⟨done, reading, rest, hsplit, hdone, hfailed⟩ := Outcome.forM_eq_error_iff.mp hinner
      have hmem : reading ∈ field.readings object := by simp [hsplit]
      obtain ⟨trail, cause, rfl, hfirst⟩ := ((hjudges reading hmem).error_iff inner).mp hfailed
      have hsound : ∀ earlier ∈ done, earlier.Sound codec := fun earlier hearlier =>
        (hjudges earlier (by simp [hsplit, hearlier])).ok_iff.mp (hdone earlier hearlier)
      exact ⟨_, cause, rfl, .inr ⟨done, reading, rest, trail, hsplit, hsound, hfirst, rfl⟩⟩
    · rintro ⟨trail, cause, rfl, hfield⟩
      rcases hfield with ⟨habsent, -⟩ | ⟨done, reading, rest, inner, hsplit, hdone, hfirst, rfl⟩
      · exact absurd habsent hmissing
      have hmem : reading ∈ field.readings object := by simp [hsplit]
      refine ⟨.decode ⟨inner, cause⟩, Outcome.forM_eq_error_iff.mpr ?_, rfl⟩
      refine ⟨done, reading, rest, hsplit, fun earlier hearlier => ?_, ?_⟩
      · exact (hjudges earlier (by simp [hsplit, hearlier])).ok_iff.mpr (hdone earlier hearlier)
      · exact ((hjudges reading hmem).error_iff _).mpr ⟨inner, cause, rfl, hfirst⟩

end Field

/-! ## One level, and all of them -/

/-- One more level of nesting: an object is judged if all that is read in it is. -/
theorem judges_object {typeName : String} {type : ResolvedType} {object : Object}
    (htype : codec.type typeName = .ok type)
    (hjudges : ∀ field ∈ type.fields, ∀ reading ∈ field.readings object,
      codec.Judges read reading) :
    codec.Judges (codec.decodeFields read) (.object typeName object) := by
  have haccept : codec.accept (codec.decodeFields read) (.object typeName object) =
      type.fields.forM fun field =>
        Outcome.verdict (codec.decodeField read typeName field object) :=
    verdict_decodeFields htype object
  refine ⟨?_, fun error => ?_⟩
  · rw [haccept, Outcome.forM_eq_ok_iff, Reading.sound_object_iff htype]
    exact forall₂_congr fun field hfield => verdict_decodeField_eq_ok_iff (hjudges field hfield)
  rw [haccept, Outcome.forM_eq_error_iff]
  constructor
  · rintro ⟨before, field, after, hsplit, hbefore, hfailed⟩
    have hjudged := hjudges field (by simp [hsplit])
    obtain ⟨trail, cause, rfl, hfirst⟩ := (verdict_decodeField_eq_error_iff hjudged).mp hfailed
    refine ⟨trail, cause, rfl, (firstDefect_object_iff htype).mpr ?_⟩
    refine ⟨before, field, after, hsplit, fun earlier hearlier => ?_, hfirst⟩
    exact (verdict_decodeField_eq_ok_iff (hjudges earlier (by simp [hsplit, hearlier]))).mp
      (hbefore earlier hearlier)
  · rintro ⟨trail, cause, rfl, hfirst⟩
    obtain ⟨before, field, after, hsplit, hbefore, hfield⟩ :=
      (firstDefect_object_iff htype).mp hfirst
    have hjudged := hjudges field (by simp [hsplit])
    refine ⟨before, field, after, hsplit, fun earlier hearlier => ?_, ?_⟩
    · exact (verdict_decodeField_eq_ok_iff (hjudges earlier (by simp [hsplit, hearlier]))).mpr
        (hbefore earlier hearlier)
    · exact (verdict_decodeField_eq_error_iff hjudged).mpr ⟨trail, cause, rfl, hfield⟩

/-- A reader of enough levels judges everything the codec knows. -/
theorem judges_decodeTo (hclosed : codec.Closed) {bound : Nat} {reading : Reading}
    (hknown : reading.IsKnown codec) (hdepth : reading.depth ≤ bound) :
    codec.Judges (codec.decodeTo bound) reading := by
  induction bound generalizing reading with
  | zero =>
    cases reading with
    | scalar value => exact judges_scalar value
    | number enumName value => exact judges_number hknown value
    | object typeName object => exact absurd hdepth (Nat.not_le.mpr (Object.depth_pos object))
  | succ bound ih =>
    cases reading with
    | scalar value => exact judges_scalar value
    | number enumName value => exact judges_number hknown value
    | object typeName object =>
      obtain ⟨type, htype⟩ := hknown
      apply judges_object htype
      intro field hfield reading hmem
      have hless := ResolvedField.depth_lt_of_mem_readings hmem
      apply ih
      · exact ResolvedField.isKnown_of_mem_readings
          (hclosed type (mem_types_of_type_eq_ok htype) field hfield) hmem
      · exact Nat.le_of_lt_succ (Nat.lt_of_lt_of_le hless hdepth)

theorem judges_decode (hclosed : codec.Closed) {typeName : String}
    (hknown : codec.Knows (.named typeName)) (object : Object) :
    ((∃ record, codec.decode typeName object = .ok record) ↔
        (Reading.object typeName object).Sound codec) ∧
      ∀ error, codec.decode typeName object = .error error ↔
        ∃ trail cause, error = .decode ⟨trail, cause⟩ ∧
          FirstDefect codec (.object typeName object) trail cause := by
  have hjudges : codec.Judges (codec.decodeTo (object.depth + 1)) (.object typeName object) :=
    judges_decodeTo hclosed hknown (Nat.le_succ object.depth)
  refine ⟨?_, fun error => ?_⟩
  · rw [← hjudges.ok_iff]
    exact Outcome.verdict_eq_ok_iff.symm
  · rw [← hjudges.error_iff]
    exact Outcome.verdict_eq_error_iff.symm

end Codec

/-! ## Failures of decoding -/

/-- Seen from one field further out, a path is still one path, with the field in front. -/
theorem Wire.DecodeError.path?_inside (error : DecodeError) (field : String) :
    (error.inside field).path? =
      some ((error.path?.map fun path => field ++ "." ++ path).getD field) := by
  obtain ⟨trail, cause⟩ := error
  cases trail with
  | nil => simp [path?, inside]
  | cons first rest => simp [path?, inside, String.intercalate_cons_cons]

/-- Every failure is its cause, passed out through the fields of its trail. -/
theorem Wire.DecodeError.foldr_inside (trail : List String) (cause : DecodeCause) :
    trail.foldr inside (ofCause cause) = ⟨trail, cause⟩ := by
  induction trail with
  | nil => rfl
  | cons field rest ih =>
    rw [List.foldr_cons, ih]
    rfl

/-- A cause that is passed out through fields one after the other has their names, joined by dots,
as its path. -/
theorem Wire.DecodeError.path?_foldr_inside (fields : List String) (cause : DecodeCause) :
    (fields.foldr inside (ofCause cause)).path? =
      if fields = [] then none else some (".".intercalate fields) := by
  induction fields with
  | nil => rfl
  | cons field rest ih =>
    rw [List.foldr_cons, path?_inside, ih]
    cases rest with
    | nil => simp
    | cons next rest => simp [String.intercalate_cons_cons]

namespace Resolution

/-- Decoding a type or component fails exactly on defective objects.  The failure is always one of
decoding, and it is the first defect together with the fields that lead to it.  Passed out through
these fields one by one, the cause has their names joined by dots as its path, and there is no path
if the object itself is at fault. -/
theorem decode_eq_error_iff (resolution : Resolution) {typeName : String}
    (hname : typeName ∈ resolution.index.resolvableNames) (object : Object) :
    ((∃ error, resolution.codec.decode typeName object = .error error) ↔
      ∃ trail cause, Defect resolution.codec (.object typeName object) trail cause) ∧
    (∀ error, resolution.codec.decode typeName object = .error error ↔
      ∃ trail cause, error = .decode ⟨trail, cause⟩ ∧
        FirstDefect resolution.codec (.object typeName object) trail cause) ∧
    ∀ failure : DecodeError,
      failure = failure.trail.foldr DecodeError.inside (.ofCause failure.cause) ∧
      (∀ fields cause, (fields.foldr DecodeError.inside (.ofCause cause)).path? =
        if fields = [] then none else some (".".intercalate fields)) ∧
      ∀ field, (failure.inside field).path? =
        some ((failure.path?.map fun path => field ++ "." ++ path).getD field) := by
  obtain ⟨hok, herror⟩ :=
    Codec.judges_decode resolution.closed (resolution.exists_type hname) object
  refine ⟨⟨?_, ?_⟩, herror, fun failure =>
    ⟨(DecodeError.foldr_inside failure.trail failure.cause).symm,
      DecodeError.path?_foldr_inside, failure.path?_inside⟩⟩
  · rintro ⟨error, hfailed⟩
    obtain ⟨trail, cause, -, hfirst⟩ := (herror error).mp hfailed
    exact ⟨trail, cause, hfirst.defect⟩
  · rintro ⟨trail, cause, hdefect⟩
    cases hdecode : resolution.codec.decode typeName object with
    | error error => exact ⟨error, rfl⟩
    | ok record => exact absurd hdefect (hok.mp ⟨record, hdecode⟩ trail cause)

/-- A node without a weight, which holds by name a node with an undeclared mode. -/
def faultyObject : Object :=
  .mk [(1, .scalar (.string "root"))]
    [(3, .mk [(1, .scalar (.string "child"))]
      [(2, .mk [(1, .scalar (.string "leaf")), (5, .scalar (.double ⟨0⟩))]
        [(6, .mk [(1, .enumeration 7)] [])])])]

theorem decode_eq_error_iff_faulty :
    "shapes.Node" ∈ ofNodes.index.resolvableNames ∧
      ofNodes.codec.decode "shapes.Node" faultyObject =
          .error (.decode ⟨["by_name", "by_mode"], .unknownEnumValue "shapes.Mode" 7⟩) ∧
        FirstDefect ofNodes.codec (.object "shapes.Node" faultyObject) ["by_name", "by_mode"]
          (.unknownEnumValue "shapes.Mode" 7) := by
  have hname : "shapes.Node" ∈ ofNodes.index.resolvableNames := by decide
  have hdecode : ofNodes.codec.decode "shapes.Node" faultyObject =
      .error (.decode ⟨["by_name", "by_mode"], .unknownEnumValue "shapes.Mode" 7⟩) := by
    with_unfolding_all rfl
  obtain ⟨-, hfailures, -⟩ := ofNodes.decode_eq_error_iff hname faultyObject
  obtain ⟨trail, cause, heq, hfirst⟩ := (hfailures _).mp hdecode
  cases heq
  exact ⟨hname, hdecode, hfirst⟩

end Resolution

end SchemaLoom
