import SchemaLoom.Proofs.WrittenLog

/-!
# Records through the wire

Decoding inverts encoding up to normal form, to every depth of nesting.  The fields of a type have
different numbers, so in the log of a record each field finds exactly the part that was written for
it.
-/

namespace SchemaLoom.Codec

open Wire

/-- No type of the codec has two fields of one number. -/
def UniqueIds (codec : Codec) : Prop :=
  ∀ type ∈ codec.types, (type.fields.map (·.id)).Nodup

variable {codec : Codec} {nested : Encoder} {read : Decoder} {bound : Nat}

/-! ## One field -/

/-- A field whose log is what one value wrote is decoded to the normal form of the value. -/
theorem decodeField_of_writes {typeName : String} {field : ResolvedField} {value : FieldValue}
    {object : Object} {parts : List Object} (hinverts : Inverts codec nested read bound)
    (hwrites : WritesField nested field.id field.shape value parts)
    (hsame : Object.SameAt field.id object (.concat parts))
    (hreadable : value.obeys codec (.readable codec) field.shape)
    (hdepth : (Object.concat parts).depth ≤ bound + 1) :
    codec.decodeField read typeName field object = .ok (value.normalize codec field.shape) := by
  rw [FieldValue.obeys_iff] at hreadable
  obtain ⟨hsize, hparts⟩ := hreadable
  replace hsize : value.size ≤ greatestCount := by simpa [Rules.readable] using hsize
  generalize hshape : field.shape = shape at hwrites hparts
  cases hwrites with
  | @singular element value part hvalue =>
    exact decodeField_singular hinverts hsame (.cons hvalue .nil)
      (by simpa [FieldValue.parts] using hparts) hsize hdepth hshape rfl
  | absent element =>
    exact decodeField_option hinverts hsame .nil (by simp) hsize hdepth hshape
  | present hvalue =>
    exact decodeField_option hinverts hsame (.cons hvalue .nil)
      (by simpa [FieldValue.parts] using hparts) hsize hdepth hshape
  | list hvalues =>
    rw [FieldValue.normalize, Value.normalizeAll_eq_map]
    exact decodeField_list hinverts hsame hvalues
      (by simpa [FieldValue.parts] using hparts) hsize hdepth hshape
  | map hentries =>
    exact decodeField_map hinverts hsame hentries
      (FieldValue.forall_mem_parts_map.mp hparts) hsize hdepth hshape

/-! ## The log of a record -/

/-- Parts of other numbers leave a number without values. -/
theorem sameAt_concat_empty {fields : List ResolvedField} {parts : List Object}
    (honly : List.Forall₂ (fun field part => Object.Only field.id part) fields parts) {id : UInt32}
    (hnew : id ∉ fields.map (·.id)) : Object.SameAt id (.concat parts) .empty := by
  induction honly with
  | nil => exact .refl id _
  | cons hfirst _ ih =>
    rw [List.map_cons, List.mem_cons, not_or] at hnew
    exact (hfirst.sameAt_empty hnew.1).append (ih hnew.2)

/-- Where the numbers differ, each field finds its own part in the whole log. -/
theorem sameAt_concat {fields : List ResolvedField} {parts : List Object}
    (honly : List.Forall₂ (fun field part => Object.Only field.id part) fields parts)
    (hnodup : (fields.map (·.id)).Nodup) :
    List.Forall₂ (fun field part => Object.SameAt field.id (.concat parts) part) fields parts := by
  induction honly with
  | nil => exact .nil
  | @cons field part fields parts hfirst hrest ih =>
    obtain ⟨hnew, hnodup⟩ := List.nodup_cons.mp hnodup
    have hhead : Object.SameAt field.id (part ++ .concat parts) part := by
      simpa using (Object.SameAt.refl field.id part).append (sameAt_concat_empty hrest hnew)
    refine .cons hhead (Outcome.forall₂_imp_of_mem (ih hnodup) fun other hother part' _ hsame => ?_)
    have hne : other.id ≠ field.id := by
      intro heq
      exact hnew (List.mem_map.mpr ⟨other, hother, heq⟩)
    rw [Object.concat]
    simpa using (hfirst.sameAt_empty hne).append hsame

/-- The log of a record holds, under the number of each field, what the field's value wrote. -/
theorem exists_parts_of_encodeFields {typeName : String} {record : Record} {written : Object}
    (hunique : codec.UniqueIds)
    (hencode : codec.encodeFields nested typeName record .empty = (written, .ok ())) :
    ∃ type, codec.type typeName = .ok type ∧ ∀ field ∈ type.fields, ∃ value parts,
      record.get? field.id = some value ∧ WritesField nested field.id field.shape value parts ∧
        Object.SameAt field.id written (.concat parts) := by
  rw [encodeFields_eq] at hencode
  cases htype : codec.type typeName with
  | error error =>
    rw [htype] at hencode
    cases hencode
  | ok type =>
    rw [htype] at hencode
    obtain ⟨parts, hparts, rfl⟩ := (writeAll_eq_ok_iff fun field _ =>
      appends_encodeEntry nested typeName record field).mp hencode
    have hwritten : List.Forall₂
        (fun field part => ∃ value parts, record.get? field.id = some value ∧
          WritesField nested field.id field.shape value parts ∧ part = .concat parts)
        type.fields parts := hparts.imp fun _ _ => exists_parts_of_encodeEntry
    have honly : List.Forall₂ (fun field part => Object.Only field.id part) type.fields parts := by
      refine hwritten.imp fun field part => ?_
      rintro ⟨value, elements, -, hwrites, rfl⟩
      exact hwrites.only
    have hsame := sameAt_concat honly (hunique type (mem_types_of_type_eq_ok htype))
    refine ⟨type, rfl, fun field hfield => ?_⟩
    obtain ⟨part, -, ⟨value, elements, hget, hwrites, rfl⟩, hpart⟩ :=
      Outcome.exists_right_of_mem (hwritten.mp (fun _ _ => And.intro) hsame) hfield
    exact ⟨value, elements, hget, hwrites, hpart⟩

/-! ## Records of any depth -/

/-- Looking up a number among values made from fields finds the field of that number. -/
theorem get?_map_fields (fields : List ResolvedField) (make : ResolvedField → FieldValue)
    (id : UInt32) :
    Record.get? (fields.map fun field => (field.id, make field)) id =
      (fields.find? (·.id == id)).map make := by
  induction fields with
  | nil => rfl
  | cons field fields ih =>
    rw [List.map_cons, Record.get?_cons, ih]
    by_cases heq : id = field.id
    · simp [heq]
    · have hne : (field.id == id) = false := by simpa using Ne.symm heq
      simp [heq, hne]

theorem find?_id_of_mem {fields : List ResolvedField} (hnodup : (fields.map (·.id)).Nodup)
    {field : ResolvedField} (hmem : field ∈ fields) :
    fields.find? (·.id == field.id) = some field := by
  induction fields with
  | nil => simp at hmem
  | cons first rest ih =>
    obtain ⟨hnew, hnodup⟩ := List.nodup_cons.mp hnodup
    rcases List.mem_cons.mp hmem with rfl | hmem
    · simp
    · have hne : (first.id == field.id) = false := by
        simp only [beq_eq_false_iff_ne]
        intro heq
        exact hnew (List.mem_map.mpr ⟨field, hmem, heq.symm⟩)
      rw [List.find?_cons, hne]
      exact ih hnodup hmem

theorem field?_eq_find? {typeName : String} {type : ResolvedType}
    (htype : codec.type typeName = .ok type) (id : UInt32) :
    codec.field? typeName id = type.fields.find? (·.id == id) := by
  rw [Codec.field?, htype]
  rfl

/-- In a codec without repeated numbers a field of a type is found under its number. -/
theorem field?_of_mem (hunique : codec.UniqueIds) {typeName : String} {type : ResolvedType}
    (htype : codec.type typeName = .ok type) {field : ResolvedField} (hmem : field ∈ type.fields) :
    codec.field? typeName field.id = some field :=
  field?_eq_some_iff.mpr
    ⟨type, htype, find?_id_of_mem (hunique type (mem_types_of_type_eq_ok htype)) hmem⟩

/-- A record made of the normal forms of the values of all fields is the normal form. -/
theorem ofList_eq_normalize {typeName : String} {type : ResolvedType} {record : Record}
    (htype : codec.type typeName = .ok type) (hnodup : (type.fields.map (·.id)).Nodup)
    {make : ResolvedField → FieldValue}
    (hmake : ∀ field ∈ type.fields, ∃ value, record.get? field.id = some value ∧
      make field = value.normalize codec field.shape) :
    Record.ofList (type.fields.map fun field => (field.id, make field)) =
      Record.normalize codec typeName record := by
  refine Record.ext_get? (Record.ascending_ofList _) (Record.ascending_normalize record)
    fun id => ?_
  have hids : (type.fields.map fun field => (field.id, make field)).map (·.1) =
      type.fields.map (·.id) := by simp
  rw [Record.get?_ofList (hids ▸ hnodup), get?_map_fields, Record.get?_normalize,
    field?_eq_find? htype]
  cases hfind : type.fields.find? (·.id == id) with
  | none => rfl
  | some field =>
    obtain ⟨value, hget, hvalue⟩ := hmake field (List.mem_of_find?_eq_some hfind)
    have hid : field.id = id := by simpa using List.find?_some hfind
    rw [hid] at hget
    simp [hget, hvalue]

/-- Every type the writer knows is known to the reader, with some or all of its fields. -/
def Within (reader writer : Codec) : Prop :=
  ∀ typeName type, writer.type typeName = .ok type →
    ∃ own, reader.type typeName = .ok own ∧ ∀ field ∈ own.fields, field ∈ type.fields

theorem Within.refl (codec : Codec) : codec.Within codec :=
  fun _ type htype => ⟨type, htype, fun _ hfield => hfield⟩

section Within

variable {reader writer : Codec}
variable (hreader : reader.UniqueIds) (hwriter : writer.UniqueIds)
variable (hwithin : reader.Within writer)

include hreader hwriter hwithin

/-- One more level of nesting: if the inner records come back, so does the record.  What was written
for fields the reader does not have stands under other numbers. -/
theorem inverts_step (hinverts : Inverts reader nested read bound) :
    Inverts reader (writer.encodeFields nested) (reader.decodeFields read) (bound + 1) := by
  intro typeName record written hencode hreadable hdepth
  obtain ⟨type, htype, hfields⟩ := exists_parts_of_encodeFields hwriter hencode
  obtain ⟨own, hown, hincluded⟩ := hwithin typeName type htype
  have hobeys := Record.obeysFields_iff.mp (Bool.and_eq_true _ _ ▸ hreadable : _ ∧ _).2
  have hnodup := hreader own (mem_types_of_type_eq_ok hown)
  have hdecoded : ∀ field ∈ own.fields, ∃ value, record.get? field.id = some value ∧
      reader.decodeField read own.qualified field written =
        .ok (value.normalize reader field.shape) := by
    intro field hfield
    obtain ⟨value, parts, hget, hwrites, hsame⟩ := hfields field (hincluded field hfield)
    have hless := hsame.depth_le hwrites.only
    have hknown := field?_of_mem hreader hown hfield
    have hvalue := hobeys field.id value (Record.mem_of_get?_eq_some hget) field hknown
    exact ⟨value, hget, decodeField_of_writes hinverts hwrites hsame hvalue (by omega)⟩
  choose! value hget hvalue using hdecoded
  have hnormalize : Record.ofList (own.fields.map fun field =>
      (field.id, (value field).normalize reader field.shape)) =
        Record.normalize reader typeName record :=
    ofList_eq_normalize hown hnodup fun field hfield => ⟨value field, hget field hfield, rfl⟩
  refine decodeFields_eq_ok_iff.mpr ⟨own, hown, _, ?_, hnormalize⟩
  rw [List.forall₂_map_right_iff, List.forall₂_same]
  exact fun field hfield => ⟨rfl, hvalue field hfield⟩

/-- Decoding to a depth inverts encoding for every object that is nested no deeper. -/
theorem inverts_within (depth bound : Nat) :
    Inverts reader (writer.encodeTo depth) (reader.decodeTo bound) bound := by
  induction depth generalizing bound with
  | zero =>
    intro typeName record written hencode
    cases hencode
  | succ depth ih =>
    intro typeName record written hencode hreadable hdepth
    cases bound with
    | zero =>
      have hpositive := written.depth_pos
      omega
    | succ bound =>
      exact inverts_step hreader hwriter hwithin (ih bound) typeName record written hencode
        hreadable hdepth

/-- What one codec wrote is read by another one that has some of its fields as the normal form the
other one asks for. -/
theorem decode_of_encode_within {typeName : String} {record : Record} {written : Object}
    (hencode : writer.encode typeName record .empty = (written, .ok ()))
    (hreadable : record.obeys reader (.readable reader) typeName) :
    reader.decode typeName written = .ok (Record.normalize reader typeName record) :=
  inverts_within hreader hwriter hwithin _ _ typeName record written hencode hreadable
    (Nat.le_succ _)

end Within

theorem inverts_encodeTo (hunique : codec.UniqueIds) (depth bound : Nat) :
    Inverts codec (codec.encodeTo depth) (codec.decodeTo bound) bound :=
  inverts_within hunique hunique (.refl codec) depth bound

/-- What was written for a readable record is read as the normal form of the record. -/
theorem decode_of_encode (hunique : codec.UniqueIds) {typeName : String} {record : Record}
    {written : Object} (hencode : codec.encode typeName record .empty = (written, .ok ()))
    (hreadable : record.obeys codec (.readable codec) typeName) :
    codec.decode typeName written = .ok (Record.normalize codec typeName record) :=
  decode_of_encode_within hunique hunique (.refl codec) hencode hreadable

end SchemaLoom.Codec
