import SchemaLoom.Proofs.Defects

/-!
# Depth enough to decode

Decoding asks its reader of nested objects for what it reads in an object and for nothing else, and
all of that is nested less deeply.  So it comes to the same end for every depth that is not below
that of the object.
-/

namespace SchemaLoom.Codec

open Wire

variable {codec : Codec} {left right : Decoder}

/-! ## Readers that agree on what is read -/

theorem readLast_reader_congr {element : Element} {object : Object} {id : UInt32}
    (hsame : ∀ name inner, element.lastReading object id = .object name inner →
      left name inner = right name inner) :
    codec.readLast left element object id = codec.readLast right element object id := by
  cases element with
  | scalar kind => rfl
  | enumeration name => rfl
  | named name => rw [readLast, readLast, hsame name _ rfl]

theorem readAll_reader_congr {element : Element} {object : Object} {id : UInt32}
    (hsame : ∀ name inner, .object name inner ∈ element.readings object id →
      left name inner = right name inner) :
    codec.readAll left element object id = codec.readAll right element object id := by
  cases element with
  | scalar kind => rfl
  | enumeration name => rfl
  | named name =>
    refine Outcome.mapM_congr fun inner hinner => ?_
    rw [hsame name inner (List.mem_map_of_mem hinner)]

theorem readField_reader_congr {field : ResolvedField} {object : Object}
    (hthere : ¬field.IsMissing object)
    (hsame : ∀ name inner, .object name inner ∈ field.readings object →
      left name inner = right name inner) :
    codec.readField left field object = codec.readField right field object := by
  unfold readField
  unfold ResolvedField.readings at hsame
  cases hshape : field.shape with
  | singular element =>
    have hcount : object.count field.wire field.id ≠ 0 :=
      fun hcount => hthere ⟨⟨element, hshape⟩, hcount⟩
    simp only [hshape, if_neg hcount, List.mem_singleton] at hsame ⊢
    rw [readLast_reader_congr fun name inner hlast => hsame name inner hlast.symm]
  | option element =>
    by_cases hcount : object.count field.wire field.id = 0
    · simp only [if_pos hcount]
    · simp only [hshape, if_neg hcount, List.mem_singleton] at hsame ⊢
      rw [readLast_reader_congr fun name inner hlast => hsame name inner hlast.symm]
  | list element =>
    simp only [hshape] at hsame ⊢
    rw [readAll_reader_congr hsame]
  | map key value =>
    simp only [hshape, List.mem_flatMap] at hsame ⊢
    have hentries : ∀ pair ∈ (object.nested field.id).take greatestCount,
        codec.readEntry left key value pair = codec.readEntry right key value pair := by
      intro pair hpair
      have hkey : codec.readLast left key pair mapKeyId = codec.readLast right key pair mapKeyId :=
        readLast_reader_congr fun name inner hlast => hsame name inner ⟨pair, hpair, by simp [hlast]⟩
      have hvalue :
          codec.readLast left value pair mapValueId = codec.readLast right value pair mapValueId :=
        readLast_reader_congr fun name inner hlast => hsame name inner ⟨pair, hpair, by simp [hlast]⟩
      rw [readEntry, readEntry, hkey, hvalue]
    rw [Outcome.mapM_congr hentries]

theorem decodeField_reader_congr {field : ResolvedField} {object : Object}
    (hsame : ∀ name inner, .object name inner ∈ field.readings object →
      left name inner = right name inner) (typeName : String) :
    codec.decodeField left typeName field object =
      codec.decodeField right typeName field object := by
  by_cases hmissing : field.IsMissing object
  · rw [decodeField_of_isMissing hmissing, decodeField_of_isMissing hmissing]
  · rw [decodeField_of_not_isMissing hmissing, decodeField_of_not_isMissing hmissing,
      readField_reader_congr hmissing hsame]

theorem decodeFields_reader_congr {object : Object}
    (hsame : ∀ field : ResolvedField, ∀ name inner, .object name inner ∈ field.readings object →
      left name inner = right name inner) (typeName : String) :
    codec.decodeFields left typeName object = codec.decodeFields right typeName object := by
  have hfield : ∀ (type : ResolvedType) (field : ResolvedField),
      codec.decodeField left type.qualified field object =
        codec.decodeField right type.qualified field object :=
    fun type field => decodeField_reader_congr (hsame field) type.qualified
  simp only [decodeFields, hfield]

/-! ## Depths that are not below that of the object -/

theorem decodeTo_eq_decodeTo (codec : Codec) {object : Object} {depth depth' : Nat}
    (hdepth : object.depth ≤ depth) (hdepth' : object.depth ≤ depth') (typeName : String) :
    codec.decodeTo depth typeName object = codec.decodeTo depth' typeName object := by
  have hpos := object.depth_pos
  induction depth generalizing object depth' typeName with
  | zero => omega
  | succ depth ih =>
    cases depth' with
    | zero => omega
    | succ depth' =>
      refine decodeFields_reader_congr (fun field name inner hmem => ?_) typeName
      have hless : inner.depth < object.depth := ResolvedField.depth_lt_of_mem_readings hmem
      exact ih (by omega) (by omega) name inner.depth_pos

theorem decodeTo_eq_decode (codec : Codec) {object : Object} {depth : Nat}
    (hdepth : object.depth ≤ depth) (typeName : String) :
    codec.decodeTo depth typeName object = codec.decode typeName object :=
  decodeTo_eq_decodeTo codec hdepth (Nat.le_succ _) typeName

end SchemaLoom.Codec
