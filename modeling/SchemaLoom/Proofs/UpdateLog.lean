import SchemaLoom.Proofs.EncodingDepth
import SchemaLoom.Proofs.Transport
import SchemaLoom.Record.Draft

/-!
# The log of an update

Updates of fields, one after the other, leave in the log of an update the parts of their values in
turn, and mark a field as cleared whenever one of its values counts as nothing.  Under the number of
a field stand exactly the parts of the values for that field, however the updates are interleaved.
-/

namespace SchemaLoom.Codec

open Wire

variable {codec : Codec} {typeName : String}

/-- Update fields in turn and stop at the first failure. -/
def updateFields (codec : Codec) (typeName : String) (calls : List (UInt32 × FieldValue)) :
    Update → Update × Except CodecError Unit :=
  Draft.performAll (calls.map fun call update => codec.updateField typeName update call.1 call.2)

/-! ## One call -/

/-- The parts that a call for a field of the type writes. -/
def WritesCall (codec : Codec) (typeName : String) (call : UInt32 × FieldValue)
    (parts : List Object) : Prop :=
  ∃ field, codec.field? typeName call.1 = some field ∧
    WritesField codec.encode call.1 field.shape call.2 parts

theorem id_of_field? {id : UInt32} {field : ResolvedField}
    (hfield : codec.field? typeName id = some field) : field.id = id := by
  obtain ⟨type, -, hfind⟩ := field?_eq_some_iff.mp hfield
  simpa using List.find?_some hfind

theorem WritesField.fits {nested : Encoder} {id : UInt32} {shape : Shape Element}
    {value : FieldValue} {parts : List Object} (hwrites : WritesField nested id shape value parts) :
    fits shape value := by
  cases hwrites <;> rfl

/-- A value that counts as nothing writes nothing. -/
theorem writesField_absent (nested : Encoder) (id : UInt32) {shape : Shape Element}
    {value : FieldValue} (hfits : fits shape value) (habsent : value.isAbsent) :
    WritesField nested id shape value [] := by
  cases value with
  | singular value => cases habsent
  | option value =>
    obtain rfl := Option.isNone_iff_eq_none.mp habsent
    cases shape with
    | option element => exact .absent element
    | _ => cases hfits
  | list values =>
    obtain rfl := List.isEmpty_iff.mp habsent
    cases shape with
    | list element => exact .list .nil
    | _ => cases hfits
  | map entries =>
    obtain rfl := List.isEmpty_iff.mp habsent
    cases shape with
    | map keyElement valueElement => exact .map .nil
    | _ => cases hfits

/-- A call in one step: the records inside a value are less deep than the value. -/
theorem updateField_eq {id : UInt32} {field : ResolvedField}
    (hfield : codec.field? typeName id = some field) {value : FieldValue}
    (hfits : fits field.shape value) (update : Update) :
    codec.updateField typeName update id value =
      if value.isAbsent then (update.clear id, .ok ())
      else
        ({ update with fields := update.fields ++ (encodeField codec.encode field value .empty).1 },
          (encodeField codec.encode field value .empty).2) := by
  obtain ⟨type, htype, hfind⟩ := field?_eq_some_iff.mp hfield
  -- The depth depends on the value; in terms of `encode` all calls write with one encoder.
  have hencode : encodeField (codec.encodeTo (value.depth + 1)) field value =
      encodeField codec.encode field value := by
    apply encodeField_congr
    intro name inner hinner
    have hdepth := FieldValue.depth_le_of_mem_elements hinner
    simp only [Value.depth] at hdepth
    rw [encodeTo_eq_encode codec (by omega)]
  have happend := (appends_encodeField codec.encode field value).eq_append update.fields
  simp only [updateField, htype, hfind, hfits, hencode, happend, Bool.not_true, Bool.false_eq_true,
    if_false]

theorem exists_field_of_updateField {id : UInt32} {value : FieldValue} {update after : Update}
    (hupdate : codec.updateField typeName update id value = (after, .ok ())) :
    ∃ field, codec.field? typeName id = some field ∧ fits field.shape value := by
  unfold updateField at hupdate
  cases htype : codec.type typeName with
  | error error => simp [htype] at hupdate
  | ok type =>
    cases hfind : type.fieldById? id with
    | none => simp [htype, hfind] at hupdate
    | some field =>
      refine ⟨field, field?_eq_some_iff.mpr ⟨type, htype, hfind⟩, ?_⟩
      by_cases hfits : fits field.shape value
      · exact hfits
      · simp [htype, hfind, hfits] at hupdate

theorem isCleared_clear (update : Update) (id other : UInt32) :
    (update.clear id).isCleared other = (update.isCleared other || id == other) := by
  unfold Update.clear Update.isCleared
  by_cases hknown : update.cleared.contains id
  · rw [if_pos hknown]
    by_cases heq : id = other
    · subst heq
      simpa using hknown
    · simp [heq]
  · rw [if_neg hknown]
    by_cases heq : id = other
    · simp [heq]
    · simp [heq, Ne.symm heq]

/-- A successful call adds the parts of its value, and a mark if the value counts as nothing. -/
theorem exists_parts_of_updateField {call : UInt32 × FieldValue} {update after : Update}
    (hupdate : codec.updateField typeName update call.1 call.2 = (after, .ok ())) :
    ∃ parts, codec.WritesCall typeName call parts ∧
      after.fields = update.fields ++ .concat parts ∧
        ∀ id, after.isCleared id =
          (update.isCleared id || (call.1 == id && call.2.isAbsent)) := by
  obtain ⟨field, hfield, hfits⟩ := exists_field_of_updateField hupdate
  rw [updateField_eq hfield hfits] at hupdate
  by_cases habsent : call.2.isAbsent
  · rw [if_pos habsent, Prod.mk.injEq] at hupdate
    refine ⟨[], ⟨field, hfield, writesField_absent _ _ hfits habsent⟩, ?_, fun id => ?_⟩
    · rw [← hupdate.1, Update.clear, Object.concat, Object.append_empty]
      split <;> rfl
    · rw [← hupdate.1, isCleared_clear, habsent, Bool.and_true]
  · rw [if_neg habsent, Prod.mk.injEq] at hupdate
    have hdone : encodeField codec.encode field call.2 .empty =
        ((encodeField codec.encode field call.2 .empty).1, .ok ()) := by
      rw [← hupdate.2]
    obtain ⟨parts, hwrites, hparts⟩ := exists_parts_of_encodeField hdone
    rw [id_of_field? hfield] at hwrites
    refine ⟨parts, ⟨field, hfield, hwrites⟩, ?_, fun id => ?_⟩
    · rw [← hupdate.1, ← hparts]
    · rw [← hupdate.1, Bool.eq_false_iff.mpr habsent, Bool.and_false, Bool.or_false]
      rfl

/-- Whether a call succeeds does not depend on what the update holds already. -/
theorem exists_updateField_of_writesCall {call : UInt32 × FieldValue} {parts : List Object}
    (hwrites : codec.WritesCall typeName call parts) (update : Update) :
    ∃ after, codec.updateField typeName update call.1 call.2 = (after, .ok ()) := by
  obtain ⟨field, hfield, hwrites⟩ := hwrites
  rw [updateField_eq hfield hwrites.fits]
  by_cases habsent : call.2.isAbsent
  · exact ⟨update.clear call.1, if_pos habsent⟩
  · rw [if_neg habsent]
    rw [← id_of_field? hfield] at hwrites
    rw [encodeField_of_parts hwrites]
    exact ⟨_, rfl⟩

/-! ## Calls in turn -/

theorem updateFields_cons (call : UInt32 × FieldValue) (calls : List (UInt32 × FieldValue))
    {update after : Update}
    (hfirst : codec.updateField typeName update call.1 call.2 = (after, .ok ())) :
    codec.updateFields typeName (call :: calls) update =
      codec.updateFields typeName calls after := by
  simp only [updateFields, List.map_cons, Draft.performAll, hfirst]

theorem performAll_cons_eq_ok_iff {step : Update → Update × Except CodecError Unit}
    {steps : List (Update → Update × Except CodecError Unit)} {update after : Update} :
    Draft.performAll (step :: steps) update = (after, .ok ()) ↔
      ∃ first, step update = (first, .ok ()) ∧ Draft.performAll steps first = (after, .ok ()) := by
  rw [Draft.performAll]
  obtain ⟨first, outcome⟩ := step update
  cases outcome <;> simp

theorem exists_first_of_updateFields {call : UInt32 × FieldValue}
    {calls : List (UInt32 × FieldValue)} {update after : Update}
    (hrun : codec.updateFields typeName (call :: calls) update = (after, .ok ())) :
    ∃ first, codec.updateField typeName update call.1 call.2 = (first, .ok ()) ∧
      codec.updateFields typeName calls first = (after, .ok ()) :=
  performAll_cons_eq_ok_iff.mp hrun

/-- What a run of calls leaves: the parts of all their values in turn, and a mark for each field one
of whose values counts as nothing. -/
theorem exists_parts_of_updateFields {calls : List (UInt32 × FieldValue)} {update after : Update}
    (hrun : codec.updateFields typeName calls update = (after, .ok ())) :
    ∃ logs, List.Forall₂ (codec.WritesCall typeName) calls logs ∧
      after.fields = update.fields ++ .concat logs.flatten ∧
        ∀ id, after.isCleared id =
          (update.isCleared id || (Object.valuesOf id calls).any FieldValue.isAbsent) := by
  induction calls generalizing update with
  | nil =>
    obtain rfl : update = after := congrArg Prod.fst hrun
    exact ⟨[], .nil, (Object.append_empty _).symm, fun id => (Bool.or_false _).symm⟩
  | cons call calls ih =>
    obtain ⟨first, hfirst, hrest⟩ := exists_first_of_updateFields hrun
    obtain ⟨parts, hwrites, hparts, hmark⟩ := exists_parts_of_updateField hfirst
    obtain ⟨logs, hlogs, hfields, hmarks⟩ := ih hrest
    refine ⟨parts :: logs, .cons hwrites hlogs, ?_, fun id => ?_⟩
    · rw [hfields, hparts, Object.append_assoc, List.flatten_cons, Object.concat_append]
    · rw [hmarks, hmark, Bool.or_assoc]
      by_cases heq : call.1 = id
      · simp [Object.valuesOf_cons, heq]
      · have hbeq : (call.1 == id) = false := by simpa using heq
        simp [Object.valuesOf_cons, heq, hbeq]

/-- Calls each of which writes succeed in turn, from any update. -/
theorem exists_updateFields_of_writesCall {calls : List (UInt32 × FieldValue)}
    (hcalls : ∀ call ∈ calls, ∃ parts, codec.WritesCall typeName call parts) (update : Update) :
    ∃ after, codec.updateFields typeName calls update = (after, .ok ()) := by
  induction calls generalizing update with
  | nil => exact ⟨update, rfl⟩
  | cons call calls ih =>
    obtain ⟨⟨parts, hwrites⟩, hcalls⟩ := List.forall_mem_cons.mp hcalls
    obtain ⟨first, hfirst⟩ := exists_updateField_of_writesCall hwrites update
    obtain ⟨after, hafter⟩ := ih hcalls first
    exact ⟨after, (updateFields_cons call calls hfirst).trans hafter⟩

/-- Under one number stand the parts of the values for that number, and nothing else. -/
theorem exists_parts_at {calls : List (UInt32 × FieldValue)} {logs : List (List Object)}
    (hlogs : List.Forall₂ (codec.WritesCall typeName) calls logs) {id : UInt32}
    {field : ResolvedField} (hfield : codec.field? typeName id = some field) :
    ∃ own, List.Forall₂ (WritesField codec.encode id field.shape) (Object.valuesOf id calls) own ∧
      Object.SameAt id (.concat logs.flatten) (.concat own.flatten) := by
  induction hlogs with
  | nil => exact ⟨[], .nil, .refl id _⟩
  | @cons call parts calls logs hwrites _ ih =>
    obtain ⟨other, hother, hwrites⟩ := hwrites
    obtain ⟨own, hown, hsame⟩ := ih
    rw [List.flatten_cons, Object.concat_append, Object.valuesOf_cons]
    by_cases heq : call.1 = id
    · obtain rfl : other = field := by
        rw [heq, hfield] at hother
        exact (Option.some.inj hother).symm
      rw [heq] at hwrites
      rw [if_pos heq]
      refine ⟨parts :: own, .cons hwrites hown, ?_⟩
      rw [List.flatten_cons, Object.concat_append]
      exact (Object.SameAt.refl id _).append hsame
    · rw [if_neg heq]
      refine ⟨own, hown, ?_⟩
      simpa using (hwrites.only.sameAt_empty (Ne.symm heq)).append hsame

end SchemaLoom.Codec
