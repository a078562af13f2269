import SchemaLoom.Proofs.NormalForm
import SchemaLoom.Proofs.Reading
import SchemaLoom.Proofs.Writing

/-!
# Reading what was written

The log of a field, read back.  A reader that inverts the writer of nested records to some depth
gets every element back in normal form: the last one for singular and optional fields, all of them
in order for lists, and all entries, inserted one after the other, for maps.  The log may come from
one value of the field or from several.
-/

namespace SchemaLoom.Codec

open Wire

/-- The reader gives back, in normal form, every readable record whose object is nested no deeper
than the bound. -/
def Inverts (codec : Codec) (nested : Encoder) (read : Decoder) (bound : Nat) : Prop :=
  ∀ (name : String) (record : Record) (inner : Object),
    nested name record .empty = (inner, .ok ()) → record.obeys codec (.readable codec) name →
      inner.depth ≤ bound → read name inner = .ok (Record.normalize codec name record)

variable {codec : Codec} {nested : Encoder} {read : Decoder} {bound : Nat} {id : UInt32}

/-! ## The values in a log of elements -/

section Values

variable {values : List Value} {parts : List Object}

theorem scalars_concat {kind : ScalarKind}
    (hwrites : List.Forall₂ (WritesElement nested id (.scalar kind)) values parts) :
    ((Object.concat parts).scalars kind id).map (fun scalar => Value.atom (.scalar scalar)) =
      values := by
  induction hwrites with
  | nil => rfl
  | cons hfirst _ ih =>
    cases hfirst with
    | scalar value =>
      rw [Object.concat, Object.scalars_append, Object.scalars_ofAtom, List.map_append, ih]
      rfl

theorem enumerations_concat {name : String}
    (hwrites : List.Forall₂ (WritesElement nested id (.enumeration name)) values parts) :
    ((Object.concat parts).enumerations id).map (fun number => Value.atom (.enumeration number)) =
      values := by
  induction hwrites with
  | nil => rfl
  | cons hfirst _ ih =>
    cases hfirst with
    | enumeration _ number =>
      rw [Object.concat, Object.enumerations_append, Object.enumerations_ofAtom, List.map_append, ih]
      rfl

theorem nested_concat {name : String}
    (hwrites : List.Forall₂ (WritesElement nested id (.named name)) values parts) :
    List.Forall₂
      (fun inner value => ∃ record, value = .record record ∧
        nested name record .empty = (inner, .ok ()))
      ((Object.concat parts).nested id) values := by
  induction hwrites with
  | nil => exact .nil
  | cons hfirst _ ih =>
    cases hfirst with
    | named hinner =>
      rw [Object.concat, Object.nested_append, Object.nested_ofObject]
      exact .cons ⟨_, rfl, hinner⟩ ih

theorem written_concat {element : Element}
    (hwrites : List.Forall₂ (WritesElement nested id element) values parts) :
    (Object.concat parts).written element.wire id = values.length := by
  cases element with
  | scalar kind =>
    have hlength := congrArg List.length (scalars_concat hwrites)
    rwa [List.length_map] at hlength
  | enumeration name =>
    have hlength := congrArg List.length (enumerations_concat hwrites)
    rwa [List.length_map] at hlength
  | named name => exact (nested_concat hwrites).length_eq

theorem checkValue_of_declares {name : String} {number : UInt32}
    (hdeclares : codec.declares name number) : codec.checkValue name number = .ok () := by
  unfold declares at hdeclares
  unfold checkValue
  cases henum : codec.enum? name with
  | none => simp [henum] at hdeclares
  | some decl =>
    rw [henum] at hdeclares
    exact if_pos hdeclares

theorem normalize_of_not_named {element : Element} (hnamed : element.named? = none)
    (value : Value) : value.normalize codec element = value := by
  cases element with
  | named _ => cases hnamed
  | scalar _ => cases value <;> rfl
  | enumeration _ => cases value <;> rfl

section Countable

variable {element : Element} (hinverts : Inverts codec nested read bound)
variable (hwrites : List.Forall₂ (WritesElement nested id element) values parts)
variable (hreadable : ∀ value ∈ values, value.obeys codec (.readable codec) element)
variable (hcount : values.length ≤ greatestCount)
variable (hdepth : (Object.concat parts).depth ≤ bound + 1)

include hinverts hwrites hreadable hcount hdepth

/-- All elements of a log are read back in order. -/
theorem readAll_concat :
    codec.readAll read element (.concat parts) id =
      .ok (values.map (Value.normalize codec element)) := by
  have hwritten := written_concat hwrites
  cases element with
  | scalar kind =>
    have htake : ((Object.concat parts).scalars kind id).length ≤ greatestCount :=
      Nat.le_trans (Nat.le_of_eq hwritten) hcount
    rw [List.map_congr_left fun value _ => normalize_of_not_named rfl value, List.map_id', readAll,
      List.take_of_length_le htake, scalars_concat hwrites]
  | enumeration name =>
    have htake : ((Object.concat parts).enumerations id).length ≤ greatestCount :=
      Nat.le_trans (Nat.le_of_eq hwritten) hcount
    have hvalues := enumerations_concat hwrites
    rw [List.map_congr_left fun value _ => normalize_of_not_named rfl value, List.map_id', readAll,
      List.take_of_length_le htake, Outcome.mapM_eq_ok_iff, ← hvalues, List.forall₂_map_right_iff,
      List.forall₂_same]
    intro number hmem
    have hdeclares : codec.declares name number :=
      hreadable (.atom (.enumeration number)) (hvalues ▸ List.mem_map_of_mem hmem)
    rw [acceptEnum, checkValue_of_declares hdeclares]
    rfl
  | named name =>
    have htake : ((Object.concat parts).nested id).length ≤ greatestCount :=
      Nat.le_trans (Nat.le_of_eq hwritten) hcount
    rw [readAll, List.take_of_length_le htake, Outcome.mapM_eq_ok_iff, List.forall₂_map_right_iff]
    refine Outcome.forall₂_imp_of_mem (nested_concat hwrites) fun inner hinner value hvalue => ?_
    rintro ⟨record, rfl, hwritten⟩
    have hobeys : Record.obeys codec (.readable codec) name record := hreadable _ hvalue
    have hless := Object.depth_lt_of_mem_nested hinner
    rw [hinverts name record inner hwritten hobeys (by omega)]
    rfl

/-- The last element of a log is read back as the one value. -/
theorem readLast_concat {value : Value} (hlast : values.getLast? = some value) :
    codec.readLast read element (.concat parts) id = .ok (value.normalize codec element) := by
  refine readLast_eq_getLast ?_ (readAll_concat hinverts hwrites hreadable hcount hdepth) ?_
  · exact Nat.le_trans (Nat.le_of_eq (written_concat hwrites)) hcount
  · rw [List.getLast?_map, hlast]
    rfl

end Countable

theorem readLast_part {element : Element} {value : Value} {part : Object}
    (hinverts : Inverts codec nested read bound)
    (hwrites : WritesElement nested id element value part)
    (hreadable : value.obeys codec (.readable codec) element) (hdepth : part.depth ≤ bound + 1) :
    codec.readLast read element part id = .ok (value.normalize codec element) := by
  have hcount : 1 ≤ greatestCount := by decide
  rw [← concat_singleton part] at hdepth ⊢
  exact readLast_concat hinverts (.cons hwrites .nil) (by simpa using hreadable) hcount hdepth rfl

end Values

/-! ## The entries in a log of a map -/

section Entries

variable {keyElement valueElement : Element} {entries : List (Value × Value)} {parts : List Object}

theorem nested_concat_entries
    (hwrites : List.Forall₂ (WritesEntry nested id keyElement valueElement) entries parts) :
    List.Forall₂
      (fun pair entry => ∃ keyPart valuePart, pair = keyPart ++ valuePart ∧
        WritesElement nested mapKeyId keyElement entry.1 keyPart ∧
          WritesElement nested mapValueId valueElement entry.2 valuePart)
      ((Object.concat parts).nested id) entries := by
  induction hwrites with
  | nil => exact .nil
  | cons hfirst _ ih =>
    cases hfirst with
    | pair hkey hvalue =>
      rw [Object.concat, Object.nested_append, Object.nested_ofObject]
      exact .cons ⟨_, _, rfl, hkey, hvalue⟩ ih

/-- Key and value stand under different numbers, so neither disturbs the other. -/
theorem readEntry_pair (hinverts : Inverts codec nested read bound) {entry : Value × Value}
    {keyPart valuePart : Object} (hkey : WritesElement nested mapKeyId keyElement entry.1 keyPart)
    (hvalue : WritesElement nested mapValueId valueElement entry.2 valuePart)
    (hkeyReadable : entry.1.obeys codec (.readable codec) keyElement)
    (hvalueReadable : entry.2.obeys codec (.readable codec) valueElement)
    (hdepth : (keyPart ++ valuePart).depth ≤ bound + 1) :
    codec.readEntry read keyElement valueElement (keyPart ++ valuePart) =
      .ok (entry.1.normalize codec keyElement, entry.2.normalize codec valueElement) := by
  rw [Object.depth_append] at hdepth
  have hkeySame : Object.SameAt mapKeyId (keyPart ++ valuePart) keyPart := by
    have hempty : Object.SameAt mapKeyId valuePart .empty := hvalue.only.sameAt_empty (by decide)
    simpa using (Object.SameAt.refl mapKeyId keyPart).append hempty
  have hvalueSame : Object.SameAt mapValueId (keyPart ++ valuePart) valuePart := by
    have hempty : Object.SameAt mapValueId keyPart .empty := hkey.only.sameAt_empty (by decide)
    simpa using hempty.append (Object.SameAt.refl mapValueId valuePart)
  have hkeyRead := readLast_part hinverts hkey hkeyReadable (by omega)
  have hvalueRead := readLast_part hinverts hvalue hvalueReadable (by omega)
  rw [readEntry, readLast_congr hkeySame, readLast_congr hvalueSame, hkeyRead, hvalueRead]
  rfl

theorem readEntries_concat (hinverts : Inverts codec nested read bound)
    (hwrites : List.Forall₂ (WritesEntry nested id keyElement valueElement) entries parts)
    (hreadable : ∀ entry ∈ entries, entry.1.obeys codec (.readable codec) keyElement ∧
      entry.2.obeys codec (.readable codec) valueElement)
    (hcount : entries.length ≤ greatestCount)
    (hdepth : (Object.concat parts).depth ≤ bound + 1) :
    (((Object.concat parts).nested id).take greatestCount).mapM
        (codec.readEntry read keyElement valueElement) =
      .ok (Value.normalizeEntries codec keyElement valueElement entries) := by
  have hpairs := nested_concat_entries hwrites
  have htake : ((Object.concat parts).nested id).length ≤ greatestCount :=
    Nat.le_trans (Nat.le_of_eq hpairs.length_eq) hcount
  rw [List.take_of_length_le htake, Outcome.mapM_eq_ok_iff, Value.normalizeEntries_eq_map,
    List.forall₂_map_right_iff]
  refine Outcome.forall₂_imp_of_mem hpairs fun pair hpair entry hentry => ?_
  rintro ⟨keyPart, valuePart, rfl, hkey, hvalue⟩
  have hless := Object.depth_lt_of_mem_nested hpair
  obtain ⟨hkeyReadable, hvalueReadable⟩ := hreadable entry hentry
  exact readEntry_pair hinverts hkey hvalue hkeyReadable hvalueReadable (by omega)

end Entries

/-! ## The log of a field -/

section Fields

variable {typeName : String} {field : ResolvedField} {object : Object}

theorem count_ne_zero_of_written {kind : Kind} (hwritten : object.written kind id ≠ 0) :
    object.count kind id ≠ 0 := by
  have hpositive : 0 < greatestCount := by decide
  simp only [Object.count]
  omega

theorem length_ne_zero_of_getLast? {values : List Value} {last : Value}
    (hlast : values.getLast? = some last) : values.length ≠ 0 := by
  intro hnil
  rw [List.length_eq_zero_iff.mp hnil] at hlast
  cases hlast

section Elements

variable {element : Element} {values : List Value} {parts : List Object}
variable (hinverts : Inverts codec nested read bound)
variable (hsame : Object.SameAt field.id object (.concat parts))
variable (hwrites : List.Forall₂ (WritesElement nested field.id element) values parts)
variable (hreadable : ∀ value ∈ values, value.obeys codec (.readable codec) element)
variable (hcount : values.length ≤ greatestCount)
variable (hdepth : (Object.concat parts).depth ≤ bound + 1)

include hinverts hsame hwrites hreadable hcount hdepth

theorem decodeField_singular (hshape : field.shape = .singular element) {value : Value}
    (hlast : values.getLast? = some value) :
    codec.decodeField read typeName field object =
      .ok (.singular (value.normalize codec element)) := by
  rw [decodeField_congr hsame, decodeField_eq_ok_iff]
  constructor
  · intro _ _
    apply count_ne_zero_of_written
    rw [ResolvedField.wire, hshape, written_concat hwrites]
    exact length_ne_zero_of_getLast? hlast
  · rw [readField, hshape]
    simp only
    rw [readLast_concat hinverts hwrites hreadable hcount hdepth hlast]
    rfl

theorem decodeField_option (hshape : field.shape = .option element) :
    codec.decodeField read typeName field object =
      .ok (.option (values.getLast?.map (Value.normalize codec element))) := by
  have hwire : field.wire = element.wire := by rw [ResolvedField.wire, hshape]
  have hwritten := written_concat hwrites
  rw [decodeField_congr hsame]
  apply decodeField_of_readField (by simp [hshape])
  rw [readField, hshape]
  simp only
  cases hlast : values.getLast? with
  | none =>
    rw [List.getLast?_eq_none_iff.mp hlast] at hwritten
    have hzero : (Object.concat parts).count field.wire field.id = 0 := by
      rw [Object.count, hwire, hwritten]
      rfl
    rw [if_pos hzero]
    rfl
  | some value =>
    have hne : (Object.concat parts).count field.wire field.id ≠ 0 := by
      apply count_ne_zero_of_written
      rw [hwire, hwritten]
      exact length_ne_zero_of_getLast? hlast
    rw [if_neg hne, readLast_concat hinverts hwrites hreadable hcount hdepth hlast]
    rfl

theorem decodeField_list (hshape : field.shape = .list element) :
    codec.decodeField read typeName field object =
      .ok (.list (values.map (Value.normalize codec element))) := by
  rw [decodeField_congr hsame]
  apply decodeField_of_readField (by simp [hshape])
  rw [readField, hshape]
  simp only
  rw [readAll_concat hinverts hwrites hreadable hcount hdepth]
  rfl

end Elements

theorem decodeField_map {keyElement valueElement : Element} {entries : List (Value × Value)}
    {parts : List Object} (hinverts : Inverts codec nested read bound)
    (hsame : Object.SameAt field.id object (.concat parts))
    (hwrites : List.Forall₂ (WritesEntry nested field.id keyElement valueElement) entries parts)
    (hreadable : ∀ entry ∈ entries, entry.1.obeys codec (.readable codec) keyElement ∧
      entry.2.obeys codec (.readable codec) valueElement)
    (hcount : entries.length ≤ greatestCount)
    (hdepth : (Object.concat parts).depth ≤ bound + 1)
    (hshape : field.shape = .map keyElement valueElement) :
    codec.decodeField read typeName field object =
      .ok (.map (Keyed.ofList Value.alike
        (Value.normalizeEntries codec keyElement valueElement entries))) := by
  rw [decodeField_congr hsame]
  apply decodeField_of_readField (by simp [hshape])
  rw [readField, hshape]
  simp only
  rw [readEntries_concat hinverts hwrites hreadable hcount hdepth]
  rfl

end Fields

end SchemaLoom.Codec
