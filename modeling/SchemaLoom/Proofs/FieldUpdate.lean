import Mathlib.Algebra.GroupWithZero.Nat
import SchemaLoom.Proofs.UpdateLog

/-!
# Updates of one field

What an update gives a field depends only on the values the field was updated with: none leave it
as it was, values that count as nothing clear it, and the others are gathered by its shape.  A value
that counts as nothing never takes back what another one wrote.
-/

namespace SchemaLoom

open Wire

/-! ## What a field should hold -/

/-- The entries of the value of a map. -/
def FieldValue.entries : FieldValue → List (Value × Value)
  | .map entries => entries
  | _ => []

/-- What values written to a field one after the other make of it: the last of them, or all their
elements or entries. -/
def Shape.gather : Shape Element → List FieldValue → Option FieldValue
  | .singular _, writes => writes.getLast?
  | .option _, writes => writes.getLast?
  | .list _, writes => some (.list (writes.flatMap FieldValue.elements))
  | .map _ _, writes => some (.map (Keyed.ofList Value.alike (writes.flatMap FieldValue.entries)))

/-- The one element of every shape but a map. -/
def Shape.sole? : Shape Element → Option Element
  | .singular element => some element
  | .option element => some element
  | .list element => some element
  | .map _ _ => none

namespace Codec

/-- What a field holds after it was updated with the given values. -/
def afterUpdates (codec : Codec) (shape : Shape Element) (values : List FieldValue) :
    Option FieldValue :=
  match values.filter (!·.isAbsent) with
  | [] => (codec.emptyField codec.defaultRecord shape).toOption
  | writes => shape.gather writes

theorem afterUpdates_of_all_absent (codec : Codec) (shape : Shape Element)
    {values : List FieldValue} (habsent : values.filter (!·.isAbsent) = []) :
    codec.afterUpdates shape values =
      (codec.emptyField codec.defaultRecord shape).toOption := by
  rw [afterUpdates, habsent]

theorem afterUpdates_of_write (codec : Codec) (shape : Shape Element)
    {values : List FieldValue} (hwritten : values.filter (!·.isAbsent) ≠ []) :
    codec.afterUpdates shape values = shape.gather (values.filter (!·.isAbsent)) := by
  unfold afterUpdates
  split
  · next hnil => exact absurd hnil hwritten
  · rfl

variable {codec : Codec} {nested : Encoder} {read : Decoder} {bound : Nat}

/-! ## The parts of several values -/

theorem WritesField.forall₂_elements {id : UInt32} {shape : Shape Element} {element : Element}
    (hsole : shape.sole? = some element) {value : FieldValue} {parts : List Object}
    (hwrites : WritesField nested id shape value parts) :
    List.Forall₂ (WritesElement nested id element) value.elements parts := by
  cases hwrites with
  | singular hvalue =>
    cases hsole
    exact .cons hvalue .nil
  | absent => exact .nil
  | present hvalue =>
    cases hsole
    exact .cons hvalue .nil
  | list hvalues =>
    cases hsole
    exact hvalues
  | map hentries => cases hsole

theorem WritesField.forall₂_entries {id : UInt32} {keyElement valueElement : Element}
    {value : FieldValue} {parts : List Object}
    (hwrites : WritesField nested id (.map keyElement valueElement) value parts) :
    List.Forall₂ (WritesEntry nested id keyElement valueElement) value.entries parts := by
  cases hwrites with
  | map hentries => exact hentries

theorem forall₂_flatten {α : Type} {relates : α → Object → Prop} {split : FieldValue → List α}
    {values : List FieldValue} {own : List (List Object)}
    (hown : List.Forall₂ (fun value parts => List.Forall₂ relates (split value) parts) values own) :
    List.Forall₂ relates (values.flatMap split) own.flatten := by
  induction hown with
  | nil => exact .nil
  | cons hfirst _ ih =>
    rw [List.flatMap_cons, List.flatten_cons]
    exact List.rel_append hfirst ih

/-- A field holds one value for each element or entry. -/
theorem WritesField.written_eq {field : ResolvedField} {value : FieldValue} {parts : List Object}
    (hwrites : WritesField nested field.id field.shape value parts) :
    (Object.concat parts).written field.wire field.id = value.size := by
  unfold ResolvedField.wire
  cases hshape : field.shape with
  | singular element =>
    rw [hshape] at hwrites
    rw [written_concat (hwrites.forall₂_elements rfl)]
    cases hwrites with
    | singular hvalue => rfl
  | option element =>
    rw [hshape] at hwrites
    rw [written_concat (hwrites.forall₂_elements rfl)]
    cases hwrites <;> rfl
  | list element =>
    rw [hshape] at hwrites
    rw [written_concat (hwrites.forall₂_elements rfl)]
    cases hwrites with
    | list hvalues => rfl
  | map keyElement valueElement =>
    rw [hshape] at hwrites
    have hentries := nested_concat_entries hwrites.forall₂_entries
    cases hwrites with
    | map _ => exact hentries.length_eq

theorem written_flatten {field : ResolvedField} {values : List FieldValue}
    {own : List (List Object)}
    (hown : List.Forall₂ (WritesField nested field.id field.shape) values own) :
    (Object.concat own.flatten).written field.wire field.id = (values.map FieldValue.size).sum := by
  induction hown with
  | nil => cases field.wire <;> rfl
  | cons hfirst _ ih =>
    rw [List.flatten_cons, Object.concat_append, Object.written_append, hfirst.written_eq, ih,
      List.map_cons, List.sum_cons]

theorem isAbsent_iff_size_eq_zero (value : FieldValue) : value.isAbsent ↔ value.size = 0 := by
  cases value with
  | singular value => simp [FieldValue.isAbsent, FieldValue.size]
  | option value => cases value <;> simp [FieldValue.isAbsent, FieldValue.size]
  | list values => simp [FieldValue.isAbsent, FieldValue.size]
  | map entries => simp [FieldValue.isAbsent, FieldValue.size]

/-- A field is unwritten exactly when all values for it count as nothing. -/
theorem count_eq_zero_iff {field : ResolvedField} {values : List FieldValue}
    {own : List (List Object)} {object : Object}
    (hown : List.Forall₂ (WritesField nested field.id field.shape) values own)
    (hsame : Object.SameAt field.id object (.concat own.flatten)) :
    object.count field.wire field.id = 0 ↔ values.filter (!·.isAbsent) = [] := by
  have hpositive : 0 < greatestCount := by decide
  have hzero : object.count field.wire field.id = 0 ↔ (values.map FieldValue.size).sum = 0 := by
    rw [hsame.count_eq, Object.count, written_flatten hown]
    omega
  rw [hzero, List.sum_eq_zero_iff_forall_eq_nat, List.forall_mem_map, List.filter_eq_nil_iff]
  simp only [← isAbsent_iff_size_eq_zero, Bool.not_eq_true', Bool.not_eq_false]

theorem only_flatten {id : UInt32} {shape : Shape Element} {values : List FieldValue}
    {own : List (List Object)} (hown : List.Forall₂ (WritesField nested id shape) values own) :
    Object.Only id (.concat own.flatten) := by
  induction hown with
  | nil => exact Object.only_empty id
  | cons hfirst _ ih =>
    rw [List.flatten_cons, Object.concat_append]
    exact hfirst.only.append ih

/-! ## Gathering what was written -/

/-- Values that count as nothing have no part in what is gathered. -/
theorem flatMap_filter_isAbsent {α : Type} {split : FieldValue → List α}
    (hsplit : ∀ value, value.isAbsent → split value = []) (values : List FieldValue) :
    (values.filter (!·.isAbsent)).flatMap split = values.flatMap split := by
  induction values with
  | nil => rfl
  | cons value values ih =>
    by_cases habsent : value.isAbsent
    · simp [habsent, hsplit value habsent, ih]
    · simp [habsent, ih]

theorem elements_eq_nil {value : FieldValue} (habsent : value.isAbsent) : value.elements = [] := by
  cases value with
  | singular value => cases habsent
  | option value => simpa [FieldValue.isAbsent, FieldValue.elements] using habsent
  | list values => simpa [FieldValue.isAbsent, FieldValue.elements] using habsent
  | map entries =>
    obtain rfl := List.isEmpty_iff.mp habsent
    rfl

theorem entries_eq_nil {value : FieldValue} (habsent : value.isAbsent) : value.entries = [] := by
  cases value with
  | map entries => exact List.isEmpty_iff.mp habsent
  | _ => rfl

theorem getLast?_flatMap_elements {writes : List FieldValue} {last : FieldValue} {value : Value}
    (hlast : writes.getLast? = some last) (helements : last.elements = [value]) :
    (writes.flatMap FieldValue.elements).getLast? = some value := by
  obtain ⟨before, rfl⟩ := List.getLast?_eq_some_iff.mp hlast
  simp [helements]

theorem WritesField.parts_eq {id : UInt32} {shape : Shape Element} {element : Element}
    (hsole : shape.sole? = some element) {value : FieldValue} {parts : List Object}
    (hwrites : WritesField nested id shape value parts) :
    value.parts shape = value.elements.map fun value => (element, value) := by
  cases hwrites <;> cases hsole <;> rfl

theorem readable_of_stable {element : Element} {value : Value}
    (hstable : value.obeys codec (.stable codec) element) :
    value.obeys codec (.readable codec) element :=
  Value.obeys_weaker (Rules.stable_implies_readable codec) hstable

theorem normalize_of_stable {element : Element} {value : Value}
    (hstable : value.obeys codec (.stable codec) element) : value.normalize codec element = value :=
  Value.normalize_of_normal (Value.obeys_weaker (Rules.stable_implies_normal codec) hstable)

section Gather

variable {typeName : String} {field : ResolvedField} {values : List FieldValue}
variable {own : List (List Object)} {object : Object}

variable (hown : List.Forall₂ (WritesField nested field.id field.shape) values own)
variable (hstable : ∀ value ∈ values, ∀ part ∈ value.parts field.shape,
  part.2.obeys codec (.stable codec) part.1)
variable (hcount : (values.map FieldValue.size).sum ≤ greatestCount)

include hown hstable hcount

/-- The elements of all values for a field, as they stand in its log. -/
theorem elements_of_writes {element : Element} (hsole : field.shape.sole? = some element) :
    List.Forall₂ (WritesElement nested field.id element) (values.flatMap FieldValue.elements)
        own.flatten ∧
      (∀ value ∈ values.flatMap FieldValue.elements, value.obeys codec (.stable codec) element) ∧
        (values.flatMap FieldValue.elements).length ≤ greatestCount := by
  have helements : List.Forall₂ (WritesElement nested field.id element)
      (values.flatMap FieldValue.elements) own.flatten :=
    forall₂_flatten (hown.imp fun _ _ hwrites => hwrites.forall₂_elements hsole)
  have hwire : field.wire = element.wire := by
    unfold ResolvedField.wire
    cases hshape : field.shape <;> rw [hshape] at hsole <;> cases hsole <;> rfl
  refine ⟨helements, ?_, ?_⟩
  · intro value hvalue
    obtain ⟨whole, hwhole, hmem⟩ := List.mem_flatMap.mp hvalue
    obtain ⟨parts, -, hwrites⟩ := Outcome.exists_right_of_mem hown hwhole
    have hparts := hwrites.parts_eq hsole
    exact hstable whole hwhole (element, value) (hparts ▸ List.mem_map_of_mem hmem)
  · rw [← written_concat helements, ← hwire, written_flatten hown]
    exact hcount

theorem entries_of_writes {keyElement valueElement : Element}
    (hshape : field.shape = .map keyElement valueElement) :
    List.Forall₂ (WritesEntry nested field.id keyElement valueElement)
        (values.flatMap FieldValue.entries) own.flatten ∧
      (∀ entry ∈ values.flatMap FieldValue.entries,
        entry.1.obeys codec (.stable codec) keyElement ∧
          entry.2.obeys codec (.stable codec) valueElement) ∧
        (values.flatMap FieldValue.entries).length ≤ greatestCount := by
  have hlength := written_flatten hown
  rw [hshape] at hown hstable
  have hentries : List.Forall₂ (WritesEntry nested field.id keyElement valueElement)
      (values.flatMap FieldValue.entries) own.flatten :=
    forall₂_flatten (hown.imp fun _ _ hwrites => hwrites.forall₂_entries)
  refine ⟨hentries, ?_, ?_⟩
  · intro entry hentry
    obtain ⟨whole, hwhole, hmem⟩ := List.mem_flatMap.mp hentry
    obtain ⟨parts, -, hwrites⟩ := Outcome.exists_right_of_mem hown hwhole
    cases hwrites with
    | map _ => exact FieldValue.forall_mem_parts_map.mp (hstable _ hwhole) entry hmem
  · rw [← (nested_concat_entries hentries).length_eq]
    rw [ResolvedField.wire, hshape] at hlength
    exact Nat.le_trans (Nat.le_of_eq hlength) hcount

omit hstable hcount in
/-- The last value that does not count as nothing, and what it wrote. -/
theorem exists_last_write (hwritten : values.filter (!·.isAbsent) ≠ []) :
    ∃ last parts, (values.filter (!·.isAbsent)).getLast? = some last ∧ ¬last.isAbsent ∧
      WritesField nested field.id field.shape last parts := by
  have hlast := List.getLast?_eq_some_getLast hwritten
  obtain ⟨hmem, hpresent⟩ := List.mem_filter.mp (List.mem_of_getLast? hlast)
  obtain ⟨parts, -, hwrites⟩ := Outcome.exists_right_of_mem hown hmem
  exact ⟨_, parts, hlast, by simpa using hpresent, hwrites⟩

/-- A field to which something was written is read as what was gathered for it. -/
theorem decodeField_gather (hinverts : Inverts codec nested read bound)
    (hsame : Object.SameAt field.id object (.concat own.flatten))
    (hdepth : object.depth ≤ bound + 1) (hwritten : values.filter (!·.isAbsent) ≠ []) :
    ∃ result, codec.decodeField read typeName field object = .ok result ∧
      field.shape.gather (values.filter (!·.isAbsent)) = some result := by
  have hless := Nat.le_trans (hsame.depth_le (only_flatten hown)) hdepth
  obtain ⟨last, parts, hlast, hpresent, hwrites⟩ := exists_last_write hown hwritten
  cases hshape : field.shape with
  | singular element =>
    obtain ⟨helements, hobeys, hlength⟩ :=
      elements_of_writes hown hstable hcount (congrArg Shape.sole? hshape)
    rw [hshape] at hwrites
    cases hwrites with
    | @singular _ value _ _ =>
      have hvalue := getLast?_flatMap_elements hlast rfl
      rw [flatMap_filter_isAbsent fun _ => elements_eq_nil] at hvalue
      refine ⟨.singular value, ?_, hlast⟩
      rw [decodeField_singular hinverts hsame helements
        (fun _ hmem => readable_of_stable (hobeys _ hmem)) hlength hless hshape hvalue,
        normalize_of_stable (hobeys _ (List.mem_of_getLast? hvalue))]
  | option element =>
    obtain ⟨helements, hobeys, hlength⟩ :=
      elements_of_writes hown hstable hcount (congrArg Shape.sole? hshape)
    rw [hshape] at hwrites
    cases hwrites with
    | absent => exact absurd rfl hpresent
    | @present _ value _ _ =>
      have hvalue := getLast?_flatMap_elements hlast rfl
      rw [flatMap_filter_isAbsent fun _ => elements_eq_nil] at hvalue
      refine ⟨.option (some value), ?_, hlast⟩
      rw [decodeField_option hinverts hsame helements
        (fun _ hmem => readable_of_stable (hobeys _ hmem)) hlength hless hshape, hvalue,
        Option.map_some, normalize_of_stable (hobeys _ (List.mem_of_getLast? hvalue))]
  | list element =>
    obtain ⟨helements, hobeys, hlength⟩ :=
      elements_of_writes hown hstable hcount (congrArg Shape.sole? hshape)
    refine ⟨.list (values.flatMap FieldValue.elements), ?_, ?_⟩
    · rw [decodeField_list hinverts hsame helements
        (fun _ hmem => readable_of_stable (hobeys _ hmem)) hlength hless hshape,
        List.map_congr_left fun _ hmem => normalize_of_stable (hobeys _ hmem), List.map_id']
    · rw [Shape.gather, flatMap_filter_isAbsent fun _ => elements_eq_nil]
  | map keyElement valueElement =>
    obtain ⟨hentries, hobeys, hlength⟩ := entries_of_writes hown hstable hcount hshape
    refine ⟨.map (Keyed.ofList Value.alike (values.flatMap FieldValue.entries)), ?_, ?_⟩
    · have hreadable : ∀ entry ∈ values.flatMap FieldValue.entries,
          entry.1.obeys codec (.readable codec) keyElement ∧
            entry.2.obeys codec (.readable codec) valueElement := by
        intro entry hmem
        obtain ⟨hkey, hvalue⟩ := hobeys entry hmem
        exact ⟨readable_of_stable hkey, readable_of_stable hvalue⟩
      have hnormal : ∀ entry ∈ values.flatMap FieldValue.entries,
          (entry.1.normalize codec keyElement, entry.2.normalize codec valueElement) = entry := by
        intro entry hmem
        obtain ⟨hkey, hvalue⟩ := hobeys entry hmem
        rw [normalize_of_stable hkey, normalize_of_stable hvalue]
      rw [decodeField_map hinverts hsame hentries hreadable hlength hless hshape,
        Value.normalizeEntries_eq_map, List.map_congr_left hnormal, List.map_id']
    · rw [Shape.gather, flatMap_filter_isAbsent fun _ => entries_eq_nil]

end Gather

/-! ## One field of an update -/

/-- Calls whose values survive the wire: their elements come back as they were, and no field gets
more values than a reader is told of. -/
structure Transmissible (codec : Codec) (typeName : String)
    (calls : List (UInt32 × FieldValue)) : Prop where
  stable : ∀ call ∈ calls, ∀ field ∈ codec.field? typeName call.1,
    ∀ part ∈ call.2.parts field.shape, part.2.obeys codec (.stable codec) part.1
  counted : ∀ call ∈ calls,
    ((Object.valuesOf call.1 calls).map FieldValue.size).sum ≤ greatestCount

instance (codec : Codec) (typeName : String) (calls : List (UInt32 × FieldValue)) :
    Decidable (codec.Transmissible typeName calls) :=
  decidable_of_iff
    ((∀ call ∈ calls, ∀ field ∈ codec.field? typeName call.1,
        ∀ part ∈ call.2.parts field.shape, part.2.obeys codec (.stable codec) part.1) ∧
      ∀ call ∈ calls, ((Object.valuesOf call.1 calls).map FieldValue.size).sum ≤ greatestCount)
    ⟨fun h => ⟨h.1, h.2⟩, fun h => ⟨h.stable, h.counted⟩⟩

theorem mem_valuesOf_iff {α : Type} {id : UInt32} {value : α} {entries : List (UInt32 × α)} :
    value ∈ Object.valuesOf id entries ↔ (id, value) ∈ entries := by
  simp [Object.valuesOf]

theorem Transmissible.counted_at {typeName : String} {calls : List (UInt32 × FieldValue)}
    (htransmissible : codec.Transmissible typeName calls) (id : UInt32) :
    ((Object.valuesOf id calls).map FieldValue.size).sum ≤ greatestCount := by
  by_cases hnil : Object.valuesOf id calls = []
  · simp [hnil]
  · obtain ⟨value, hvalue⟩ := List.exists_mem_of_ne_nil _ hnil
    exact htransmissible.counted (id, value) (mem_valuesOf_iff.mp hvalue)

/-- The value that updates give a field, if there were any. -/
def change? (codec : Codec) (shape : Shape Element) (values : List FieldValue) :
    Option FieldValue :=
  if values.isEmpty then none else codec.afterUpdates shape values

/-- A field that was only cleared is empty. -/
theorem exists_emptyField {shape : Shape Element} {values : List FieldValue} (hne : values ≠ [])
    (hfits : ∀ value ∈ values, fits shape value) (habsent : ∀ value ∈ values, value.isAbsent) :
    ∃ result, codec.emptyField codec.defaultRecord shape = .ok result := by
  obtain ⟨value, hvalue⟩ := List.exists_mem_of_ne_nil values hne
  have hfits := hfits value hvalue
  have habsent := habsent value hvalue
  cases shape with
  | singular element =>
    cases value with
    | singular only => cases habsent
    | _ => cases hfits
  | option element => exact ⟨.option none, rfl⟩
  | list element => exact ⟨.list [], rfl⟩
  | map keyElement valueElement => exact ⟨.map [], rfl⟩

/-- What an update gives a field depends only on the values for that field. -/
theorem updatedField_eq (hunique : codec.UniqueIds) {typeName : String}
    {calls : List (UInt32 × FieldValue)} {update : Update}
    (hrun : codec.updateFields typeName calls .empty = (update, .ok ()))
    (htransmissible : codec.Transmissible typeName calls) {field : ResolvedField}
    (hfield : codec.field? typeName field.id = some field) :
    codec.updatedField typeName update field =
        .ok (codec.change? field.shape (Object.valuesOf field.id calls)) ∧
      (Object.valuesOf field.id calls ≠ [] →
        (codec.afterUpdates field.shape (Object.valuesOf field.id calls)).isSome) := by
  obtain ⟨logs, hlogs, hlog, hmarks⟩ := exists_parts_of_updateFields hrun
  obtain ⟨own, hown, hsame⟩ := exists_parts_at hlogs hfield
  replace hlog : update.fields = .concat logs.flatten := hlog.trans (Object.empty_append _)
  rw [← hlog] at hsame
  replace hmarks : update.isCleared field.id =
      (Object.valuesOf field.id calls).any FieldValue.isAbsent := hmarks field.id
  have hstable : ∀ value ∈ Object.valuesOf field.id calls, ∀ part ∈ value.parts field.shape,
      part.2.obeys codec (.stable codec) part.1 := by
    intro value hvalue
    exact htransmissible.stable (field.id, value) (mem_valuesOf_iff.mp hvalue) field hfield
  have hcount := htransmissible.counted_at field.id
  have hzero := count_eq_zero_iff hown hsame
  generalize Object.valuesOf field.id calls = values at *
  unfold updatedField change?
  -- Marks count only where nothing was written, so a clear never undoes a write.
  by_cases hwritten : values.filter (!·.isAbsent) = []
  · rw [if_pos (hzero.mpr hwritten), hmarks, afterUpdates_of_all_absent codec field.shape hwritten]
    cases values with
    | nil => exact ⟨rfl, fun hne => absurd rfl hne⟩
    | cons value rest =>
      have habsent : ∀ value' ∈ value :: rest, value'.isAbsent := by
        simpa using List.filter_eq_nil_iff.mp hwritten
      have hfits : ∀ value' ∈ value :: rest, fits field.shape value' := by
        intro value' hvalue
        obtain ⟨parts, -, hwrites⟩ := Outcome.exists_right_of_mem hown hvalue
        exact hwrites.fits
      obtain ⟨result, hresult⟩ := exists_emptyField (List.cons_ne_nil _ _) hfits habsent
      have hmarked : (value :: rest).any FieldValue.isAbsent := by
        simp [habsent value List.mem_cons_self]
      rw [if_pos hmarked, hresult]
      exact ⟨rfl, fun _ => rfl⟩
  · have hinverts : Inverts codec codec.encode (codec.decodeTo update.fields.depth)
        update.fields.depth := by
      intro name record inner hencode
      exact inverts_encodeTo hunique _ _ name record inner hencode
    obtain ⟨result, hdecode, hgather⟩ := decodeField_gather hown hstable hcount hinverts hsame
      (Nat.le_succ _) hwritten
    have hne : values.isEmpty = false := by
      rw [List.isEmpty_eq_false_iff]
      rintro rfl
      exact hwritten rfl
    rw [if_neg (mt hzero.mp hwritten), hdecode, hne,
      afterUpdates_of_write codec field.shape hwritten, hgather]
    exact ⟨rfl, fun _ => rfl⟩

end Codec

end SchemaLoom
