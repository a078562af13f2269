import SchemaLoom.Proofs.Conformance
import SchemaLoom.Proofs.EncodingDepth
import SchemaLoom.Proofs.FittedRecords
import SchemaLoom.Proofs.StructuralEquality

/-!
# Codecs with and without recursive fields

Two codecs of the same types, one of which lacks the recursive fields of the other.  Recursive
fields are collections, and an empty collection writes nothing.  So the narrow codec writes for a
record what the wide one writes for the record with empty collections added, and the wide one reads
that record back.  What the wide codec writes is read by the narrow one without the fields it does
not know.
-/

namespace SchemaLoom.Codec

open Wire

/-- The narrow codec has the types of the wide one without their recursive fields. -/
structure Narrows (narrow wide : Codec) : Prop where
  fields_eq : ∀ typeName, (narrow.type typeName).map (·.fields) =
    (wide.type typeName).map fun type => type.fields.filter (!·.recursive)
  isCollection : ∀ type ∈ wide.types, ∀ field ∈ type.fields, field.recursive →
    field.shape.isCollection
  enum?_eq : ∀ name, narrow.enum? name = wide.enum? name
  uniqueIds : narrow.UniqueIds
  wideUniqueIds : wide.UniqueIds

/-! ## Conforming records -/

section Conforming

variable {codec : Codec} {typeName : String} {record : Record}

theorem length_eq_of_conforming {other : Record}
    (hconforming : record.obeys codec (.conforming codec) typeName)
    (hother : other.obeys codec (.conforming codec) typeName) : record.length = other.length := by
  have hascending := (Record.obeys_conforming_iff.mp hconforming).1.1
  have hascending' := (Record.obeys_conforming_iff.mp hother).1.1
  have hperm : (record.map (·.1)).Perm (other.map (·.1)) := by
    rw [List.perm_ext_iff_of_nodup hascending.nodup hascending'.nodup]
    intro id
    rw [Record.mem_map_fst_iff, Record.mem_map_fst_iff, isSome_get?_iff hconforming,
      isSome_get?_iff hother]
  simpa using hperm.length_eq

end Conforming

/-! ## Writing fitted values -/

section Writing

variable {codec : Codec} {left right : Encoder}

/-- Items that write nothing can be left out. -/
theorem writeAll_filter {α : Type} {write : α → Object → Written} {kept : α → Bool}
    {items : List α}
    (hskip : ∀ item ∈ items, kept item = false → ∀ object, write item object = (object, .ok ())) :
    writeAll write (items.filter kept) = writeAll write items := by
  induction items with
  | nil => rfl
  | cons item items ih =>
    obtain ⟨hitem, hitems⟩ := List.forall_mem_cons.mp hskip
    funext object
    cases hkept : kept item with
    | true => rw [List.filter_cons_of_pos hkept, writeAll, writeAll, ih hitems]
    | false =>
      rw [List.filter_cons_of_neg (by simp [hkept]), writeAll, hitem hkept, ih hitems]

theorem writeAll_map {α β : Type} (write : β → Object → Written) (change : α → β)
    (items : List α) :
    writeAll write (items.map change) = writeAll (fun item => write (change item)) items := by
  induction items with
  | nil => rfl
  | cons item items ih =>
    funext object
    rw [List.map_cons, writeAll, writeAll, ih]

theorem encodeField_empty (nested : Encoder) {field : ResolvedField} {value : FieldValue}
    (hempty : field.shape.empty? = some value) (object : Object) :
    encodeField nested field value object = (object, .ok ()) := by
  unfold encodeField
  cases hshape : field.shape <;> rw [hshape] at hempty <;> cases hempty <;> rfl

theorem writeElement_fit {element : Element} {value : Value}
    (hinner : ∀ (name : String) (inner : Record), element = .named name → value = .record inner →
      left name inner .empty = right name (Record.fit codec name inner) .empty)
    (fieldName : String) (id : UInt32) :
    writeElement left fieldName element id value =
      writeElement right fieldName element id (value.fit codec element) := by
  funext object
  cases element with
  | scalar kind =>
    rw [Value.fit_of_not_named codec rfl]
    rcases value with (scalar | number) | record <;> rfl
  | enumeration name =>
    rw [Value.fit_of_not_named codec rfl]
    rcases value with (scalar | number) | record <;> rfl
  | named name =>
    cases value with
    | atom atom => cases atom <;> rfl
    | record inner =>
      rw [Value.fit, writeElement_named, writeElement_named, hinner name inner rfl rfl]

/-- A value is written like the fitted value if the records inside it are. -/
theorem encodeField_fit {field : ResolvedField} {value : FieldValue}
    (hinner : ∀ (name : String) (inner : Record),
      (.named name, .record inner) ∈ value.parts field.shape →
        left name inner .empty = right name (Record.fit codec name inner) .empty) :
    encodeField left field value = encodeField right field (value.fit codec field.shape) := by
  have hpart : ∀ part ∈ value.parts field.shape, ∀ id,
      writeElement left field.name part.1 id part.2 =
        writeElement right field.name part.1 id (part.2.fit codec part.1) := by
    intro part hmem
    refine writeElement_fit (fun name inner helement hvalue => ?_) field.name
    exact hinner name inner (helement ▸ hvalue ▸ hmem)
  funext object
  unfold encodeField
  cases hshape : field.shape <;> cases value <;> rw [hshape] at hpart <;> try rfl
  case singular.singular element value =>
    exact congrFun (hpart (element, value) List.mem_cons_self field.id) object
  case option.option element value =>
    cases value with
    | none => rfl
    | some value => exact congrFun (hpart (element, value) List.mem_cons_self field.id) object
  case list.list element values =>
    simp only [FieldValue.fit, Value.fitAll_eq_map, writeAll_map]
    refine congrFun (writeAll_congr fun value hmem => ?_) object
    exact hpart (element, value) (List.mem_map_of_mem hmem) field.id
  case map.map keyElement valueElement entries =>
    simp only [FieldValue.fit, Value.fitEntries_eq_map, writeAll_map]
    refine congrFun (writeAll_congr fun entry hmem => ?_) object
    obtain ⟨hkey, hvalue⟩ := FieldValue.forall_mem_parts_map.mp hpart entry hmem
    funext object
    rw [writeEntry_eq, writeEntry_eq, writePair, writePair, hkey, hvalue]

end Writing

namespace Narrows

variable {narrow wide : Codec} (hnarrows : narrow.Narrows wide)

include hnarrows

/-! ## Types and fields -/

theorem exists_type_iff {typeName : String} {fields : List ResolvedField} :
    (∃ type, narrow.type typeName = .ok type ∧ type.fields = fields) ↔
      ∃ type, wide.type typeName = .ok type ∧ type.fields.filter (!·.recursive) = fields := by
  have hequal := hnarrows.fields_eq typeName
  have hboth := congrArg (· = Except.ok fields) hequal
  simpa only [Outcome.map_eq_ok_iff, eq_iff_iff] using hboth

theorem within : narrow.Within wide := by
  intro typeName type htype
  obtain ⟨own, hown, hfields⟩ := hnarrows.exists_type_iff.mpr ⟨type, htype, rfl⟩
  refine ⟨own, hown, fun field hfield => ?_⟩
  rw [hfields] at hfield
  exact (List.mem_filter.mp hfield).1

/-- The fields of the narrow codec are those of the wide one that are not recursive. -/
theorem field?_eq_some_iff {typeName : String} {id : UInt32} {field : ResolvedField} :
    narrow.field? typeName id = some field ↔
      wide.field? typeName id = some field ∧ field.recursive = false := by
  rw [field?_eq_some_iff_mem hnarrows.uniqueIds, field?_eq_some_iff_mem hnarrows.wideUniqueIds]
  constructor
  · rintro ⟨type, htype, hmem, hid⟩
    obtain ⟨wider, hwider, hfields⟩ := hnarrows.exists_type_iff.mp ⟨type, htype, rfl⟩
    rw [← hfields] at hmem
    obtain ⟨hmem, hrecursive⟩ := List.mem_filter.mp hmem
    exact ⟨⟨wider, hwider, hmem, hid⟩, by simpa using hrecursive⟩
  · rintro ⟨⟨type, htype, hmem, hid⟩, hrecursive⟩
    obtain ⟨own, hown, hfields⟩ := hnarrows.exists_type_iff.mpr ⟨type, htype, rfl⟩
    refine ⟨own, hown, ?_, hid⟩
    rw [hfields]
    exact List.mem_filter.mpr ⟨hmem, by simp [hrecursive]⟩

theorem field?_wide {typeName : String} {id : UInt32} {field : ResolvedField}
    (hfield : narrow.field? typeName id = some field) : wide.field? typeName id = some field :=
  (hnarrows.field?_eq_some_iff.mp hfield).1

/-- A field that the narrow codec lacks is a collection. -/
theorem isCollection_of_field? {typeName : String} {id : UInt32} {field : ResolvedField}
    (hfield : wide.field? typeName id = some field) (hnone : narrow.field? typeName id = none) :
    field.shape.isCollection := by
  obtain ⟨type, htype, hmem, -⟩ := (field?_eq_some_iff_mem hnarrows.wideUniqueIds).mp hfield
  refine hnarrows.isCollection type (mem_types_of_type_eq_ok htype) field hmem ?_
  by_contra hrecursive
  have hown := hnarrows.field?_eq_some_iff.mpr ⟨hfield, by simpa using hrecursive⟩
  simp [hnone] at hown

theorem declares_eq (name : String) (number : UInt32) :
    narrow.declares name number = wide.declares name number := by
  rw [declares, declares, hnarrows.enum?_eq]

theorem conforming_element_eq :
    (Rules.conforming narrow).element = (Rules.conforming wide).element := by
  funext element value
  simp only [Rules.conforming, Rules.stable, Rules.and, Rules.readable, Rules.writable,
    Rules.normal, hnarrows.declares_eq]

/-! ## Fitting to the wide codec keeps keys apart -/

theorem get?_fit_of_get? {typeName : String} {record : Record} {id : UInt32}
    {field : ResolvedField} {value : FieldValue}
    (hfield : narrow.field? typeName id = some field) (hget : record.get? id = some value) :
    (Record.fit wide typeName record).get? id = some (value.fit wide field.shape) := by
  rw [Record.get?_fit hnarrows.wideUniqueIds, hnarrows.field?_wide hfield, hget]
  rfl

omit hnarrows in
theorem value_alike_of_fit {element : Element} {left right : Value}
    (hinner : ∀ (name : String) (inner other : Record), left = .record inner →
      inner.obeys narrow (.conforming narrow) name → other.obeys narrow (.conforming narrow) name →
        (Record.fit wide name inner).alike (Record.fit wide name other) → inner.alike other)
    (hleft : left.obeys narrow (.conforming narrow) element)
    (hright : right.obeys narrow (.conforming narrow) element)
    (halike : (left.fit wide element).alike (right.fit wide element)) : left.alike right := by
  cases element with
  | scalar kind =>
    rwa [Value.fit_of_not_named wide rfl, Value.fit_of_not_named wide rfl] at halike
  | enumeration name =>
    rwa [Value.fit_of_not_named wide rfl, Value.fit_of_not_named wide rfl] at halike
  | named name =>
    cases left with
    | atom left =>
      cases right with
      | atom right => exact halike
      | record right => simp [Value.fit, Value.alike] at halike
    | record left =>
      cases right with
      | atom right => simp [Value.fit, Value.alike] at halike
      | record right =>
        rw [Value.obeys_record_iff] at hleft hright
        exact hinner name left right rfl hleft.2 hright.2 halike

omit hnarrows in
theorem fieldValue_alike_of_fit {shape : Shape Element} {left right : FieldValue}
    (hinner : ∀ (name : String) (inner other : Record), .record inner ∈ left.elements →
      inner.obeys narrow (.conforming narrow) name → other.obeys narrow (.conforming narrow) name →
        (Record.fit wide name inner).alike (Record.fit wide name other) → inner.alike other)
    (hleft : left.obeys narrow (.conforming narrow) shape)
    (hright : right.obeys narrow (.conforming narrow) shape)
    (halike : (left.fit wide shape).alike (right.fit wide shape)) : left.alike right := by
  rw [FieldValue.obeys_iff, Rules.conforming_field_iff] at hleft hright
  obtain ⟨⟨hfits, -⟩, hparts⟩ := hleft
  obtain ⟨⟨hfits', -⟩, hparts'⟩ := hright
  have hpart : ∀ element first second, (element, first) ∈ left.parts shape →
      (element, second) ∈ right.parts shape →
        (first.fit wide element).alike (second.fit wide element) → first.alike second := by
    intro element first second hmem hmem' halike
    refine value_alike_of_fit (fun name inner other heq => ?_) (hparts _ hmem) (hparts' _ hmem')
      halike
    exact hinner name inner other (heq ▸ FieldValue.mem_elements_of_mem_parts hmem)
  rw [FieldValue.alike_iff] at halike ⊢
  cases shape <;> cases left <;> simp only [fits, Bool.false_eq_true] at hfits <;>
    cases right <;> simp only [fits, Bool.false_eq_true] at hfits'
  case singular.singular.singular element first second =>
    cases halike with
    | singular halike =>
      exact .singular (hpart element first second List.mem_cons_self List.mem_cons_self halike)
  case option.option.option element first second =>
    cases first <;> cases second <;> cases halike
    case none.none.absent => exact .absent
    case some.some.present first second halike =>
      exact .present (hpart element first second List.mem_cons_self List.mem_cons_self halike)
  case list.list.list element firsts seconds =>
    simp only [FieldValue.fit, Value.fitAll_eq_map] at halike
    cases halike with
    | list halike =>
      rw [List.forall₂_map_left_iff, List.forall₂_map_right_iff] at halike
      refine .list (Outcome.forall₂_imp_of_mem halike fun first hfirst second hsecond => ?_)
      exact hpart element first second (List.mem_map_of_mem hfirst) (List.mem_map_of_mem hsecond)
  case map.map.map keyElement valueElement firsts seconds =>
    simp only [FieldValue.fit, Value.fitEntries_eq_map] at halike
    cases halike with
    | map hlength hcovered =>
      refine .map (by simpa using hlength) fun first hfirst => ?_
      obtain ⟨fitted, hfitted, hkey, hvalue⟩ := hcovered _ (List.mem_map_of_mem hfirst)
      obtain ⟨second, hsecond, rfl⟩ := List.mem_map.mp hfitted
      have hmems : ∀ entries : List (Value × Value), ∀ entry ∈ entries,
          (keyElement, entry.1) ∈ (FieldValue.map entries).parts (.map keyElement valueElement) ∧
            (valueElement, entry.2) ∈
              (FieldValue.map entries).parts (.map keyElement valueElement) :=
        fun entries => FieldValue.forall_mem_parts_map.mp fun _ hmem => hmem
      obtain ⟨hkeyMem, hvalueMem⟩ := hmems firsts first hfirst
      obtain ⟨hkeyMem', hvalueMem'⟩ := hmems seconds second hsecond
      exact ⟨second, hsecond, hpart keyElement first.1 second.1 hkeyMem hkeyMem' hkey,
        hpart valueElement first.2 second.2 hvalueMem hvalueMem' hvalue⟩

/-- Records that are alike after fitting were alike before it: only empty collections were added,
and to both of them. -/
theorem alike_of_fit {typeName : String} {left right : Record}
    (hleft : left.obeys narrow (.conforming narrow) typeName)
    (hright : right.obeys narrow (.conforming narrow) typeName)
    (halike : (Record.fit wide typeName left).alike (Record.fit wide typeName right)) :
    left.alike right := by
  induction left using Record.nested_induction generalizing typeName right with
  | step left ih =>
    obtain ⟨⟨hascending, -, hplanned⟩, hfields⟩ := Record.obeys_conforming_iff.mp hleft
    obtain ⟨-, hfields'⟩ := Record.obeys_conforming_iff.mp hright
    rw [Record.alike, Value.alike, Bool.and_eq_true, beq_iff_eq, Record.covered_iff] at halike ⊢
    refine ⟨length_eq_of_conforming hleft hright, fun entry hentry => ?_⟩
    obtain ⟨id, value⟩ := entry
    obtain ⟨field, hfield⟩ := Option.isSome_iff_exists.mp (hplanned (id, value) hentry)
    have hget := Record.get?_eq_some_of_mem hascending hentry
    obtain ⟨other, hother⟩ := Option.isSome_iff_exists.mp
      ((isSome_get?_iff hright id).mpr (hplanned (id, value) hentry))
    -- The number is one of both codecs, so both fitted records have a fitted value there.
    have hfitted := Record.mem_of_get?_eq_some (hnarrows.get?_fit_of_get? hfield hget)
    obtain ⟨found, hfound, hvalues⟩ := halike.2 _ hfitted
    obtain rfl : other.fit wide field.shape = found :=
      Option.some.inj ((hnarrows.get?_fit_of_get? hfield hother).symm.trans hfound)
    refine ⟨other, hother, fieldValue_alike_of_fit (fun name inner next hinner => ?_)
      (hfields id value hentry field hfield)
      (hfields' id other (Record.mem_of_get?_eq_some hother) field hfield) hvalues⟩
    exact ih id value hentry inner hinner

theorem apart_fitEntries {keyElement valueElement : Element} {entries : List (Value × Value)}
    (hkeys : ∀ entry ∈ entries, entry.1.obeys narrow (.conforming narrow) keyElement)
    (hapart : Keyed.Apart Value.alike entries) :
    Keyed.Apart Value.alike (Value.fitEntries wide keyElement valueElement entries) := by
  rw [Value.fitEntries_eq_map, Keyed.Apart, List.pairwise_map]
  refine hapart.imp_of_mem fun {earlier later} hearlier hlater hfalse => ?_
  rw [Bool.eq_false_iff] at hfalse ⊢
  intro halike
  exact hfalse (value_alike_of_fit (fun _ _ _ _ => hnarrows.alike_of_fit) (hkeys earlier hearlier)
    (hkeys later hlater) halike)

/-! ## A fitted record conforms -/

theorem value_obeys_fit {element : Element} {value : Value}
    (hinner : ∀ (name : String) (inner : Record), value = .record inner →
      inner.obeys narrow (.conforming narrow) name →
        (Record.fit wide name inner).obeys wide (.conforming wide) name)
    (hobeys : value.obeys narrow (.conforming narrow) element) :
    (value.fit wide element).obeys wide (.conforming wide) element := by
  cases element with
  | scalar kind =>
    rw [Value.fit_of_not_named wide rfl]
    cases value <;> simpa only [Value.obeys, hnarrows.conforming_element_eq] using hobeys
  | enumeration name =>
    rw [Value.fit_of_not_named wide rfl]
    cases value <;> simpa only [Value.obeys, hnarrows.conforming_element_eq] using hobeys
  | named name =>
    cases value with
    | atom atom =>
      simpa only [Value.fit, Value.obeys, hnarrows.conforming_element_eq] using hobeys
    | record inner =>
      rw [Value.fit]
      rw [Value.obeys_record_iff] at hobeys ⊢
      exact ⟨Rules.conforming_element rfl (by simp), hinner name inner rfl hobeys.2⟩

theorem fieldValue_obeys_fit {shape : Shape Element} {value : FieldValue}
    (hinner : ∀ (name : String) (inner : Record), .record inner ∈ value.elements →
      inner.obeys narrow (.conforming narrow) name →
        (Record.fit wide name inner).obeys wide (.conforming wide) name)
    (hobeys : value.obeys narrow (.conforming narrow) shape) :
    (value.fit wide shape).obeys wide (.conforming wide) shape := by
  rw [FieldValue.obeys_iff, Rules.conforming_field_iff] at hobeys ⊢
  obtain ⟨⟨hfits, hsize, hapart⟩, hparts⟩ := hobeys
  refine ⟨⟨?_, ?_, fun entries hentries => ?_⟩, ?_⟩
  · rwa [FieldValue.fits_fit]
  · rwa [FieldValue.size_fit]
  · cases shape <;> cases value <;> simp only [fits, Bool.false_eq_true] at hfits
    case map.map keyElement valueElement given =>
      obtain rfl := FieldValue.map.inj hentries
      have hkeys := fun entry hentry => (FieldValue.forall_mem_parts_map.mp hparts entry hentry).1
      exact hnarrows.apart_fitEntries hkeys (hapart given rfl)
    case option.option given => cases given <;> cases hentries
    all_goals cases hentries
  · rw [FieldValue.parts_fit, List.forall_mem_map]
    intro part hmem
    refine hnarrows.value_obeys_fit (fun name inner heq => ?_) (hparts part hmem)
    exact hinner name inner (heq ▸ FieldValue.mem_elements_of_mem_parts hmem)

omit hnarrows in
theorem obeys_empty {codec : Codec} {shape : Shape Element} {value : FieldValue}
    (hempty : shape.empty? = some value) : value.obeys codec (.conforming codec) shape := by
  rw [FieldValue.obeys_iff, Rules.conforming_field_iff]
  cases shape <;> cases hempty <;>
    simp [fits, FieldValue.size, FieldValue.parts, Keyed.Apart]

/-- What a fitted record has under a number of the wide codec: the fitted value of a field both
codecs have, or the empty collection that was added. -/
theorem get?_fit_cases {typeName : String} {record : Record}
    (hobeys : record.obeys narrow (.conforming narrow) typeName) {id : UInt32}
    {field : ResolvedField} (hfield : wide.field? typeName id = some field) :
    (∃ value, record.get? id = some value ∧ narrow.field? typeName id = some field ∧
        (Record.fit wide typeName record).get? id = some (value.fit wide field.shape)) ∨
      ∃ value, narrow.field? typeName id = none ∧ field.shape.empty? = some value ∧
        (Record.fit wide typeName record).get? id = some value := by
  have hsome := isSome_get?_iff hobeys id
  cases hown : narrow.field? typeName id with
  | some other =>
    obtain rfl : other = field := Option.some.inj ((hnarrows.field?_wide hown).symm.trans hfield)
    obtain ⟨value, hget⟩ := Option.isSome_iff_exists.mp (hsome.mpr (by rw [hown]; rfl))
    exact .inl ⟨value, hget, rfl, hnarrows.get?_fit_of_get? hown hget⟩
  | none =>
    have hnone : record.get? id = none := by simpa [hown] using hsome
    obtain ⟨value, hempty⟩ := Shape.exists_empty? (hnarrows.isCollection_of_field? hfield hown)
    refine .inr ⟨value, rfl, hempty, ?_⟩
    rw [Record.get?_fit hnarrows.wideUniqueIds, hfield, hnone]
    exact hempty

/-- A record that conforms to the narrow codec conforms to the wide one once it is fitted. -/
theorem obeys_fit {typeName : String} {record : Record}
    (hobeys : record.obeys narrow (.conforming narrow) typeName) :
    (Record.fit wide typeName record).obeys wide (.conforming wide) typeName := by
  induction record using Record.nested_induction generalizing typeName with
  | step record ih =>
    obtain ⟨⟨-, hfilled, -⟩, hfields⟩ := Record.obeys_conforming_iff.mp hobeys
    obtain ⟨own, hown, -⟩ := isFilled_iff.mp hfilled
    obtain ⟨type, htype, -⟩ := hnarrows.exists_type_iff.mp ⟨own, hown, rfl⟩
    have hascending : (Record.fit wide typeName record).Ascending := Record.ascending_fit record
    refine Record.obeys_conforming_iff.mpr ⟨⟨hascending, ?_, ?_⟩, ?_⟩
    · refine isFilled_iff.mpr ⟨type, htype, fun field hfield => ?_⟩
      have hknown := field?_of_mem hnarrows.wideUniqueIds htype hfield
      rcases hnarrows.get?_fit_cases hobeys hknown with ⟨_, -, -, hget⟩ | ⟨_, -, -, hget⟩
      · rw [hget]
        rfl
      · rw [hget]
        rfl
    · intro entry hentry
      have hget := Record.get?_eq_some_of_mem hascending hentry
      rw [Record.get?_fit hnarrows.wideUniqueIds] at hget
      obtain ⟨field, hfield, -⟩ := Option.bind_eq_some_iff.mp hget
      rw [hfield]
      rfl
    · intro id fitted hmem field hfield
      have hfound := Record.get?_eq_some_of_mem hascending hmem
      rcases hnarrows.get?_fit_cases hobeys hfield with
        ⟨value, hget, hknown, hfit⟩ | ⟨value, -, hempty, hfit⟩
      · obtain rfl := Option.some.inj (hfit.symm.trans hfound)
        have hvalue := Record.mem_of_get?_eq_some hget
        refine hnarrows.fieldValue_obeys_fit (fun name inner hinner => ?_)
          (hfields id value hvalue field hknown)
        exact ih id value hvalue inner hinner
      · obtain rfl := Option.some.inj (hfit.symm.trans hfound)
        exact obeys_empty hempty

/-! ## Writing narrowly -/

/-- The narrow codec writes for a record what the wide one writes for the fitted record. -/
theorem encode_fit {typeName : String} {record : Record}
    (hobeys : record.obeys narrow (.conforming narrow) typeName) :
    narrow.encode typeName record = wide.encode typeName (Record.fit wide typeName record) := by
  induction record using Record.nested_induction generalizing typeName with
  | step record ih =>
    obtain ⟨⟨-, hfilled, -⟩, hfields⟩ := Record.obeys_conforming_iff.mp hobeys
    obtain ⟨own, hown, -⟩ := isFilled_iff.mp hfilled
    obtain ⟨type, htype, hkept⟩ := hnarrows.exists_type_iff.mp ⟨own, hown, rfl⟩
    have hsame : ∀ field ∈ own.fields, encodeEntry narrow.encode typeName record field =
        encodeEntry wide.encode typeName (Record.fit wide typeName record) field := by
      intro field hfield
      have hknown := field?_of_mem hnarrows.uniqueIds hown hfield
      obtain ⟨value, hget⟩ := exists_value_of_isFilled hfilled hknown
      have hmem := Record.mem_of_get?_eq_some hget
      have hparts := (FieldValue.obeys_iff.mp (hfields field.id value hmem field hknown)).2
      unfold encodeEntry
      rw [hget, hnarrows.get?_fit_of_get? hknown hget]
      refine encodeField_fit fun name inner hinner => ?_
      have hnested := (Value.obeys_record_iff.mp (hparts _ hinner)).2
      rw [ih field.id value hmem inner (FieldValue.mem_elements_of_mem_parts hinner) hnested]
    -- What only the wide codec has is empty in the fitted record, so it leaves no trace.
    have hskip : ∀ field ∈ type.fields, (!field.recursive) = false → ∀ object,
        encodeEntry wide.encode typeName (Record.fit wide typeName record) field object =
          (object, .ok ()) := by
      intro field hfield hrecursive object
      have hknown := field?_of_mem hnarrows.wideUniqueIds htype hfield
      rcases hnarrows.get?_fit_cases hobeys hknown with ⟨_, -, hboth, -⟩ | ⟨value, -, hempty, hget⟩
      · simp [(hnarrows.field?_eq_some_iff.mp hboth).2] at hrecursive
      · unfold encodeEntry
        rw [hget]
        exact encodeField_empty wide.encode hempty object
    funext object
    calc
      narrow.encode typeName record object =
          writeAll (encodeEntry narrow.encode typeName record) own.fields object := by
        rw [encode_eq_encodeFields, encodeFields_eq, hown]
      _ = writeAll (encodeEntry wide.encode typeName (Record.fit wide typeName record))
          (type.fields.filter (!·.recursive)) object := by
        rw [hkept, writeAll_congr hsame]
      _ = writeAll (encodeEntry wide.encode typeName (Record.fit wide typeName record))
          type.fields object := by
        rw [writeAll_filter hskip]
      _ = wide.encode typeName (Record.fit wide typeName record) object := by
        rw [encode_eq_encodeFields, encodeFields_eq, htype]

/-- The wide codec reads what the narrow one wrote, and finds the other collections empty. -/
theorem decode_wide {typeName : String} {record : Record}
    (hobeys : record.obeys narrow (.conforming narrow) typeName) :
    ∃ object, narrow.encode typeName record .empty = (object, .ok ()) ∧
      wide.decode typeName object = .ok (Record.fit wide typeName record) := by
  have hwritable := Record.obeys_of_implies (Rules.conforming_implies_writable narrow) hobeys
  have hstable := Record.obeys_of_implies (Rules.conforming_implies_stable wide)
    (hnarrows.obeys_fit hobeys)
  have hreadable := Record.obeys_of_implies (Rules.stable_implies_readable wide) hstable
  have hnormal := Record.obeys_of_implies (Rules.stable_implies_normal wide) hstable
  obtain ⟨object, hencode⟩ : ∃ object, narrow.encode typeName record .empty = (object, .ok ()) :=
    exists_encodeTo hnarrows.uniqueIds (Nat.lt_succ_self _) hwritable
  refine ⟨object, hencode, ?_⟩
  rw [hnarrows.encode_fit hobeys] at hencode
  rw [decode_of_encode hnarrows.wideUniqueIds hencode hreadable, Record.normalize_eq_self hnormal]

/-! ## Reading narrowly -/

theorem conforming_implies_writable : (Rules.conforming wide).Implies (.writable narrow) where
  record typeName record hconforming := by
    obtain ⟨-, hfilled, -⟩ := Rules.conforming_record_iff.mp hconforming
    obtain ⟨type, htype, hall⟩ := isFilled_iff.mp hfilled
    obtain ⟨own, hown, hincluded⟩ := hnarrows.within typeName type htype
    exact isFilled_iff.mpr ⟨own, hown, fun field hfield => hall field (hincluded field hfield)⟩
  field := (Rules.conforming_implies_writable wide).field
  element := (Rules.conforming_implies_writable wide).element

theorem conforming_implies_readable : (Rules.conforming wide).Implies (.readable narrow) where
  record _ _ _ := rfl
  field shape value hconforming := by
    have hstable := (Rules.conforming_implies_stable wide).field shape value hconforming
    exact (Rules.stable_implies_readable wide).field shape value hstable
  element element value hconforming := by
    rw [← hnarrows.conforming_element_eq] at hconforming
    have hstable := (Rules.conforming_implies_stable narrow).element element value hconforming
    exact (Rules.stable_implies_readable narrow).element element value hstable

/-- The narrow codec reads what the wide one wrote without the fields it does not know, as long as
the keys of maps are apart without them. -/
theorem decode_narrow {typeName : String} {record : Record}
    (hobeys : record.obeys wide (.conforming wide) typeName)
    (hapart : (Record.fit narrow typeName record).obeys narrow .apart typeName) :
    ∃ object, wide.encode typeName record .empty = (object, .ok ()) ∧
      narrow.decode typeName object = .ok (Record.fit narrow typeName record) := by
  have hfields : ∀ typeName id field, narrow.field? typeName id = some field →
      wide.field? typeName id = some field := fun _ _ _ => hnarrows.field?_wide
  have hwritable := Record.obeys_of_fields hnarrows.conforming_implies_writable hfields hobeys
  have hreadable := Record.obeys_of_fields hnarrows.conforming_implies_readable hfields hobeys
  obtain ⟨object, hencode⟩ : ∃ object, wide.encode typeName record .empty = (object, .ok ()) :=
    exists_encodeTo hnarrows.wideUniqueIds (Nat.lt_succ_self _)
      (Record.obeys_of_implies (Rules.conforming_implies_writable wide) hobeys)
  refine ⟨object, hencode, ?_⟩
  rw [decode_of_encode_within hnarrows.uniqueIds hnarrows.wideUniqueIds hnarrows.within hencode
    hreadable, Record.normalize_eq_fit hnarrows.uniqueIds hwritable hapart]

end Narrows

end SchemaLoom.Codec
