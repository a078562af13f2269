import SchemaLoom.Proofs.BundleDocuments

/-!
# Strict reading of bundles

Reading a bundle does not look at the order of members, takes a member that says no more than its
absence for absent, and refuses every member that is not declared or is given twice.  The shape of
a field and the target of a reference are those of the one member that is not `null`.
-/

namespace SchemaLoom

open Form

/-! ## What a document spells -/

namespace Construct

/-- What a document gives under the name, unless it is `null`. -/
def written? (construct : Construct) (key : String) (document : Json) : Option Json :=
  match document.declared? construct.keys key with
  | some .null => none
  | given => given

/-- Of several members, the document gives just this one with something else than `null`. -/
def WritesOnly (construct : Construct) (keys : List String) (key : String) (json document : Json) :
    Prop :=
  construct.written? key document = some json ∧
    ∀ other ∈ keys, other ≠ key → construct.written? other document = none

/-- The items of the list under the name. -/
def items (construct : Construct) (key : String) (document : Json) : List Json :=
  match document.declared? construct.keys key with
  | some (.array items) => items
  | _ => []

end Construct

namespace Reference

/-- The members that say a reference. -/
def keys : List String :=
  ["primitive", "enum", "type"]

def key : Reference → String
  | primitive _ => "primitive"
  | enumeration _ => "enum"
  | named _ => "type"

/-- The target, as the member says it. -/
def Named : Reference → Json → Prop
  | primitive kind, json => json = .string kind.name ∨ json = .object [(kind.name, .null)]
  | enumeration name, json => json = .string name
  | named name, json => json = .string name

/-- The document says this reference and no other. -/
def SpelledBy (reference : Reference) (document : Json) : Prop :=
  ∃ json, Construct.reference.WritesOnly keys reference.key json document ∧ reference.Named json

end Reference

/-- The elements stand under the members of the construct, in their order. -/
def ElementsSpelledBy (construct : Construct) (elements : List Reference) (document : Json) :
    Prop :=
  List.Forall₂ (fun key reference => ∃ part,
      document.declared? construct.keys key = some part ∧ reference.SpelledBy part)
    construct.keys elements

namespace Shape

variable {α : Type}

/-- The members that say a shape. -/
def keys : List String :=
  ["singularType", "optionType", "listType", "mapType"]

def key : Shape α → String
  | singular _ => "singularType"
  | option _ => "optionType"
  | list _ => "listType"
  | map _ _ => "mapType"

/-- What stands under that member. -/
def construct : Shape α → Construct
  | singular _ => .singularShape
  | option _ => .innerShape
  | list _ => .innerShape
  | map _ _ => .mapShape

/-- The document of a field says this shape and no other. -/
def SpelledBy (shape : Shape Reference) (document : Json) : Prop :=
  ∃ json, Construct.field.WritesOnly keys shape.key json document ∧
    ElementsSpelledBy shape.construct shape.elements json

end Shape

/-- Every field has the shape that the document in its place says. -/
def FieldsSpelledBy (fields : List Field) (documents : List Json) : Prop :=
  List.Forall₂ (fun field document => field.shape.SpelledBy document) fields documents

def SchemaFile.SpelledBy (file : SchemaFile) (document : Json) : Prop :=
  List.Forall₂ (fun decl json => FieldsSpelledBy decl.fields (Construct.type.items "fields" json))
    file.types (Construct.file.items "types" document) ∧
  List.Forall₂
    (fun decl json => FieldsSpelledBy decl.fields (Construct.component.items "fields" json))
    file.components (Construct.file.items "components" document)

def Bundle.SpelledBy (bundle : Bundle) (document : Json) : Prop :=
  List.Forall₂ SchemaFile.SpelledBy bundle.files (Construct.bundle.items "schemaFiles" document)

/-! ## Members by their forms -/

namespace Form

variable {α : Type} {construct : Construct} {key : String} {document : Json}

/-- A list has the items that are given, place by place. -/
theorem forall₂_of_reads_listMember (construct : Construct) {item : Form α} {values : List α}
    (hreads : (listMember key item).Reads (document.declared? construct.keys key) values) :
    List.Forall₂ (fun value json => item json = .ok value) values
      (construct.items key document) := by
  rw [Construct.items]
  cases hgiven : document.declared? construct.keys key with
  | none =>
    rw [hgiven] at hreads
    obtain rfl : [] = values := Option.some.inj hreads
    exact .nil
  | some json =>
    have hform : listOf item json = .ok values := hreads.form_eq hgiven
    cases json with
    | array items => exact (Outcome.mapM_eq_ok_iff.mp hform).flip
    | _ => cases hform

/-- An optional member has a value if something else than `null` is written. -/
theorem written?_of_reads_optional {form : Form α} {value? : Option α}
    (hreads : (Member.defaulting key (optional form) none).Reads
      (document.declared? construct.keys key) value?) :
    (construct.written? key document = none ∧ value? = none) ∨
      ∃ json value, construct.written? key document = some json ∧ form json = .ok value ∧
        value? = some value := by
  rw [Construct.written?]
  cases hgiven : document.declared? construct.keys key with
  | none =>
    rw [hgiven] at hreads
    exact .inl ⟨rfl, (Option.some.inj hreads).symm⟩
  | some json =>
    have hform : optional form json = .ok value? := hreads.form_eq hgiven
    cases json
    case null => exact .inl ⟨rfl, (Except.ok.inj hform).symm⟩
    all_goals
      obtain ⟨value, hvalue, heq⟩ := Outcome.map_eq_ok_iff.mp hform
      exact .inr ⟨_, value, rfl, hvalue, heq.symm⟩

theorem written?_of_reads_none {form : Form α}
    (hreads : (Member.defaulting key (optional form) none).Reads
      (document.declared? construct.keys key) none) :
    construct.written? key document = none := by
  rcases written?_of_reads_optional hreads with ⟨hnone, -⟩ | ⟨_, _, _, _, hvalue⟩
  · exact hnone
  · cases hvalue

theorem written?_of_reads_some {form : Form α} {value : α}
    (hreads : (Member.defaulting key (optional form) none).Reads
      (document.declared? construct.keys key) (some value)) :
    ∃ json, construct.written? key document = some json ∧ form json = .ok value := by
  rcases written?_of_reads_optional hreads with ⟨-, hvalue⟩ | ⟨json, found, hjson, hform, hvalue⟩
  · cases hvalue
  · obtain rfl := Option.some.inj hvalue
    exact ⟨json, hjson, hform⟩

/-! ## References and shapes -/

theorem text_eq_ok {json : Json} {value : String} (htext : text json = .ok value) :
    json = .string value := by
  cases json with
  | string found => rw [Except.ok.inj htext]
  | _ => cases htext

theorem pick_eq_ok {name : String} {kind : Primitive}
    (hpick : pick Primitive.choices name = .ok kind) : name = kind.name := by
  rw [pick] at hpick
  cases hlookup : Primitive.choices.lookup name with
  | none => rw [hlookup] at hpick; cases hpick
  | some found =>
    rw [hlookup] at hpick
    obtain rfl := Except.ok.inj hpick
    have hmem := (lookup_eq_some_iff (by decide)).mp hlookup
    obtain ⟨primitive, -, heq⟩ := List.mem_map.mp hmem
    obtain ⟨rfl, rfl⟩ := Prod.mk.inj heq
    rfl

theorem primitive_named {json : Json} {kind : Primitive}
    (hchoice : choice Primitive.choices json = .ok kind) :
    (Reference.primitive kind).Named json := by
  cases json with
  | string name => exact .inl (by rw [pick_eq_ok hchoice])
  | object members =>
    cases members with
    | nil => cases hchoice
    | cons member others =>
      obtain ⟨name, content⟩ := member
      rw [choice, Outcome.bind_eq_ok_iff] at hchoice
      obtain ⟨found, hpick, hchoice⟩ := hchoice
      obtain ⟨⟨⟩, hnothing, hchoice⟩ := Outcome.bind_eq_ok_iff.mp hchoice
      cases others with
      | cons other others => cases hchoice
      | nil =>
        obtain rfl := Except.ok.inj hchoice
        cases content with
        | null => exact .inr (by rw [pick_eq_ok hpick])
        | _ => cases hnothing
  | _ => cases hchoice

theorem referenceOf_eq_ok {primitive? : Option Primitive} {enumeration? named? : Option String}
    {value : Reference} (hvalue : referenceOf primitive? enumeration? named? = .ok value) :
    (∃ kind, primitive? = some kind ∧ enumeration? = none ∧ named? = none ∧
        value = .primitive kind) ∨
      (∃ name, primitive? = none ∧ enumeration? = some name ∧ named? = none ∧
        value = .enumeration name) ∨
      ∃ name, primitive? = none ∧ enumeration? = none ∧ named? = some name ∧
        value = .named name := by
  rw [referenceOf.eq_def] at hvalue
  split at hvalue
  · exact .inl ⟨_, rfl, rfl, rfl, (Except.ok.inj hvalue).symm⟩
  · exact .inr (.inl ⟨_, rfl, rfl, rfl, (Except.ok.inj hvalue).symm⟩)
  · exact .inr (.inr ⟨_, rfl, rfl, rfl, (Except.ok.inj hvalue).symm⟩)
  · cases hvalue
  · cases hvalue

/-- A reference is the one variant that was written. -/
theorem reference_spelled {value : Reference} (hform : reference document = .ok value) :
    value.SpelledBy document := by
  rw [reference, checked_eq_ok_iff (by decide)] at hform
  obtain ⟨⟨primitive?, enumeration?, named?, ⟨⟩⟩, -, ⟨hprimitive, henum, hnamed, -⟩, hbuild⟩ :=
    hform
  change (Member.defaulting "primitive" (optional (choice Primitive.choices)) none).Reads
    (document.declared? Construct.reference.keys "primitive") primitive? at hprimitive
  change (Member.defaulting "enum" (optional text) none).Reads
    (document.declared? Construct.reference.keys "enum") enumeration? at henum
  change (Member.defaulting "type" (optional text) none).Reads
    (document.declared? Construct.reference.keys "type") named? at hnamed
  rcases referenceOf_eq_ok hbuild with ⟨kind, rfl, rfl, rfl, rfl⟩ | ⟨name, rfl, rfl, rfl, rfl⟩ |
    ⟨name, rfl, rfl, rfl, rfl⟩
  · obtain ⟨json, hjson, hchoice⟩ := written?_of_reads_some hprimitive
    refine ⟨json, ⟨hjson, ?_⟩, primitive_named hchoice⟩
    simp [Reference.keys, Reference.key, written?_of_reads_none henum,
      written?_of_reads_none hnamed]
  · obtain ⟨json, hjson, htext⟩ := written?_of_reads_some henum
    refine ⟨json, ⟨hjson, ?_⟩, text_eq_ok htext⟩
    simp [Reference.keys, Reference.key, written?_of_reads_none hprimitive,
      written?_of_reads_none hnamed]
  · obtain ⟨json, hjson, htext⟩ := written?_of_reads_some hnamed
    refine ⟨json, ⟨hjson, ?_⟩, text_eq_ok htext⟩
    simp [Reference.keys, Reference.key, written?_of_reads_none hprimitive,
      written?_of_reads_none henum]

/-- A member that must be given is given. -/
theorem exists_of_reads_required {form : Form α} {value : α} {keys : List String}
    (hreads : (Member.required key form).Reads (document.declared? keys key) value) :
    ∃ json, document.declared? keys key = some json ∧ form json = .ok value := by
  cases hgiven : document.declared? keys key with
  | none =>
    rw [hgiven] at hreads
    cases hreads
  | some json => exact ⟨json, rfl, hreads.form_eq hgiven⟩

theorem exists_part_of_reads {value : Reference} {keys : List String}
    (hreads : (Member.required key reference).Reads (document.declared? keys key) value) :
    ∃ part, document.declared? keys key = some part ∧ value.SpelledBy part := by
  obtain ⟨part, hpart, hform⟩ := exists_of_reads_required hreads
  exact ⟨part, hpart, reference_spelled hform⟩

theorem singularShape_elements {element : Reference}
    (hform : singularShape document = .ok element) :
    ElementsSpelledBy .singularShape [element] document := by
  obtain ⟨⟨_, ⟨⟩⟩, ⟨hreads, -⟩, rfl⟩ := exists_row_of_record (by decide) hform
  exact .cons (exists_part_of_reads hreads) .nil

theorem innerShape_elements {element : Reference} (hform : innerShape document = .ok element) :
    ElementsSpelledBy .innerShape [element] document := by
  obtain ⟨⟨_, ⟨⟩⟩, ⟨hreads, -⟩, rfl⟩ := exists_row_of_record (by decide) hform
  exact .cons (exists_part_of_reads hreads) .nil

theorem mapShape_elements {elements : Reference × Reference}
    (hform : mapShape document = .ok elements) :
    ElementsSpelledBy .mapShape [elements.1, elements.2] document := by
  obtain ⟨⟨_, _, ⟨⟩⟩, ⟨hkey, hvalue, -⟩, rfl⟩ := exists_row_of_record (by decide) hform
  exact .cons (exists_part_of_reads hkey) (.cons (exists_part_of_reads hvalue) .nil)

theorem shapeOf_eq_ok {name : String} {singular? option? list? : Option Reference}
    {map? : Option (Reference × Reference)} {shape : Shape Reference}
    (hshape : shapeOf name singular? option? list? map? = .ok shape) :
    (∃ element, singular? = some element ∧ option? = none ∧ list? = none ∧ map? = none ∧
        shape = .singular element) ∨
      (∃ element, singular? = none ∧ option? = some element ∧ list? = none ∧ map? = none ∧
        shape = .option element) ∨
      (∃ element, singular? = none ∧ option? = none ∧ list? = some element ∧ map? = none ∧
        shape = .list element) ∨
      ∃ elements, singular? = none ∧ option? = none ∧ list? = none ∧ map? = some elements ∧
        shape = .map elements.1 elements.2 := by
  rw [shapeOf.eq_def] at hshape
  split at hshape
  · exact .inl ⟨_, rfl, rfl, rfl, rfl, (Except.ok.inj hshape).symm⟩
  · exact .inr (.inl ⟨_, rfl, rfl, rfl, rfl, (Except.ok.inj hshape).symm⟩)
  · exact .inr (.inr (.inl ⟨_, rfl, rfl, rfl, rfl, (Except.ok.inj hshape).symm⟩))
  · exact .inr (.inr (.inr ⟨_, rfl, rfl, rfl, rfl, (Except.ok.inj hshape).symm⟩))
  · cases hshape
  · cases hshape

/-- A field has the one shape that was written. -/
theorem field_spelled {value : Field} (hform : field document = .ok value) :
    value.shape.SpelledBy document := by
  rw [field, checked_eq_ok_iff (by decide)] at hform
  obtain ⟨⟨name, id, singular?, option?, list?, map?, _, _, _, ⟨⟩⟩, -,
    ⟨-, -, hsingular, hoption, hlist, hmap, -⟩, hbuild⟩ := hform
  change (Member.defaulting "singularType" (optional singularShape) none).Reads
    (document.declared? Construct.field.keys "singularType") singular? at hsingular
  change (Member.defaulting "optionType" (optional innerShape) none).Reads
    (document.declared? Construct.field.keys "optionType") option? at hoption
  change (Member.defaulting "listType" (optional innerShape) none).Reads
    (document.declared? Construct.field.keys "listType") list? at hlist
  change (Member.defaulting "mapType" (optional mapShape) none).Reads
    (document.declared? Construct.field.keys "mapType") map? at hmap
  obtain ⟨shape, hshape, rfl⟩ := Outcome.map_eq_ok_iff.mp hbuild
  rcases shapeOf_eq_ok hshape with ⟨element, rfl, rfl, rfl, rfl, rfl⟩ |
    ⟨element, rfl, rfl, rfl, rfl, rfl⟩ | ⟨element, rfl, rfl, rfl, rfl, rfl⟩ |
    ⟨elements, rfl, rfl, rfl, rfl, rfl⟩
  · obtain ⟨json, hjson, hform⟩ := written?_of_reads_some hsingular
    refine ⟨json, ⟨hjson, ?_⟩, singularShape_elements hform⟩
    simp [Shape.keys, Shape.key, written?_of_reads_none hoption, written?_of_reads_none hlist,
      written?_of_reads_none hmap]
  · obtain ⟨json, hjson, hform⟩ := written?_of_reads_some hoption
    refine ⟨json, ⟨hjson, ?_⟩, innerShape_elements hform⟩
    simp [Shape.keys, Shape.key, written?_of_reads_none hsingular, written?_of_reads_none hlist,
      written?_of_reads_none hmap]
  · obtain ⟨json, hjson, hform⟩ := written?_of_reads_some hlist
    refine ⟨json, ⟨hjson, ?_⟩, innerShape_elements hform⟩
    simp [Shape.keys, Shape.key, written?_of_reads_none hsingular, written?_of_reads_none hoption,
      written?_of_reads_none hmap]
  · obtain ⟨json, hjson, hform⟩ := written?_of_reads_some hmap
    refine ⟨json, ⟨hjson, ?_⟩, mapShape_elements hform⟩
    simp [Shape.keys, Shape.key, written?_of_reads_none hsingular, written?_of_reads_none hoption,
      written?_of_reads_none hlist]

/-! ## The whole bundle -/

theorem fields_spelled {fields : List Field} {documents : List Json}
    (hall : List.Forall₂ (fun value json => field json = .ok value) fields documents) :
    FieldsSpelledBy fields documents :=
  hall.imp fun _ _ => field_spelled

theorem typeDecl_spelled {decl : TypeDecl} (hform : typeDecl document = .ok decl) :
    FieldsSpelledBy decl.fields (Construct.type.items "fields" document) := by
  obtain ⟨⟨_, _, _, fields, _, _, ⟨⟩⟩, ⟨-, -, -, hfields, -⟩, rfl⟩ :=
    exists_row_of_record (by decide) hform
  exact fields_spelled (forall₂_of_reads_listMember .type hfields)

theorem componentDecl_spelled {decl : ComponentDecl} (hform : componentDecl document = .ok decl) :
    FieldsSpelledBy decl.fields (Construct.component.items "fields" document) := by
  obtain ⟨⟨_, _, _, _, fields, _, _, _, _, ⟨⟩⟩, ⟨-, -, -, -, hfields, -⟩, rfl⟩ :=
    exists_row_of_record (by decide) hform
  exact fields_spelled (forall₂_of_reads_listMember .component hfields)

theorem schemaFile_spelled {file : SchemaFile} (hform : schemaFile document = .ok file) :
    file.SpelledBy document := by
  obtain ⟨⟨_, _, _, types, _, components, ⟨⟩⟩, ⟨-, -, -, htypes, -, hcomponents, -⟩, rfl⟩ :=
    exists_row_of_record (by decide) hform
  constructor
  · exact (forall₂_of_reads_listMember .file htypes).imp fun _ _ => typeDecl_spelled
  · exact (forall₂_of_reads_listMember .file hcomponents).imp
      fun _ _ => componentDecl_spelled

theorem bundle_spelled {value : Bundle} (hform : bundle document = .ok value) :
    value.SpelledBy document := by
  obtain ⟨⟨files, ⟨⟩⟩, ⟨hfiles, -⟩, rfl⟩ := exists_row_of_record (by decide) hform
  exact (forall₂_of_reads_listMember .bundle hfiles).imp
    fun _ _ => schemaFile_spelled

end Form

namespace Edited

variable {document other : Json} {bundle : Bundle}

theorem bundle_eq_ok_of_reordered (hedited : Edited Reordered .bundle document other)
    (hform : Form.bundle document = .ok bundle) : Form.bundle other = .ok bundle :=
  hedited.form_eq_ok
    (fun _ _ _ hreordered _ => Construct.form_eq_ok_of_reordered hreordered) hform

theorem bundle_eq_ok_of_blankDropped (hedited : Edited BlankDropped .bundle document other)
    (hform : Form.bundle document = .ok bundle) : Form.bundle other = .ok bundle :=
  hedited.form_eq_ok
    (fun _ _ _ hdropped _ => Construct.form_eq_ok_of_blankDropped hdropped) hform

theorem bundle_eq_error_of_intruded (hedited : Edited Intruded .bundle document other) :
    ∃ fault, Form.bundle other = .error fault := by
  cases hform : Form.bundle other with
  | error fault => exact ⟨fault, rfl⟩
  | ok value =>
    obtain ⟨_, _, _, hintruded, _, hfound⟩ := hedited.accepts_changed hform
    exact absurd (Construct.accepts_members hfound).1 (Construct.not_fits_of_intruded hintruded)

end Edited

theorem Bundle.parse_eq_form {text : String} {document : Json}
    (htext : Json.parse? text = some document) : Bundle.parse text = Form.bundle document := by
  rw [Bundle.parse, Form.read, htext]

/-- Reading a bundle is strict and does not depend on order.  Whatever object of an accepted
document has its members reordered or a default left out, the bundle is the same; whatever object
has a member that it does not declare or a second one of the same name, the document is refused.
The fields of the bundle have just the shapes and references that are written. -/
theorem Bundle.parse_strict {text : String} {document : Json} {bundle : Bundle}
    (htext : Json.parse? text = some document) (hparse : Bundle.parse text = .ok bundle) :
    (∀ other, Edited Reordered .bundle document other → Form.bundle other = .ok bundle) ∧
      (∀ other, Edited BlankDropped .bundle document other → Form.bundle other = .ok bundle) ∧
      (∀ other, Edited Intruded .bundle document other →
        ∃ fault, Form.bundle other = .error fault) ∧
      (∀ text' other, Json.parse? text' = some other →
        Bundle.parse text' = Form.bundle other) ∧
      bundle.SpelledBy document := by
  have hform : Form.bundle document = .ok bundle := (Bundle.parse_eq_form htext).symm.trans hparse
  refine ⟨?_, ?_, ?_, ?_, Form.bundle_spelled hform⟩
  · exact fun _ hedited => hedited.bundle_eq_ok_of_reordered hform
  · exact fun _ hedited => hedited.bundle_eq_ok_of_blankDropped hform
  · exact fun _ hedited => hedited.bundle_eq_error_of_intruded
  · exact fun _ _ htext' => Bundle.parse_eq_form htext'

/-! ### A bundle of one field -/

/-- A document with one type that has one field, written with the given members. -/
def ofField (members : List (String × Json)) : Json :=
  .object [("schemaFiles", .array [.object [("canonicalPath", .string "a"),
    ("package", .object [("name", .string "")]),
    ("types", .array [.object [("name", .string "T"), ("qualifiedName", .string "T"),
      ("fields", .array [.object members])]])]])]

def speedField : List (String × Json) :=
  [("name", .string "speed"), ("fieldId", .number (.integer 1)), ("transient", .bool false),
    ("singularType", .object [("type", .object [("primitive", .string "Float")])])]

def speedText : String :=
  "\x7b\"schemaFiles\":[\x7b\"canonicalPath\":\"a\",\"package\":\x7b\"name\":\"\"\x7d,
    \"types\":[\x7b\"name\":\"T\",\"qualifiedName\":\"T\",
    \"fields\":[\x7b\"name\":\"speed\",\"fieldId\":1,\"transient\":false,
    \"singularType\":\x7b\"type\":\x7b\"primitive\":\"Float\"\x7d\x7d\x7d]\x7d]\x7d]\x7d"

set_option maxRecDepth 100000 in
theorem parse?_speedText : Json.parse? speedText = some (ofField speedField) := by
  rw [show speedText = String.ofList _ from rfl, Json.parse?, String.toList_ofList]
  rfl

/-- A change of the field is an edit of the bundle, four objects deep. -/
theorem edited_ofField {change : Change} {members members' : List (String × Json)}
    (hchange : change .field members members') :
    Edited change .bundle (ofField members) (ofField members') := by
  have hfiles : MemberRule.many "schemaFiles" .file ∈ Construct.bundle.rules := .head _
  have htypes : MemberRule.many "types" .type ∈ Construct.file.rules :=
    .tail _ (.tail _ (.tail _ (.head _)))
  have hfields : MemberRule.many "fields" .field ∈ Construct.type.rules :=
    .tail _ (.tail _ (.tail _ (.head _)))
  refine .inside hfiles ?_ (.many .file [] []) (.member [] [])
  refine .inside htypes ?_ (.many .type [] []) (.member [_, _] [])
  exact .inside hfields (.here hchange) (.many .field [] []) (.member [_, _] [])

theorem Bundle.parse_strict_speedText :
    ∃ bundle, Bundle.parse speedText = .ok bundle ∧
      Form.bundle (ofField speedField.reverse) = .ok bundle ∧
      Form.bundle (ofField (speedField.eraseIdx 2)) = .ok bundle ∧
      (∃ fault, Form.bundle (ofField (("unit", .null) :: speedField)) = .error fault) ∧
      bundle.SpelledBy (ofField speedField) := by
  obtain ⟨bundle, hbundle⟩ : ∃ bundle, Form.bundle (ofField speedField) = .ok bundle := ⟨_, rfl⟩
  have hparse := (Bundle.parse_eq_form parse?_speedText).trans hbundle
  obtain ⟨hreordered, hdropped, hintruded, -, hspelled⟩ :=
    Bundle.parse_strict parse?_speedText hparse
  refine ⟨bundle, hparse, hreordered _ ?_, hdropped _ ?_, hintruded _ ?_, hspelled⟩
  · exact edited_ofField ⟨(List.reverse_perm _).symm⟩
  · have htransient : MemberRule.plainOr "transient" .off ∈ Construct.field.rules := by
      simp [Construct.rules]
    exact edited_ofField (.intro (speedField.take 2) (speedField.drop 3) htransient rfl rfl)
  · exact edited_ofField (.intro [] speedField (.inl (by decide)))

end SchemaLoom
