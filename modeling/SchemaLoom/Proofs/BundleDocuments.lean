import Mathlib.Data.List.Nodup
import SchemaLoom.Schema.Form
import SchemaLoom.Proofs.DeclaredMembers

/-!
# Documents of a bundle

A bundle is written as nested objects of nineteen constructs.  `Construct.rules` is the table of
what each of them declares: the names of its members, the constructs these hold, and how a member
is written that says no more than its absence.  Every form follows its line of the table, so what
holds of one edited object holds wherever in a document the object stands.
-/

namespace SchemaLoom

open Form

/-- What the objects of a bundle's document stand for. -/
inductive Construct where
  | bundle
  | file
  | package
  | importedFile
  | type
  | enumeration
  | enumValue
  | component
  | command
  | event
  | field
  | singularShape
  | innerShape
  | mapShape
  | reference
  | note
  | noteContent
  | noteField
  | position

/-- What a member holds: a plain value, a construct, a construct or `null`, or a list. -/
inductive Content where
  | plain
  | one (construct : Construct)
  | nullable (construct : Construct)
  | many (construct : Construct)

/-- How a member is written that could be left out. -/
inductive Blank where
  | emptyList
  | off
  | null
  | emptyText
  | origin

/-- The number zero. -/
def Json.zero : Json :=
  .number (.integer 0)

def Blank.Written : Blank → Json → Prop
  | emptyList, json => json = .array []
  | off, json => json = .bool false
  | null, json => json = .null
  | emptyText, json => json = .null ∨ json = .string ""
  | origin, json => json = .array [.zero, .zero] ∨
      ∃ members, members.Perm [("line", .zero), ("column", .zero)] ∧ json = .object members

/-- A declared member: its name, what it holds, and its default if it has one. -/
structure MemberRule where
  key : String
  content : Content
  blank : Option Blank

namespace MemberRule

def plain (key : String) : MemberRule := ⟨key, .plain, none⟩

def one (key : String) (construct : Construct) : MemberRule := ⟨key, .one construct, none⟩

def many (key : String) (construct : Construct) : MemberRule :=
  ⟨key, .many construct, some .emptyList⟩

def nullable (key : String) (construct : Construct) : MemberRule :=
  ⟨key, .nullable construct, some .null⟩

def plainOr (key : String) (blank : Blank) : MemberRule := ⟨key, .plain, some blank⟩

def annotations : MemberRule := many "annotations" .note

def position : MemberRule := ⟨"sourceReference", .one .position, some .origin⟩

end MemberRule

namespace Construct

/-- The members a construct declares. -/
def rules : Construct → List MemberRule
  | bundle => [.many "schemaFiles" .file]
  | file => [.plain "canonicalPath", .one "package" .package, .many "imports" .importedFile,
      .many "types" .type, .many "enums" .enumeration, .many "components" .component]
  | package => [.plain "name", .position]
  | importedFile => [.plain "path", .position]
  | type => [.plain "name", .plain "qualifiedName", .plainOr "outerType" .emptyText,
      .many "fields" .field, .annotations, .position]
  | enumeration => [.plain "name", .plain "qualifiedName", .plainOr "outerType" .emptyText,
      .many "values" .enumValue, .annotations, .position]
  | enumValue => [.plain "name", .plain "value", .annotations, .position]
  | component => [.plain "name", .plain "qualifiedName", .plain "componentId",
      .plainOr "dataDefinition" .emptyText, .many "fields" .field, .many "commands" .command,
      .many "events" .event, .annotations, .position]
  | command => [.plain "name", .plain "commandIndex", .plain "requestType", .plain "responseType",
      .annotations, .position]
  | event => [.plain "name", .plain "eventIndex", .plain "type", .annotations, .position]
  | field => [.plain "name", .plain "fieldId", .nullable "singularType" .singularShape,
      .nullable "optionType" .innerShape, .nullable "listType" .innerShape,
      .nullable "mapType" .mapShape, .plainOr "transient" .off, .annotations, .position]
  | singularShape => [.one "type" .reference]
  | innerShape => [.one "innerType" .reference]
  | mapShape => [.one "keyType" .reference, .one "valueType" .reference]
  | reference => [.plainOr "primitive" .null, .plainOr "enum" .null, .plainOr "type" .null]
  | note => [.position, .one "typeValue" .noteContent]
  | noteContent => [.plain "type", .many "fields" .noteField]
  | noteField => [.plain "name", .position, .plain "value"]
  | position => [.plain "line", .plain "column"]

def keys (construct : Construct) : List String :=
  construct.rules.map MemberRule.key

theorem nodup_keys (construct : Construct) : construct.keys.Nodup := by
  cases construct <;> decide

/-- What a construct is read into. -/
def Value : Construct → Type
  | bundle => Bundle
  | file => SchemaFile
  | package => Package
  | importedFile => Import
  | type => TypeDecl
  | enumeration => EnumDecl
  | enumValue => EnumValue
  | component => ComponentDecl
  | command => Command
  | event => Event
  | field => Field
  | singularShape => Reference
  | innerShape => Reference
  | mapShape => Reference × Reference
  | reference => Reference
  | note => Annotation
  | noteContent => String × List AnnotationField
  | noteField => AnnotationField
  | position => Position

def form : (construct : Construct) → Form construct.Value
  | bundle => Form.bundle
  | file => Form.schemaFile
  | package => Form.package
  | importedFile => Form.importedFile
  | type => Form.typeDecl
  | enumeration => Form.enumDecl
  | enumValue => Form.enumValue
  | component => Form.componentDecl
  | command => Form.command
  | event => Form.event
  | field => Form.field
  | singularShape => Form.singularShape
  | innerShape => Form.innerShape
  | mapShape => Form.mapShape
  | reference => Form.reference
  | note => Form.annotation
  | noteContent => Form.annotationContent
  | noteField => Form.annotationField
  | position => Form.position

end Construct

/-! ## The forms follow the table -/

/-- A member that is read as what the rule says it holds, and whose default is what its blank
stands for. -/
structure MemberRule.Describes (rule : MemberRule) (member : Member) : Prop where
  key_eq : member.key = rule.key
  holds : match rule.content with
    | .plain => True
    | .one construct => ∃ absent, member = ⟨construct.Value, rule.key, construct.form, absent⟩
    | .nullable construct => ∃ absent,
        member = ⟨Option construct.Value, rule.key, optional construct.form, absent⟩
    | .many construct => ∃ absent,
        member = ⟨List construct.Value, rule.key, listOf construct.form, absent⟩
  blank_absent : ∀ blank ∈ rule.blank, ∀ json, blank.Written json →
    ∃ value, member.form json = .ok value ∧ member.absent = some value

namespace MemberRule

theorem describes_plain {α : Type} (key : String) (form : Form α) :
    (plain key).Describes (.required key form) :=
  ⟨rfl, trivial, nofun⟩

theorem describes_one (key : String) (construct : Construct) :
    (one key construct).Describes (.required key construct.form) :=
  ⟨rfl, ⟨none, rfl⟩, nofun⟩

theorem describes_many (key : String) (construct : Construct) :
    (many key construct).Describes (listMember key construct.form) := by
  refine ⟨rfl, ⟨some [], rfl⟩, ?_⟩
  rintro _ ⟨⟩ _ rfl
  exact ⟨[], rfl, rfl⟩

theorem describes_nullable (key : String) (construct : Construct) :
    (nullable key construct).Describes (.defaulting key (optional construct.form) none) := by
  refine ⟨rfl, ⟨some none, rfl⟩, ?_⟩
  rintro _ ⟨⟩ _ rfl
  exact ⟨none, rfl, rfl⟩

theorem describes_null {α : Type} (key : String) (form : Form α) :
    (plainOr key .null).Describes (.defaulting key (optional form) none) := by
  refine ⟨rfl, trivial, ?_⟩
  rintro _ ⟨⟩ _ rfl
  exact ⟨none, rfl, rfl⟩

theorem describes_emptyText (key : String) :
    (plainOr key .emptyText).Describes (.defaulting key nonemptyText none) := by
  refine ⟨rfl, trivial, ?_⟩
  rintro _ ⟨⟩ _ (rfl | rfl)
  · exact ⟨none, rfl, rfl⟩
  · exact ⟨none, rfl, rfl⟩

theorem describes_off (key : String) :
    (plainOr key .off).Describes (.defaulting key flag false) := by
  refine ⟨rfl, trivial, ?_⟩
  rintro _ ⟨⟩ _ rfl
  exact ⟨false, rfl, rfl⟩

theorem describes_annotations : annotations.Describes annotationsMember :=
  describes_many "annotations" .note

/-- The place zero is the unknown place, in whatever order it is written. -/
theorem describes_position : position.Describes positionMember := by
  refine ⟨rfl, ⟨some .unknown, rfl⟩, ?_⟩
  rintro _ ⟨⟩ json hjson
  refine ⟨Position.unknown, ?_, rfl⟩
  rcases hjson with rfl | ⟨members, hperm, rfl⟩
  · rfl
  · have hnodup : (members.map Prod.fst).Nodup :=
      ((hperm.map Prod.fst).nodup_iff).mpr (by decide)
    have hlookup := lookup_eq_of_perm hperm.symm (by decide)
    have hline : Json.declared? ["line", "column"] "line" (.object members) = some .zero :=
      hlookup "line"
    have hcolumn : Json.declared? ["line", "column"] "column" (.object members) = some .zero :=
      hlookup "column"
    have hrow : row "SourceReference" [.required "line" word, .required "column" word]
        (.object members) = .ok ((0 : UInt32), (0 : UInt32), ()) := by
      rw [row_eq_ok_iff (by decide)]
      exact ⟨⟨hnodup, (hperm.map Prod.fst).subset⟩, .of_form hline rfl, .of_form hcolumn rfl,
        trivial⟩
    simp only [positionMember, Member.defaulting, Form.position, record, hrow]
    rfl

end MemberRule

namespace Construct

open MemberRule

/-- Every form reads a row of the members that its construct declares. -/
theorem form_eq_checked (construct : Construct) :
    ∃ title members build, construct.form = checked title members build ∧
      List.Forall₂ Describes construct.rules members := by
  cases construct with
  | bundle =>
    exact ⟨_, _, _, record_eq_checked _ _ _, .cons (describes_many _ .file) .nil⟩
  | file =>
    exact ⟨_, _, _, record_eq_checked _ _ _, .cons (describes_plain _ _) <|
      .cons (describes_one _ .package) <| .cons (describes_many _ .importedFile) <|
      .cons (describes_many _ .type) <| .cons (describes_many _ .enumeration) <|
      .cons (describes_many _ .component) .nil⟩
  | package =>
    exact ⟨_, _, _, record_eq_checked _ _ _, .cons (describes_plain _ _) <|
      .cons describes_position .nil⟩
  | importedFile =>
    exact ⟨_, _, _, record_eq_checked _ _ _, .cons (describes_plain _ _) <|
      .cons describes_position .nil⟩
  | type =>
    exact ⟨_, _, _, record_eq_checked _ _ _, .cons (describes_plain _ _) <|
      .cons (describes_plain _ _) <| .cons (describes_emptyText _) <|
      .cons (describes_many _ .field) <| .cons describes_annotations <|
      .cons describes_position .nil⟩
  | enumeration =>
    exact ⟨_, _, _, record_eq_checked _ _ _, .cons (describes_plain _ _) <|
      .cons (describes_plain _ _) <| .cons (describes_emptyText _) <|
      .cons (describes_many _ .enumValue) <| .cons describes_annotations <|
      .cons describes_position .nil⟩
  | enumValue =>
    exact ⟨_, _, _, record_eq_checked _ _ _, .cons (describes_plain _ _) <|
      .cons (describes_plain _ _) <| .cons describes_annotations <|
      .cons describes_position .nil⟩
  | component =>
    exact ⟨_, _, _, record_eq_checked _ _ _, .cons (describes_plain _ _) <|
      .cons (describes_plain _ _) <| .cons (describes_plain _ _) <|
      .cons (describes_emptyText _) <| .cons (describes_many _ .field) <|
      .cons (describes_many _ .command) <| .cons (describes_many _ .event) <|
      .cons describes_annotations <| .cons describes_position .nil⟩
  | command =>
    exact ⟨_, _, _, record_eq_checked _ _ _, .cons (describes_plain _ _) <|
      .cons (describes_plain _ _) <| .cons (describes_plain _ _) <|
      .cons (describes_plain _ _) <| .cons describes_annotations <|
      .cons describes_position .nil⟩
  | event =>
    exact ⟨_, _, _, record_eq_checked _ _ _, .cons (describes_plain _ _) <|
      .cons (describes_plain _ _) <| .cons (describes_plain _ _) <|
      .cons describes_annotations <| .cons describes_position .nil⟩
  | field =>
    exact ⟨_, _, _, rfl, .cons (describes_plain _ _) <| .cons (describes_plain _ _) <|
      .cons (describes_nullable _ .singularShape) <| .cons (describes_nullable _ .innerShape) <|
      .cons (describes_nullable _ .innerShape) <| .cons (describes_nullable _ .mapShape) <|
      .cons (describes_off _) <| .cons describes_annotations <| .cons describes_position .nil⟩
  | singularShape =>
    exact ⟨_, _, _, record_eq_checked _ _ _, .cons (describes_one _ .reference) .nil⟩
  | innerShape =>
    exact ⟨_, _, _, record_eq_checked _ _ _, .cons (describes_one _ .reference) .nil⟩
  | mapShape =>
    exact ⟨_, _, _, record_eq_checked _ _ _, .cons (describes_one _ .reference) <|
      .cons (describes_one _ .reference) .nil⟩
  | reference =>
    exact ⟨_, _, _, rfl, .cons (describes_null _ _) <| .cons (describes_null _ _) <|
      .cons (describes_null _ _) .nil⟩
  | note =>
    exact ⟨_, _, _, record_eq_checked _ _ _, .cons describes_position <|
      .cons (describes_one _ .noteContent) .nil⟩
  | noteContent =>
    exact ⟨_, _, _, record_eq_checked _ _ _, .cons (describes_plain _ _) <|
      .cons (describes_many _ .noteField) .nil⟩
  | noteField =>
    exact ⟨_, _, _, record_eq_checked _ _ _, .cons (describes_plain _ _) <|
      .cons describes_position <| .cons (describes_plain _ _) .nil⟩
  | position =>
    exact ⟨_, _, _, record_eq_checked _ _ _, .cons (describes_plain _ _) <|
      .cons (describes_plain _ _) .nil⟩

variable {construct : Construct} {document document' : Json}

theorem keys_of_describes {members : List Member}
    (hdescribes : List.Forall₂ Describes construct.rules members) :
    members.map Member.key = construct.keys := by
  refine (Outcome.map_eq_map hdescribes ?_).symm
  exact fun _ _ hdescribed => hdescribed.key_eq.symm

theorem eq_of_key_eq {rule other : MemberRule} (hrule : rule ∈ construct.rules)
    (hother : other ∈ construct.rules) (hkey : other.key = rule.key) : other = rule :=
  List.inj_on_of_nodup_map construct.nodup_keys hother hrule hkey

/-- What is accepted gives nothing but declared members, and each of them is accepted. -/
theorem accepts_members {value : construct.Value} (hform : construct.form document = .ok value) :
    document.Fits construct.keys ∧
      ∀ rule ∈ construct.rules, ∃ member, rule.Describes member ∧
        ∀ json, document.declared? construct.keys rule.key = some json →
          ∃ value, member.form json = .ok value := by
  obtain ⟨title, members, build, hchecked, hdescribes⟩ := construct.form_eq_checked
  have hkeys := keys_of_describes hdescribes
  rw [hchecked, checked_eq_ok_iff (hkeys ▸ construct.nodup_keys), hkeys] at hform
  obtain ⟨result, hfits, hreads, -⟩ := hform
  refine ⟨hfits, fun rule hrule => ?_⟩
  obtain ⟨member, hmember, hdescribed⟩ := Outcome.exists_right_of_mem hdescribes hrule
  refine ⟨member, hdescribed, fun json hjson => ?_⟩
  exact hreads.accepts member hmember json (hdescribed.key_eq ▸ hjson)

/-- A document in which each member can have the same value is read into the same. -/
theorem form_eq_ok_of_members {value : construct.Value}
    (hform : construct.form document = .ok value) (hfits : document'.Fits construct.keys)
    (hmembers : ∀ rule ∈ construct.rules, ∀ member, rule.Describes member → ∀ value,
      member.Reads (document.declared? construct.keys rule.key) value →
        member.Reads (document'.declared? construct.keys rule.key) value) :
    construct.form document' = .ok value := by
  obtain ⟨title, members, build, hchecked, hdescribes⟩ := construct.form_eq_checked
  have hkeys := keys_of_describes hdescribes
  rw [hchecked, checked_eq_ok_iff (hkeys ▸ construct.nodup_keys), hkeys] at hform ⊢
  obtain ⟨result, -, hreads, hbuild⟩ := hform
  refine ⟨result, hfits, hreads.imp ?_, hbuild⟩
  intro member hmember value hvalue
  obtain ⟨rule, hrule, hdescribed⟩ := Outcome.exists_left_of_mem hdescribes hmember
  rw [hdescribed.key_eq] at hvalue ⊢
  exact hmembers rule hrule member hdescribed value hvalue

end Construct

/-! ## Edits of one object -/

/-- A way to change the members of an object that stands for a construct. -/
abbrev Change := Construct → List (String × Json) → List (String × Json) → Prop

/-- The members in another order. -/
inductive Reordered : Change
  | intro {construct : Construct} {members members' : List (String × Json)}
      (hperm : members.Perm members') : Reordered construct members members'

/-- A member left out that says no more than its absence. -/
inductive BlankDropped : Change
  | intro {construct : Construct} {rule : MemberRule} {blank : Blank} {json : Json}
      (front back : List (String × Json)) (hrule : rule ∈ construct.rules)
      (hblank : rule.blank = some blank) (hwritten : blank.Written json) :
      BlankDropped construct (front ++ (rule.key, json) :: back) (front ++ back)

/-- One more member, of a name that is not declared or is taken already. -/
inductive Intruded : Change
  | intro {construct : Construct} {key : String} {json : Json} (front back : List (String × Json))
      (hkey : key ∉ construct.keys ∨ key ∈ (front ++ back).map Prod.fst) :
      Intruded construct (front ++ back) (front ++ (key, json) :: back)

namespace Construct

variable {construct : Construct} {members members' : List (String × Json)}

theorem form_eq_ok_of_reordered (hreordered : Reordered construct members members')
    {value : construct.Value} (hform : construct.form (.object members) = .ok value) :
    construct.form (.object members') = .ok value := by
  obtain ⟨hperm⟩ := hreordered
  obtain ⟨⟨hnodup, hsubset⟩, -⟩ := accepts_members hform
  have hkeys := hperm.map Prod.fst
  refine form_eq_ok_of_members hform ⟨hkeys.nodup_iff.mp hnodup, ?_⟩ ?_
  · exact fun key hkey => hsubset (hkeys.mem_iff.mpr hkey)
  · intro rule _ member _ value hvalue
    rw [Json.declared?, lookup_eq_of_perm hperm hnodup]
    exact hvalue

theorem form_eq_ok_of_blankDropped (hdropped : BlankDropped construct members members')
    {value : construct.Value} (hform : construct.form (.object members) = .ok value) :
    construct.form (.object members') = .ok value := by
  obtain @⟨_, rule, blank, json, front, back, hrule, hblank, hwritten⟩ := hdropped
  obtain ⟨⟨hnodup, hsubset⟩, -⟩ := accepts_members hform
  have hsublist : ((front ++ back).map Prod.fst).Sublist
      ((front ++ (rule.key, json) :: back).map Prod.fst) :=
    ((List.sublist_cons_self _ _).append_left front).map Prod.fst
  refine form_eq_ok_of_members hform ⟨hnodup.sublist hsublist, ?_⟩ ?_
  · exact fun key hkey => hsubset (hsublist.subset hkey)
  · intro other hother member hdescribed value hvalue
    by_cases hkey : other.key = rule.key
    · obtain rfl := eq_of_key_eq hrule hother hkey
      obtain ⟨found, hfound, habsent⟩ := hdescribed.blank_absent blank hblank json hwritten
      have hread := hvalue.form_eq (Json.lookup_middle hnodup)
      obtain rfl : found = value := Except.ok.inj (hfound.symm.trans hread)
      have hnone : (front ++ back).lookup other.key = none :=
        lookup_eq_none_iff.mpr (Json.notMem_of_nodup_middle hnodup)
      rw [Json.declared?, hnone]
      exact habsent
    · rw [Json.declared?, ← Json.lookup_middle_of_ne json hkey]
      exact hvalue

theorem not_fits_of_intruded (hintruded : Intruded construct members members') :
    ¬(Json.object members').Fits construct.keys := by
  obtain ⟨front, back, hkey⟩ := hintruded
  rintro ⟨hnodup, hsubset⟩
  rcases hkey with hundeclared | htaken
  · exact hundeclared (hsubset (by simp))
  · exact Json.notMem_of_nodup_middle hnodup htaken

end Construct

/-! ## Edits inside a document -/

/-- The second value is the first one with another part in the place of a part that stands for the
construct. -/
inductive Content.Places (part part' : Json) : Content → Construct → Json → Json → Prop
  | one (inner : Construct) : Places part part' (.one inner) inner part part'
  | nullable (inner : Construct) : Places part part' (.nullable inner) inner part part'
  | many (inner : Construct) (front back : List Json) :
      Places part part' (.many inner) inner (.array (front ++ part :: back))
        (.array (front ++ part' :: back))

/-- The second document is the first one with one object changed, the outermost or one at any
depth. -/
inductive Edited (change : Change) : Construct → Json → Json → Prop
  | here {construct : Construct} {members members' : List (String × Json)}
      (hchange : change construct members members') :
      Edited change construct (.object members) (.object members')
  | inside {construct inner : Construct} {rule : MemberRule}
      {part part' value value' document document' : Json} (hrule : rule ∈ construct.rules)
      (hedited : Edited change inner part part')
      (hplaces : rule.content.Places part part' inner value value')
      (hreplaces : Json.Replaces construct.keys rule.key value value' document document') :
      Edited change construct document document'

theorem Edited.ne_null {change : Change} {construct : Construct} {document document' : Json}
    (hedited : Edited change construct document document') :
    document ≠ .null ∧ document' ≠ .null := by
  cases hedited with
  | here _ => exact ⟨nofun, nofun⟩
  | inside _ _ _ hreplaces => cases hreplaces <;> exact ⟨nofun, nofun⟩

theorem Form.optional_of_ne_null {α : Type} {form : Form α} {json : Json} (hjson : json ≠ .null) :
    optional form json = (form json).map some := by
  cases json <;> first | rfl | exact absurd rfl hjson

namespace MemberRule

variable {rule : MemberRule} {member : Member} {inner : Construct}
  {part part' value value' : Json}

/-- A member is read as before if the part that was changed in it is. -/
theorem Describes.form_eq_ok_of_places (hdescribes : rule.Describes member)
    (hplaces : rule.content.Places part part' inner value value') (hpart : part ≠ .null)
    (hpart' : part' ≠ .null)
    (hread : ∀ result, inner.form part = .ok result → inner.form part' = .ok result)
    {result : member.Value} (hresult : member.form value = .ok result) :
    member.form value' = .ok result := by
  obtain ⟨-, hholds, -⟩ := hdescribes
  cases hcontent : rule.content <;> rw [hcontent] at hplaces hholds <;> cases hplaces
  case one =>
    obtain ⟨absent, rfl⟩ := hholds
    exact hread result hresult
  case nullable =>
    obtain ⟨absent, rfl⟩ := hholds
    change optional inner.form part = .ok result at hresult
    change optional inner.form part' = .ok result
    rw [optional_of_ne_null hpart, Outcome.map_eq_ok_iff] at hresult
    obtain ⟨found, hfound, rfl⟩ := hresult
    rw [optional_of_ne_null hpart', hread found hfound]
    rfl
  case many front back =>
    obtain ⟨absent, rfl⟩ := hholds
    change (front ++ part :: back).mapM inner.form = .ok result at hresult
    change (front ++ part' :: back).mapM inner.form = .ok result
    rw [Outcome.mapM_eq_ok_iff] at hresult ⊢
    obtain ⟨first, second, rfl, hfront, hrest⟩ := Outcome.forall₂_append_left hresult
    cases hrest with
    | cons hfound hback => exact List.rel_append hfront (.cons (hread _ hfound) hback)

/-- A part of an accepted member is accepted. -/
theorem Describes.accepts_part (hdescribes : rule.Describes member)
    (hplaces : rule.content.Places part part' inner value value') (hpart' : part' ≠ .null)
    {result : member.Value} (hresult : member.form value' = .ok result) :
    ∃ found, inner.form part' = .ok found := by
  obtain ⟨-, hholds, -⟩ := hdescribes
  cases hcontent : rule.content <;> rw [hcontent] at hplaces hholds <;> cases hplaces
  case one =>
    obtain ⟨absent, rfl⟩ := hholds
    exact ⟨result, hresult⟩
  case nullable =>
    obtain ⟨absent, rfl⟩ := hholds
    change optional inner.form part' = .ok result at hresult
    rw [optional_of_ne_null hpart', Outcome.map_eq_ok_iff] at hresult
    obtain ⟨found, hfound, -⟩ := hresult
    exact ⟨found, hfound⟩
  case many front back =>
    obtain ⟨absent, rfl⟩ := hholds
    change (front ++ part' :: back).mapM inner.form = .ok result at hresult
    rw [Outcome.mapM_eq_ok_iff] at hresult
    have hpart : part' ∈ front ++ part' :: back := by simp
    obtain ⟨found, -, hfound⟩ := Outcome.exists_right_of_mem hresult hpart
    exact ⟨found, hfound⟩

end MemberRule

namespace Edited

variable {change : Change} {construct : Construct} {document document' : Json}

/-- A change that leaves the reading of one object as it was does so at any depth. -/
theorem form_eq_ok (hedited : Edited change construct document document')
    (hchange : ∀ construct members members', change construct members members' →
      ∀ value, construct.form (.object members) = .ok value →
        construct.form (.object members') = .ok value)
    {value : construct.Value} (hform : construct.form document = .ok value) :
    construct.form document' = .ok value := by
  induction hedited with
  | here hhere => exact hchange _ _ _ hhere value hform
  | @inside construct inner rule part part' _ _ _ _ hrule hedited hplaces hreplaces ih =>
    obtain ⟨hpart, hpart'⟩ := hedited.ne_null
    obtain ⟨hfits, -⟩ := Construct.accepts_members hform
    obtain ⟨hfits', hgiven, hgiven', hothers⟩ :=
      hreplaces.declared?_eq construct.nodup_keys hfits
    refine Construct.form_eq_ok_of_members hform hfits' ?_
    intro other hother member hdescribes found hfound
    by_cases hkey : other.key = rule.key
    · obtain rfl := Construct.eq_of_key_eq hrule hother hkey
      exact .of_form hgiven' (hdescribes.form_eq_ok_of_places hplaces hpart hpart'
        (fun _ => ih) (hfound.form_eq hgiven))
    · rw [hothers other.key hkey (List.mem_map_of_mem hother)]
      exact hfound

/-- An accepted document has its changed object accepted. -/
theorem accepts_changed (hedited : Edited change construct document document')
    {value : construct.Value} (hform : construct.form document' = .ok value) :
    ∃ inner members members', change inner members members' ∧
      ∃ found, inner.form (.object members') = .ok found := by
  induction hedited with
  | @here construct members members' hhere =>
    exact ⟨construct, members, members', hhere, value, hform⟩
  | @inside construct inner rule part part' _ _ _ _ hrule hedited hplaces hreplaces ih =>
    obtain ⟨-, hpart'⟩ := hedited.ne_null
    obtain ⟨hfits, hmembers⟩ := Construct.accepts_members hform
    obtain ⟨-, hgiven, -⟩ := hreplaces.symm.declared?_eq construct.nodup_keys hfits
    obtain ⟨member, hdescribes, haccepts⟩ := hmembers rule hrule
    obtain ⟨found, hfound⟩ := haccepts _ hgiven
    obtain ⟨found, hfound⟩ := hdescribes.accepts_part hplaces hpart' hfound
    exact ih hfound

end Edited

end SchemaLoom
