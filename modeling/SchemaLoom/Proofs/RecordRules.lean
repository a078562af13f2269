import SchemaLoom.Proofs.KeyedInsertion
import SchemaLoom.Proofs.RecordLookup
import SchemaLoom.Record.Codec

/-!
# Rules for records

A codec reads a record along a type: the fields of the type, the elements of their shapes, and in
turn the records among the elements.  A set of rules says what is asked of each record, field value
and element met on the way, and one traversal checks it.  Facts about the traversal follow one level
at a time, by induction over the records inside a record.
-/

namespace SchemaLoom

open Wire

namespace Codec

/-- The field of the named type with the given number. -/
def field? (codec : Codec) (typeName : String) (id : UInt32) : Option ResolvedField :=
  match codec.type typeName with
  | .ok type => type.fieldById? id
  | .error _ => none

theorem field?_eq_some_iff {codec : Codec} {typeName : String} {id : UInt32}
    {field : ResolvedField} :
    codec.field? typeName id = some field ↔
      ∃ type, codec.type typeName = .ok type ∧ type.fieldById? id = some field := by
  cases htype : codec.type typeName <;> simp [field?, htype]

end Codec

/-- What is asked of a record of a type, of the value of a field and of an element. -/
structure Rules where
  record : String → Record → Bool
  field : Shape Element → FieldValue → Bool
  element : Element → Value → Bool

namespace Rules

/-- Everything both rules ask. -/
def and (left right : Rules) : Rules where
  record typeName record := left.record typeName record && right.record typeName record
  field shape value := left.field shape value && right.field shape value
  element element value := left.element element value && right.element element value

/-- The second rules ask nothing that the first do not. -/
structure Implies (left right : Rules) : Prop where
  record : ∀ typeName record, left.record typeName record → right.record typeName record
  field : ∀ shape value, left.field shape value → right.field shape value
  element : ∀ element value, left.element element value → right.element element value

theorem and_implies_left (left right : Rules) : (left.and right).Implies left where
  record _ _ h := (Bool.and_eq_true _ _ ▸ h : _ ∧ _).1
  field _ _ h := (Bool.and_eq_true _ _ ▸ h : _ ∧ _).1
  element _ _ h := (Bool.and_eq_true _ _ ▸ h : _ ∧ _).1

theorem and_implies_right (left right : Rules) : (left.and right).Implies right where
  record _ _ h := (Bool.and_eq_true _ _ ▸ h : _ ∧ _).2
  field _ _ h := (Bool.and_eq_true _ _ ▸ h : _ ∧ _).2
  element _ _ h := (Bool.and_eq_true _ _ ▸ h : _ ∧ _).2

end Rules

/-! ## The traversal -/

mutual

/-- The element obeys the rules, and so does all that the plan reaches inside it. -/
def Value.obeys (codec : Codec) (rules : Rules) : Element → Value → Bool
  | .named name, .record fields =>
    rules.element (.named name) (.record fields) &&
      (rules.record name fields && Record.obeysFields codec rules name fields)
  | element, value => rules.element element value

def FieldValue.obeys (codec : Codec) (rules : Rules) : Shape Element → FieldValue → Bool
  | .singular element, .singular value =>
    rules.field (.singular element) (.singular value) && value.obeys codec rules element
  | .option element, .option (some value) =>
    rules.field (.option element) (.option (some value)) && value.obeys codec rules element
  | .list element, .list values =>
    rules.field (.list element) (.list values) && Value.allObey codec rules element values
  | .map key value, .map entries =>
    rules.field (.map key value) (.map entries) && Value.entriesObey codec rules key value entries
  | shape, value => rules.field shape value

/-- Every value that stands under a number of the type obeys the rules. -/
def Record.obeysFields (codec : Codec) (rules : Rules) (typeName : String) :
    List (UInt32 × FieldValue) → Bool
  | [] => true
  | (id, value) :: rest =>
    (match codec.field? typeName id with
      | some field => value.obeys codec rules field.shape
      | none => true) && Record.obeysFields codec rules typeName rest

def Value.allObey (codec : Codec) (rules : Rules) (element : Element) : List Value → Bool
  | [] => true
  | value :: rest => value.obeys codec rules element && Value.allObey codec rules element rest

def Value.entriesObey (codec : Codec) (rules : Rules) (keyElement valueElement : Element) :
    List (Value × Value) → Bool
  | [] => true
  | (key, value) :: rest =>
    key.obeys codec rules keyElement && value.obeys codec rules valueElement &&
      Value.entriesObey codec rules keyElement valueElement rest

end

/-- A record of the named type obeys the rules, and so does all that the plan reaches inside it. -/
def Record.obeys (codec : Codec) (rules : Rules) (typeName : String) (record : Record) : Bool :=
  rules.record typeName record && Record.obeysFields codec rules typeName record

theorem Value.obeys_record_iff {codec : Codec} {rules : Rules} {name : String} {inner : Record} :
    (Value.record inner).obeys codec rules (.named name) ↔
      rules.element (.named name) (.record inner) ∧ inner.obeys codec rules name := by
  rw [Value.obeys, ← Record.obeys, Bool.and_eq_true]

theorem Value.allObey_iff {codec : Codec} {rules : Rules} {element : Element}
    {values : List Value} :
    Value.allObey codec rules element values ↔
      ∀ value ∈ values, value.obeys codec rules element := by
  induction values with
  | nil => simp [Value.allObey]
  | cons value rest ih => simp [Value.allObey, ih]

theorem Value.entriesObey_iff {codec : Codec} {rules : Rules} {keyElement valueElement : Element}
    {entries : List (Value × Value)} :
    Value.entriesObey codec rules keyElement valueElement entries ↔
      ∀ entry ∈ entries, entry.1.obeys codec rules keyElement ∧
        entry.2.obeys codec rules valueElement := by
  induction entries with
  | nil => simp [Value.entriesObey]
  | cons entry rest ih => simp [Value.entriesObey, ih]

theorem Record.obeysFields_iff {codec : Codec} {rules : Rules} {typeName : String}
    {record : Record} :
    Record.obeysFields codec rules typeName record ↔
      ∀ id value, (id, value) ∈ record → ∀ field, codec.field? typeName id = some field →
        value.obeys codec rules field.shape := by
  induction record with
  | nil => simp [Record.obeysFields]
  | cons entry rest ih =>
    obtain ⟨id, value⟩ := entry
    rw [Record.obeysFields, Bool.and_eq_true, ih]
    constructor
    · rintro ⟨hhead, hrest⟩ other otherValue hmem field hfield
      rcases List.mem_cons.mp hmem with heq | hmem
      · obtain ⟨rfl, rfl⟩ := Prod.mk.inj heq
        simpa [hfield] using hhead
      · exact hrest other otherValue hmem field hfield
    · intro hall
      refine ⟨?_, fun other otherValue hmem => hall other otherValue (List.mem_cons_of_mem _ hmem)⟩
      cases hfield : codec.field? typeName id with
      | none => rfl
      | some field => exact hall id value List.mem_cons_self field hfield

/-! ## One level at a time -/

/-- The elements of a field value, whatever its shape. -/
def FieldValue.elements : FieldValue → List Value
  | .singular value => [value]
  | .option value => value.toList
  | .list values => values
  | .map entries => entries.flatMap fun entry => [entry.1, entry.2]

/-- The elements of a field value, each with the element of the shape it stands for; none if the
value is of another shape. -/
def FieldValue.parts : Shape Element → FieldValue → List (Element × Value)
  | .singular element, .singular value => [(element, value)]
  | .option element, .option value => value.toList.map fun value => (element, value)
  | .list element, .list values => values.map fun value => (element, value)
  | .map keyElement valueElement, .map entries =>
    entries.flatMap fun entry => [(keyElement, entry.1), (valueElement, entry.2)]
  | _, _ => []

theorem FieldValue.mem_elements_of_mem_parts {shape : Shape Element} {value : FieldValue}
    {part : Element × Value} (hmem : part ∈ value.parts shape) : part.2 ∈ value.elements := by
  cases shape <;> cases value <;> simp only [parts, elements, List.not_mem_nil] at hmem ⊢
  case singular.singular => exact List.mem_map_of_mem (f := Prod.snd) hmem
  case option.option => simpa using List.mem_map_of_mem (f := Prod.snd) hmem
  case list.list => simpa using List.mem_map_of_mem (f := Prod.snd) hmem
  case map.map => simpa [List.map_flatMap] using List.mem_map_of_mem (f := Prod.snd) hmem

theorem FieldValue.forall_mem_parts_map {keyElement valueElement : Element}
    {entries : List (Value × Value)} {holds : Element × Value → Prop} :
    (∀ part ∈ (FieldValue.map entries).parts (.map keyElement valueElement), holds part) ↔
      ∀ entry ∈ entries, holds (keyElement, entry.1) ∧ holds (valueElement, entry.2) := by
  simp only [FieldValue.parts, List.forall_mem_flatMap, List.forall_mem_cons]
  simp

/-- The value of a field obeys the rules when it does as a whole and all its elements do. -/
theorem FieldValue.obeys_iff {codec : Codec} {rules : Rules} {shape : Shape Element}
    {value : FieldValue} :
    value.obeys codec rules shape ↔
      rules.field shape value ∧ ∀ part ∈ value.parts shape, part.2.obeys codec rules part.1 := by
  cases shape <;> cases value
  case singular.singular => simp [FieldValue.obeys, FieldValue.parts]
  case option.option value => cases value <;> simp [FieldValue.obeys, FieldValue.parts]
  case list.list => simp [FieldValue.obeys, FieldValue.parts, Value.allObey_iff]
  case map.map entries =>
    rw [FieldValue.obeys, Bool.and_eq_true, Value.entriesObey_iff, FieldValue.forall_mem_parts_map]
  all_goals simp [FieldValue.obeys, FieldValue.parts]

/-! ## Induction over nested records -/

theorem Value.depth_le_depthOf {value : Value} {values : List Value} (hmem : value ∈ values) :
    value.depth ≤ Value.depthOf values := by
  induction values with
  | nil => simp at hmem
  | cons first rest ih =>
    simp only [Value.depthOf]
    rcases List.mem_cons.mp hmem with rfl | hmem
    · exact Nat.le_max_left _ _
    · exact Nat.le_trans (ih hmem) (Nat.le_max_right _ _)

theorem Value.depth_le_depthOfEntries {entry : Value × Value} {entries : List (Value × Value)}
    (hmem : entry ∈ entries) :
    entry.1.depth ≤ Value.depthOfEntries entries ∧
      entry.2.depth ≤ Value.depthOfEntries entries := by
  induction entries with
  | nil => simp at hmem
  | cons first rest ih =>
    simp only [Value.depthOfEntries]
    rcases List.mem_cons.mp hmem with rfl | hmem
    · omega
    · have := ih hmem
      omega

theorem FieldValue.depth_le_of_mem_elements {field : FieldValue} {value : Value}
    (hmem : value ∈ field.elements) : value.depth ≤ field.depth := by
  cases field with
  | singular only => simp_all [elements, depth]
  | option only => cases only <;> simp_all [elements, depth]
  | list values => exact Value.depth_le_depthOf hmem
  | map entries =>
    obtain ⟨entry, hentry, hvalue⟩ := List.mem_flatMap.mp hmem
    have hdepth := Value.depth_le_depthOfEntries hentry
    simp only [List.mem_cons, List.not_mem_nil, or_false] at hvalue
    rcases hvalue with rfl | rfl
    · exact hdepth.1
    · exact hdepth.2

theorem Record.depth_le_of_mem {record : Record} {id : UInt32} {value : FieldValue}
    (hmem : (id, value) ∈ record) : value.depth ≤ Record.depth record := by
  induction record with
  | nil => simp at hmem
  | cons first rest ih =>
    simp only [Record.depth]
    rcases List.mem_cons.mp hmem with rfl | hmem
    · exact Nat.le_max_left _ _
    · exact Nat.le_trans (ih hmem) (Nat.le_max_right _ _)

/-- A record among the elements of a field is nested less deeply than the record it stands in. -/
theorem Record.depth_lt_of_mem {record inner : Record} {id : UInt32} {value : FieldValue}
    (hmem : (id, value) ∈ record) (hinner : .record inner ∈ value.elements) :
    Record.depth inner < Record.depth record := by
  have hfield := Record.depth_le_of_mem hmem
  have helement := FieldValue.depth_le_of_mem_elements hinner
  simp only [Value.depth] at helement
  omega

/-- To show something of all records, show it of a record of whose inner records it holds. -/
theorem Record.nested_induction {motive : Record → Prop}
    (step : ∀ record : Record,
      (∀ id value, (id, value) ∈ record → ∀ inner, .record inner ∈ value.elements → motive inner) →
        motive record) (record : Record) : motive record := by
  induction hdepth : Record.depth record using Nat.strongRecOn generalizing record with
  | _ depth ih =>
    subst hdepth
    refine step record fun id value hmem inner hinner => ?_
    exact ih _ (Record.depth_lt_of_mem hmem hinner) inner rfl

/-! ## Weaker rules and codecs that know less -/

section Weaker

variable {codec narrow : Codec} {left right : Rules}

/-- An element obeys weaker rules if the record it may be does. -/
theorem Value.obeys_of_implies (himplies : left.Implies right) {element : Element} {value : Value}
    (hinner : ∀ (name : String) (inner : Record), value = .record inner →
      inner.obeys codec left name → inner.obeys narrow right name)
    (hobeys : value.obeys codec left element) :
    value.obeys narrow right element := by
  cases element with
  | named name =>
    cases value with
    | atom _ => exact himplies.element _ _ hobeys
    | record inner =>
      rw [Value.obeys_record_iff] at hobeys ⊢
      exact ⟨himplies.element _ _ hobeys.1, hinner name inner rfl hobeys.2⟩
  | scalar _ => cases value <;> exact himplies.element _ _ hobeys
  | enumeration _ => cases value <;> exact himplies.element _ _ hobeys

theorem FieldValue.obeys_of_implies (himplies : left.Implies right) {shape : Shape Element}
    {value : FieldValue}
    (hinner : ∀ (name : String) (inner : Record), .record inner ∈ value.elements →
      inner.obeys codec left name → inner.obeys narrow right name)
    (hobeys : value.obeys codec left shape) :
    value.obeys narrow right shape := by
  rw [FieldValue.obeys_iff] at hobeys ⊢
  refine ⟨himplies.field _ _ hobeys.1, fun part hpart => ?_⟩
  refine Value.obeys_of_implies himplies (fun name inner heq => ?_) (hobeys.2 part hpart)
  exact hinner name inner (heq ▸ FieldValue.mem_elements_of_mem_parts hpart)

/-- A codec all of whose fields are fields of another one looks at less. -/
theorem Record.obeys_of_fields (himplies : left.Implies right)
    (hfields : ∀ typeName id field, narrow.field? typeName id = some field →
      codec.field? typeName id = some field)
    {typeName : String} {record : Record} (hobeys : record.obeys codec left typeName) :
    record.obeys narrow right typeName := by
  induction record using Record.nested_induction generalizing typeName with
  | step record ih =>
    rw [Record.obeys, Bool.and_eq_true, Record.obeysFields_iff] at hobeys ⊢
    refine ⟨himplies.record _ _ hobeys.1, fun id value hmem field hfield => ?_⟩
    refine FieldValue.obeys_of_implies himplies (fun name inner hinner => ?_)
      (hobeys.2 id value hmem field (hfields typeName id field hfield))
    exact ih id value hmem inner hinner

theorem Record.obeys_of_implies (himplies : left.Implies right) {typeName : String}
    {record : Record} (hobeys : record.obeys codec left typeName) :
    record.obeys codec right typeName :=
  Record.obeys_of_fields himplies (fun _ _ _ hfield => hfield) hobeys

theorem Value.obeys_weaker (himplies : left.Implies right) {element : Element} {value : Value}
    (hobeys : value.obeys codec left element) : value.obeys codec right element :=
  Value.obeys_of_implies himplies (fun _ _ _ => Record.obeys_of_implies himplies) hobeys

end Weaker

end SchemaLoom
