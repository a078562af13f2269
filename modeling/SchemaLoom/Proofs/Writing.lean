import SchemaLoom.Proofs.ObjectLog
import SchemaLoom.Proofs.Outcome
import SchemaLoom.Proofs.RecordRules

/-!
# What encoding writes

Every writer of the codec appends: what it writes, and whether it fails, does not depend on what the
object holds already.  So the log of a record is the logs of its fields one after the other, and
the log of a field has one value for each element, all under the number of the field.
-/

namespace SchemaLoom.Codec

open Wire

/-! ## Writers append -/

/-- A writer that appends the same part, with the same outcome, to every object. -/
def Appends (write : Object → Written) : Prop :=
  ∃ part outcome, ∀ object, write object = (object ++ part, outcome)

theorem appends_of_failure (error : CodecError) : Appends fun object => (object, .error error) :=
  ⟨.empty, .error error, fun object => by rw [Object.append_empty]⟩

theorem Appends.eq_append {write : Object → Written} (happends : Appends write)
    (object : Object) : write object = (object ++ (write .empty).1, (write .empty).2) := by
  obtain ⟨part, outcome, hwrite⟩ := happends
  rw [hwrite object, hwrite .empty, Object.empty_append]

theorem appends_writeAll {α : Type} {write : α → Object → Written} {items : List α}
    (happends : ∀ item ∈ items, Appends (write item)) : Appends (writeAll write items) := by
  induction items with
  | nil => exact ⟨.empty, .ok (), fun object => by rw [writeAll, Object.append_empty]⟩
  | cons item items ih =>
    obtain ⟨hitem, hitems⟩ := List.forall_mem_cons.mp happends
    obtain ⟨part, outcome, hwrite⟩ := hitem
    obtain ⟨rest, outcome', hrest⟩ := ih hitems
    cases outcome with
    | error error =>
      exact ⟨part, .error error, fun object => by rw [writeAll, hwrite]⟩
    | ok =>
      refine ⟨part ++ rest, outcome', fun object => ?_⟩
      rw [writeAll, hwrite]
      simp only [hrest, Object.append_assoc]

/-- Writing items in turn succeeds when each succeeds on its own, and writes their parts in turn. -/
theorem writeAll_eq_ok_iff {α : Type} {write : α → Object → Written} {items : List α}
    (happends : ∀ item ∈ items, Appends (write item)) {written : Object} :
    writeAll write items .empty = (written, .ok ()) ↔
      ∃ parts, List.Forall₂ (fun item part => write item .empty = (part, .ok ())) items parts ∧
        written = .concat parts := by
  induction items generalizing written with
  | nil =>
    constructor
    · intro hwritten
      exact ⟨[], .nil, (congrArg Prod.fst hwritten).symm⟩
    · rintro ⟨parts, hparts, rfl⟩
      cases hparts
      rfl
  | cons item items ih =>
    obtain ⟨⟨part, outcome, hitem⟩, hitems⟩ := List.forall_mem_cons.mp happends
    have hrest := (appends_writeAll hitems).eq_append part
    have hfirst : write item .empty = (part, outcome) := by rw [hitem, Object.empty_append]
    constructor
    · intro hwritten
      rw [writeAll, hfirst] at hwritten
      cases outcome with
      | error error => cases hwritten
      | ok =>
        simp only [hrest, Prod.mk.injEq] at hwritten
        obtain ⟨parts, hparts, hconcat⟩ := (ih hitems).mp (Prod.ext rfl hwritten.2)
        refine ⟨part :: parts, .cons hfirst hparts, ?_⟩
        rw [Object.concat, ← hconcat]
        exact hwritten.1.symm
    · rintro ⟨parts, hparts, rfl⟩
      obtain ⟨part', parts', hpart, hparts', rfl⟩ := List.forall₂_cons_left_iff.mp hparts
      obtain ⟨rfl, rfl⟩ := Prod.mk.inj (hfirst.symm.trans hpart)
      have hdone := (ih hitems).mpr ⟨parts', hparts', rfl⟩
      rw [writeAll, hfirst]
      simp only [hrest, hdone]
      rfl

theorem writeElement_named (nested : Encoder) (fieldName name : String) (id : UInt32)
    (record : Record) (object : Object) :
    writeElement nested fieldName (.named name) id (.record record) object =
      (object ++ .ofObject id (nested name record .empty).1, (nested name record .empty).2) := by
  rw [← Object.addObject_eq]
  rfl

theorem appends_writeElement (nested : Encoder) (fieldName : String) (element : Element)
    (id : UInt32) (value : Value) : Appends (writeElement nested fieldName element id value) := by
  cases element with
  | scalar kind =>
    cases value with
    | record _ => exact appends_of_failure _
    | atom atom =>
      cases atom with
      | enumeration _ => exact appends_of_failure _
      | scalar scalar =>
        by_cases hkind : scalar.kind = kind
        · exact ⟨.ofAtom id (.scalar scalar), .ok (), fun object => by
            rw [writeElement, if_pos hkind, Object.addScalar_eq]⟩
        · exact ⟨.empty, .error (.shapeMismatch fieldName), fun object => by
            rw [writeElement, if_neg hkind, Object.append_empty]⟩
  | enumeration _ =>
    cases value with
    | record _ => exact appends_of_failure _
    | atom atom =>
      cases atom with
      | scalar _ => exact appends_of_failure _
      | enumeration number =>
        exact ⟨.ofAtom id (.enumeration number), .ok (), fun object => by
          rw [writeElement, Object.addEnumeration_eq]⟩
  | named name =>
    cases value with
    | atom _ => exact appends_of_failure _
    | record record =>
      exact ⟨_, _, writeElement_named nested fieldName name id record⟩

/-- The object of one entry: the key, and if that succeeds the value. -/
def writePair (nested : Encoder) (fieldName : String) (keyElement valueElement : Element)
    (entry : Value × Value) : Written :=
  match writeElement nested fieldName keyElement mapKeyId entry.1 .empty with
  | (pair, .ok ()) => writeElement nested fieldName valueElement mapValueId entry.2 pair
  | failed => failed

theorem writeEntry_eq (nested : Encoder) (fieldName : String) (keyElement valueElement : Element)
    (id : UInt32) (entry : Value × Value) (object : Object) :
    writeEntry nested fieldName keyElement valueElement id entry object =
      (object ++ .ofObject id (writePair nested fieldName keyElement valueElement entry).1,
        (writePair nested fieldName keyElement valueElement entry).2) := by
  rw [← Object.addObject_eq]
  rfl

theorem appends_writeEntry (nested : Encoder) (fieldName : String)
    (keyElement valueElement : Element) (id : UInt32) (entry : Value × Value) :
    Appends (writeEntry nested fieldName keyElement valueElement id entry) :=
  ⟨_, _, writeEntry_eq nested fieldName keyElement valueElement id entry⟩

theorem appends_encodeField (nested : Encoder) (field : ResolvedField) (value : FieldValue) :
    Appends (encodeField nested field value) := by
  unfold encodeField
  cases field.shape with
  | singular element =>
    cases value with
    | singular value => exact appends_writeElement nested field.name element field.id value
    | _ => exact appends_of_failure _
  | option element =>
    cases value with
    | option value =>
      cases value with
      | none => exact ⟨.empty, .ok (), fun object => by rw [Object.append_empty]⟩
      | some value => exact appends_writeElement nested field.name element field.id value
    | _ => exact appends_of_failure _
  | list element =>
    cases value with
    | list values =>
      exact appends_writeAll fun value _ =>
        appends_writeElement nested field.name element field.id value
    | _ => exact appends_of_failure _
  | map key valueElement =>
    cases value with
    | map entries =>
      exact appends_writeAll fun entry _ =>
        appends_writeEntry nested field.name key valueElement field.id entry
    | _ => exact appends_of_failure _

/-- The writer of one field of a record, which fails if the record has no value for it. -/
def encodeEntry (nested : Encoder) (typeName : String) (record : Record) (field : ResolvedField) :
    Object → Written := fun object =>
  match record.get? field.id with
  | none => (object, .error (.missingValue typeName field.name))
  | some value => encodeField nested field value object

theorem appends_encodeEntry (nested : Encoder) (typeName : String) (record : Record)
    (field : ResolvedField) : Appends (encodeEntry nested typeName record field) := by
  unfold encodeEntry
  cases record.get? field.id with
  | none => exact appends_of_failure _
  | some value => exact appends_encodeField nested field value

theorem encodeFields_eq (codec : Codec) (nested : Encoder) (typeName : String) (record : Record)
    (object : Object) :
    codec.encodeFields nested typeName record object =
      match codec.type typeName with
      | .error error => (object, .error error)
      | .ok type => writeAll (encodeEntry nested typeName record) type.fields object := rfl

/-! ## The parts of a field -/

/-- What an element writes under a number. -/
inductive WritesElement (nested : Encoder) (id : UInt32) : Element → Value → Object → Prop where
  | scalar (value : Scalar) :
      WritesElement nested id (.scalar value.kind) (.atom (.scalar value))
        (.ofAtom id (.scalar value))
  | enumeration (name : String) (number : UInt32) :
      WritesElement nested id (.enumeration name) (.atom (.enumeration number))
        (.ofAtom id (.enumeration number))
  | named {name : String} {record : Record} {inner : Object}
      (hinner : nested name record .empty = (inner, .ok ())) :
      WritesElement nested id (.named name) (.record record) (.ofObject id inner)

theorem writeElement_eq_ok_iff {nested : Encoder} {fieldName : String} {element : Element}
    {id : UInt32} {value : Value} {part : Object} :
    writeElement nested fieldName element id value .empty = (part, .ok ()) ↔
      WritesElement nested id element value part := by
  constructor
  · intro hwrite
    rw [writeElement.eq_def] at hwrite
    split at hwrite
    · next kind scalar =>
      split at hwrite
      · next hkind =>
        subst hkind
        rw [Object.addScalar_eq, Object.empty_append, Prod.mk.injEq] at hwrite
        exact hwrite.1 ▸ .scalar scalar
      · cases hwrite
    · next name number =>
      rw [Object.addEnumeration_eq, Object.empty_append, Prod.mk.injEq] at hwrite
      exact hwrite.1 ▸ .enumeration name number
    · next name record =>
      replace hwrite := (writeElement_named nested fieldName name id record .empty).symm.trans hwrite
      rw [Object.empty_append, Prod.mk.injEq] at hwrite
      have hinner : nested name record .empty = ((nested name record .empty).1, .ok ()) := by
        rw [← hwrite.2]
      exact hwrite.1 ▸ .named hinner
    · cases hwrite
  · rintro (scalar | ⟨name, number⟩ | hinner)
    · rw [writeElement, if_pos rfl, Object.addScalar_eq, Object.empty_append]
    · rw [writeElement, Object.addEnumeration_eq, Object.empty_append]
    · rw [writeElement_named, hinner, Object.empty_append]

theorem WritesElement.only {nested : Encoder} {id : UInt32} {element : Element} {value : Value}
    {part : Object} (hwrites : WritesElement nested id element value part) :
    Object.Only id part := by
  cases hwrites with
  | scalar value => exact Object.only_ofAtom id _
  | enumeration name number => exact Object.only_ofAtom id _
  | named hinner => exact Object.only_ofObject id _

/-- What an entry of a map writes under a number: an object with the key and the value. -/
inductive WritesEntry (nested : Encoder) (id : UInt32) (keyElement valueElement : Element) :
    Value × Value → Object → Prop where
  | pair {entry : Value × Value} {keyPart valuePart : Object}
      (hkey : WritesElement nested mapKeyId keyElement entry.1 keyPart)
      (hvalue : WritesElement nested mapValueId valueElement entry.2 valuePart) :
      WritesEntry nested id keyElement valueElement entry (.ofObject id (keyPart ++ valuePart))

theorem writePair_eq_ok_iff {nested : Encoder} {fieldName : String}
    {keyElement valueElement : Element} {entry : Value × Value} {pair : Object} :
    writePair nested fieldName keyElement valueElement entry = (pair, .ok ()) ↔
      ∃ keyPart valuePart, WritesElement nested mapKeyId keyElement entry.1 keyPart ∧
        WritesElement nested mapValueId valueElement entry.2 valuePart ∧
          pair = keyPart ++ valuePart := by
  have happends := appends_writeElement nested fieldName valueElement mapValueId entry.2
  constructor
  · intro hpair
    rw [writePair] at hpair
    split at hpair
    · next keyPart hkey =>
      rw [happends.eq_append keyPart, Prod.mk.injEq] at hpair
      refine ⟨keyPart, _, writeElement_eq_ok_iff.mp hkey, ?_, hpair.1.symm⟩
      exact writeElement_eq_ok_iff.mp (Prod.ext rfl hpair.2)
    · next failed => exact absurd hpair (failed pair)
  · rintro ⟨keyPart, valuePart, hkey, hvalue, rfl⟩
    rw [writePair, writeElement_eq_ok_iff.mpr hkey]
    simp only
    rw [happends.eq_append keyPart, writeElement_eq_ok_iff.mpr hvalue]

theorem writeEntry_eq_ok_iff {nested : Encoder} {fieldName : String}
    {keyElement valueElement : Element} {id : UInt32} {entry : Value × Value} {part : Object} :
    writeEntry nested fieldName keyElement valueElement id entry .empty = (part, .ok ()) ↔
      WritesEntry nested id keyElement valueElement entry part := by
  rw [writeEntry_eq, Object.empty_append]
  constructor
  · intro hwrite
    obtain ⟨hpart, houtcome⟩ := Prod.mk.inj hwrite
    have hdone : writePair nested fieldName keyElement valueElement entry =
        ((writePair nested fieldName keyElement valueElement entry).1, .ok ()) := by
      rw [← houtcome]
    obtain ⟨keyPart, valuePart, hkey, hvalue, hpair⟩ := writePair_eq_ok_iff.mp hdone
    rw [← hpart, hpair]
    exact .pair hkey hvalue
  · rintro ⟨hkey, hvalue⟩
    rw [writePair_eq_ok_iff.mpr ⟨_, _, hkey, hvalue, rfl⟩]

theorem WritesEntry.only {nested : Encoder} {id : UInt32} {keyElement valueElement : Element}
    {entry : Value × Value} {part : Object}
    (hwrites : WritesEntry nested id keyElement valueElement entry part) :
    Object.Only id part := by
  cases hwrites with
  | pair hkey hvalue => exact Object.only_ofObject id _

/-- What the value of a field writes: a part for each element or entry. -/
inductive WritesField (nested : Encoder) (id : UInt32) :
    Shape Element → FieldValue → List Object → Prop where
  | singular {element : Element} {value : Value} {part : Object}
      (hvalue : WritesElement nested id element value part) :
      WritesField nested id (.singular element) (.singular value) [part]
  | absent (element : Element) : WritesField nested id (.option element) (.option none) []
  | present {element : Element} {value : Value} {part : Object}
      (hvalue : WritesElement nested id element value part) :
      WritesField nested id (.option element) (.option (some value)) [part]
  | list {element : Element} {values : List Value} {parts : List Object}
      (hvalues : List.Forall₂ (WritesElement nested id element) values parts) :
      WritesField nested id (.list element) (.list values) parts
  | map {keyElement valueElement : Element} {entries : List (Value × Value)} {parts : List Object}
      (hentries : List.Forall₂ (WritesEntry nested id keyElement valueElement) entries parts) :
      WritesField nested id (.map keyElement valueElement) (.map entries) parts

theorem concat_singleton (part : Object) : Object.concat [part] = part := Object.append_empty part

theorem exists_parts_of_encodeField {nested : Encoder} {field : ResolvedField} {value : FieldValue}
    {written : Object} (hencode : encodeField nested field value .empty = (written, .ok ())) :
    ∃ parts, WritesField nested field.id field.shape value parts ∧ written = .concat parts := by
  rw [encodeField.eq_def] at hencode
  split at hencode
  · next hshape =>
    rw [hshape]
    exact ⟨[written], .singular (writeElement_eq_ok_iff.mp hencode), (concat_singleton _).symm⟩
  · next element hshape =>
    rw [hshape]
    exact ⟨[], .absent element, (Prod.mk.inj hencode).1.symm⟩
  · next hshape =>
    rw [hshape]
    exact ⟨[written], .present (writeElement_eq_ok_iff.mp hencode), (concat_singleton _).symm⟩
  · next element values hshape =>
    rw [hshape]
    obtain ⟨parts, hparts, hwritten⟩ := (writeAll_eq_ok_iff fun value _ =>
      appends_writeElement nested field.name element field.id value).mp hencode
    exact ⟨parts, .list (hparts.imp fun _ _ => writeElement_eq_ok_iff.mp), hwritten⟩
  · next key valueElement entries hshape =>
    rw [hshape]
    obtain ⟨parts, hparts, hwritten⟩ := (writeAll_eq_ok_iff fun entry _ =>
      appends_writeEntry nested field.name key valueElement field.id entry).mp hencode
    exact ⟨parts, .map (hparts.imp fun _ _ => writeEntry_eq_ok_iff.mp), hwritten⟩
  · cases hencode

theorem encodeField_of_parts {nested : Encoder} {field : ResolvedField} {value : FieldValue}
    {parts : List Object} (hwrites : WritesField nested field.id field.shape value parts) :
    encodeField nested field value .empty = (.concat parts, .ok ()) := by
  unfold encodeField
  cases hshape : field.shape with
  | singular element =>
    rw [hshape] at hwrites
    obtain ⟨hvalue⟩ := hwrites
    rw [concat_singleton]
    exact writeElement_eq_ok_iff.mpr hvalue
  | option element =>
    rw [hshape] at hwrites
    rcases hwrites with _ | _ | hvalue
    · rfl
    · rw [concat_singleton]
      exact writeElement_eq_ok_iff.mpr hvalue
  | list element =>
    rw [hshape] at hwrites
    cases hwrites with
    | list hvalues =>
      refine (writeAll_eq_ok_iff fun value _ =>
        appends_writeElement nested field.name element field.id value).mpr ⟨parts, ?_, rfl⟩
      exact hvalues.imp fun _ _ => writeElement_eq_ok_iff.mpr
  | map key valueElement =>
    rw [hshape] at hwrites
    cases hwrites with
    | map hentries =>
      refine (writeAll_eq_ok_iff fun entry _ =>
        appends_writeEntry nested field.name key valueElement field.id entry).mpr ⟨parts, ?_, rfl⟩
      exact hentries.imp fun _ _ => writeEntry_eq_ok_iff.mpr

/-- A field of a record that was written has a value, and its log is the parts of that value. -/
theorem exists_parts_of_encodeEntry {nested : Encoder} {typeName : String} {record : Record}
    {field : ResolvedField} {part : Object}
    (hentry : encodeEntry nested typeName record field .empty = (part, .ok ())) :
    ∃ value parts, record.get? field.id = some value ∧
      WritesField nested field.id field.shape value parts ∧ part = .concat parts := by
  unfold encodeEntry at hentry
  cases hget : record.get? field.id with
  | none =>
    rw [hget] at hentry
    cases hentry
  | some value =>
    rw [hget] at hentry
    obtain ⟨parts, hwrites, hpart⟩ := exists_parts_of_encodeField hentry
    exact ⟨value, parts, rfl, hwrites, hpart⟩

theorem WritesField.only {nested : Encoder} {id : UInt32} {shape : Shape Element}
    {value : FieldValue} {parts : List Object} (hwrites : WritesField nested id shape value parts) :
    Object.Only id (.concat parts) := by
  refine Object.Only.concat fun part hpart => ?_
  cases hwrites with
  | singular hvalue => exact List.mem_singleton.mp hpart ▸ hvalue.only
  | absent _ => cases hpart
  | present hvalue => exact List.mem_singleton.mp hpart ▸ hvalue.only
  | list hvalues =>
    obtain ⟨value, -, hvalue⟩ := Outcome.exists_left_of_mem hvalues hpart
    exact hvalue.only
  | map hentries =>
    obtain ⟨entry, -, hentry⟩ := Outcome.exists_left_of_mem hentries hpart
    exact hentry.only

end SchemaLoom.Codec
