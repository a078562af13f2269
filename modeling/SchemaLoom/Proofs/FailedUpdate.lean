import SchemaLoom.Proofs.NormalForm
import SchemaLoom.Proofs.Resolution
import SchemaLoom.Proofs.UpdateLog

/-!
# What a failed update leaves

Values are checked while they are written, and nothing is taken back.  So a call that fails leaves
the parts of all that came before the failure, and of the record or entry it failed in as much as
was written.  All of this stands under the number of the field or event; everything else in the
update is as it was before the call.
-/

namespace SchemaLoom

open Wire

/-! ## Empty logs -/

namespace Wire.Object

theorem append_eq_self_iff {object part : Object} : object ++ part = object ↔ part = empty := by
  constructor
  · intro heq
    have hatoms : object.atoms ++ part.atoms = object.atoms := congrArg atoms heq
    have hobjects : object.objects ++ part.objects = object.objects := congrArg objects heq
    exact ext_logs (List.append_right_eq_self.mp hatoms) (List.append_right_eq_self.mp hobjects)
  · rintro rfl
    exact append_empty object

theorem append_eq_empty_iff {left right : Object} :
    left ++ right = empty ↔ left = empty ∧ right = empty := by
  constructor
  · intro heq
    have hatoms := List.append_eq_nil_iff.mp (congrArg atoms heq)
    have hobjects := List.append_eq_nil_iff.mp (congrArg objects heq)
    exact ⟨ext_logs hatoms.1 hobjects.1, ext_logs hatoms.2 hobjects.2⟩
  · rintro ⟨rfl, rfl⟩
    exact append_empty empty

theorem ofAtom_ne_empty (field : UInt32) (atom : Atom) : ofAtom field atom ≠ empty := by
  simp [ofAtom, empty]

theorem ofObject_ne_empty (field : UInt32) (object : Object) : ofObject field object ≠ empty := by
  simp [ofObject, empty]

end Wire.Object

namespace Codec

/-! ## Writers that fail -/

/-- Writing items in turn fails at the first item that cannot be written.  The items before it leave
their parts, and the item itself what it leaves on its own. -/
theorem exists_of_writeAll_eq_error {α : Type} {write : α → Object → Written} {items : List α}
    (happends : ∀ item ∈ items, Appends (write item)) {written : Object} {error : CodecError}
    (hwrite : writeAll write items .empty = (written, .error error)) :
    ∃ before item after parts part, items = before ++ item :: after ∧
      List.Forall₂ (fun item part => write item .empty = (part, .ok ())) before parts ∧
        write item .empty = (part, .error error) ∧ written = .concat parts ++ part := by
  induction items generalizing written with
  | nil => cases hwrite
  | cons item items ih =>
    obtain ⟨-, hitems⟩ := List.forall_mem_cons.mp happends
    rw [writeAll] at hwrite
    split at hwrite
    · next part hitem =>
      rw [(appends_writeAll hitems).eq_append part, Prod.mk.injEq] at hwrite
      obtain ⟨before, last, after, parts, rest, rfl, hparts, hlast, hrest⟩ :=
        ih hitems (Prod.ext rfl hwrite.2)
      refine ⟨item :: before, last, after, part :: parts, rest, rfl, .cons hitem hparts, hlast, ?_⟩
      calc
        written = part ++ (.concat parts ++ rest) := by rw [← hwrite.1]; exact congrArg _ hrest
        _ = .concat (part :: parts) ++ rest := (Object.append_assoc _ _ _).symm
    · next part failure hitem =>
      cases hwrite
      exact ⟨[], item, items, [], written, rfl, .nil, hitem, (Object.empty_append _).symm⟩

/-- What an element that cannot be written leaves under a number: nothing if it is of another kind,
and the object that was opened for a record with as much of the record as was written. -/
inductive LeavesElement (nested : Encoder) (fieldName : String) (id : UInt32) :
    Element → Value → Object → CodecError → Prop where
  | mismatch {element : Element} {value : Value} (hkind : element.carries value = false) :
      LeavesElement nested fieldName id element value .empty (.shapeMismatch fieldName)
  | opened {name : String} {record : Record} {inner : Object} {error : CodecError}
      (hinner : nested name record .empty = (inner, .error error)) :
      LeavesElement nested fieldName id (.named name) (.record record) (.ofObject id inner) error

theorem leavesElement_of_writeElement {nested : Encoder} {fieldName : String} {element : Element}
    {id : UInt32} {value : Value} {part : Object} {error : CodecError}
    (hwrite : writeElement nested fieldName element id value .empty = (part, .error error)) :
    LeavesElement nested fieldName id element value part error := by
  rw [writeElement.eq_def] at hwrite
  split at hwrite
  · next kind scalar =>
    split at hwrite
    · cases hwrite
    · next hkind =>
      cases hwrite
      exact .mismatch (by simpa [Element.carries] using hkind)
  · cases hwrite
  · next name record =>
    replace hwrite := (writeElement_named nested fieldName name id record .empty).symm.trans hwrite
    rw [Object.empty_append, Prod.mk.injEq] at hwrite
    rw [← hwrite.1]
    exact .opened (Prod.ext rfl hwrite.2)
  · next hscalar henumeration hnamed =>
    cases hwrite
    refine .mismatch ?_
    unfold Element.carries
    split
    · exact (hscalar _ _ rfl rfl).elim
    · exact (henumeration _ _ rfl rfl).elim
    · exact (hnamed _ _ rfl rfl).elim
    · rfl

/-- What an entry of a map that cannot be written leaves: its object, with what the key left, or
with the key and what the value left. -/
inductive LeavesEntry (nested : Encoder) (fieldName : String) (id : UInt32)
    (keyElement valueElement : Element) : Value × Value → Object → CodecError → Prop where
  | key {entry : Value × Value} {keyPart : Object} {error : CodecError}
      (hkey : LeavesElement nested fieldName mapKeyId keyElement entry.1 keyPart error) :
      LeavesEntry nested fieldName id keyElement valueElement entry (.ofObject id keyPart) error
  | value {entry : Value × Value} {keyPart valuePart : Object} {error : CodecError}
      (hkey : WritesElement nested mapKeyId keyElement entry.1 keyPart)
      (hvalue : LeavesElement nested fieldName mapValueId valueElement entry.2 valuePart error) :
      LeavesEntry nested fieldName id keyElement valueElement entry
        (.ofObject id (keyPart ++ valuePart)) error

theorem leavesEntry_of_writeEntry {nested : Encoder} {fieldName : String}
    {keyElement valueElement : Element} {id : UInt32} {entry : Value × Value} {part : Object}
    {error : CodecError}
    (hwrite : writeEntry nested fieldName keyElement valueElement id entry .empty =
      (part, .error error)) :
    LeavesEntry nested fieldName id keyElement valueElement entry part error := by
  rw [writeEntry_eq, Object.empty_append, Prod.mk.injEq] at hwrite
  obtain ⟨rfl, houtcome⟩ := hwrite
  unfold writePair at houtcome ⊢
  split at houtcome
  · next keyPart hkey =>
    rw [(appends_writeElement nested fieldName valueElement mapValueId entry.2).eq_append]
      at houtcome ⊢
    exact .value (writeElement_eq_ok_iff.mp hkey)
      (leavesElement_of_writeElement (Prod.ext rfl houtcome))
  · exact .key (leavesElement_of_writeElement (Prod.ext rfl houtcome))

/-- What the value of a field that cannot be written leaves: nothing if it has another shape, and
otherwise the parts of the elements or entries before the failing one and what that one leaves. -/
inductive LeavesField (nested : Encoder) (fieldName : String) (id : UInt32) :
    Shape Element → FieldValue → Object → CodecError → Prop where
  | misfit {shape : Shape Element} {value : FieldValue} (hfits : fits shape value = false) :
      LeavesField nested fieldName id shape value .empty (.shapeMismatch fieldName)
  | singular {element : Element} {value : Value} {part : Object} {error : CodecError}
      (hvalue : LeavesElement nested fieldName id element value part error) :
      LeavesField nested fieldName id (.singular element) (.singular value) part error
  | present {element : Element} {value : Value} {part : Object} {error : CodecError}
      (hvalue : LeavesElement nested fieldName id element value part error) :
      LeavesField nested fieldName id (.option element) (.option (some value)) part error
  | list {element : Element} {before after : List Value} {value : Value} {parts : List Object}
      {part : Object} {error : CodecError}
      (hbefore : List.Forall₂ (WritesElement nested id element) before parts)
      (hvalue : LeavesElement nested fieldName id element value part error) :
      LeavesField nested fieldName id (.list element) (.list (before ++ value :: after))
        (.concat parts ++ part) error
  | map {keyElement valueElement : Element} {before after : List (Value × Value)}
      {entry : Value × Value} {parts : List Object} {part : Object} {error : CodecError}
      (hbefore : List.Forall₂ (WritesEntry nested id keyElement valueElement) before parts)
      (hentry : LeavesEntry nested fieldName id keyElement valueElement entry part error) :
      LeavesField nested fieldName id (.map keyElement valueElement)
        (.map (before ++ entry :: after)) (.concat parts ++ part) error

theorem leavesField_of_encodeField {nested : Encoder} {field : ResolvedField} {value : FieldValue}
    {written : Object} {error : CodecError}
    (hencode : encodeField nested field value .empty = (written, .error error)) :
    LeavesField nested field.name field.id field.shape value written error := by
  rw [encodeField.eq_def] at hencode
  split at hencode
  · next hshape =>
    rw [hshape]
    exact .singular (leavesElement_of_writeElement hencode)
  · cases hencode
  · next hshape =>
    rw [hshape]
    exact .present (leavesElement_of_writeElement hencode)
  · next element values hshape =>
    rw [hshape]
    obtain ⟨before, value, after, parts, part, rfl, hparts, hvalue, rfl⟩ :=
      exists_of_writeAll_eq_error (fun value _ =>
        appends_writeElement nested field.name element field.id value) hencode
    exact .list (hparts.imp fun _ _ => writeElement_eq_ok_iff.mp)
      (leavesElement_of_writeElement hvalue)
  · next keyElement valueElement entries hshape =>
    rw [hshape]
    obtain ⟨before, entry, after, parts, part, rfl, hparts, hentry, rfl⟩ :=
      exists_of_writeAll_eq_error (fun entry _ =>
        appends_writeEntry nested field.name keyElement valueElement field.id entry) hencode
    exact .map (hparts.imp fun _ _ => writeEntry_eq_ok_iff.mp) (leavesEntry_of_writeEntry hentry)
  · next hsingular hnone hsome hlist hmap =>
    cases hencode
    refine .misfit ?_
    unfold fits
    split
    · next heq => exact (hsingular _ _ heq rfl).elim
    · next only heq =>
      cases only with
      | none => exact (hnone _ heq rfl).elim
      | some only => exact (hsome _ _ heq rfl).elim
    · next heq => exact (hlist _ _ heq rfl).elim
    · next heq => exact (hmap _ _ _ heq rfl).elim
    · rfl

/-- What a record that cannot be written leaves: the parts of the fields before the first one that
fails or that the record has no value for, and what that field leaves. -/
inductive LeavesRecord (codec : Codec) (typeName : String) (record : Record) :
    Object → CodecError → Prop where
  | unknown {error : CodecError} (htype : codec.type typeName = .error error) :
      LeavesRecord codec typeName record .empty error
  | missing {type : ResolvedType} {before after : List ResolvedField} {field : ResolvedField}
      {parts : List Object} (htype : codec.type typeName = .ok type)
      (hfields : type.fields = before ++ field :: after)
      (hbefore : List.Forall₂ (fun field part => ∃ value elements,
        record.get? field.id = some value ∧
          WritesField codec.encode field.id field.shape value elements ∧ part = .concat elements)
        before parts)
      (hget : record.get? field.id = none) :
      LeavesRecord codec typeName record (.concat parts) (.missingValue typeName field.name)
  | field {type : ResolvedType} {before after : List ResolvedField} {field : ResolvedField}
      {parts : List Object} {value : FieldValue} {part : Object} {error : CodecError}
      (htype : codec.type typeName = .ok type) (hfields : type.fields = before ++ field :: after)
      (hbefore : List.Forall₂ (fun field part => ∃ value elements,
        record.get? field.id = some value ∧
          WritesField codec.encode field.id field.shape value elements ∧ part = .concat elements)
        before parts)
      (hget : record.get? field.id = some value)
      (hvalue : LeavesField codec.encode field.name field.id field.shape value part error) :
      LeavesRecord codec typeName record (.concat parts ++ part) error

theorem leavesRecord_of_encode {codec : Codec} {typeName : String} {record : Record}
    {written : Object} {error : CodecError}
    (hencode : codec.encode typeName record .empty = (written, .error error)) :
    LeavesRecord codec typeName record written error := by
  rw [encode_eq_encodeFields, encodeFields_eq] at hencode
  cases htype : codec.type typeName with
  | error failure =>
    rw [htype] at hencode
    cases hencode
    exact .unknown htype
  | ok type =>
    rw [htype] at hencode
    obtain ⟨before, field, after, parts, part, hfields, hparts, hfield, rfl⟩ :=
      exists_of_writeAll_eq_error (fun field _ =>
        appends_encodeEntry codec.encode typeName record field) hencode
    have hbefore := hparts.imp fun _ _ => exists_parts_of_encodeEntry
    unfold encodeEntry at hfield
    cases hget : record.get? field.id with
    | none =>
      rw [hget] at hfield
      cases hfield
      rw [Object.append_empty]
      exact .missing htype hfields hbefore hget
    | some value =>
      rw [hget] at hfield
      exact .field htype hfields hbefore hget (leavesField_of_encodeField hfield)

/-! ## Where the remains stand, and when there are none -/

section Remains

variable {nested : Encoder} {fieldName : String} {id : UInt32} {error : CodecError}

theorem LeavesElement.only {element : Element} {value : Value} {part : Object}
    (hleaves : LeavesElement nested fieldName id element value part error) :
    Object.Only id part := by
  cases hleaves with
  | mismatch _ => exact Object.only_empty id
  | opened _ => exact Object.only_ofObject id _

theorem LeavesEntry.only {keyElement valueElement : Element} {entry : Value × Value} {part : Object}
    (hleaves : LeavesEntry nested fieldName id keyElement valueElement entry part error) :
    Object.Only id part := by
  cases hleaves with
  | key _ => exact Object.only_ofObject id _
  | value _ _ => exact Object.only_ofObject id _

theorem LeavesField.only {shape : Shape Element} {value : FieldValue} {part : Object}
    (hleaves : LeavesField nested fieldName id shape value part error) : Object.Only id part := by
  cases hleaves with
  | misfit _ => exact Object.only_empty id
  | singular hvalue => exact hvalue.only
  | present hvalue => exact hvalue.only
  | list hbefore hvalue => exact (WritesField.list hbefore).only.append hvalue.only
  | map hbefore hentry => exact (WritesField.map hbefore).only.append hentry.only

theorem WritesElement.ne_empty {element : Element} {value : Value} {part : Object}
    (hwrites : WritesElement nested id element value part) : part ≠ .empty := by
  cases hwrites with
  | scalar value => exact Object.ofAtom_ne_empty id _
  | enumeration name number => exact Object.ofAtom_ne_empty id _
  | named hinner => exact Object.ofObject_ne_empty id _

theorem WritesElement.carries {element : Element} {value : Value} {part : Object}
    (hwrites : WritesElement nested id element value part) : element.carries value := by
  cases hwrites with
  | scalar value => exact beq_self_eq_true value.kind
  | enumeration name number => rfl
  | named hinner => rfl

theorem LeavesElement.eq_empty_iff {element : Element} {value : Value} {part : Object}
    (hleaves : LeavesElement nested fieldName id element value part error) :
    part = .empty ↔ element.carries value = false := by
  cases hleaves with
  | mismatch hkind => exact iff_of_true rfl hkind
  | opened hinner => exact iff_of_false (Object.ofObject_ne_empty id _) Bool.noConfusion

end Remains

end Codec

/-- Whether a value is refused before anything is written for it: it has another shape than the
field, or its first element is of another kind.  The object of an entry is opened before the entry
is looked at. -/
def FieldValue.isRefused : Shape Element → FieldValue → Bool
  | .singular element, .singular value => !element.carries value
  | .option element, .option value => value.any fun value => !element.carries value
  | .list element, .list values => values.head?.any fun value => !element.carries value
  | .map _ _, .map _ => false
  | _, _ => true

namespace Codec

theorem LeavesEntry.ne_empty {nested : Encoder} {fieldName : String} {id : UInt32}
    {keyElement valueElement : Element} {entry : Value × Value} {part : Object} {error : CodecError}
    (hleaves : LeavesEntry nested fieldName id keyElement valueElement entry part error) :
    part ≠ .empty := by
  cases hleaves with
  | key _ => exact Object.ofObject_ne_empty id _
  | value _ _ => exact Object.ofObject_ne_empty id _

/-- A failing field leaves nothing exactly when its value was refused at once. -/
theorem LeavesField.eq_empty_iff {nested : Encoder} {fieldName : String} {id : UInt32}
    {shape : Shape Element} {value : FieldValue} {part : Object} {error : CodecError}
    (hleaves : LeavesField nested fieldName id shape value part error) :
    part = .empty ↔ value.isRefused shape := by
  cases hleaves with
  | misfit hfits =>
    refine iff_of_true rfl ?_
    unfold fits at hfits
    split at hfits <;> cases hfits
    next hsingular hoption hlist hmap =>
      unfold FieldValue.isRefused
      split
      · exact (hsingular _ _ rfl rfl).elim
      · exact (hoption _ _ rfl rfl).elim
      · exact (hlist _ _ rfl rfl).elim
      · exact (hmap _ _ _ rfl rfl).elim
      · rfl
  | singular hvalue => simp [hvalue.eq_empty_iff, FieldValue.isRefused]
  | present hvalue => simp [hvalue.eq_empty_iff, FieldValue.isRefused]
  | list hbefore hvalue =>
    rw [Object.append_eq_empty_iff]
    cases hbefore with
    | nil => simp [hvalue.eq_empty_iff, Object.concat, FieldValue.isRefused]
    | cons hfirst _ =>
      simp [Object.concat, Object.append_eq_empty_iff, hfirst.ne_empty, hfirst.carries,
        FieldValue.isRefused]
  | map hbefore hentry =>
    simp [Object.append_eq_empty_iff, hentry.ne_empty, FieldValue.isRefused]

/-! ## Failing calls -/

/-- What a failing call for a field leaves: nothing without such a field, and otherwise what its
value leaves. -/
inductive LeavesCall (codec : Codec) (typeName : String) (id : UInt32) (value : FieldValue) :
    Object → CodecError → Prop where
  | unknownType {error : CodecError} (htype : codec.type typeName = .error error) :
      LeavesCall codec typeName id value .empty error
  | unknownField {type : ResolvedType} (htype : codec.type typeName = .ok type)
      (hfind : type.fieldById? id = none) :
      LeavesCall codec typeName id value .empty (.unknownField typeName id)
  | field {field : ResolvedField} {part : Object} {error : CodecError}
      (hfield : codec.field? typeName id = some field)
      (hvalue : LeavesField codec.encode field.name id field.shape value part error) :
      LeavesCall codec typeName id value part error

variable {codec : Codec} {typeName : String} {update after : Update} {error : CodecError}

theorem exists_of_updateField_eq_error {id : UInt32} {value : FieldValue}
    (hupdate : codec.updateField typeName update id value = (after, .error error)) :
    ∃ part, LeavesCall codec typeName id value part error ∧
      after = { update with fields := update.fields ++ part } := by
  cases htype : codec.type typeName with
  | error failure =>
    simp only [updateField, htype] at hupdate
    cases hupdate
    exact ⟨.empty, .unknownType htype, by rw [Object.append_empty]⟩
  | ok type =>
    cases hfind : type.fieldById? id with
    | none =>
      simp only [updateField, htype, hfind] at hupdate
      cases hupdate
      exact ⟨.empty, .unknownField htype hfind, by rw [Object.append_empty]⟩
    | some field =>
      have hfield := field?_eq_some_iff.mpr ⟨type, htype, hfind⟩
      cases hfits : fits field.shape value with
      | false =>
        simp only [updateField, htype, hfind, hfits] at hupdate
        cases hupdate
        exact ⟨.empty, .field hfield (.misfit hfits), by rw [Object.append_empty]⟩
      | true =>
        rw [updateField_eq hfield hfits] at hupdate
        split at hupdate
        · cases hupdate
        · rw [Prod.mk.injEq] at hupdate
          have hleaves := leavesField_of_encodeField (Prod.ext rfl hupdate.2)
          rw [id_of_field? hfield] at hleaves
          exact ⟨_, .field hfield hleaves, hupdate.1.symm⟩

theorem LeavesCall.only {id : UInt32} {value : FieldValue} {part : Object}
    (hleaves : LeavesCall codec typeName id value part error) : Object.Only id part := by
  cases hleaves with
  | unknownType _ => exact Object.only_empty id
  | unknownField _ _ => exact Object.only_empty id
  | field _ hvalue => exact hvalue.only

theorem LeavesCall.eq_empty_iff {id : UInt32} {value : FieldValue} {part : Object}
    (hleaves : LeavesCall codec typeName id value part error) :
    part = .empty ↔
      ∀ field, codec.field? typeName id = some field → value.isRefused field.shape := by
  cases hleaves with
  | unknownType htype => simp [field?, htype]
  | unknownField htype hfind => simp [field?, htype, hfind]
  | field hfield hvalue => simp [hfield, hvalue.eq_empty_iff]

theorem exists_of_addEvent_eq_error {name : String} {payload : Record}
    (hadd : codec.addEvent typeName name update payload = (after, .error error)) :
    (codec.event typeName name = .error error ∧ after = update) ∨
      ∃ event part, codec.event typeName name = .ok event ∧
        LeavesRecord codec event.payload payload part error ∧
          after = { update with events := update.events ++ .ofObject event.index part } := by
  cases hevent : codec.event typeName name with
  | error failure =>
    simp only [addEvent, hevent] at hadd
    cases hadd
    exact .inl ⟨rfl, rfl⟩
  | ok event =>
    simp only [addEvent, hevent, Object.addObject_eq, Prod.mk.injEq] at hadd
    exact .inr ⟨event, _, rfl, leavesRecord_of_encode (Prod.ext rfl hadd.2), hadd.1.symm⟩

end Codec

namespace Resolution

/-- A call that fails leaves everything but the field or event it is for as it was.  A field keeps
what was written before the failure, which is nothing exactly when the call is refused at once, and
an event that exists keeps one object with what was written of its payload. -/
theorem failing_call_leaves (resolution : Resolution) (typeName : String) (update : Update) :
    (∀ id value after error,
      resolution.codec.updateField typeName update id value = (after, .error error) →
        ∃ part, after = { update with fields := update.fields ++ part } ∧ Object.Only id part ∧
          resolution.codec.LeavesCall typeName id value part error ∧
            (after = update ↔ ∀ field, resolution.codec.field? typeName id = some field →
              value.isRefused field.shape)) ∧
      ∀ name payload after error,
        resolution.codec.addEvent typeName name update payload = (after, .error error) →
          (resolution.codec.event typeName name = .error error ∧ after = update) ∨
            ∃ event part, resolution.codec.event typeName name = .ok event ∧
              resolution.codec.LeavesRecord event.payload payload part error ∧
                after = { update with events := update.events ++ .ofObject event.index part } ∧
                  after ≠ update := by
  constructor
  · intro id value after error hupdate
    obtain ⟨part, hleaves, rfl⟩ := Codec.exists_of_updateField_eq_error hupdate
    refine ⟨part, rfl, hleaves.only, hleaves, ?_⟩
    rw [← hleaves.eq_empty_iff]
    constructor
    · intro hsame
      exact Object.append_eq_self_iff.mp (congrArg Update.fields hsame)
    · rintro rfl
      rw [Object.append_empty]
  · intro name payload after error hadd
    rcases Codec.exists_of_addEvent_eq_error hadd with hunknown |
      ⟨event, part, hevent, hleaves, rfl⟩
    · exact .inl hunknown
    · refine .inr ⟨event, part, hevent, hleaves, rfl, fun hsame => ?_⟩
      have hevents := congrArg Update.events hsame
      exact Object.ofObject_ne_empty event.index part (Object.append_eq_self_iff.mp hevents)

/-- A log of lines, with an event for notes. -/
def logIndex : Index where
  entries :=
    [⟨⟨"log.schema", ""⟩, .component
        ((ComponentDecl.declare "Log" 7 [.list "lines" 1 (.scalar .string)]).withEvent
          "noted" 1 "Note")⟩,
      ⟨⟨"log.schema", ""⟩, .type (.declare "Note" [.singular "text" 1 (.scalar .string)])⟩]
  ascending := by decide

def ofLog : Resolution where
  index := logIndex
  config := {}
  trees := (logIndex.resolveAll {} []).2.toOption.getD []
  enums := logIndex.resolveEnums.toOption.getD []
  resolveAll_eq := rfl
  resolveEnums_eq := rfl

/-- Two nodes by name, the second without its label. -/
def halfwayNodes : FieldValue :=
  .map [(label "x", .record (leaf "first" ⟨0⟩)), (label "y", .record [])]

theorem failing_call_leaves_halfway :
    (∃ after, ofNodes.codec.updateField "shapes.Node" .empty 3 halfwayNodes =
        (after, .error (.missingValue "shapes.Node" "label")) ∧
          after ≠ .empty ∧ after.events = .empty ∧ after.cleared = []) ∧
      ∃ after, ofLog.codec.addEvent "Log" "noted" .empty [(1, .list [])] =
        (after, .error (.shapeMismatch "text")) ∧
          after ≠ .empty ∧ after.fields = .empty ∧ after.cleared = [] := by
  constructor
  · have hcall : ofNodes.codec.updateField "shapes.Node" .empty 3 halfwayNodes =
        ((ofNodes.codec.updateField "shapes.Node" .empty 3 halfwayNodes).1,
          .error (.missingValue "shapes.Node" "label")) := rfl
    obtain ⟨part, hafter, -, -, hsame⟩ :=
      (ofNodes.failing_call_leaves "shapes.Node" .empty).1 3 halfwayNodes _ _ hcall
    refine ⟨_, hcall, fun heq => ?_, congrArg Update.events hafter, congrArg Update.cleared hafter⟩
    exact absurd (hsame.mp heq _ rfl) (by decide)
  · have hcall : ofLog.codec.addEvent "Log" "noted" .empty [(1, .list [])] =
        ((ofLog.codec.addEvent "Log" "noted" .empty [(1, .list [])]).1,
          .error (.shapeMismatch "text")) := rfl
    rcases (ofLog.failing_call_leaves "Log" .empty).2 "noted" [(1, .list [])] _ _ hcall with
      ⟨hunknown, -⟩ | ⟨event, part, -, -, hafter, hne⟩
    · cases hunknown
    · exact ⟨_, hcall, hne, congrArg Update.fields hafter, congrArg Update.cleared hafter⟩

/-- A line is kept although the one after it is no text, and a note is kept although it has none. -/
theorem failing_call_writes :
    ofLog.codec.updateField "Log" .empty 1 (.list [label "first", .atom (.scalar (.bool true))]) =
        (⟨.ofAtom 1 (.scalar (.string "first")), .empty, []⟩, .error (.shapeMismatch "lines")) ∧
      ofLog.codec.addEvent "Log" "noted" .empty [] =
        (⟨.empty, .ofObject 1 .empty, []⟩, .error (.missingValue "Note" "text")) ∧
      (⟨.ofAtom 1 (.scalar (.string "first")), .empty, []⟩ : Update) ≠ .empty ∧
      (⟨.empty, .ofObject 1 .empty, []⟩ : Update) ≠ .empty := by
  refine ⟨rfl, rfl, fun heq => ?_, fun heq => ?_⟩
  · exact Object.ofAtom_ne_empty _ _ (congrArg Update.fields heq)
  · exact Object.ofObject_ne_empty _ _ (congrArg Update.events heq)

end Resolution

end SchemaLoom
