import SchemaLoom.Proofs.RecordRules
import SchemaLoom.Proofs.Writing

/-!
# Depth enough to encode

Encoding follows the records inside a record, so it comes to the same end for every depth beyond
that of the record.  What holds of records encoded on their own therefore holds of those inside
others.
-/

namespace SchemaLoom.Codec

open Wire

variable {left right : Encoder}

/-- A writer of elements asks for nothing but the record it is given. -/
theorem writeElement_congr {value : Value}
    (hsame : ∀ (name : String) (inner : Record), value = .record inner →
      left name inner .empty = right name inner .empty)
    (fieldName : String) (element : Element) (id : UInt32) :
    writeElement left fieldName element id value =
      writeElement right fieldName element id value := by
  funext object
  cases value with
  | atom atom => cases element <;> cases atom <;> rfl
  | record inner =>
    cases element with
    | scalar kind => rfl
    | enumeration name => rfl
    | named name => rw [writeElement_named, writeElement_named, hsame name inner rfl]

theorem writeAll_congr {α : Type} {write write' : α → Object → Written} {items : List α}
    (hsame : ∀ item ∈ items, write item = write' item) :
    writeAll write items = writeAll write' items := by
  induction items with
  | nil => rfl
  | cons item items ih =>
    obtain ⟨hitem, hitems⟩ := List.forall_mem_cons.mp hsame
    funext object
    rw [writeAll, writeAll, hitem, ih hitems]

theorem writeEntry_congr {entry : Value × Value}
    (hkey : ∀ (name : String) (inner : Record), entry.1 = .record inner →
      left name inner .empty = right name inner .empty)
    (hvalue : ∀ (name : String) (inner : Record), entry.2 = .record inner →
      left name inner .empty = right name inner .empty)
    (fieldName : String) (keyElement valueElement : Element) (id : UInt32) :
    writeEntry left fieldName keyElement valueElement id entry =
      writeEntry right fieldName keyElement valueElement id entry := by
  funext object
  rw [writeEntry_eq, writeEntry_eq, writePair, writePair, writeElement_congr hkey,
    writeElement_congr hvalue]

theorem encodeField_congr {value : FieldValue}
    (hsame : ∀ (name : String) (inner : Record), .record inner ∈ value.elements →
      left name inner .empty = right name inner .empty) (field : ResolvedField) :
    encodeField left field value = encodeField right field value := by
  have helement : ∀ element ∈ value.elements, ∀ (name : String) (inner : Record),
      element = .record inner → left name inner .empty = right name inner .empty := by
    intro element hmem name inner heq
    exact hsame name inner (heq ▸ hmem)
  funext object
  unfold encodeField
  cases value with
  | singular only =>
    have honly := writeElement_congr (helement only List.mem_cons_self)
    cases field.shape <;> simp only [honly]
  | option only =>
    cases only with
    | none => cases field.shape <;> rfl
    | some only =>
      have honly := writeElement_congr (helement only List.mem_cons_self)
      cases field.shape <;> simp only [honly]
  | list values =>
    have hall : ∀ element, writeAll (writeElement left field.name element field.id) values =
        writeAll (writeElement right field.name element field.id) values := by
      intro element
      apply writeAll_congr
      intro value hmem
      exact writeElement_congr (helement value hmem) field.name element field.id
    cases field.shape <;> simp only [hall]
  | map entries =>
    have hall : ∀ keyElement valueElement,
        writeAll (writeEntry left field.name keyElement valueElement field.id) entries =
          writeAll (writeEntry right field.name keyElement valueElement field.id) entries := by
      intro keyElement valueElement
      apply writeAll_congr
      intro entry hmem
      have hmems : ∀ value ∈ [entry.1, entry.2], value ∈ (FieldValue.map entries).elements :=
        fun value hvalue => List.mem_flatMap.mpr ⟨entry, hmem, hvalue⟩
      exact writeEntry_congr (helement entry.1 (hmems _ (by simp)))
        (helement entry.2 (hmems _ (by simp))) field.name keyElement valueElement field.id
    cases field.shape <;> simp only [hall]

theorem encodeFields_congr (codec : Codec) {record : Record}
    (hsame : ∀ id value, (id, value) ∈ record → ∀ (name : String) (inner : Record),
      .record inner ∈ value.elements → left name inner .empty = right name inner .empty)
    (typeName : String) :
    codec.encodeFields left typeName record = codec.encodeFields right typeName record := by
  funext object
  rw [encodeFields_eq, encodeFields_eq]
  cases codec.type typeName with
  | error error => rfl
  | ok type =>
    have hentries : writeAll (encodeEntry left typeName record) type.fields =
        writeAll (encodeEntry right typeName record) type.fields := by
      apply writeAll_congr
      intro field _
      unfold encodeEntry
      cases hget : record.get? field.id with
      | none => rfl
      | some value =>
        have hmem := Record.mem_of_get?_eq_some hget
        exact encodeField_congr (hsame field.id value hmem) field
    exact congrFun hentries object

/-- Every depth beyond that of the record gives the same. -/
theorem encodeTo_eq_encodeTo (codec : Codec) {record : Record} {depth depth' : Nat}
    (hdepth : Record.depth record < depth) (hdepth' : Record.depth record < depth')
    (typeName : String) :
    codec.encodeTo depth typeName record = codec.encodeTo depth' typeName record := by
  induction record using Record.nested_induction generalizing typeName depth depth' with
  | step record ih =>
    cases depth with
    | zero => omega
    | succ depth =>
      cases depth' with
      | zero => omega
      | succ depth' =>
        apply encodeFields_congr
        intro id value hmem name inner hinner
        have hless := Record.depth_lt_of_mem hmem hinner
        have hsame : codec.encodeTo depth name inner = codec.encodeTo depth' name inner :=
          ih id value hmem inner hinner (by omega) (by omega) name
        rw [hsame]

theorem encodeTo_eq_encode (codec : Codec) {record : Record} {depth : Nat}
    (hdepth : Record.depth record < depth) (typeName : String) :
    codec.encodeTo depth typeName record = codec.encode typeName record :=
  encodeTo_eq_encodeTo codec hdepth (Nat.lt_succ_self _) typeName

/-- Encoding a record is encoding its fields, with the records inside encoded on their own. -/
theorem encode_eq_encodeFields (codec : Codec) (typeName : String) (record : Record) :
    codec.encode typeName record = codec.encodeFields codec.encode typeName record := by
  refine encodeFields_congr codec (fun id value hmem name inner hinner => ?_) typeName
  rw [encodeTo_eq_encode codec (Record.depth_lt_of_mem hmem hinner)]

end SchemaLoom.Codec
