import SchemaLoom.Proofs.Conformance
import SchemaLoom.Proofs.PartialUpdate

/-!
# Merging overwrites

An update decides alone whether it can be merged and which values it brings.  Merging sets the
fields that the update writes or clears to these values and leaves everything else in the record as
it is.  So merging an update again changes nothing, and updates of different fields can be merged in
either order.
-/

namespace SchemaLoom

open Wire

/-! ## Setting fields again -/

namespace Record

theorem insert_insert_self (id : UInt32) (value old : FieldValue) (record : Record) :
    insert id value (insert id old record) = insert id value record := by
  induction record with
  | nil => simp [insert]
  | cons field rest ih =>
    obtain ⟨first, kept⟩ := field
    by_cases heq : id = first
    · simp [insert, heq]
    · by_cases hlt : id < first
      · simp [insert, heq, hlt]
      · simp [insert, heq, hlt, ih]

/-- Different numbers can be set in either order, whatever the order of the numbers. -/
theorem insert_comm {id other : UInt32} (hne : id ≠ other) (value value' : FieldValue)
    (record : Record) :
    insert id value (insert other value' record) =
      insert other value' (insert id value record) := by
  induction record with
  | nil => grind [insert]
  | cons field rest ih => grind [insert]

end Record

namespace Codec

section Changes

variable {change left right : ResolvedField → Option FieldValue}
  {fields others : List ResolvedField}

theorem applyChange_self (change : ResolvedField → Option FieldValue) (record : Record)
    (field : ResolvedField) :
    applyChange change (applyChange change record field) field =
      applyChange change record field := by
  unfold applyChange
  cases change field with
  | none => rfl
  | some value => exact Record.insert_insert_self field.id value value record

theorem applyChange_comm {field other : ResolvedField}
    (hapart : field.id ≠ other.id ∨ left field = none ∨ right other = none) (record : Record) :
    applyChange right (applyChange left record field) other =
      applyChange left (applyChange right record other) field := by
  unfold applyChange
  cases hleft : left field with
  | none => rfl
  | some value =>
    cases hright : right other with
    | none => rfl
    | some value' =>
      have hne : field.id ≠ other.id := by simpa [hleft, hright] using hapart
      exact Record.insert_comm hne.symm value' value record

/-- Changes no two of which are for the same number can be made in either order. -/
theorem foldl_applyChange_comm
    (hapart : ∀ field ∈ fields, ∀ other ∈ others,
      field.id ≠ other.id ∨ left field = none ∨ right other = none) (record : Record) :
    others.foldl (applyChange right) (fields.foldl (applyChange left) record) =
      fields.foldl (applyChange left) (others.foldl (applyChange right) record) := by
  -- One change is moved past all the others, and from this one list past the other.
  have hmove : ∀ field ∈ fields, ∀ record : Record,
      others.foldl (applyChange right) (applyChange left record field) =
        applyChange left (others.foldl (applyChange right) record) field := by
    intro field hfield
    replace hapart := hapart field hfield
    clear hfield
    induction others with
    | nil => exact fun record => rfl
    | cons other others ih =>
      intro record
      obtain ⟨hother, hothers⟩ := List.forall_mem_cons.mp hapart
      rw [List.foldl_cons, applyChange_comm hother, ih hothers, List.foldl_cons]
  clear hapart
  induction fields generalizing record with
  | nil => rfl
  | cons field fields ih =>
    obtain ⟨hfield, hfields⟩ := List.forall_mem_cons.mp hmove
    rw [List.foldl_cons, ih _ hfields, hfield, List.foldl_cons]

/-- With different numbers, the same changes made again have no effect. -/
theorem foldl_applyChange_self (hnodup : (fields.map (·.id)).Nodup) (record : Record) :
    fields.foldl (applyChange change) (fields.foldl (applyChange change) record) =
      fields.foldl (applyChange change) record := by
  induction fields generalizing record with
  | nil => rfl
  | cons field fields ih =>
    obtain ⟨hnew, hnodup⟩ := List.nodup_cons.mp hnodup
    have hmove : ∀ record : Record,
        fields.foldl (applyChange change) ([field].foldl (applyChange change) record) =
          [field].foldl (applyChange change) (fields.foldl (applyChange change) record) := by
      refine foldl_applyChange_comm fun first hfirst other hother => .inl ?_
      rw [List.mem_singleton.mp hfirst]
      exact fun heq => hnew (List.mem_map.mpr ⟨other, hother, heq.symm⟩)
    simp only [List.foldl_cons, List.foldl_nil] at hmove ⊢
    rw [hmove, hmove, hmove, applyChange_self, ih hnodup]

end Changes

/-! ## What an update touches -/

variable {codec : Codec} {typeName : String} {type : ResolvedType} {update : Update}

/-- Whether an update writes a field, with the kind of the field, or clears it. -/
def touches (update : Update) (field : ResolvedField) : Bool :=
  update.fields.written field.wire field.id != 0 || update.isCleared field.id

/-- The numbers of the fields of a type that an update writes or clears. -/
def touched (codec : Codec) (typeName : String) (update : Update) : List UInt32 :=
  match codec.type typeName with
  | .ok type => (type.fields.filter (touches update)).map (·.id)
  | .error _ => []

theorem mem_touched_iff (htype : codec.type typeName = .ok type) {id : UInt32} :
    id ∈ codec.touched typeName update ↔
      ∃ field ∈ type.fields, touches update field ∧ field.id = id := by
  simp [touched, htype, and_assoc]

/-- An update has a value for the fields it touches and for no others. -/
theorem isSome_updatedField {field : ResolvedField} {change : Option FieldValue}
    (hchange : codec.updatedField typeName update field = .ok change) :
    change.isSome = touches update field := by
  have hpositive : 0 < greatestCount := by decide
  unfold updatedField at hchange
  unfold touches
  split at hchange
  · next hcount =>
    have hwritten : update.fields.written field.wire field.id = 0 := by
      simp only [Object.count] at hcount
      omega
    split at hchange
    · next hcleared =>
      obtain ⟨value, -, rfl⟩ := Outcome.map_eq_ok_iff.mp hchange
      simp [hcleared]
    · next hcleared =>
      cases hchange
      simp [hwritten, hcleared]
  · next hcount =>
    have hwritten : update.fields.written field.wire field.id ≠ 0 := by
      rintro hzero
      simp [Object.count, hzero] at hcount
    obtain ⟨value, -, rfl⟩ := Outcome.map_eq_ok_iff.mp hchange
    simp [hwritten]

/-! ## Merging depends on the record only through what it keeps -/

/-- Merging ends as the look for a change of each field does. -/
theorem verdict_merge (htype : codec.type typeName = .ok type) (record : Record) (update : Update) :
    Outcome.verdict (codec.merge typeName record update) =
      type.fields.forM fun field =>
        Outcome.verdict (codec.updatedField type.qualified update field) := by
  simp only [merge, htype, bind, Except.bind]
  generalize type.fields = fields
  induction fields generalizing record with
  | nil => rfl
  | cons field fields ih =>
    rw [List.foldlM_cons, Outcome.forM_cons]
    cases codec.updatedField type.qualified update field with
    | error error => rfl
    | ok change =>
      cases change with
      | none => exact ih record
      | some value => exact ih (Record.insert field.id value record)

/-- An update fails for every record, with the same failure, or it makes the same changes in every
record. -/
theorem merge_cases (codec : Codec) (typeName : String) (update : Update) :
    (∃ error, ∀ record, codec.merge typeName record update = .error error) ∨
      ∃ type change, codec.type typeName = .ok type ∧
        (∀ field ∈ type.fields, (change field).isSome = touches update field) ∧
          ∀ record, codec.merge typeName record update =
            .ok (type.fields.foldl (applyChange change) record) := by
  cases htype : codec.type typeName with
  | error error => exact .inl ⟨error, fun record => by simp [merge, htype, bind, Except.bind]⟩
  | ok type =>
    have hsame : ∀ record, Outcome.verdict (codec.merge typeName record update) =
        Outcome.verdict (codec.merge typeName [] update) := by
      intro record
      rw [verdict_merge htype, verdict_merge htype]
    cases hempty : codec.merge typeName [] update with
    | error error =>
      rw [hempty] at hsame
      exact .inl ⟨error, fun record => Outcome.verdict_eq_error_iff.mp (hsame record)⟩
    | ok merged =>
      have hchanges := exists_updatedField_of_merge htype hempty
      choose! change hchange using hchanges
      refine .inr ⟨type, change, rfl, fun field hfield => ?_, merge_eq_ok htype hchange⟩
      exact isSome_updatedField (hchange field hfield)

/-- The record after an attempt to merge an update, which changes nothing if it fails. -/
def mergeInto (codec : Codec) (typeName : String) (record : Record) (update : Update) : Record :=
  match codec.merge typeName record update with
  | .ok merged => merged
  | .error _ => record

/-! ## The laws of merging -/

theorem verdict_merge_eq (codec : Codec) (typeName : String) (update : Update)
    (record other : Record) :
    Outcome.verdict (codec.merge typeName record update) =
      Outcome.verdict (codec.merge typeName other update) := by
  rcases codec.merge_cases typeName update with ⟨error, herror⟩ | ⟨type, change, -, -, hmerge⟩
  · rw [herror, herror]
  · rw [hmerge, hmerge]
    rfl

section UniqueIds

variable (hunique : codec.UniqueIds)
include hunique

/-- What a number looks up after a merge: a value of the update if it is touched, and otherwise what
the record holds. -/
theorem exists_get?_merge (typeName : String) (update : Update) :
    ∃ brought : UInt32 → Option FieldValue,
      ∀ record merged, codec.merge typeName record update = .ok merged → ∀ id,
        ((brought id).isSome ↔ id ∈ codec.touched typeName update) ∧
          merged.get? id = (brought id).or (record.get? id) := by
  rcases codec.merge_cases typeName update with ⟨error, herror⟩ |
    ⟨type, change, htype, htouches, hmerge⟩
  · refine ⟨fun _ => none, fun record merged hmerged => ?_⟩
    rw [herror] at hmerged
    cases hmerged
  · have hnodup := hunique type (mem_types_of_type_eq_ok htype)
    refine ⟨fun id => (codec.field? typeName id).bind change, fun record merged hmerged id => ?_⟩
    rw [hmerge, Except.ok.injEq] at hmerged
    have hget := get?_foldl_applyChange change hnodup record id
    rw [hmerged, ← field?_eq_find? htype] at hget
    refine ⟨?_, hget⟩
    rw [mem_touched_iff htype]
    constructor
    · intro hsome
      obtain ⟨value, hvalue⟩ := Option.isSome_iff_exists.mp hsome
      obtain ⟨field, hfield, hchange⟩ := Option.bind_eq_some_iff.mp hvalue
      obtain ⟨own, hown, hmem, hid⟩ := (field?_eq_some_iff_mem hunique).mp hfield
      obtain rfl : type = own := Except.ok.inj (htype.symm.trans hown)
      refine ⟨field, hmem, ?_, hid⟩
      rw [← htouches field hmem, hchange]
      rfl
    · rintro ⟨field, hmem, htouched, rfl⟩
      simp only [field?_of_mem hunique htype hmem, Option.bind_some, htouches field hmem, htouched]

theorem merge_merge_self (record : Record) (update : Update) :
    (codec.merge typeName record update >>= (codec.merge typeName · update)) =
      codec.merge typeName record update := by
  rcases codec.merge_cases typeName update with ⟨error, herror⟩ | ⟨type, change, htype, -, hmerge⟩
  · rw [herror]
    rfl
  · have hnodup := hunique type (mem_types_of_type_eq_ok htype)
    rw [hmerge]
    exact (hmerge _).trans (congrArg Except.ok (foldl_applyChange_self hnodup record))

end UniqueIds

/-- Changes to different fields can be made in either order. -/
theorem foldl_applyChange_of_disjoint {other : Update}
    (hdisjoint : (codec.touched typeName update).Disjoint (codec.touched typeName other))
    (htype : codec.type typeName = .ok type)
    {change change' : ResolvedField → Option FieldValue}
    (htouches : ∀ field ∈ type.fields, (change field).isSome = touches update field)
    (htouches' : ∀ field ∈ type.fields, (change' field).isSome = touches other field)
    (record : Record) :
    type.fields.foldl (applyChange change') (type.fields.foldl (applyChange change) record) =
      type.fields.foldl (applyChange change) (type.fields.foldl (applyChange change') record) := by
  refine foldl_applyChange_comm (fun field hfield later hlater => ?_) record
  by_contra hclash
  simp only [not_or, not_not, ← Option.isSome_iff_ne_none] at hclash
  obtain ⟨hid, hchange, hchange'⟩ := hclash
  rw [htouches field hfield] at hchange
  rw [htouches' later hlater] at hchange'
  exact hdisjoint ((mem_touched_iff htype).mpr ⟨field, hfield, hchange, hid⟩)
    ((mem_touched_iff htype).mpr ⟨later, hlater, hchange', rfl⟩)

section Disjoint

variable {other : Update}
  (hdisjoint : (codec.touched typeName update).Disjoint (codec.touched typeName other))
include hdisjoint

/-- Updates of different fields can be merged in either order if one of them can be merged. -/
theorem merge_merge_comm {record merged : Record}
    (hmerged : codec.merge typeName record update = .ok merged) :
    (codec.merge typeName record update >>= (codec.merge typeName · other)) =
      codec.merge typeName record other >>= (codec.merge typeName · update) := by
  rcases codec.merge_cases typeName update with ⟨error, herror⟩ |
    ⟨type, change, htype, htouches, hmerge⟩
  · rw [herror] at hmerged
    cases hmerged
  rcases codec.merge_cases typeName other with ⟨error, herror⟩ |
    ⟨type', change', htype', htouches', hmerge'⟩
  · rw [hmerge, herror]
    exact herror _
  obtain rfl : type = type' := Except.ok.inj (htype.symm.trans htype')
  rw [hmerge, hmerge']
  calc
    codec.merge typeName (type.fields.foldl (applyChange change) record) other
      = .ok (type.fields.foldl (applyChange change')
          (type.fields.foldl (applyChange change) record)) :=
        hmerge' _
    _ = .ok (type.fields.foldl (applyChange change)
          (type.fields.foldl (applyChange change') record)) := by
        rw [foldl_applyChange_of_disjoint hdisjoint htype htouches htouches']
    _ = codec.merge typeName (type.fields.foldl (applyChange change') record) update :=
        (hmerge _).symm

/-- Attempts to merge updates of different fields lead to the same record in either order, also if
both of them fail. -/
theorem mergeInto_comm (record : Record) :
    codec.mergeInto typeName (codec.mergeInto typeName record update) other =
      codec.mergeInto typeName (codec.mergeInto typeName record other) update := by
  unfold mergeInto
  rcases codec.merge_cases typeName update with ⟨error, herror⟩ |
    ⟨type, change, htype, htouches, hmerge⟩
  · simp only [herror]
  rcases codec.merge_cases typeName other with ⟨error, herror⟩ |
    ⟨type', change', htype', htouches', hmerge'⟩
  · simp only [herror]
  obtain rfl : type = type' := Except.ok.inj (htype.symm.trans htype')
  simp only [hmerge, hmerge']
  exact foldl_applyChange_of_disjoint hdisjoint htype htouches htouches' record

end Disjoint

end Codec

namespace Resolution

/-- Merging is a pointwise overwrite that the update alone determines.  Whether it succeeds, and
with which failure, is the same for all records.  Numbers the update does not touch keep their
values, and the others get values that do not depend on the record.  An update that is merged again
changes nothing.  Two updates that touch different fields lead to the same record in either order,
and to the same failure unless neither can be merged at all: then each order fails as its first
update does, and attempts in either order leave the record as it was. -/
theorem merge_overwrites (resolution : Resolution) (typeName : String) (update : Update) :
    (∀ record other,
      Outcome.verdict (resolution.codec.merge typeName record update) =
        Outcome.verdict (resolution.codec.merge typeName other update)) ∧
      (∀ record merged, resolution.codec.merge typeName record update = .ok merged → ∀ id,
        (id ∉ resolution.codec.touched typeName update → merged.get? id = record.get? id) ∧
          (id ∈ resolution.codec.touched typeName update → ∃ value, merged.get? id = some value ∧
            ∀ other result, resolution.codec.merge typeName other update = .ok result →
              result.get? id = some value)) ∧
      (∀ record,
        (resolution.codec.merge typeName record update >>=
            (resolution.codec.merge typeName · update)) =
          resolution.codec.merge typeName record update) ∧
      ∀ other : Update,
        (resolution.codec.touched typeName update).Disjoint
            (resolution.codec.touched typeName other) → ∀ record,
          (∀ result,
            (resolution.codec.merge typeName record update >>=
                (resolution.codec.merge typeName · other)) = .ok result ↔
              (resolution.codec.merge typeName record other >>=
                (resolution.codec.merge typeName · update)) = .ok result) ∧
            ((∃ merged, resolution.codec.merge typeName record update = .ok merged) ∨
                (∃ merged, resolution.codec.merge typeName record other = .ok merged) →
              (resolution.codec.merge typeName record update >>=
                  (resolution.codec.merge typeName · other)) =
                resolution.codec.merge typeName record other >>=
                  (resolution.codec.merge typeName · update)) ∧
            resolution.codec.mergeInto typeName
                (resolution.codec.mergeInto typeName record update) other =
              resolution.codec.mergeInto typeName
                (resolution.codec.mergeInto typeName record other) update := by
  have hunique : resolution.codec.UniqueIds := resolution.nodup_ids
  refine ⟨resolution.codec.verdict_merge_eq typeName update, fun record merged hmerged id => ?_,
    fun record => Codec.merge_merge_self hunique record update, fun other hdisjoint record => ?_⟩
  · obtain ⟨brought, hbrought⟩ := Codec.exists_get?_merge hunique typeName update
    obtain ⟨htouched, hget⟩ := hbrought record merged hmerged id
    rw [← htouched, hget]
    cases hvalue : brought id with
    | none => simp
    | some value =>
      refine ⟨fun hnone => absurd rfl hnone, fun _ => ⟨value, rfl, fun other result hresult => ?_⟩⟩
      rw [(hbrought other result hresult id).2, hvalue]
      rfl
  · have hcomm : (∃ merged, resolution.codec.merge typeName record update = .ok merged) ∨
        (∃ merged, resolution.codec.merge typeName record other = .ok merged) →
        (resolution.codec.merge typeName record update >>=
            (resolution.codec.merge typeName · other)) =
          resolution.codec.merge typeName record other >>=
            (resolution.codec.merge typeName · update) := by
      rintro (⟨merged, hmerged⟩ | ⟨merged, hmerged⟩)
      · exact Codec.merge_merge_comm hdisjoint hmerged
      · exact (Codec.merge_merge_comm (List.disjoint_symm hdisjoint) hmerged).symm
    refine ⟨fun result => ?_, hcomm, Codec.mergeInto_comm hdisjoint record⟩
    constructor
    · intro hresult
      obtain ⟨merged, hmerged, -⟩ := Outcome.bind_eq_ok_iff.mp hresult
      rw [← hcomm (.inl ⟨merged, hmerged⟩)]
      exact hresult
    · intro hresult
      obtain ⟨merged, hmerged, -⟩ := Outcome.bind_eq_ok_iff.mp hresult
      rw [hcomm (.inr ⟨merged, hmerged⟩)]
      exact hresult

/-- A node without children and weight, with a number no node has. -/
def sparseNode : Record :=
  [(1, .singular (label "base")), (3, .map [(label "x", .record (leaf "old" ⟨0⟩))]),
    (9, .option none)]

/-- A label written twice, a weight of another kind, an unknown number, and a map cleared. -/
def labelUpdate : Update where
  fields := .mk
    [(1, .scalar (.string "early")), (5, .scalar (.float ⟨0⟩)), (9, .scalar (.bool true)),
      (1, .scalar (.string "late"))] []
  events := .empty
  cleared := [3, 3, 9]

/-- A list that is both written and cleared, and a label of another kind. -/
def childUpdate : Update where
  fields := .mk [(1, .enumeration 7)]
    [(2, .mk [(1, .scalar (.string "child")), (5, .scalar (.double ⟨1⟩))] [])]
  events := .empty
  cleared := [2]

theorem merge_overwrites_nodes :
    (ofNodes.codec.touched "shapes.Node" labelUpdate).Disjoint
        (ofNodes.codec.touched "shapes.Node" childUpdate) ∧
      (∃ merged, ofNodes.codec.merge "shapes.Node" sparseNode labelUpdate = .ok merged) ∧
      (ofNodes.codec.merge "shapes.Node" sparseNode labelUpdate >>=
          (ofNodes.codec.merge "shapes.Node" · childUpdate)) =
        (ofNodes.codec.merge "shapes.Node" sparseNode childUpdate >>=
          (ofNodes.codec.merge "shapes.Node" · labelUpdate)) ∧
      (ofNodes.codec.merge "shapes.Node" sparseNode childUpdate >>=
          (ofNodes.codec.merge "shapes.Node" · labelUpdate)) =
        .ok [(1, .singular (label "late")), (2, .list [.record (leaf "child" ⟨1⟩)]), (3, .map []),
          (9, .option none)] := by
  have hlabel : ofNodes.codec.touched "shapes.Node" labelUpdate = [1, 3] := by decide +kernel
  have hchild : ofNodes.codec.touched "shapes.Node" childUpdate = [2] := by decide +kernel
  have hdisjoint : (ofNodes.codec.touched "shapes.Node" labelUpdate).Disjoint
      (ofNodes.codec.touched "shapes.Node" childUpdate) := by
    rw [hlabel, hchild]
    simp
  have hmerged : ∃ merged,
      ofNodes.codec.merge "shapes.Node" sparseNode labelUpdate = .ok merged := ⟨_, rfl⟩
  obtain ⟨-, -, -, hcomm⟩ := ofNodes.merge_overwrites "shapes.Node" labelUpdate
  refine ⟨hdisjoint, hmerged, (hcomm childUpdate hdisjoint sparseNode).2.1 (.inl hmerged), ?_⟩
  with_unfolding_all rfl

/-- A child without a label. -/
def unlabelledChild : Update where
  fields := .mk [] [(2, .empty)]
  events := .empty
  cleared := []

/-- An entry by name that holds a node without a label. -/
def unlabelledEntry : Update where
  fields := .mk [] [(3, .mk [(1, .scalar (.string "x"))] [(2, .empty)])]
  events := .empty
  cleared := []

/-- Updates of different fields neither of which can be merged: the failure tells which one came
first. -/
theorem merge_failure_shows_order :
    (ofNodes.codec.touched "shapes.Node" unlabelledChild).Disjoint
        (ofNodes.codec.touched "shapes.Node" unlabelledEntry) ∧
      (ofNodes.codec.merge "shapes.Node" sparseNode unlabelledChild >>=
          (ofNodes.codec.merge "shapes.Node" · unlabelledEntry)) =
        .error (.decode ⟨["children"], .missingField "shapes.Node" "label" 1⟩) ∧
      (ofNodes.codec.merge "shapes.Node" sparseNode unlabelledChild >>=
          (ofNodes.codec.merge "shapes.Node" · unlabelledEntry)) ≠
        (ofNodes.codec.merge "shapes.Node" sparseNode unlabelledEntry >>=
          (ofNodes.codec.merge "shapes.Node" · unlabelledChild)) := by
  have hchild : ofNodes.codec.touched "shapes.Node" unlabelledChild = [2] := by decide +kernel
  have hentry : ofNodes.codec.touched "shapes.Node" unlabelledEntry = [3] := by decide +kernel
  have hforward : (ofNodes.codec.merge "shapes.Node" sparseNode unlabelledChild >>=
      (ofNodes.codec.merge "shapes.Node" · unlabelledEntry)) =
        .error (.decode ⟨["children"], .missingField "shapes.Node" "label" 1⟩) := by
    with_unfolding_all rfl
  have hbackward : (ofNodes.codec.merge "shapes.Node" sparseNode unlabelledEntry >>=
      (ofNodes.codec.merge "shapes.Node" · unlabelledChild)) =
        .error (.decode ⟨["by_name"], .missingField "shapes.Node" "label" 1⟩) := by
    with_unfolding_all rfl
  refine ⟨?_, hforward, ?_⟩
  · rw [hchild, hentry]
    simp
  · rw [hforward, hbackward]
    simp

end Resolution

end SchemaLoom
