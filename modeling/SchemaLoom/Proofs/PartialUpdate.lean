import SchemaLoom.Proofs.FieldUpdate
import SchemaLoom.Proofs.Resolution

/-!
# Partial updates

Merging a record with an update gives each field what its own updates make of it and leaves the
others alone, so the order of updates of different fields does not matter.
-/

namespace SchemaLoom

open Wire

/-- A map with its entries inserted one after the other; every other value as it is. -/
def FieldValue.keyed : FieldValue → FieldValue
  | .map entries => .map (Keyed.ofList Value.alike entries)
  | value => value

namespace Codec

variable {codec : Codec} {typeName : String} {type : ResolvedType}

/-! ## Merging as a fold -/

/-- A record with the change of a field, if there is one. -/
def applyChange (change : ResolvedField → Option FieldValue) (record : Record)
    (field : ResolvedField) : Record :=
  match change field with
  | some value => Record.insert field.id value record
  | none => record

theorem get?_applyChange (change : ResolvedField → Option FieldValue) (record : Record)
    (field : ResolvedField) (id : UInt32) :
    (applyChange change record field).get? id =
      if id = field.id then (change field).or (record.get? id) else record.get? id := by
  unfold applyChange
  cases change field with
  | none => simp
  | some value => simp [Record.get?_insert]

theorem ascending_applyChange {record : Record} (hascending : record.Ascending)
    (change : ResolvedField → Option FieldValue) (field : ResolvedField) :
    (applyChange change record field).Ascending := by
  unfold applyChange
  cases change field with
  | none => exact hascending
  | some value => exact Record.ascending_insert hascending field.id value

theorem ascending_foldl_applyChange {record : Record} (hascending : record.Ascending)
    (change : ResolvedField → Option FieldValue) (fields : List ResolvedField) :
    Record.Ascending (fields.foldl (applyChange change) record) := by
  induction fields generalizing record with
  | nil => exact hascending
  | cons field fields ih => exact ih (ascending_applyChange hascending change field)

/-- With different numbers, each number sees the change of its own field only. -/
theorem get?_foldl_applyChange (change : ResolvedField → Option FieldValue)
    {fields : List ResolvedField} (hnodup : (fields.map (·.id)).Nodup) (record : Record)
    (id : UInt32) :
    Record.get? (fields.foldl (applyChange change) record) id =
      ((fields.find? (·.id == id)).bind change).or (record.get? id) := by
  induction fields generalizing record with
  | nil => simp
  | cons field fields ih =>
    obtain ⟨hnew, hnodup⟩ := List.nodup_cons.mp hnodup
    rw [List.foldl_cons, ih hnodup, get?_applyChange, List.find?_cons]
    by_cases heq : id = field.id
    · subst heq
      have hnone : fields.find? (·.id == field.id) = none := by
        rw [List.find?_eq_none]
        intro other hother hid
        exact hnew (List.mem_map.mpr ⟨other, hother, by simpa using hid⟩)
      simp [hnone]
    · have hbeq : (field.id == id) = false := by simpa using Ne.symm heq
      rw [if_neg heq, hbeq]

theorem merge_eq_ok (htype : codec.type typeName = .ok type)
    {change : ResolvedField → Option FieldValue} {update : Update}
    (hchange : ∀ field ∈ type.fields,
      codec.updatedField type.qualified update field = .ok (change field)) (base : Record) :
    codec.merge typeName base update = .ok (type.fields.foldl (applyChange change) base) := by
  simp only [merge, htype, bind, Except.bind]
  generalize type.fields = fields at hchange
  induction fields generalizing base with
  | nil => rfl
  | cons field fields ih =>
    obtain ⟨hfield, hfields⟩ := List.forall_mem_cons.mp hchange
    rw [List.foldlM_cons, hfield, List.foldl_cons, ← ih _ hfields]
    unfold applyChange
    cases change field <;> rfl

/-- A merge that succeeds has found a change, or none, for every field. -/
theorem exists_updatedField_of_merge (htype : codec.type typeName = .ok type) {base merged : Record}
    {update : Update} (hmerge : codec.merge typeName base update = .ok merged) :
    ∀ field ∈ type.fields, ∃ change,
      codec.updatedField type.qualified update field = .ok change := by
  simp only [merge, htype, bind, Except.bind] at hmerge
  generalize type.fields = fields at hmerge
  induction fields generalizing base with
  | nil => simp
  | cons field fields ih =>
    rw [List.foldlM_cons] at hmerge
    obtain ⟨next, hnext, hmerge⟩ := Outcome.bind_eq_ok_iff.mp hmerge
    refine List.forall_mem_cons.mpr ⟨?_, ih hmerge⟩
    cases hfield : codec.updatedField type.qualified update field with
    | error error =>
      rw [hfield] at hnext
      cases hnext
    | ok change => exact ⟨change, rfl⟩

/-! ## At most one update of each field -/

/-- A value alone replaces what was there. -/
theorem afterUpdates_singleton {shape : Shape Element} {value : FieldValue}
    (hfits : fits shape value) : codec.afterUpdates shape [value] = some value.keyed := by
  by_cases habsent : value.isAbsent
  · rw [afterUpdates_of_all_absent codec shape (by simp [habsent])]
    cases writesField_absent codec.encode 0 hfits habsent with
    | absent element => rfl
    | list hvalues =>
      cases hvalues
      rfl
    | map hentries =>
      cases hentries
      rfl
  · have hwrites : [value].filter (!·.isAbsent) = [value] := by simp [habsent]
    rw [afterUpdates_of_write codec shape (by simp [hwrites]), hwrites]
    cases value with
    | singular value =>
      cases shape with
      | singular element => rfl
      | _ => cases hfits
    | option value =>
      cases shape with
      | option element => rfl
      | _ => cases hfits
    | list values =>
      cases shape with
      | list element => simp [Shape.gather, FieldValue.elements, FieldValue.keyed]
      | _ => cases hfits
    | map entries =>
      cases shape with
      | map keyElement valueElement => simp [Shape.gather, FieldValue.entries, FieldValue.keyed]
      | _ => cases hfits

theorem valuesOf_eq_toList {calls : Record} (hnodup : (calls.map (·.1)).Nodup) (id : UInt32) :
    Object.valuesOf id calls = (calls.get? id).toList := by
  induction calls with
  | nil => rfl
  | cons call calls ih =>
    obtain ⟨hnew, hnodup⟩ := List.nodup_cons.mp hnodup
    rw [Object.valuesOf_cons, Record.get?_cons, ih hnodup]
    by_cases heq : call.1 = id
    · have hnone : Record.get? calls id = none := by
        apply Record.get?_eq_none_of_forall_ne
        intro other hother hid
        exact hnew (List.mem_map.mpr ⟨other, hother, hid.trans heq.symm⟩)
      simp [heq, hnone]
    · simp [heq, Ne.symm heq]

/-- The order of calls does not matter to what each field gets, if it gets at most one value. -/
theorem valuesOf_eq_of_perm {calls others : Record} (hnodup : (calls.map (·.1)).Nodup)
    (hperm : others.Perm calls) (id : UInt32) :
    Object.valuesOf id others = Object.valuesOf id calls := by
  have hvalues : (Object.valuesOf id others).Perm (Object.valuesOf id calls) :=
    (hperm.filter _).map _
  rw [valuesOf_eq_toList hnodup] at hvalues ⊢
  cases hget : Record.get? calls id with
  | none =>
    rw [hget] at hvalues
    exact hvalues.eq_nil
  | some value =>
    rw [hget] at hvalues
    exact List.perm_singleton.mp hvalues

/-! ## The fields of the result -/

section Result

variable {calls : List (UInt32 × FieldValue)} {update : Update} {base result : Record}
variable (hunique : codec.UniqueIds) (htype : codec.type typeName = .ok type)
variable (hrun : codec.updateFields typeName calls .empty = (update, .ok ()))
variable (htransmissible : codec.Transmissible typeName calls)

include hunique htype hrun htransmissible

/-- The result of merging in terms of the calls that made the update. -/
theorem merge_of_updateFields (base : Record) :
    codec.merge typeName base update =
      .ok (type.fields.foldl
        (applyChange fun field => codec.change? field.shape (Object.valuesOf field.id calls))
        base) := by
  apply merge_eq_ok htype
  intro field hfield
  rw [qualified_of_type_eq_ok htype]
  exact (updatedField_eq hunique hrun htransmissible (field?_of_mem hunique htype hfield)).1

/-- A field without calls keeps its value, and any other takes what its calls make of it. -/
theorem get?_merged (hmerge : codec.merge typeName base update = .ok result) (id : UInt32) :
    (Object.valuesOf id calls = [] → result.get? id = base.get? id) ∧
      (Object.valuesOf id calls ≠ [] → ∃ field value, codec.field? typeName id = some field ∧
        (∀ written ∈ Object.valuesOf id calls, fits field.shape written) ∧
          codec.afterUpdates field.shape (Object.valuesOf id calls) = some value ∧
            result.get? id = some value) := by
  rw [merge_of_updateFields hunique htype hrun htransmissible, Except.ok.injEq] at hmerge
  have hget := get?_foldl_applyChange
    (fun field => codec.change? field.shape (Object.valuesOf field.id calls))
    (hunique type (mem_types_of_type_eq_ok htype)) base id
  rw [hmerge, ← field?_eq_find? htype] at hget
  rw [hget]
  constructor
  · intro hnone
    cases hfield : codec.field? typeName id with
    | none => rfl
    | some field => simp [change?, id_of_field? hfield, hnone]
  · intro hsome
    obtain ⟨logs, hlogs, -, -⟩ := exists_parts_of_updateFields hrun
    obtain ⟨first, hfirst⟩ := List.exists_mem_of_ne_nil _ hsome
    obtain ⟨parts, -, field, hfield, -⟩ :=
      Outcome.exists_right_of_mem hlogs (mem_valuesOf_iff.mp hfirst)
    replace hfield : codec.field? typeName id = some field := hfield
    have hid := id_of_field? hfield
    have hisSome := (updatedField_eq hunique hrun htransmissible (hid ▸ hfield)).2
    rw [hid] at hisSome
    obtain ⟨value, hvalue⟩ := Option.isSome_iff_exists.mp (hisSome hsome)
    obtain ⟨own, hown, -⟩ := exists_parts_at hlogs hfield
    refine ⟨field, value, hfield, ?_, hvalue, ?_⟩
    · intro written hwritten
      obtain ⟨parts, -, hwrites⟩ := Outcome.exists_right_of_mem hown hwritten
      exact hwrites.fits
    · simp [hfield, change?, hid, hsome, hvalue]

/-- With at most one call for each field, the result is the base with these fields replaced. -/
theorem merged_eq_foldl_insert (hmerge : codec.merge typeName base update = .ok result)
    (hnodup : (calls.map (·.1)).Nodup) (hascending : base.Ascending) :
    result = calls.foldl (fun record call => Record.insert call.1 call.2.keyed record) base := by
  have hfold : calls.foldl (fun record call => Record.insert call.1 call.2.keyed record) base =
      (calls.map fun call => (call.1, call.2.keyed)).foldl
        (fun record field => Record.insert field.1 field.2 record) base := by
    rw [List.foldl_map]
  have hids : (calls.map fun call => (call.1, call.2.keyed)).map (·.1) = calls.map (·.1) := by
    simp
  rw [hfold]
  apply Record.ext_get?
  · rw [merge_of_updateFields hunique htype hrun htransmissible, Except.ok.injEq] at hmerge
    rw [← hmerge]
    exact ascending_foldl_applyChange hascending _ _
  · exact Record.ascending_foldl_insert hascending _
  · intro id
    rw [Record.get?_foldl_insert, Record.get?_reverse_of_nodup (hids ▸ hnodup), Record.get?_map]
    obtain ⟨hkept, hchanged⟩ := get?_merged hunique htype hrun htransmissible hmerge id
    rw [valuesOf_eq_toList hnodup] at hkept hchanged
    cases hcall : Record.get? calls id with
    | none => exact hkept (by rw [hcall]; rfl)
    | some value =>
      obtain ⟨field, changed, -, hfits, hafter, hget⟩ := hchanged (by simp [hcall])
      rw [hcall] at hfits hafter
      have hsingle : codec.afterUpdates field.shape [value] = some value.keyed :=
        afterUpdates_singleton (hfits value List.mem_cons_self)
      rw [hget, ← hafter]
      exact hsingle

/-- With at most one call for each field, the order of the calls does not matter. -/
theorem merge_of_perm (hnodup : (calls.map (·.1)).Nodup)
    {others : List (UInt32 × FieldValue)} (hperm : others.Perm calls) (base : Record) :
    ∃ update', codec.updateFields typeName others .empty = (update', .ok ()) ∧
      codec.merge typeName base update' = codec.merge typeName base update := by
  have hvalues := valuesOf_eq_of_perm hnodup hperm
  obtain ⟨logs, hlogs, -, -⟩ := exists_parts_of_updateFields hrun
  have hwrites : ∀ call ∈ others, ∃ parts, codec.WritesCall typeName call parts := by
    intro call hcall
    obtain ⟨parts, -, hparts⟩ := Outcome.exists_right_of_mem hlogs (hperm.mem_iff.mp hcall)
    exact ⟨parts, hparts⟩
  have hothers : codec.Transmissible typeName others := by
    constructor
    · intro call hcall
      exact htransmissible.stable call (hperm.mem_iff.mp hcall)
    · intro call hcall
      rw [hvalues]
      exact htransmissible.counted call (hperm.mem_iff.mp hcall)
  obtain ⟨update', hrun'⟩ := exists_updateFields_of_writesCall hwrites .empty
  refine ⟨update', hrun', ?_⟩
  rw [merge_of_updateFields hunique htype hrun' hothers,
    merge_of_updateFields hunique htype hrun htransmissible]
  simp only [hvalues]

end Result

end Codec

namespace Resolution

/-- Any successful run of updates of fields can be merged into any record.  Fields without updates
keep their values; every other field holds what its own updates, in their order, make of it.  With
at most one update for each field the result is the record with these fields replaced, whatever the
order. -/
theorem merge_updateFields (resolution : Resolution) {typeName : String} {type : ResolvedType}
    (htype : resolution.codec.type typeName = .ok type) (base : Record)
    {calls : List (UInt32 × FieldValue)} {update : Update}
    (hrun : resolution.codec.updateFields typeName calls .empty = (update, .ok ()))
    (htransmissible : resolution.codec.Transmissible typeName calls) :
    ∃ result, resolution.codec.merge typeName base update = .ok result ∧
      (∀ id, Object.valuesOf id calls = [] → result.get? id = base.get? id) ∧
      (∀ id, Object.valuesOf id calls ≠ [] → ∃ field value,
        resolution.codec.field? typeName id = some field ∧
          resolution.codec.afterUpdates field.shape (Object.valuesOf id calls) = some value ∧
            result.get? id = some value) ∧
      ((calls.map (·.1)).Nodup →
        (base.Ascending → result =
          calls.foldl (fun record call => Record.insert call.1 call.2.keyed record) base) ∧
        ∀ others, others.Perm calls → ∃ update',
          resolution.codec.updateFields typeName others .empty = (update', .ok ()) ∧
            resolution.codec.merge typeName base update' = .ok result) := by
  have hunique : resolution.codec.UniqueIds := resolution.nodup_ids
  have hmerge := Codec.merge_of_updateFields hunique htype hrun htransmissible base
  refine ⟨_, hmerge, fun id => ?_, fun id hsome => ?_, fun hnodup => ⟨?_, ?_⟩⟩
  · exact (Codec.get?_merged hunique htype hrun htransmissible hmerge id).1
  · obtain ⟨field, value, hfield, -, hvalue⟩ :=
      (Codec.get?_merged hunique htype hrun htransmissible hmerge id).2 hsome
    exact ⟨field, value, hfield, hvalue⟩
  · exact Codec.merged_eq_foldl_insert hunique htype hrun htransmissible hmerge hnodup
  · intro others hperm
    rw [← hmerge]
    exact Codec.merge_of_perm hunique htype hrun htransmissible hnodup hperm base

/-- Updates of a node: a list written, cleared and written again, a text written twice, a map
written twice with one key in common, and a map that is only cleared. -/
def nodeUpdates : List (UInt32 × FieldValue) :=
  [(2, .list [.record (leaf "first" ⟨0⟩)]), (1, .singular (label "early")), (2, .list []),
    (3, .map [(label "x", .record (leaf "old" ⟨0⟩))]), (6, .map []),
    (1, .singular (label "late")),
    (3, .map [(label "y", .record (leaf "other" ⟨0⟩)), (label "x", .record (leaf "new" ⟨0⟩))]),
    (2, .list [.record (leaf "second" ⟨0⟩)])]

theorem merge_updateFields_nodes :
    (ofNodes.codec.updateFields "shapes.Node" nodeUpdates .empty).2 = .ok () ∧
      ofNodes.codec.Transmissible "shapes.Node" nodeUpdates ∧
      ∃ result, ofNodes.codec.merge "shapes.Node" (leaf "base" ⟨1⟩)
          (ofNodes.codec.updateFields "shapes.Node" nodeUpdates .empty).1 = .ok result ∧
        result.get? 1 = some (.singular (label "late")) ∧
        result.get? 2 =
          some (.list [.record (leaf "first" ⟨0⟩), .record (leaf "second" ⟨0⟩)]) ∧
        result.get? 3 =
          some (.map [(label "x", .record (leaf "new" ⟨0⟩)),
            (label "y", .record (leaf "other" ⟨0⟩))]) ∧
        result.get? 5 = some (.singular (.atom (.scalar (.double ⟨1⟩)))) ∧
        result.get? 6 = some (.map []) := by
  have htransmissible : ofNodes.codec.Transmissible "shapes.Node" nodeUpdates := by
    decide +kernel
  obtain ⟨result, hmerge, hkept, hchanged, -⟩ :=
    ofNodes.merge_updateFields rfl (leaf "base" ⟨1⟩) rfl htransmissible
  have hget : ∀ id, Object.valuesOf id nodeUpdates ≠ [] →
      result.get? id = (ofNodes.codec.field? "shapes.Node" id).bind fun field =>
        ofNodes.codec.afterUpdates field.shape (Object.valuesOf id nodeUpdates) := by
    intro id hsome
    obtain ⟨field, value, hfield, hvalue, hresult⟩ := hchanged id hsome
    rw [hresult, hfield, Option.bind_some, hvalue]
  refine ⟨rfl, htransmissible, result, hmerge, ?_, ?_, ?_, ?_, ?_⟩
  · exact (hget 1 (by simp [nodeUpdates, Object.valuesOf])).trans rfl
  · exact (hget 2 (by simp [nodeUpdates, Object.valuesOf])).trans rfl
  · exact (hget 3 (by simp [nodeUpdates, Object.valuesOf])).trans
      (by with_unfolding_all rfl)
  · exact (hkept 5 rfl).trans rfl
  · exact (hget 6 (by simp [nodeUpdates, Object.valuesOf])).trans rfl

end Resolution

end SchemaLoom
