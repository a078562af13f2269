import SchemaLoom.Proofs.Outcome
import SchemaLoom.Resolved.Filter

/-!
# Checked and kept fields

What the checks on a list of fields amount to, and which fields are kept.  Fields that passed have
different numbers and refer to declared types and enumerations only; a kept field is one that does
not lead back to its target, or a collection under the policy that keeps collections.
-/

namespace SchemaLoom

namespace Index

variable {index : Index} {target : String}

theorem checkType_eq_ok_iff {name : String} :
    index.checkType target name = .ok () ↔ (index.type? name).isSome := by
  unfold checkType
  split <;> simp_all

theorem checkField_eq_ok_iff {earlier : List Field} {field : Field} :
    index.checkField target earlier field = .ok () ↔
      (∀ first ∈ earlier, first.id ≠ field.id) ∧
        ∀ reference ∈ field.references, index.checkReference target reference = .ok () := by
  unfold checkField
  rw [← Outcome.forM_eq_ok_iff]
  cases hfind : earlier.find? (·.id == field.id) with
  | none =>
    have hnew : ∀ first ∈ earlier, first.id ≠ field.id := by simpa using hfind
    exact ⟨fun hrefs => ⟨hnew, hrefs⟩, And.right⟩
  | some first =>
    have hid : first.id = field.id := by simpa using List.find?_some hfind
    constructor
    · intro hfailed
      cases hfailed
    · intro hall
      exact absurd hid (hall.1 first (List.mem_of_find?_eq_some hfind))

/-- Fields pass in turn when their numbers are new each time and their references are declared. -/
theorem checkFields_eq_ok_iff {earlier fields : List Field} :
    index.checkFields target earlier fields = .ok () ↔
      (∀ field ∈ fields, ∀ first ∈ earlier, first.id ≠ field.id) ∧
        fields.Pairwise (fun first second => first.id ≠ second.id) ∧
          ∀ field ∈ fields, ∀ reference ∈ field.references,
            index.checkReference target reference = .ok () := by
  induction fields generalizing earlier with
  | nil => simp [checkFields]
  | cons field fields ih =>
    have hstep : index.checkFields target earlier (field :: fields) = .ok () ↔
        index.checkField target earlier field = .ok () ∧
          index.checkFields target (earlier ++ [field]) fields = .ok () := by
      rw [checkFields]
      cases index.checkField target earlier field with
      | error error => simp
      | ok => simp
    rw [hstep, ih, checkField_eq_ok_iff, List.pairwise_cons]
    simp only [List.forall_mem_cons, List.forall_mem_append, List.mem_singleton, forall_eq]
    constructor
    · rintro ⟨⟨hfirst, hrefs⟩, hnew, hpairwise, hrest⟩
      exact ⟨⟨hfirst, fun other hother => (hnew other hother).1⟩,
        ⟨fun other hother => (hnew other hother).2, hpairwise⟩, hrefs, hrest⟩
    · rintro ⟨⟨hfirst, hnew⟩, ⟨hhead, hpairwise⟩, hrefs, hrest⟩
      exact ⟨⟨hfirst, hrefs⟩, fun other hother => ⟨hnew other hother, hhead other hother⟩,
        hpairwise, hrest⟩

/-- A field as it is kept, with the shape of its elements. -/
def keptField (index : Index) (target : String) (field : Field) (shape : Shape Element) :
    ResolvedField where
  name := field.name
  id := field.id
  shape := shape
  recursive := index.reaches field.shape target
  transient := field.transient
  annotations := field.annotations

/-- Which fields are kept, and as what. -/
theorem judge_eq_keep_iff {policy : RecursionPolicy} {field : Field} {kept : ResolvedField} :
    index.judge policy target field = .keep kept ↔
      ∃ shape, field.shape.traverse? Element.ofReference? = some shape ∧
        (index.reaches field.shape target = true →
          shape.isCollection = true ∧ policy = .keepCollections) ∧
        index.keptField target field shape = kept := by
  unfold judge
  cases field.shape.traverse? Element.ofReference? with
  | none => simp
  | some shape =>
    simp only [Option.some.injEq, exists_eq_left', keptField]
    cases index.reaches field.shape target <;> cases shape.isCollection <;> cases policy <;> simp

theorem filterFields_eq_ok_iff {policy : RecursionPolicy} {fields : List Field}
    {filtered : Filtered} :
    index.filterFields policy target fields = .ok filtered ↔
      index.checkFields target [] fields = .ok () ∧
        .ofVerdicts target (fields.map (index.judge policy target)) = filtered := by
  unfold filterFields
  cases index.checkFields target [] fields <;> simp

variable {policy : RecursionPolicy} {fields : List Field} {filtered : Filtered}

theorem mem_fields_iff (hfilter : index.filterFields policy target fields = .ok filtered)
    {kept : ResolvedField} :
    kept ∈ filtered.fields ↔ ∃ field ∈ fields, index.judge policy target field = .keep kept := by
  obtain ⟨-, rfl⟩ := filterFields_eq_ok_iff.mp hfilter
  have hkept : ∀ verdict : Verdict, verdict.kept? = some kept ↔ verdict = .keep kept := by
    intro verdict
    cases verdict <;> simp [Verdict.kept?]
  simp [Filtered.ofVerdicts, List.mem_filterMap, hkept]

/-- The kept fields have different numbers. -/
theorem nodup_ids_of_filterFields
    (hfilter : index.filterFields policy target fields = .ok filtered) :
    (filtered.fields.map (·.id)).Nodup := by
  obtain ⟨hcheck, rfl⟩ := filterFields_eq_ok_iff.mp hfilter
  obtain ⟨-, hpairwise, -⟩ := checkFields_eq_ok_iff.mp hcheck
  have hid : ∀ field kept, (index.judge policy target field).kept? = some kept →
      kept.id = field.id := by
    intro field kept hkept
    cases hverdict : index.judge policy target field with
    | keep other =>
      rw [hverdict, Verdict.kept?, Option.some.injEq] at hkept
      subst hkept
      obtain ⟨shape, -, -, rfl⟩ := judge_eq_keep_iff.mp hverdict
      rfl
    | dropEntity _ => simp [hverdict, Verdict.kept?] at hkept
    | dropRecursive _ => simp [hverdict, Verdict.kept?] at hkept
  rw [Filtered.ofVerdicts, List.Nodup, List.pairwise_map, List.filterMap_map]
  refine List.Pairwise.filterMap _ ?_ hpairwise
  intro first second hne kept hkept kept' hkept' heq
  exact hne ((hid first kept hkept).symm.trans (heq.trans (hid second kept' hkept')))

end Index

end SchemaLoom
