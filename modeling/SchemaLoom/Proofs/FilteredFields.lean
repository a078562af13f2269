import SchemaLoom.Proofs.Acyclicity
import SchemaLoom.Proofs.Memoization

/-!
# What filtering keeps and reports

A field is dropped because it refers to the entity kind, or because it leads back to its type and is
no collection that may recurse.  What is kept, what is listed as omitted and what is warned of are
the fields of these three sorts in the order of the declarations, nothing more and nothing less.
Filtering looks at the fields and their type only, so a component shares the outcome with the type
that is its data definition.
-/

namespace SchemaLoom

/-! ## Shapes without the entity kind -/

theorem Element.ofReference?_eq_none_iff {reference : Reference} :
    Element.ofReference? reference = none ↔ reference = .primitive .entity := by
  cases reference with
  | primitive kind => cases kind <;> simp [ofReference?, Primitive.scalar?]
  | enumeration name => simp [ofReference?]
  | named name => simp [ofReference?]

namespace Shape

variable {α β : Type} {replace : α → Option β}

theorem traverse?_eq_none_iff {shape : Shape α} :
    shape.traverse? replace = none ↔ ∃ element ∈ shape.elements, replace element = none := by
  cases shape with
  | singular element => simp [traverse?, elements]
  | option element => simp [traverse?, elements]
  | list element => simp [traverse?, elements]
  | map key value =>
    cases hkey : replace key <;> cases hvalue : replace value <;>
      simp [traverse?, elements, hkey, hvalue]

theorem isCollection_of_traverse? {shape : Shape α} {result : Shape β}
    (htraverse : shape.traverse? replace = some result) :
    result.isCollection = shape.isCollection := by
  cases shape with
  | singular element =>
    obtain ⟨only, -, rfl⟩ := Option.map_eq_some_iff.mp htraverse
    rfl
  | option element =>
    obtain ⟨only, -, rfl⟩ := Option.map_eq_some_iff.mp htraverse
    rfl
  | list element =>
    obtain ⟨only, -, rfl⟩ := Option.map_eq_some_iff.mp htraverse
    rfl
  | map key value =>
    rw [traverse?] at htraverse
    split at htraverse
    · cases htraverse
      rfl
    · cases htraverse

end Shape

/-- The field refers to the entity kind, as a key or otherwise. -/
def Field.HasEntity (field : Field) : Prop :=
  .primitive .entity ∈ field.references

instance (field : Field) : Decidable field.HasEntity :=
  inferInstanceAs (Decidable (_ ∈ field.references))

theorem Field.hasEntity_iff {field : Field} :
    field.HasEntity ↔ field.shape.traverse? Element.ofReference? = none := by
  rw [Shape.traverse?_eq_none_iff]
  simp only [Element.ofReference?_eq_none_iff, exists_eq_right]
  rfl

/-! ## Leading back -/

theorem Shape.mem_namedTypes_iff {shape : Shape Reference} {name : String} :
    name ∈ shape.namedTypes ↔ .named name ∈ shape.elements := by
  have hnamed : ∀ reference : Reference,
      reference.named? = some name ↔ reference = .named name := by
    intro reference
    cases reference <;> simp [Reference.named?]
  simp [Shape.namedTypes, List.mem_filterMap, hnamed]

namespace Index

variable {index : Index} {policy : RecursionPolicy} {target : String}

/-- The first type has a field, of whatever shape, that names the second, as a key or otherwise. -/
def Mentions (index : Index) (first second : String) : Prop :=
  ∃ decl, index.type? first = some decl ∧ ∃ field ∈ decl.fields, .named second ∈ field.references

/-- The shape names a type from which any number of such fields lead to the target. -/
def LeadsBack (index : Index) (shape : Shape Reference) (target : String) : Prop :=
  ∃ name, .named name ∈ shape.elements ∧ Relation.ReflTransGen index.Mentions name target

theorem mem_successors_iff {first second : String} :
    second ∈ index.successors first ↔ index.Mentions first second := by
  unfold successors Mentions
  cases index.type? first with
  | none => simp
  | some decl => simp [Shape.mem_namedTypes_iff, Field.references]

theorem leads_iff {first last : String} :
    index.Leads first last ↔ Relation.ReflTransGen index.Mentions first last := by
  constructor
  · intro hleads
    induction hleads with
    | here name => exact .refl
    | step hnext _ ih => exact ih.head (mem_successors_iff.mp hnext)
  · intro hpath
    induction hpath using Relation.ReflTransGen.head_induction_on with
    | refl => exact .here last
    | head hmentions _ ih => exact .step (mem_successors_iff.mpr hmentions) ih

theorem reaches_iff_leadsBack {shape : Shape Reference} :
    index.reaches shape target ↔ index.LeadsBack shape target := by
  simp only [reaches_iff, LeadsBack, Shape.mem_namedTypes_iff, leads_iff]

instance (shape : Shape Reference) : Decidable (index.LeadsBack shape target) :=
  decidable_of_iff _ reaches_iff_leadsBack

/-! ## Every field on its own -/

/-- A field of the target is kept: it has no entity in it, and if it leads back to the target it is
a list or a map and the policy keeps these. -/
def Keeps (index : Index) (policy : RecursionPolicy) (target : String) (field : Field) : Prop :=
  ¬field.HasEntity ∧
    (¬index.LeadsBack field.shape target ∨ field.shape.isCollection ∧ policy = .keepCollections)

instance (field : Field) : Decidable (index.Keeps policy target field) :=
  inferInstanceAs (Decidable (_ ∧ _))

/-- The resolved field is the declared one, with the elements of its references. -/
def KeptAs (index : Index) (target : String) (field : Field) (kept : ResolvedField) : Prop :=
  ∃ shape, field.shape.traverse? Element.ofReference? = some shape ∧
    index.keptField target field shape = kept

/-- The warning for a dropped field. -/
def warningFor (target : String) (field : Field) : Warning :=
  if field.HasEntity then .entityField target field.name else .recursiveField target field.name

/-- What becomes of a field: it is dropped for the entity in it, dropped because it leads back, or
kept. -/
theorem judge_cases (index : Index) (policy : RecursionPolicy) (target : String) (field : Field) :
    (field.HasEntity ∧ ¬index.Keeps policy target field ∧
      index.judge policy target field = .dropEntity field.name) ∨
    (¬field.HasEntity ∧ index.LeadsBack field.shape target ∧ ¬index.Keeps policy target field ∧
      index.judge policy target field = .dropRecursive field.name) ∨
    (index.Keeps policy target field ∧ ∃ kept, index.KeptAs target field kept ∧
      index.judge policy target field = .keep kept) := by
  by_cases hentity : field.HasEntity
  · refine .inl ⟨hentity, fun hkeeps => hkeeps.1 hentity, ?_⟩
    rw [judge, Field.hasEntity_iff.mp hentity]
  right
  obtain ⟨shape, hshape⟩ := Option.ne_none_iff_exists'.mp (mt Field.hasEntity_iff.mpr hentity)
  have hcollection := Shape.isCollection_of_traverse? hshape
  by_cases hkeeps : index.Keeps policy target field
  · refine .inr ⟨hkeeps, _, ⟨shape, hshape, rfl⟩, judge_eq_keep_iff.mpr ⟨shape, hshape, ?_, rfl⟩⟩
    intro hreaches
    rw [hcollection]
    exact hkeeps.2.resolve_left (not_not_intro (reaches_iff_leadsBack.mp hreaches))
  · have hback : index.LeadsBack field.shape target := by
      by_contra hnot
      exact hkeeps ⟨hentity, .inl hnot⟩
    have hrecur : ¬(field.shape.isCollection ∧ policy = .keepCollections) :=
      fun hrecur => hkeeps ⟨hentity, .inr hrecur⟩
    refine .inl ⟨hentity, hback, hkeeps, ?_⟩
    rw [judge, hshape]
    simp only [reaches_iff_leadsBack.mpr hback, hcollection]
    exact if_neg (by simpa using hrecur)

/-! ## All fields in order -/

theorem keptAs_of_judge (fields : List Field) :
    List.Forall₂ (index.KeptAs target)
      (fields.filter fun field => index.Keeps policy target field)
      ((fields.map (index.judge policy target)).filterMap Verdict.kept?) := by
  induction fields with
  | nil => exact .nil
  | cons field fields ih =>
    rw [List.map_cons, List.filterMap_cons]
    rcases index.judge_cases policy target field with
      ⟨-, hdrops, hjudge⟩ | ⟨-, -, hdrops, hjudge⟩ | ⟨hkeeps, kept, hkept, hjudge⟩
    · rw [hjudge, List.filter_cons_of_neg (by simpa using hdrops)]
      exact ih
    · rw [hjudge, List.filter_cons_of_neg (by simpa using hdrops)]
      exact ih
    · rw [hjudge, List.filter_cons_of_pos (by simpa using hkeeps)]
      exact .cons hkept ih

theorem filterMap_eq_map_filter {α β : Type} {pick : α → Option β} {holds : α → Prop}
    [DecidablePred holds] {view : α → β}
    (hpick : ∀ item, pick item = if holds item then some (view item) else none) (items : List α) :
    items.filterMap pick = (items.filter holds).map view := by
  rw [← List.filterMap_eq_map, List.filterMap_filter]
  congr 1
  funext item
  simp [hpick]

/-- The recursive fields that are not kept are listed as omitted. -/
theorem omitted_of_judge (fields : List Field) :
    (fields.map (index.judge policy target)).filterMap Verdict.omitted? =
      (fields.filter fun field =>
        ¬field.HasEntity ∧ index.LeadsBack field.shape target ∧
          ¬index.Keeps policy target field).map (·.name) := by
  rw [List.filterMap_map]
  apply filterMap_eq_map_filter
  intro field
  rcases index.judge_cases policy target field with
    ⟨hentity, -, hjudge⟩ | ⟨hentity, hback, hdrops, hjudge⟩ | ⟨hkeeps, kept, -, hjudge⟩
  · simp [hjudge, Verdict.omitted?, hentity]
  · simp [hjudge, Verdict.omitted?, hentity, hback, hdrops]
  · simp [hjudge, Verdict.omitted?, hkeeps]

/-- Every dropped field is warned of, with the reason. -/
theorem warnings_of_judge (fields : List Field) :
    (fields.map (index.judge policy target)).filterMap (Verdict.warning? target) =
      (fields.filter fun field => ¬index.Keeps policy target field).map (warningFor target) := by
  rw [List.filterMap_map]
  apply filterMap_eq_map_filter
  intro field
  rcases index.judge_cases policy target field with
    ⟨hentity, hdrops, hjudge⟩ | ⟨hentity, -, hdrops, hjudge⟩ | ⟨hkeeps, kept, -, hjudge⟩
  · simp [hjudge, Verdict.warning?, hdrops, warningFor, hentity]
  · simp [hjudge, Verdict.warning?, hdrops, warningFor, hentity]
  · simp [hjudge, Verdict.warning?, hkeeps]

/-! ## Components with a data definition -/

variable {config : GenerateConfig}

/-- What a name resolves to has the fields, the omitted names and the warnings that filtering the
fields of its declaration gives. -/
theorem exists_filtered_of_resolve {memo : Memo} (hsound : memo.Sound index config) {name : String}
    {tree : Resolved} (hresolve : (index.resolve config name memo).2 = .ok tree) :
    ∃ declared filtered, index.declared name = .ok declared ∧
      index.filterFields config.recursion declared.target declared.fields = .ok filtered ∧
        tree.type.fields = filtered.fields ∧ tree.type.omitted = filtered.omitted ∧
          tree.type.warnings = filtered.warnings := by
  have hassembled : ∀ memo name tree, Memo.All (index.ResolvesTo config) memo →
      index.assemble config memo name = .ok tree → index.ResolvesTo config name tree :=
    fun memo _ _ hall htree => .assembled memo (fun _ _ _ hget => hall.of_get? hget) htree
  obtain ⟨known, -, hassemble⟩ := (Memo.All.resolve hassembled name hsound.resolves).2 tree hresolve
  obtain ⟨declared, filtered, htree⟩ := exists_assembled hassemble
  exact ⟨declared, filtered, htree.declared_eq, htree.filterFields_eq, htree.fields_eq,
    htree.omitted_eq, htree.warnings_eq⟩

/-- The fields of a component with a data definition are those of that type, measured against it. -/
theorem declared_of_dataDefinition {component : ComponentDecl} (hmem : component ∈ index.components)
    {data : String} (hdata : component.dataDefinition = some data) {declared : Declared}
    (hdeclared : index.declared component.qualified = .ok declared) :
    ∃ decl, index.type? data = some decl ∧ declared.fields = decl.fields ∧
      declared.target = data := by
  simp only [Index.declared, mem_components_iff.mp hmem, componentFields, hdata] at hdeclared
  cases hdecl : index.type? data with
  | none =>
    rw [hdecl] at hdeclared
    cases hdeclared
  | some decl =>
    rw [hdecl] at hdeclared
    cases hdeclared
    exact ⟨decl, rfl, rfl, rfl⟩

/-! ## Filtering is exact -/

/-- Whether a field leads back to its type is found out by a walk that ends by itself.  Whenever
filtering succeeds, it keeps the fields to be kept, lists the recursive ones among the others as
omitted, and warns of every other field once, all in the order of the declarations.  So a component
resolves to the fields, omitted names and warnings of its data definition. -/
theorem filterFields_exact (index : Index) (config : GenerateConfig) :
    (∀ target fields filtered,
      index.filterFields config.recursion target fields = .ok filtered →
        (∀ shape : Shape Reference,
          (∀ rounds, index.size < rounds →
            index.widen rounds [] shape.namedTypes.eraseDups =
              index.reachable shape.namedTypes) ∧
          (index.reaches shape target ↔ index.LeadsBack shape target)) ∧
        List.Forall₂ (index.KeptAs target)
          (fields.filter fun field => index.Keeps config.recursion target field)
          filtered.fields ∧
        filtered.omitted =
          (fields.filter fun field =>
            ¬field.HasEntity ∧ index.LeadsBack field.shape target ∧
              ¬index.Keeps config.recursion target field).map (·.name) ∧
        filtered.warnings =
          (fields.filter fun field => ¬index.Keeps config.recursion target field).map
            (warningFor target)) ∧
    ∀ component ∈ index.components, ∀ data, component.dataDefinition = some data →
      ∀ calls calls' tree tree',
        (index.resolve config component.qualified (index.memoAfter config calls)).2 = .ok tree →
        (index.resolve config data (index.memoAfter config calls')).2 = .ok tree' →
          tree.type.fields = tree'.type.fields ∧ tree.type.omitted = tree'.type.omitted ∧
            tree.type.warnings = tree'.type.warnings := by
  refine ⟨fun target fields filtered hfilter => ?_, ?_⟩
  · obtain ⟨-, rfl⟩ := filterFields_eq_ok_iff.mp hfilter
    exact ⟨fun shape => ⟨fun rounds hrounds => widen_eq_reachable hrounds, reaches_iff_leadsBack⟩,
      keptAs_of_judge fields, omitted_of_judge fields, warnings_of_judge fields⟩
  · intro component hcomponent data hdata calls calls' tree tree' hresolve hresolve'
    obtain ⟨declared, filtered, hdeclared, hfiltered, hfields, homitted, hwarnings⟩ :=
      exists_filtered_of_resolve (index.sound_memoAfter config calls) hresolve
    obtain ⟨declared', filtered', hdeclared', hfiltered', hfields', homitted', hwarnings'⟩ :=
      exists_filtered_of_resolve (index.sound_memoAfter config calls') hresolve'
    obtain ⟨decl, hdecl, hfrom, htarget⟩ := declared_of_dataDefinition hcomponent hdata hdeclared
    obtain ⟨decl', hdecl', hfrom', htarget'⟩ :=
      declared_of_type? (Option.isSome_of_mem hdecl) hdeclared'
    obtain rfl : decl = decl' := Option.some.inj (hdecl.symm.trans hdecl')
    -- Both were filtered by one and the same call.
    rw [hfrom, htarget] at hfiltered
    rw [hfrom', htarget', hfiltered, Except.ok.injEq] at hfiltered'
    subst hfiltered'
    exact ⟨hfields.trans hfields'.symm, homitted.trans homitted'.symm,
      hwarnings.trans hwarnings'.symm⟩

/-- The fields of a link: entities as a value and as a key, ways back to links through nodes, also
by a key, and a text. -/
def linkFields : List Field :=
  [.singular "owner" 1 (.primitive .entity),
    .map "by_owner" 2 (.primitive .entity) (.named "net.Node"),
    .option "next" 3 (.named "net.Node"), .list "peers" 4 (.named "net.Link"),
    .map "costs" 5 (.named "net.Node") (.scalar .int32), .singular "label" 6 (.scalar .string)]

/-- Links and nodes that hold each other, and a hub that holds what a link does. -/
def network : Index where
  entries :=
    [⟨⟨"net.schema", "net"⟩, .component ((ComponentDecl.declare "net.Hub" 7 []).withData "net.Link")⟩,
      ⟨⟨"net.schema", "net"⟩, .type (.declare "net.Link" linkFields)⟩,
      ⟨⟨"net.schema", "net"⟩, .type (.declare "net.Node" [.list "links" 1 (.named "net.Link")])⟩]
  ascending := by decide

theorem filterFields_exact_network :
    ∃ filtered, network.filterFields .keepCollections "net.Link" linkFields = .ok filtered ∧
      (filtered.fields.map fun kept => (kept.name, kept.recursive)) =
        [("peers", true), ("costs", true), ("label", false)] ∧
      filtered.omitted = ["next"] ∧
      filtered.warnings = [.entityField "net.Link" "owner", .entityField "net.Link" "by_owner",
        .recursiveField "net.Link" "next"] ∧
      ∃ tree tree',
        (network.resolve { recursion := .keepCollections } "net.Hub"
          (network.memoAfter { recursion := .keepCollections } ["net.Node"])).2 = .ok tree ∧
        (network.resolve { recursion := .keepCollections } "net.Link"
          (network.memoAfter { recursion := .keepCollections } ["net.Hub"])).2 = .ok tree' ∧
        tree.type.fields = tree'.type.fields ∧ tree.type.warnings = tree'.type.warnings := by
  obtain ⟨hfilter, hcomponents⟩ := filterFields_exact network { recursion := .keepCollections }
  obtain ⟨-, -, homitted, hwarnings⟩ := hfilter "net.Link" linkFields _ rfl
  obtain ⟨hfields, -, hshared⟩ := hcomponents _ (.head _) "net.Link" rfl ["net.Node"] ["net.Hub"]
    _ _ rfl rfl
  exact ⟨_, rfl, rfl, homitted.trans rfl, hwarnings.trans rfl, _, _, rfl, rfl, hfields, hshared⟩

end Index

end SchemaLoom
