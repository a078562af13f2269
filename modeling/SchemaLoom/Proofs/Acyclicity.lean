import Mathlib.Logic.Relation
import SchemaLoom.Code.Plan
import SchemaLoom.Proofs.Reachability
import SchemaLoom.Proofs.Resolution

/-!
# Cycles among resolved types

Each type is filtered on its own, against what its declaration leads to.  Nevertheless no cycle of
types is left except through collections: a cycle of resolved types is also one of declarations, so
every field on it leads back to its type and is kept only if it is a collection that may recurse.  No
field names a component, so components are on no cycle.
-/

namespace SchemaLoom

/-! ## The graph of resolved types -/

/-- The source has the field, and the field holds values of the target. -/
def FieldEdge (types : List ResolvedType) (field : ResolvedField) (source target : String) : Prop :=
  ∃ type ∈ types, type.qualified = source ∧ field ∈ type.fields ∧
    .named target ∈ field.shape.elements

/-- Some field of the source holds values of the target. -/
def Edge (types : List ResolvedType) (source target : String) : Prop :=
  ∃ field, FieldEdge types field source target

/-- Some field of the source that is not a collection holds values of the target. -/
def DirectEdge (types : List ResolvedType) (source target : String) : Prop :=
  ∃ field, FieldEdge types field source target ∧ field.shape.isCollection = false

theorem DirectEdge.edge {types : List ResolvedType} {source target : String}
    (hedge : DirectEdge types source target) : Edge types source target := by
  obtain ⟨field, hfield, -⟩ := hedge
  exact ⟨field, hfield⟩

/-! ## Back to the declarations -/

theorem Shape.mem_elements_of_traverse? {shape : Shape Reference} {resolved : Shape Element}
    (htraverse : shape.traverse? Element.ofReference? = some resolved) {element : Element}
    (hmem : element ∈ resolved.elements) :
    ∃ reference ∈ shape.elements, Element.ofReference? reference = some element := by
  cases shape with
  | singular reference =>
    obtain ⟨only, honly, rfl⟩ := Option.map_eq_some_iff.mp htraverse
    exact ⟨reference, List.mem_cons_self, List.mem_singleton.mp hmem ▸ honly⟩
  | option reference =>
    obtain ⟨only, honly, rfl⟩ := Option.map_eq_some_iff.mp htraverse
    exact ⟨reference, List.mem_cons_self, List.mem_singleton.mp hmem ▸ honly⟩
  | list reference =>
    obtain ⟨only, honly, rfl⟩ := Option.map_eq_some_iff.mp htraverse
    exact ⟨reference, List.mem_cons_self, List.mem_singleton.mp hmem ▸ honly⟩
  | map key value =>
    rw [Shape.traverse?] at htraverse
    split at htraverse
    · next resolvedKey resolvedValue hkey hvalue =>
      cases htraverse
      rcases List.mem_cons.mp hmem with rfl | hmem
      · exact ⟨key, by simp [Shape.elements], hkey⟩
      · exact ⟨value, by simp [Shape.elements], List.mem_singleton.mp hmem ▸ hvalue⟩
    · cases htraverse

theorem Element.eq_named_of_ofReference? {reference : Reference} {name : String}
    (hreference : Element.ofReference? reference = some (.named name)) :
    reference = .named name := by
  cases reference with
  | primitive kind => cases kind <;> simp [Element.ofReference?, Primitive.scalar?] at hreference
  | enumeration other => simp [Element.ofReference?] at hreference
  | named other => simpa [Element.ofReference?] using hreference

namespace Index

variable {index : Index} {config : GenerateConfig} {trees : List Resolved}

/-- A name stands for one declaration, so a type is no component. -/
theorem component?_eq_none_of_type? {name : String} (htype : (index.type? name).isSome) :
    index.component? name = none := by
  unfold type? at htype
  unfold component?
  cases hget : index.get? name with
  | none => rfl
  | some entry =>
    rw [hget] at htype
    obtain ⟨source, decl⟩ := entry
    cases decl with
    | type decl => rfl
    | enumeration decl => rfl
    | component decl => cases htype

/-- The fields of a type are measured against the type itself. -/
theorem declared_of_type? {name : String} {declared : Declared}
    (htype : (index.type? name).isSome) (hdeclared : index.declared name = .ok declared) :
    ∃ decl, index.type? name = some decl ∧ declared.fields = decl.fields ∧
      declared.target = name := by
  obtain ⟨decl, hdecl⟩ := Option.isSome_iff_exists.mp htype
  rw [Index.declared, component?_eq_none_of_type? htype, hdecl] at hdeclared
  cases hdeclared
  exact ⟨decl, hdecl, rfl, rfl⟩

section Resolved

variable (hresolve : (index.resolveAll config []).2 = .ok trees)

include hresolve

/-- What stands behind an edge: a declared field that names the target, and a target that is a
type. -/
theorem exists_field_of_fieldEdge {field : ResolvedField} {source target : String}
    (hedge : FieldEdge (Resolved.allOf trees) field source target) :
    ∃ declared, index.declared source = .ok declared ∧ ∃ raw ∈ declared.fields,
      target ∈ raw.shape.namedTypes ∧ (index.type? target).isSome ∧
        field.recursive = index.reaches raw.shape declared.target ∧
          (field.recursive → field.shape.isCollection ∧ config.recursion = .keepCollections) := by
  obtain ⟨type, htype, rfl, hfield, htarget⟩ := hedge
  obtain ⟨declared, filtered, hdeclared, hfiltered, hfields⟩ :=
    builds_of_resolveAll hresolve type htype
  rw [hfields] at hfield
  obtain ⟨raw, hraw, hjudge⟩ := (mem_fields_iff hfiltered).mp hfield
  obtain ⟨shape, htraverse, hkept, rfl⟩ := judge_eq_keep_iff.mp hjudge
  obtain ⟨reference, hreference, hnamed⟩ := Shape.mem_elements_of_traverse? htraverse htarget
  obtain rfl := Element.eq_named_of_ofReference? hnamed
  obtain ⟨hcheck, -⟩ := filterFields_eq_ok_iff.mp hfiltered
  have hreferences := (checkFields_eq_ok_iff.mp hcheck).2.2 raw hraw (.named target) hreference
  refine ⟨declared, hdeclared, raw, hraw, ?_, checkType_eq_ok_iff.mp hreferences, rfl, hkept⟩
  exact List.mem_filterMap.mpr ⟨.named target, hreference, rfl⟩

theorem type?_of_edge {source target : String} (hedge : Edge (Resolved.allOf trees) source target) :
    (index.type? target).isSome := by
  obtain ⟨field, hfield⟩ := hedge
  obtain ⟨declared, -, raw, -, -, htype, -⟩ := exists_field_of_fieldEdge hresolve hfield
  exact htype

theorem mem_successors_of_edge {source target : String} (htype : (index.type? source).isSome)
    (hedge : Edge (Resolved.allOf trees) source target) : target ∈ index.successors source := by
  obtain ⟨field, hfield⟩ := hedge
  obtain ⟨declared, hdeclared, raw, hraw, htarget, -⟩ := exists_field_of_fieldEdge hresolve hfield
  obtain ⟨decl, hdecl, hfields, -⟩ := declared_of_type? htype hdeclared
  rw [successors, hdecl]
  exact List.mem_flatMap.mpr ⟨raw, hfields ▸ hraw, htarget⟩

/-- A path of resolved types that starts at a type is one of declarations, and ends at a type. -/
theorem leads_of_path {source target : String} (htype : (index.type? source).isSome)
    (hpath : Relation.ReflTransGen (Edge (Resolved.allOf trees)) source target) :
    index.Leads source target ∧ (index.type? target).isSome := by
  induction hpath with
  | refl => exact ⟨.here source, htype⟩
  | tail _ hedge ih =>
    obtain ⟨hleads, hmiddle⟩ := ih
    have hnext := mem_successors_of_edge hresolve hmiddle hedge
    exact ⟨hleads.snoc hnext, type?_of_edge hresolve hedge⟩

/-- A field on a cycle leads back to its type, so it was kept as a recursive collection. -/
theorem recursive_of_cycle {field : ResolvedField} {source target : String}
    (hedge : FieldEdge (Resolved.allOf trees) field source target)
    (hback : Relation.ReflTransGen (Edge (Resolved.allOf trees)) target source) :
    field.recursive ∧ field.shape.isCollection ∧ config.recursion = .keepCollections := by
  obtain ⟨declared, hdeclared, raw, hraw, hnamed, htarget, hrecursive, hkept⟩ :=
    exists_field_of_fieldEdge hresolve hedge
  -- The way back ends at a type, so the field was measured against its own type.
  obtain ⟨hleads, hsource⟩ := leads_of_path hresolve htarget hback
  obtain ⟨decl, -, -, hmeasured⟩ := declared_of_type? hsource hdeclared
  have hreaches : index.reaches raw.shape declared.target := by
    rw [hmeasured]
    exact reaches_iff.mpr ⟨target, hnamed, hleads⟩
  have hfield : field.recursive := hrecursive.trans hreaches
  exact ⟨hfield, hkept hfield⟩

end Resolved

/-! ## Cycles -/

/-- When everything could be resolved, the strict policy leaves no cycle.  Under the other one every
field on a cycle is a recursive list or map, held growable.  So values that are held without a
collection in between are never nested without end, and no component is on a cycle. -/
theorem edges_on_cycles (hresolve : (index.resolveAll config []).2 = .ok trees) :
    (config.recursion = .strict →
      ∀ name, ¬Relation.TransGen (Edge (Resolved.allOf trees)) name name) ∧
    (config.recursion = .keepCollections → ∀ field source target,
      FieldEdge (Resolved.allOf trees) field source target →
      Relation.ReflTransGen (Edge (Resolved.allOf trees)) target source →
        field.shape.isCollection ∧ field.recursive ∧ field.materialization = .growable) ∧
    (∀ name, ¬Relation.TransGen (DirectEdge (Resolved.allOf trees)) name name) ∧
    (∀ name, (index.component? name).isSome →
      ¬Relation.TransGen (Edge (Resolved.allOf trees)) name name) := by
  refine ⟨?_, ?_, ?_, ?_⟩
  · intro hstrict name hcycle
    obtain ⟨next, ⟨field, hedge⟩, hback⟩ := Relation.TransGen.head'_iff.mp hcycle
    obtain ⟨-, -, hpolicy⟩ := recursive_of_cycle hresolve hedge hback
    rw [hstrict] at hpolicy
    cases hpolicy
  · intro _ field source target hedge hback
    obtain ⟨hrecursive, hcollection, -⟩ := recursive_of_cycle hresolve hedge hback
    exact ⟨hcollection, hrecursive, if_pos hrecursive⟩
  · intro name hcycle
    obtain ⟨next, ⟨field, hedge, hdirect⟩, hback⟩ := Relation.TransGen.head'_iff.mp hcycle
    have hpath : Relation.ReflTransGen (Edge (Resolved.allOf trees)) next name :=
      Relation.ReflTransGen.mono (fun _ _ => DirectEdge.edge) next name hback
    obtain ⟨-, hcollection, -⟩ := recursive_of_cycle hresolve hedge hpath
    rw [hdirect] at hcollection
    cases hcollection
  · intro name hcomponent hcycle
    obtain ⟨previous, -, hedge⟩ := Relation.TransGen.tail'_iff.mp hcycle
    rw [component?_eq_none_of_type? (type?_of_edge hresolve hedge)] at hcomponent
    cases hcomponent

/-- Trees and their branches hold each other, in collections and on their own; a grove holds what a
tree does. -/
def forest : Index where
  entries :=
    [⟨⟨"forest.schema", "forest"⟩, .type (.declare "forest.Branch"
        [.list "trees" 1 (.named "forest.Tree"), .option "stem" 2 (.named "forest.Tree")])⟩,
      ⟨⟨"forest.schema", "forest"⟩,
        .component ((ComponentDecl.declare "forest.Grove" 7 []).withData "forest.Tree")⟩,
      ⟨⟨"forest.schema", "forest"⟩, .type (.declare "forest.Tree"
        [.map "branches" 1 (.scalar .string) (.named "forest.Branch"),
          .singular "crown" 2 (.named "forest.Branch")])⟩]
  ascending := by decide

/-- What the forest resolves to where collections may recurse. -/
def forestTrees : List Resolved :=
  (forest.resolveAll { recursion := .keepCollections } []).2.toOption.getD []

theorem edges_on_cycles_forest :
    (forest.resolveAll { recursion := .keepCollections } []).2 = .ok forestTrees ∧
      (∃ field, FieldEdge (Resolved.allOf forestTrees) field "forest.Tree" "forest.Branch" ∧
        Relation.ReflTransGen (Edge (Resolved.allOf forestTrees)) "forest.Branch" "forest.Tree" ∧
          field.shape.isCollection ∧ field.recursive ∧ field.materialization = .growable) ∧
      ¬Relation.TransGen (DirectEdge (Resolved.allOf forestTrees)) "forest.Tree" "forest.Tree" ∧
      ¬Relation.TransGen (Edge (Resolved.allOf forestTrees)) "forest.Grove" "forest.Grove" := by
  have hresolve : (forest.resolveAll { recursion := .keepCollections } []).2 =
      .ok forestTrees := rfl
  obtain ⟨-, hcycles, hdirect, hcomponents⟩ := edges_on_cycles hresolve
  have hbranches : FieldEdge (Resolved.allOf forestTrees)
      (forest.keptField "forest.Tree"
        (.map "branches" 1 (.scalar .string) (.named "forest.Branch"))
        (.map (.scalar .string) (.named "forest.Branch"))) "forest.Tree" "forest.Branch" :=
    ⟨_, .tail _ (.tail _ (.head _)), rfl, .head _, .tail _ (.head _)⟩
  have htrees : Edge (Resolved.allOf forestTrees) "forest.Branch" "forest.Tree" :=
    ⟨_, _, .head _, rfl, .head _, .head _⟩
  have hback := Relation.ReflTransGen.single htrees
  exact ⟨hresolve, ⟨_, hbranches, hback, hcycles rfl _ _ _ hbranches hback⟩,
    hdirect "forest.Tree", hcomponents "forest.Grove" rfl⟩

end Index

end SchemaLoom
