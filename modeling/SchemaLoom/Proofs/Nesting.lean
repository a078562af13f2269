import Mathlib.Data.List.Nodup
import Mathlib.Logic.Relation
import SchemaLoom.Schema.Index

/-!
# Nesting of types

A type may be nested in another declaration, and following that relation inwards is what resolution
does.  A trail is the way from a declaration in to a type, without repetitions.  All its members but
the outermost are declared types, so no trail is longer than the index.  Where nesting has no cycle,
every way in comes to an end.
-/

namespace SchemaLoom.Index

variable {index : Index}

/-! ## Declarations and their names -/

theorem get?_eq_some_iff {name : String} {entry : Entry} :
    index.get? name = some entry ↔ entry ∈ index.entries ∧ entry.name = name := by
  unfold get?
  constructor
  · intro hfind
    exact ⟨List.mem_of_find?_eq_some hfind, by simpa using List.find?_some hfind⟩
  · rintro ⟨hmem, rfl⟩
    obtain ⟨before, after, hsplit⟩ := List.append_of_mem hmem
    have hascending := hsplit ▸ index.ascending
    rw [List.find?_eq_some_iff_append]
    refine ⟨beq_self_eq_true _, before, after, hsplit, fun earlier hearlier => ?_⟩
    have hless := (List.pairwise_append.mp hascending).2.2 earlier hearlier entry
      List.mem_cons_self
    have hne : earlier.name ≠ entry.name := fun heq => String.lt_irrefl _ (heq ▸ hless)
    simpa using hne

/-- Looking a declaration of one sort up by its name finds it among all of that sort. -/
theorem mem_filterMap_iff {α : Type} {view : Declaration → Option α} {nameOf : α → String}
    (hname : ∀ decl value, view decl = some value → decl.name = nameOf value) {value : α} :
    value ∈ index.entries.filterMap (fun entry => view entry.decl) ↔
      (index.get? (nameOf value)).bind (fun entry => view entry.decl) = some value := by
  simp only [List.mem_filterMap, Option.bind_eq_some_iff, get?_eq_some_iff]
  constructor
  · rintro ⟨entry, hentry, hview⟩
    exact ⟨entry, ⟨hentry, hname _ _ hview⟩, hview⟩
  · rintro ⟨entry, ⟨hentry, -⟩, hview⟩
    exact ⟨entry, hentry, hview⟩

theorem name_of_type? {decl : Declaration} {type : TypeDecl} (htype : decl.type? = some type) :
    decl.name = type.qualified := by
  cases decl <;> simp_all [Declaration.type?, Declaration.name]

theorem name_of_enumeration? {decl : Declaration} {enum : EnumDecl}
    (henum : decl.enumeration? = some enum) : decl.name = enum.qualified := by
  cases decl <;> simp_all [Declaration.enumeration?, Declaration.name]

theorem name_of_component? {decl : Declaration} {component : ComponentDecl}
    (hcomponent : decl.component? = some component) : decl.name = component.qualified := by
  cases decl <;> simp_all [Declaration.component?, Declaration.name]

theorem mem_types_iff {type : TypeDecl} :
    type ∈ index.types ↔ index.type? type.qualified = some type :=
  mem_filterMap_iff fun _ _ => name_of_type?

theorem mem_enumerations_iff {enum : EnumDecl} :
    enum ∈ index.enumerations ↔ index.enumeration? enum.qualified = some enum :=
  mem_filterMap_iff fun _ _ => name_of_enumeration?

theorem mem_components_iff {component : ComponentDecl} :
    component ∈ index.components ↔ index.component? component.qualified = some component :=
  mem_filterMap_iff fun _ _ => name_of_component?

theorem qualified_of_type? {name : String} {type : TypeDecl}
    (htype : index.type? name = some type) :
    type.qualified = name := by
  obtain ⟨entry, hget, hview⟩ := Option.bind_eq_some_iff.mp htype
  exact (name_of_type? hview).symm.trans (get?_eq_some_iff.mp hget).2

theorem qualified_of_enumeration? {name : String} {enum : EnumDecl}
    (henum : index.enumeration? name = some enum) : enum.qualified = name := by
  obtain ⟨entry, hget, hview⟩ := Option.bind_eq_some_iff.mp henum
  exact (name_of_enumeration? hview).symm.trans (get?_eq_some_iff.mp hget).2

theorem qualified_of_component? {name : String} {component : ComponentDecl}
    (hcomponent : index.component? name = some component) : component.qualified = name := by
  obtain ⟨entry, hget, hview⟩ := Option.bind_eq_some_iff.mp hcomponent
  exact (name_of_component? hview).symm.trans (get?_eq_some_iff.mp hget).2

/-! ## Nesting -/

/-- The first name is that of a type which is nested in the second. -/
def NestedIn (index : Index) (inner outer : String) : Prop :=
  ∃ type, index.type? inner = some type ∧ type.outer = some outer

theorem mem_nestedTypes_iff {inner outer : String} :
    inner ∈ index.nestedTypes outer ↔ index.NestedIn inner outer := by
  simp only [nestedTypes, List.mem_map, List.mem_filter, beq_iff_eq, mem_types_iff]
  constructor
  · rintro ⟨type, ⟨htype, houter⟩, rfl⟩
    exact ⟨type, htype, houter⟩
  · rintro ⟨type, htype, houter⟩
    obtain rfl := qualified_of_type? htype
    exact ⟨type, ⟨htype, houter⟩, rfl⟩

theorem enumeration?_of_mem_nestedEnumerations {inner outer : String}
    (hmem : inner ∈ index.nestedEnumerations outer) : (index.enumeration? inner).isSome := by
  obtain ⟨enum, henum, rfl⟩ := List.mem_map.mp hmem
  exact Option.isSome_of_mem (mem_enumerations_iff.mp (List.mem_filter.mp henum).1)

theorem NestedIn.exists_entry {inner outer : String} (hnested : index.NestedIn inner outer) :
    inner ∈ index.entries.map Entry.name := by
  obtain ⟨type, htype, -⟩ := hnested
  obtain ⟨entry, hget, -⟩ := Option.bind_eq_some_iff.mp htype
  obtain ⟨hentry, hname⟩ := get?_eq_some_iff.mp hget
  exact List.mem_map.mpr ⟨entry, hentry, hname⟩

/-! ## Trails -/

/-- The way in to a name: each member is nested in the next one, and none occurs twice. -/
structure Trail (index : Index) (path : List String) (name : String) : Prop where
  chain : List.IsChain index.NestedIn (name :: path)
  nodup : (name :: path).Nodup

namespace Trail

variable {path : List String} {name : String}

theorem start (index : Index) (name : String) : index.Trail [] name :=
  ⟨.singleton name, List.nodup_singleton name⟩

theorem enter (htrail : index.Trail path name) {child : String}
    (hnested : index.NestedIn child name) (hnew : child ∉ name :: path) :
    index.Trail (name :: path) child :=
  ⟨htrail.chain.cons_cons hnested, List.nodup_cons.mpr ⟨hnew, htrail.nodup⟩⟩

/-- A trail leads from its name to all its members. -/
theorem transGen_of_mem (htrail : index.Trail path name) {outer : String} (hmem : outer ∈ path) :
    Relation.TransGen index.NestedIn name outer := by
  obtain ⟨hchain, -⟩ := htrail
  induction path generalizing name with
  | nil => cases hmem
  | cons next path ih =>
    obtain ⟨hnested, hchain⟩ := List.isChain_cons_cons.mp hchain
    rcases List.mem_cons.mp hmem with rfl | hmem
    · exact .single hnested
    · exact (ih hmem hchain).head hnested

/-- No trail is longer than the index, since all its members but the last are declared. -/
theorem length_le (htrail : index.Trail path name) : path.length ≤ index.size := by
  obtain ⟨hchain, hnodup⟩ := htrail
  have hdeclared : (name :: path).dropLast ⊆ index.entries.map Entry.name := by
    clear hnodup
    induction path generalizing name with
    | nil => simp
    | cons next path ih =>
      obtain ⟨hnested, hchain⟩ := List.isChain_cons_cons.mp hchain
      rw [List.dropLast_cons_cons]
      exact List.cons_subset.mpr ⟨hnested.exists_entry, ih hchain⟩
  have hshort := (hnodup.sublist (List.dropLast_sublist _)).length_le_of_subset hdeclared
  simpa [size] using hshort

end Trail

/-! ## Nesting without cycles -/

/-- What is not nested without end is not nested in itself. -/
theorem not_transGen_of_acc {name : String} (hacc : Acc index.NestedIn name) :
    ¬Relation.TransGen index.NestedIn name name := by
  have hacc' := hacc.transGen
  induction hacc' with
  | intro name _ ih =>
    intro hcycle
    exact ih name hcycle (hacc.inv_of_transGen hcycle) hcycle

/-- Without cycles nothing is nested without end. -/
theorem acc_of_acyclic (hacyclic : ∀ name, ¬Relation.TransGen index.NestedIn name name)
    (name : String) : Acc index.NestedIn name := by
  have hbounded : ∀ fuel path name, index.Trail path name → index.size < fuel + path.length →
      Acc index.NestedIn name := by
    intro fuel
    induction fuel with
    | zero =>
      intro path name htrail hfuel
      have hlength := htrail.length_le
      omega
    | succ fuel ih =>
      intro path name htrail hfuel
      refine ⟨name, fun child hnested => ?_⟩
      have hnew : child ∉ name :: path := by
        intro hmem
        rcases List.mem_cons.mp hmem with rfl | hmem
        · exact hacyclic child (.single hnested)
        · exact hacyclic child ((htrail.transGen_of_mem hmem).head hnested)
      refine ih (name :: path) child (htrail.enter hnested hnew) ?_
      rw [List.length_cons]
      omega
  exact hbounded (index.size + 1) [] name (.start index name) (by simp)

end SchemaLoom.Index
