import SchemaLoom.Proofs.Reading
import SchemaLoom.Proofs.WellFormedness

/-!
# Names the codec knows

Fields that passed their check refer to declared types and enumerations only, and all of these are
resolved.  So the codec of a resolution knows every type and every component, and whatever a field
of a known type holds.
-/

namespace SchemaLoom

open Wire

namespace Codec

/-- The codec knows what the element is named after. -/
def Knows (codec : Codec) : Element → Prop
  | .scalar _ => True
  | .enumeration name => (codec.enum? name).isSome
  | .named name => ∃ type, codec.type name = .ok type

/-- Whatever a field of a known type holds is known as well. -/
def Closed (codec : Codec) : Prop :=
  ∀ type ∈ codec.types, ∀ field ∈ type.fields, ∀ element ∈ field.shape.elements,
    codec.Knows element

theorem exists_type_of_mem {codec : Codec} {type : ResolvedType} (hmem : type ∈ codec.types) :
    ∃ found, codec.type type.qualified = .ok found := by
  have hsome : (codec.types.find? (·.qualified == type.qualified)).isSome :=
    List.find?_isSome.mpr ⟨type, hmem, by simp⟩
  obtain ⟨found, hfound⟩ := Option.isSome_iff_exists.mp hsome
  exact ⟨found, type_eq_ok_iff.mpr hfound⟩

end Codec

/-- An element of a resolved field stands for a declared reference. -/
theorem Index.declares_of_mem_elements {index : Index} {config : GenerateConfig}
    {trees : List Resolved} (hresolve : (index.resolveAll config []).2 = .ok trees)
    {type : ResolvedType} (htype : type ∈ Resolved.allOf trees) {field : ResolvedField}
    (hfield : field ∈ type.fields) {element : Element} (helement : element ∈ field.shape.elements) :
    ∃ reference, Element.ofReference? reference = some element ∧ index.Declares reference := by
  obtain ⟨declared, filtered, -, hfiltered, hfields⟩ := builds_of_resolveAll hresolve type htype
  rw [hfields] at hfield
  obtain ⟨raw, hraw, hjudge⟩ := (mem_fields_iff hfiltered).mp hfield
  obtain ⟨shape, htraverse, -, rfl⟩ := judge_eq_keep_iff.mp hjudge
  obtain ⟨reference, hreference, hnamed⟩ := Shape.mem_elements_of_traverse? htraverse helement
  have hfit := checkFields_eq_ok_iff_fieldsFit.mp (filterFields_eq_ok_iff.mp hfiltered).1
  exact ⟨reference, hnamed, hfit.references raw hraw reference hreference⟩

theorem Index.qualified_of_resolveEnum {index : Index} {name : String} {enum : ResolvedEnum}
    (hresolve : index.resolveEnum name = .ok enum) : enum.qualified = name := by
  rw [resolveEnum] at hresolve
  split at hresolve
  · next decl source hdecl hsource =>
    split at hresolve
    · cases hresolve
    · split at hresolve
      · cases hresolve
      · cases hresolve
        exact qualified_of_enumeration? hdecl
  · cases hresolve

theorem Index.values_of_resolveEnum {index : Index} {name : String} {enum : ResolvedEnum}
    (hresolve : index.resolveEnum name = .ok enum) :
    ∃ decl, index.enumeration? name = some decl ∧ enum.qualified = name ∧
      enum.name = decl.name ∧ enum.values = decl.values ∧ decl.values ≠ [] := by
  have hqualified := qualified_of_resolveEnum hresolve
  rw [resolveEnum] at hresolve
  split at hresolve
  · next decl source hdecl hsource =>
    split at hresolve
    · cases hresolve
    · next hvalues =>
      split at hresolve
      · cases hresolve
      · cases hresolve
        exact ⟨decl, hdecl, hqualified, rfl, rfl, by simpa using hvalues⟩
  · cases hresolve

/-- The default of an enumeration is one of its values. -/
theorem ResolvedEnum.mem_of_default? {decl : ResolvedEnum} {value : EnumValue}
    (hdefault : decl.default? = some value) : value ∈ decl.values := by
  rcases Option.or_eq_some_iff.mp hdefault with hfind | ⟨-, hhead⟩
  · exact List.mem_of_find?_eq_some hfind
  · exact List.mem_of_head? hhead

theorem ResolvedEnum.exists_default? {decl : ResolvedEnum} (hvalues : decl.values ≠ []) :
    ∃ value, decl.default? = some value := by
  rw [ResolvedEnum.default?, EnumValue.default?]
  cases decl.values.find? (·.value == 0) with
  | some value => exact ⟨value, rfl⟩
  | none => exact ⟨_, List.head?_eq_some_head hvalues⟩

namespace Resolution

variable (resolution : Resolution)

/-- The codec knows every type and component. -/
theorem exists_type {name : String} (hname : name ∈ resolution.index.resolvableNames) :
    ∃ type, resolution.codec.type name = .ok type := by
  have htrees : List.Forall₂ (fun name tree => tree.type.qualified = name)
      resolution.index.resolvableNames resolution.trees :=
    Memo.All.resolveEach (fun _ _ _ _ hassemble => (Index.exists_of_assemble_eq_ok hassemble).1)
      resolution.index.resolvableNames (by simp [Memo.All]) resolution.resolveAll_eq
  obtain ⟨tree, htree, rfl⟩ := Outcome.exists_right_of_mem htrees hname
  refine Codec.exists_type_of_mem (Resolved.mem_allOf_iff.mpr ⟨tree, htree, ?_⟩)
  rw [Resolved.all_eq]
  exact List.mem_cons_self

/-- Every declared enumeration is among the resolved ones. -/
theorem isSome_find?_enums {name : String} (hname : resolution.index.IsEnumeration name) :
    (resolution.enums.find? (·.qualified == name)).isSome := by
  obtain ⟨decl, hdecl⟩ := Option.isSome_iff_exists.mp hname
  obtain rfl := Index.qualified_of_enumeration? hdecl
  obtain ⟨enum, henum, hresolved⟩ := Outcome.exists_right_of_mem
    (Outcome.mapM_eq_ok_iff.mp resolution.resolveEnums_eq) (Index.mem_enumerations_iff.mpr hdecl)
  refine List.find?_isSome.mpr ⟨enum, henum, ?_⟩
  rw [Index.qualified_of_resolveEnum hresolved]
  exact beq_self_eq_true _

theorem enum?_eq_or (name : String) :
    resolution.codec.enum? name =
      (resolution.enums.find? (·.qualified == name)).or
        ((resolution.codec.types.flatMap (·.nestedEnums)).find? (·.qualified == name)) :=
  List.find?_append

theorem isSome_enum? {name : String} (hname : resolution.index.IsEnumeration name) :
    (resolution.codec.enum? name).isSome := by
  rw [enum?_eq_or, Option.isSome_or, resolution.isSome_find?_enums hname]
  rfl

theorem closed : resolution.codec.Closed := by
  intro type htype field hfield element helement
  obtain ⟨reference, hreference, hdeclares⟩ :=
    Index.declares_of_mem_elements resolution.resolveAll_eq htype hfield helement
  cases reference with
  | primitive kind =>
    obtain ⟨scalar, -, rfl⟩ := Option.map_eq_some_iff.mp hreference
    exact trivial
  | enumeration name =>
    cases hreference
    exact resolution.isSome_enum? hdeclares
  | named name =>
    cases hreference
    exact resolution.exists_type (Index.mem_resolvableNames_iff.mpr (.inl hdeclares))

end Resolution

end SchemaLoom
