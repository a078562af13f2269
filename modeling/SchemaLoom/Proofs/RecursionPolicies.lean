import SchemaLoom.Proofs.KnownNames
import SchemaLoom.Proofs.NarrowerCodecs

/-!
# Recursion policies on the wire

Under the strict policy types lack their recursive fields, under the other one they keep those that
are collections.  All else is the same, so what is written under one policy can be read under the
other: recursive collections are empty where they were not written, and skipped where they are not
known.
-/

namespace SchemaLoom

open Wire

namespace Index

variable {index : Index}

/-! ## The fields under both policies -/

theorem kept?_judge_strict (target : String) (field : Field) :
    (index.judge .strict target field).kept? =
      (index.judge .keepCollections target field).kept?.filter (!·.recursive) := by
  unfold judge
  cases field.shape.traverse? Element.ofReference? with
  | none => rfl
  | some shape =>
    simp only
    cases index.reaches field.shape target <;> cases shape.isCollection <;> rfl

theorem mem_resolvableNames_of_declared {name : String} {declared : Declared}
    (hdeclared : index.declared name = .ok declared) : name ∈ index.resolvableNames := by
  rw [mem_resolvableNames_iff, IsType]
  unfold Index.declared at hdeclared
  cases hcomponent : index.component? name with
  | some component => exact .inr rfl
  | none =>
    cases htype : index.type? name with
    | some type => exact .inl rfl
    | none => simp [hcomponent, htype] at hdeclared

theorem resolveAll_eq_ok {config : GenerateConfig} {trees : List Resolved}
    (hresolve : (index.resolveAll config []).2 = .ok trees) (other : GenerateConfig) :
    (index.resolveAll other []).2 = .ok ((index.resolveAll other []).2.toOption.getD []) := by
  have hverdict : Outcome.verdict (index.resolveAll config []).2 =
      Outcome.verdict (index.resolveAll other []).2 :=
    resolveEach_config config other index.resolvableNames fun _ => Iff.rfl
  rw [hresolve, Outcome.verdict_ok] at hverdict
  obtain ⟨others, hothers⟩ := Outcome.verdict_eq_ok_iff.mp hverdict.symm
  rw [hothers]
  rfl

/-- Enumerations nested in a resolved type are declared. -/
theorem isEnumeration_of_resolveAll {config : GenerateConfig} {trees : List Resolved}
    (hresolve : (index.resolveAll config []).2 = .ok trees) :
    ∀ type ∈ Resolved.allOf trees, ∀ enum ∈ type.nestedEnums,
      index.IsEnumeration enum.qualified := by
  refine forall_mem_allOf_of_resolveAll (fun memo name tree hassemble => ?_) hresolve
  obtain ⟨declared, filtered, hassembled⟩ := exists_assembled hassemble
  intro enum henum
  obtain ⟨child, hchild, hresolved⟩ := Outcome.exists_left_of_mem hassembled.nestedEnums henum
  rw [qualified_of_resolveEnum hresolved]
  exact enumeration?_of_mem_nestedEnumerations hchild

end Index

namespace Resolution

/-- The same schema under a policy.  That it can be resolved does not depend on the policy. -/
def withPolicy (resolution : Resolution) (policy : RecursionPolicy) : Resolution where
  index := resolution.index
  config := { resolution.config with recursion := policy }
  trees :=
    (resolution.index.resolveAll { resolution.config with recursion := policy } []).2.toOption.getD
      []
  enums := resolution.enums
  resolveAll_eq := Index.resolveAll_eq_ok resolution.resolveAll_eq _
  resolveEnums_eq := resolution.resolveEnums_eq

variable (resolution : Resolution)

theorem exists_declared {typeName : String} {type : ResolvedType}
    (htype : resolution.codec.type typeName = .ok type) :
    ∃ declared, resolution.index.declared typeName = .ok declared ∧
      type.fields = (declared.fields.map
        (resolution.index.judge resolution.config.recursion declared.target)).filterMap
          Verdict.kept? := by
  obtain ⟨declared, filtered, hdeclared, hfiltered, hfields⟩ :=
    Index.builds_of_resolveAll resolution.resolveAll_eq type (Codec.mem_types_of_type_eq_ok htype)
  rw [Codec.qualified_of_type_eq_ok htype] at hdeclared
  obtain ⟨-, rfl⟩ := Index.filterFields_eq_ok_iff.mp hfiltered
  exact ⟨declared, hdeclared, hfields⟩

theorem type_eq_error {typeName : String} (hnew : typeName ∉ resolution.index.resolvableNames) :
    resolution.codec.type typeName = .error (.unknownType typeName) := by
  cases hfind : resolution.codec.types.find? (·.qualified == typeName) with
  | none => rw [Codec.type, hfind]
  | some type =>
    obtain ⟨declared, hdeclared, -⟩ :=
      resolution.exists_declared (Codec.type_eq_ok_iff.mpr hfind)
    exact absurd (Index.mem_resolvableNames_of_declared hdeclared) hnew

/-- The enumerations nested in types are found among all enumerations before. -/
theorem enum?_eq (name : String) :
    resolution.codec.enum? name = resolution.enums.find? (·.qualified == name) := by
  rw [enum?_eq_or]
  cases hfind : resolution.enums.find? (·.qualified == name) with
  | some enum => rfl
  | none =>
    rw [Option.none_or, List.find?_eq_none]
    intro enum henum hname
    obtain ⟨type, htype, hmem⟩ := List.mem_flatMap.mp henum
    have hdeclared :=
      Index.isEnumeration_of_resolveAll resolution.resolveAll_eq type htype enum hmem
    have hfound := resolution.isSome_find?_enums hdeclared
    rw [beq_iff_eq.mp hname, hfind] at hfound
    cases hfound

/-- The fields of a type under the two policies. -/
theorem fields_withPolicy (typeName : String) :
    ((resolution.withPolicy .strict).codec.type typeName).map (·.fields) =
      ((resolution.withPolicy .keepCollections).codec.type typeName).map
        fun type => type.fields.filter (!·.recursive) := by
  by_cases hname : typeName ∈ resolution.index.resolvableNames
  · obtain ⟨type, htype⟩ := (resolution.withPolicy .strict).exists_type hname
    obtain ⟨other, hother⟩ := (resolution.withPolicy .keepCollections).exists_type hname
    obtain ⟨declared, hdeclared, hfields⟩ := exists_declared _ htype
    obtain ⟨declared', hdeclared', hfields'⟩ := exists_declared _ hother
    obtain rfl : declared = declared' := Except.ok.inj (hdeclared.symm.trans hdeclared')
    have hkept : type.fields = other.fields.filter (!·.recursive) := by
      rw [hfields, hfields', List.filterMap_map, List.filterMap_map, List.filter_filterMap]
      congr 1
      funext field
      exact Index.kept?_judge_strict declared.target field
    rw [htype, hother]
    exact congrArg Except.ok hkept
  · have hnames : ∀ policy, typeName ∉ (resolution.withPolicy policy).index.resolvableNames :=
      fun _ => hname
    rw [type_eq_error _ (hnames _), type_eq_error _ (hnames _)]
    rfl

theorem narrows :
    (resolution.withPolicy .strict).codec.Narrows
      (resolution.withPolicy .keepCollections).codec where
  fields_eq := resolution.fields_withPolicy
  isCollection type htype field hfield hrecursive := by
    obtain ⟨declared, filtered, -, hfiltered, hfields⟩ := Index.builds_of_resolveAll
      (resolution.withPolicy .keepCollections).resolveAll_eq type htype
    rw [hfields] at hfield
    obtain ⟨raw, -, hjudge⟩ := (Index.mem_fields_iff hfiltered).mp hfield
    obtain ⟨shape, -, hkept, rfl⟩ := Index.judge_eq_keep_iff.mp hjudge
    exact (hkept hrecursive).1
  enum?_eq name := by rw [enum?_eq, enum?_eq]; rfl
  uniqueIds := (resolution.withPolicy .strict).nodup_ids
  wideUniqueIds := (resolution.withPolicy .keepCollections).nodup_ids

/-! ## From one policy to the other -/

/-- The policies are compatible on the wire.  The strict fields of a type are those of the other
policy that are not recursive.  A record that conforms under the strict policy is read under the
other one with empty collections added, and a record that conforms under the other policy is read
under the strict one without its recursive fields, if the keys of its maps are apart without them.
Either holds at every depth, also inside the keys of maps. -/
theorem decode_across_policies (resolution : Resolution) (typeName : String) :
    let strict := (resolution.withPolicy .strict).codec
    let keep := (resolution.withPolicy .keepCollections).codec
    (strict.type typeName).map (·.fields) =
        (keep.type typeName).map (fun type => type.fields.filter (!·.recursive)) ∧
      (∀ record : Record, record.obeys strict (.conforming strict) typeName →
        ∃ object, strict.encode typeName record .empty = (object, .ok ()) ∧
          keep.decode typeName object = .ok (Record.fit keep typeName record)) ∧
      ∀ record : Record, record.obeys keep (.conforming keep) typeName →
        (Record.fit strict typeName record).obeys strict .apart typeName →
          ∃ object, keep.encode typeName record .empty = (object, .ok ()) ∧
            strict.decode typeName object = .ok (Record.fit strict typeName record) := by
  intro strict keep
  refine ⟨resolution.fields_withPolicy typeName, fun record hconforming => ?_,
    fun record hconforming hapart => ?_⟩
  · exact resolution.narrows.decode_wide hconforming
  · exact resolution.narrows.decode_narrow hconforming hapart

/-- Nodes in a list and as the keys of a map. -/
def forest : TypeDecl :=
  .declare "shapes.Forest"
    [.list "trees" 1 (.named "shapes.Node"),
      .map "names" 2 (.named "shapes.Node") (.scalar .string)]

def forestIndex : Index where
  entries :=
    [⟨⟨"shapes/shapes.schema", "shapes"⟩, .type forest⟩,
      ⟨⟨"shapes/shapes.schema", "shapes"⟩, .enumeration Sample.Shapes.mode⟩,
      ⟨⟨"shapes/shapes.schema", "shapes"⟩, .type Sample.Shapes.node⟩]
  ascending := by decide

def ofForest : Resolution where
  index := forestIndex
  config := {}
  trees := (forestIndex.resolveAll {} []).2.toOption.getD []
  enums := forestIndex.resolveEnums.toOption.getD []
  resolveAll_eq := rfl
  resolveEnums_eq := rfl

/-- A node with children; without any it is a leaf. -/
def branch (text : String) (children : List Record) : Record :=
  [(1, .singular (label text)), (2, .list (children.map .record)), (3, .map []),
    (5, .singular (.atom (.scalar (.double ⟨0⟩)))), (6, .map [])]

/-- A node as the strict policy knows it. -/
def stump (text : String) : Record :=
  [(1, .singular (label text)), (5, .singular (.atom (.scalar (.double ⟨0⟩)))), (6, .map [])]

def forestOf (tree : Record) (named : List (Record × String)) : Record :=
  [(1, .list [.record tree]), (2, .map (named.map fun entry => (.record entry.1, label entry.2)))]

theorem decode_across_policies_forest :
    let strict := (ofForest.withPolicy .strict).codec
    let keep := (ofForest.withPolicy .keepCollections).codec
    let bare := forestOf (stump "oak") [(stump "oak", "a"), (stump "elm", "b")]
    let leafy := forestOf (branch "oak" []) [(branch "oak" [], "a"), (branch "elm" [], "b")]
    let full := forestOf (branch "oak" [branch "twig" []])
      [(branch "oak" [branch "twig" []], "a"), (branch "elm" [branch "twig" []], "b")]
    ((strict.type "shapes.Node").map fun type => type.fields.map (·.id)) = .ok [1, 5, 6] ∧
      bare.obeys strict (.conforming strict) "shapes.Forest" ∧
      keep.decode "shapes.Forest" (strict.encode "shapes.Forest" bare .empty).1 = .ok leafy ∧
      full.obeys keep (.conforming keep) "shapes.Forest" ∧
      bare.obeys strict .apart "shapes.Forest" ∧
      strict.decode "shapes.Forest" (keep.encode "shapes.Forest" full .empty).1 = .ok bare := by
  intro strict keep bare leafy full
  have hbare : bare.obeys strict (.conforming strict) "shapes.Forest" := by decide +kernel
  have hfull : full.obeys keep (.conforming keep) "shapes.Forest" := by decide +kernel
  have hapart : bare.obeys strict .apart "shapes.Forest" := by decide +kernel
  have hadded : Record.fit keep "shapes.Forest" bare = leafy := by with_unfolding_all rfl
  have hrestricted : Record.fit strict "shapes.Forest" full = bare := by with_unfolding_all rfl
  obtain ⟨-, hwide, hnarrow⟩ := ofForest.decode_across_policies "shapes.Forest"
  obtain ⟨object, hobject, hread⟩ := hwide bare hbare
  obtain ⟨object', hobject', hread'⟩ := hnarrow full hfull (hrestricted ▸ hapart)
  refine ⟨rfl, hbare, ?_, hfull, hapart, ?_⟩
  · rw [hobject, ← hadded]
    exact hread
  · rw [hobject', ← hrestricted]
    exact hread'

end Resolution

end SchemaLoom
