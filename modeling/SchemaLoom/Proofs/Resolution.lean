import SchemaLoom.Proofs.FieldFilter
import SchemaLoom.Record.Codec
import SchemaLoom.Resolved.Resolver
import SchemaLoom.Sample.Shapes

/-!
# What resolution builds

Everything in the memo was assembled from a memo in which the same held already.  So what assembling
establishes holds of every resolved type, also of the nested ones.  A resolution keeps an index
together with the proof that all of it could be resolved; its codec has no type with two fields of
one number.
-/

namespace SchemaLoom

/-! ## Assembling -/

/-- The fields of a resolved type are those of its declaration that were kept. -/
def Index.Builds (index : Index) (config : GenerateConfig) (type : ResolvedType) : Prop :=
  ∃ declared filtered, index.declared type.qualified = .ok declared ∧
    index.filterFields config.recursion declared.target declared.fields = .ok filtered ∧
      type.fields = filtered.fields

/-- What an assembled tree was put together from. -/
structure Index.Assembled (index : Index) (config : GenerateConfig) (memo : Memo) (name : String)
    (tree : Resolved) (declared : Declared) (filtered : Filtered) : Prop where
  declared_eq : index.declared name = .ok declared
  checkPayloads_eq : index.checkPayloads name declared = .ok ()
  filterFields_eq :
    index.filterFields config.recursion declared.target declared.fields = .ok filtered
  nested : List.Forall₂ (fun child nested => memo.get? child = some nested)
    (index.nestedTypes name) tree.nested
  nestedEnums : List.Forall₂ (fun child enum => index.resolveEnum child = .ok enum)
    (index.nestedEnumerations name) tree.type.nestedEnums
  qualified_eq : tree.type.qualified = name
  name_eq : tree.type.name = declared.name
  fields_eq : tree.type.fields = filtered.fields
  omitted_eq : tree.type.omitted = filtered.omitted
  warnings_eq : tree.type.warnings = filtered.warnings
  events_eq : tree.type.events = declared.events
  commands_eq : tree.type.commands = declared.commands

theorem Index.exists_assembled {index : Index} {config : GenerateConfig} {memo : Memo}
    {name : String} {tree : Resolved} (hassemble : index.assemble config memo name = .ok tree) :
    ∃ declared filtered, index.Assembled config memo name tree declared filtered := by
  unfold assemble at hassemble
  obtain ⟨declared, hdeclared, hassemble⟩ := Outcome.bind_eq_ok_iff.mp hassemble
  obtain ⟨⟨⟩, hpayloads, hassemble⟩ := Outcome.bind_eq_ok_iff.mp hassemble
  obtain ⟨filtered, hfiltered, hassemble⟩ := Outcome.bind_eq_ok_iff.mp hassemble
  obtain ⟨nested, hnested, hassemble⟩ := Outcome.bind_eq_ok_iff.mp hassemble
  obtain ⟨nestedEnums, henums, hassemble⟩ := Outcome.bind_eq_ok_iff.mp hassemble
  have hremembered : List.Forall₂ (fun child nested => memo.get? child = some nested)
      (index.nestedTypes name) nested := by
    refine (Outcome.mapM_eq_ok_iff.mp hnested).imp fun child resolved hchild => ?_
    cases hget : memo.get? child with
    | none =>
      rw [hget] at hchild
      cases hchild
    | some known =>
      rw [hget] at hchild
      cases hchild
      rfl
  cases hsource : index.source? name with
  | none =>
    rw [hsource] at hassemble
    cases hassemble
  | some source =>
    rw [hsource] at hassemble
    cases hassemble
    exact ⟨declared, filtered, hdeclared, hpayloads, hfiltered, hremembered,
      Outcome.mapM_eq_ok_iff.mp henums, rfl, rfl, rfl, rfl, rfl, rfl, rfl⟩

theorem Index.exists_of_assemble_eq_ok {index : Index} {config : GenerateConfig} {memo : Memo}
    {name : String} {tree : Resolved} (hassemble : index.assemble config memo name = .ok tree) :
    tree.type.qualified = name ∧ index.Builds config tree.type ∧
      List.Forall₂ (fun child nested => memo.get? child = some nested)
        (index.nestedTypes name) tree.nested := by
  obtain ⟨declared, filtered, hassembled⟩ := exists_assembled hassemble
  have hdeclared : index.declared tree.type.qualified = .ok declared := by
    rw [hassembled.qualified_eq, hassembled.declared_eq]
  exact ⟨hassembled.qualified_eq,
    ⟨declared, filtered, hdeclared, hassembled.filterFields_eq, hassembled.fields_eq⟩,
    hassembled.nested⟩

/-! ## What holds of the memo -/

namespace Memo

/-- Something holds of every name of the memo and what is remembered under it. -/
def All (holds : String → Resolved → Prop) (memo : Memo) : Prop :=
  ∀ entry ∈ memo, holds entry.1 entry.2

variable {holds : String → Resolved → Prop} {memo : Memo}

theorem All.of_get? (hall : All holds memo) {name : String} {tree : Resolved}
    (hget : memo.get? name = some tree) : holds name tree := by
  obtain ⟨entry, hfind, rfl⟩ := Option.map_eq_some_iff.mp hget
  have hname : entry.1 = name := by simpa using List.find?_some hfind
  exact hname ▸ hall entry (List.mem_of_find?_eq_some hfind)

theorem All.insert (hall : All holds memo) {name : String} {tree : Resolved}
    (hnew : holds name tree) : All holds (memo.insert name tree) := by
  induction memo with
  | nil => simpa [Memo.insert, All] using hnew
  | cons entry rest ih =>
    obtain ⟨hentry, hrest⟩ := List.forall_mem_cons.mp hall
    rw [Memo.insert]
    split
    · exact List.forall_mem_cons.mpr ⟨hnew, hrest⟩
    · split
      · exact List.forall_mem_cons.mpr ⟨hnew, hall⟩
      · exact List.forall_mem_cons.mpr ⟨hentry, ih hrest⟩

end Memo

section Invariant

variable {index : Index} {config : GenerateConfig} {holds : String → Resolved → Prop}

theorem Memo.All.attemptAll {step : String → Memo → Attempt Unit}
    (hstep : ∀ name memo, Memo.All holds memo → Memo.All holds (step name memo).1)
    (names : List String) {memo : Memo} (hall : Memo.All holds memo) :
    Memo.All holds (attemptAll step names memo).1 := by
  induction names generalizing memo with
  | nil => exact hall
  | cons name names ih =>
    have hfirst := hstep name memo hall
    rw [SchemaLoom.attemptAll]
    split
    · next heq =>
      rw [heq] at hfirst
      exact ih hfirst
    · next heq =>
      rw [heq] at hfirst
      exact hfirst

/-- What assembling establishes from the memo holds of the memo after every attempt, also after one
that fails. -/
theorem Memo.All.settle
    (hassemble : ∀ memo name tree, Memo.All holds memo →
      index.assemble config memo name = .ok tree → holds name tree)
    (fuel : Nat) (path : List String) (name : String) {memo : Memo} (hall : Memo.All holds memo) :
    Memo.All holds (index.settle config fuel path name memo).1 := by
  induction fuel generalizing path name memo with
  | zero => exact hall
  | succ fuel ih =>
    rw [Index.settle]
    split
    · exact hall
    · simp only
      split
      · exact hall
      · have hchildren := Memo.All.attemptAll
          (fun child memo hall => ih (name :: path) child hall) (index.nestedTypes name).reverse hall
        split
        · next heq =>
          rw [heq] at hchildren
          exact hchildren
        · next heq =>
          rw [heq] at hchildren
          split
          · exact hchildren
          · next htree => exact hchildren.insert (hassemble _ _ _ hchildren htree)

theorem Memo.All.resolve
    (hassemble : ∀ memo name tree, Memo.All holds memo →
      index.assemble config memo name = .ok tree → holds name tree)
    (name : String) {memo : Memo} (hall : Memo.All holds memo) :
    Memo.All holds (index.resolve config name memo).1 ∧
      ∀ tree, (index.resolve config name memo).2 = .ok tree → holds name tree := by
  have hsettled := Memo.All.settle hassemble (index.size + 2) [] name hall
  rw [Index.resolve]
  split
  · next heq =>
    rw [heq] at hsettled
    exact ⟨hsettled, fun tree hfailed => by cases hfailed⟩
  · next heq =>
    rw [heq] at hsettled
    split
    · next resolved hget =>
      refine ⟨hsettled, fun tree hok => ?_⟩
      cases hok
      exact hsettled.of_get? hget
    · exact ⟨hsettled, fun tree hfailed => by cases hfailed⟩

/-- The trees of several names, in the order of the names. -/
theorem Memo.All.resolveEach
    (hassemble : ∀ memo name tree, Memo.All holds memo →
      index.assemble config memo name = .ok tree → holds name tree)
    (names : List String) {memo : Memo} (hall : Memo.All holds memo) {trees : List Resolved}
    (hresolve : (index.resolveEach config names memo).2 = .ok trees) :
    List.Forall₂ holds names trees := by
  induction names generalizing memo trees with
  | nil =>
    cases hresolve
    exact .nil
  | cons name names ih =>
    obtain ⟨hmemo, htree⟩ := Memo.All.resolve hassemble name hall
    rw [Index.resolveEach] at hresolve
    split at hresolve
    · cases hresolve
    · next heq =>
      rw [heq] at hmemo htree
      split at hresolve
      · next hrest =>
        cases hresolve
        exact .cons (htree _ rfl) (ih hmemo (by rw [hrest]))
      · cases hresolve

end Invariant

/-! ## All resolved types -/

theorem Resolved.mem_allOf_iff {trees : List Resolved} {type : ResolvedType} :
    type ∈ allOf trees ↔ ∃ tree ∈ trees, type ∈ tree.all := by
  induction trees with
  | nil => simp [allOf]
  | cons tree rest ih => simp [allOf, ih]

theorem Resolved.all_eq (tree : Resolved) : tree.all = tree.type :: allOf tree.nested := by
  cases tree
  rfl

section Types

variable {index : Index} {config : GenerateConfig} {holds : ResolvedType → Prop}

/-- What holds of the type of every assembled tree holds of the types nested in it as well. -/
theorem Index.forall_mem_all_of_assemble
    (hholds : ∀ memo name tree, index.assemble config memo name = .ok tree → holds tree.type)
    (memo : Memo) (name : String) (tree : Resolved)
    (hmemo : Memo.All (fun _ tree => ∀ type ∈ tree.all, holds type) memo)
    (hassemble : index.assemble config memo name = .ok tree) : ∀ type ∈ tree.all, holds type := by
  obtain ⟨-, -, hnested⟩ := Index.exists_of_assemble_eq_ok hassemble
  intro type htype
  rw [Resolved.all_eq] at htype
  rcases List.mem_cons.mp htype with rfl | htype
  · exact hholds memo name tree hassemble
  · obtain ⟨child, hchild, htype⟩ := Resolved.mem_allOf_iff.mp htype
    obtain ⟨childName, -, hget⟩ := Outcome.exists_left_of_mem hnested hchild
    exact hmemo.of_get? hget type htype

/-- When everything could be resolved, what assembling establishes holds of every resolved type. -/
theorem Index.forall_mem_allOf_of_resolveAll
    (hholds : ∀ memo name tree, index.assemble config memo name = .ok tree → holds tree.type)
    {trees : List Resolved} (hresolve : (index.resolveAll config []).2 = .ok trees) :
    ∀ type ∈ Resolved.allOf trees, holds type := by
  intro type htype
  have htrees := Memo.All.resolveEach (Index.forall_mem_all_of_assemble hholds)
    index.resolvableNames (by simp [Memo.All]) hresolve
  obtain ⟨tree, htree, htype⟩ := Resolved.mem_allOf_iff.mp htype
  obtain ⟨name, -, hall⟩ := Outcome.exists_left_of_mem htrees htree
  exact hall type htype

/-- When everything could be resolved, every resolved type was built from its declaration. -/
theorem Index.builds_of_resolveAll {trees : List Resolved}
    (hresolve : (index.resolveAll config []).2 = .ok trees) :
    ∀ type ∈ Resolved.allOf trees, index.Builds config type := by
  refine Index.forall_mem_allOf_of_resolveAll (fun memo name tree hassemble => ?_) hresolve
  exact (Index.exists_of_assemble_eq_ok hassemble).2.1

end Types

/-! ## Resolutions -/

/-- An index all of whose types, components and enumerations can be resolved under a configuration,
with what they resolve to. -/
structure Resolution where
  index : Index
  config : GenerateConfig
  trees : List Resolved
  enums : List ResolvedEnum
  resolveAll_eq : (index.resolveAll config []).2 = .ok trees
  resolveEnums_eq : index.resolveEnums = .ok enums

namespace Resolution

/-- The codec of everything that was resolved. -/
def codec (resolution : Resolution) : Codec :=
  .ofResolved resolution.trees resolution.enums

/-- The fields of every type of the codec have different numbers. -/
theorem nodup_ids (resolution : Resolution) :
    ∀ type ∈ resolution.codec.types, (type.fields.map (·.id)).Nodup := by
  intro type htype
  obtain ⟨declared, filtered, -, hfiltered, hfields⟩ :=
    Index.builds_of_resolveAll resolution.resolveAll_eq type htype
  rw [hfields]
  exact Index.nodup_ids_of_filterFields hfiltered

/-- The enumeration and the recursive node of the sample of all shapes, on their own. -/
def nodeIndex : Index where
  entries :=
    [⟨⟨"shapes/shapes.schema", "shapes"⟩, .enumeration Sample.Shapes.mode⟩,
      ⟨⟨"shapes/shapes.schema", "shapes"⟩, .type Sample.Shapes.node⟩]
  ascending := by decide

/-- Nodes that may hold lists and maps of nodes. -/
def ofNodes : Resolution where
  index := nodeIndex
  config := { recursion := .keepCollections }
  trees := (nodeIndex.resolveAll { recursion := .keepCollections } []).2.toOption.getD []
  enums := nodeIndex.resolveEnums.toOption.getD []
  resolveAll_eq := rfl
  resolveEnums_eq := rfl

/-- A text as an element. -/
def label (text : String) : Value := .atom (.scalar (.string text))

/-- A node without children. -/
def leaf (text : String) (weight : Number.Binary64) : Record :=
  [(1, .singular (label text)), (2, .list []), (3, .map []),
    (5, .singular (.atom (.scalar (.double weight)))), (6, .map [])]

end Resolution

end SchemaLoom
