import SchemaLoom.Proofs.Acyclicity
import SchemaLoom.Proofs.Memoization

/-!
# Which schemas can be resolved

A schema is well formed if nesting has no cycle, everything that is referred to is declared, and the
numbers of fields and the values of enumerations are different.  Exactly these schemas are accepted.
The configuration decides which fields are kept, but neither acceptance nor the failure depends on
it.
-/

namespace SchemaLoom.Index

variable {index : Index} {config : GenerateConfig} {name : String}

/-! ## Well-formed schemas -/

/-- The name is that of a type. -/
def IsType (index : Index) (name : String) : Prop :=
  (index.type? name).isSome

theorem NestedIn.isType {inner outer : String} (hnested : index.NestedIn inner outer) :
    index.IsType inner := by
  obtain ⟨type, htype, -⟩ := hnested
  exact Option.isSome_of_mem htype

/-- The name is that of an enumeration. -/
def IsEnumeration (index : Index) (name : String) : Prop :=
  (index.enumeration? name).isSome

/-- What is referred to by name is declared, as the sort of thing it is taken for. -/
def Declares (index : Index) : Reference → Prop
  | .primitive _ => True
  | .enumeration name => index.IsEnumeration name
  | .named name => index.IsType name

/-- The fields have different numbers and refer to what is declared, also those that are dropped. -/
structure FieldsFit (index : Index) (fields : List Field) : Prop where
  ids : (fields.map (·.id)).Nodup
  references : ∀ field ∈ fields, ∀ reference ∈ field.references, index.Declares reference

/-- The fields that count for a component: those of its data definition if it has one, else its
own. -/
def fieldsOf (index : Index) (component : ComponentDecl) : List Field :=
  match component.dataDefinition with
  | none => component.fields
  | some data => ((index.type? data).map (·.fields)).getD []

/-- Every payload of an event, request and response is a type. -/
structure PayloadsFit (index : Index) (events : List Event) (commands : List Command) : Prop where
  events : ∀ event ∈ events, index.IsType event.payload
  commands : ∀ command ∈ commands, index.IsType command.request ∧ index.IsType command.response

/-- There is a value, and no value occurs twice. -/
structure ValuesFit (values : List EnumValue) : Prop where
  nonempty : values ≠ []
  distinct : (values.map (·.value)).Nodup

structure WellFormed (index : Index) : Prop where
  acyclic : ∀ name, ¬Relation.TransGen index.NestedIn name name
  data : ∀ component ∈ index.components, ∀ data, component.dataDefinition = some data →
    index.IsType data
  payloads : ∀ component ∈ index.components,
    index.PayloadsFit component.events component.commands
  types : ∀ type ∈ index.types, index.FieldsFit type.fields
  components : ∀ component ∈ index.components, index.FieldsFit (index.fieldsOf component)
  enumerations : ∀ enum ∈ index.enumerations, ValuesFit enum.values

/-! ## Checks -/

theorem checkReference_eq_ok_iff {target : String} {reference : Reference} :
    index.checkReference target reference = .ok () ↔ index.Declares reference := by
  cases reference with
  | primitive kind => simp [checkReference, Declares]
  | enumeration name =>
    rw [checkReference, checkEnum, Declares, IsEnumeration]
    split <;> simp_all
  | named name => exact checkType_eq_ok_iff

theorem checkFields_eq_ok_iff_fieldsFit {target : String} {fields : List Field} :
    index.checkFields target [] fields = .ok () ↔ index.FieldsFit fields := by
  simp only [checkFields_eq_ok_iff, checkReference_eq_ok_iff]
  constructor
  · rintro ⟨-, hids, hreferences⟩
    exact ⟨List.pairwise_map.mpr hids, hreferences⟩
  · rintro ⟨hids, hreferences⟩
    exact ⟨by simp, List.pairwise_map.mp hids, hreferences⟩

theorem checkPayloads_eq_ok_iff {declared : Declared} :
    index.checkPayloads name declared = .ok () ↔
      index.PayloadsFit declared.events declared.commands := by
  have hcommand : ∀ command : Command,
      (index.checkType name command.request >>= fun _ => index.checkType name command.response) =
        .ok () ↔ index.IsType command.request ∧ index.IsType command.response := by
    intro command
    rw [Outcome.bind_eq_ok_iff, IsType, IsType, ← checkType_eq_ok_iff, ← checkType_eq_ok_iff]
    constructor
    · rintro ⟨⟨⟩, hrequest, hresponse⟩
      exact ⟨hrequest, hresponse⟩
    · rintro ⟨hrequest, hresponse⟩
      exact ⟨(), hrequest, hresponse⟩
  constructor
  · intro hchecked
    obtain ⟨⟨⟩, hevents, hcommands⟩ := Outcome.bind_eq_ok_iff.mp hchecked
    refine ⟨fun event hevent => ?_, fun command hmem => ?_⟩
    · exact checkType_eq_ok_iff.mp (Outcome.forM_eq_ok_iff.mp hevents event hevent)
    · exact (hcommand command).mp (Outcome.forM_eq_ok_iff.mp hcommands command hmem)
  · rintro ⟨hevents, hcommands⟩
    refine Outcome.bind_eq_ok_iff.mpr ⟨(), ?_, ?_⟩
    · exact Outcome.forM_eq_ok_iff.mpr fun event hevent =>
        checkType_eq_ok_iff.mpr (hevents event hevent)
    · exact Outcome.forM_eq_ok_iff.mpr fun command hmem =>
        (hcommand command).mpr (hcommands command hmem)

theorem firstRepeatedValue_eq_none_iff {seen : List UInt32} {values : List EnumValue} :
    firstRepeatedValue seen values = none ↔
      (values.map (·.value)).Nodup ∧ ∀ value ∈ values, value.value ∉ seen := by
  induction values generalizing seen with
  | nil => simp [firstRepeatedValue]
  | cons value values ih =>
    rw [firstRepeatedValue]
    split
    · next hseen => simp_all
    · next hnew =>
      have hnew' : value.value ∉ seen := by simpa using hnew
      rw [ih, List.map_cons, List.nodup_cons, List.forall_mem_cons]
      simp only [List.mem_map, List.mem_cons, not_or, not_exists, not_and]
      constructor
      · rintro ⟨hdistinct, hvalues⟩
        exact ⟨⟨fun other hother => (hvalues other hother).1, hdistinct⟩, hnew',
          fun other hother => (hvalues other hother).2⟩
      · rintro ⟨⟨hvalue, hdistinct⟩, -, hvalues⟩
        exact ⟨hdistinct, fun other hother => ⟨hvalue other hother, hvalues other hother⟩⟩

theorem exists_resolveEnum_iff :
    (∃ enum, index.resolveEnum name = .ok enum) ↔
      ∃ decl, index.enumeration? name = some decl ∧ ValuesFit decl.values := by
  rw [resolveEnum]
  cases hdecl : index.enumeration? name with
  | none => simp
  | some decl =>
    obtain ⟨entry, hget, -⟩ := Option.bind_eq_some_iff.mp hdecl
    have hsource : index.source? name = some entry.source := by rw [source?, hget]; rfl
    have hfit : ValuesFit decl.values ↔
        decl.values.isEmpty = false ∧ firstRepeatedValue [] decl.values = none := by
      rw [firstRepeatedValue_eq_none_iff, List.isEmpty_eq_false_iff]
      constructor
      · rintro ⟨hnonempty, hdistinct⟩
        exact ⟨hnonempty, hdistinct, by simp⟩
      · rintro ⟨hnonempty, hdistinct, -⟩
        exact ⟨hnonempty, hdistinct⟩
    simp only [hsource, Option.some.injEq, exists_eq_left', hfit]
    cases decl.values.isEmpty <;> cases firstRepeatedValue [] decl.values <;> simp

/-! ## Assembling a declaration -/

/-- The enumerations nested in the declaration can be resolved. -/
def NestedEnumsFit (index : Index) (name : String) : Prop :=
  ∀ enum ∈ index.nestedEnumerations name, ∃ resolved, index.resolveEnum enum = .ok resolved

/-- Nothing but unknown nested types can keep the declaration from being assembled. -/
def Fit (index : Index) (name : String) : Prop :=
  ∃ declared, index.declared name = .ok declared ∧
    index.PayloadsFit declared.events declared.commands ∧ index.FieldsFit declared.fields ∧
      index.NestedEnumsFit name

theorem exists_source?_of_declared {declared : Declared}
    (hdeclared : index.declared name = .ok declared) :
    ∃ source, index.source? name = some source := by
  cases hget : index.get? name with
  | none => simp [Index.declared, component?, type?, hget] at hdeclared
  | some entry => exact ⟨entry.source, by rw [source?, hget]; rfl⟩

theorem exists_assemble_iff {memo : Memo} :
    (∃ tree, index.assemble config memo name = .ok tree) ↔
      index.Fit name ∧ ∀ child ∈ index.nestedTypes name, memo.Knows child := by
  constructor
  · rintro ⟨tree, hassemble⟩
    refine ⟨?_, knows_of_assemble hassemble⟩
    obtain ⟨declared, filtered, hassembled⟩ := exists_assembled hassemble
    have hchecked := (filterFields_eq_ok_iff.mp hassembled.filterFields_eq).1
    refine ⟨declared, hassembled.declared_eq,
      checkPayloads_eq_ok_iff.mp hassembled.checkPayloads_eq,
      checkFields_eq_ok_iff_fieldsFit.mp hchecked, fun enum henum => ?_⟩
    obtain ⟨resolved, -, hresolved⟩ := Outcome.exists_right_of_mem hassembled.nestedEnums henum
    exact ⟨resolved, hresolved⟩
  · rintro ⟨⟨declared, hdeclared, hpayloads, hfields, henums⟩, hknows⟩
    have hremembered : ∀ child ∈ index.nestedTypes name,
        ∃ nested, memo.remembered child = .ok nested := by
      intro child hchild
      obtain ⟨nested, hget⟩ := Option.isSome_iff_exists.mp (hknows child hchild)
      exact ⟨nested, Memo.remembered_of_get? hget⟩
    obtain ⟨nested, hnested⟩ := Outcome.exists_forall₂ hremembered
    obtain ⟨nestedEnums, hnestedEnums⟩ := Outcome.exists_forall₂ henums
    obtain ⟨filtered, hfiltered⟩ : ∃ filtered,
        index.filterFields config.recursion declared.target declared.fields = .ok filtered :=
      ⟨_, filterFields_eq_ok_iff.mpr ⟨checkFields_eq_ok_iff_fieldsFit.mpr hfields, rfl⟩⟩
    obtain ⟨tree, htree⟩ : ∃ tree,
        index.compose config name declared filtered nested nestedEnums = .ok tree := by
      obtain ⟨source, hsource⟩ := exists_source?_of_declared hdeclared
      rw [compose, hsource]
      exact ⟨_, rfl⟩
    refine ⟨tree, ?_⟩
    rw [assemble_eq]
    refine Outcome.bind_eq_ok_iff.mpr ⟨declared, hdeclared, ?_⟩
    refine Outcome.bind_eq_ok_iff.mpr ⟨(), checkPayloads_eq_ok_iff.mpr hpayloads, ?_⟩
    refine Outcome.bind_eq_ok_iff.mpr ⟨filtered, hfiltered, ?_⟩
    refine Outcome.bind_eq_ok_iff.mpr ⟨nested, Outcome.mapM_eq_ok_iff.mpr hnested, ?_⟩
    exact Outcome.bind_eq_ok_iff.mpr
      ⟨nestedEnums, Outcome.mapM_eq_ok_iff.mpr hnestedEnums, htree⟩

theorem ResolvesTo.fit {tree : Resolved} (hresolves : index.ResolvesTo config name tree) :
    index.Fit name := by
  obtain ⟨memo, -, hassemble⟩ := hresolves
  exact (exists_assemble_iff.mp ⟨tree, hassemble⟩).1

theorem get?_map_names (names : List String) (trees : String → Resolved) {name : String}
    (hmem : name ∈ names) :
    Memo.get? (names.map fun name => (name, trees name)) name = some (trees name) := by
  induction names with
  | nil => cases hmem
  | cons first names ih =>
    rw [List.map_cons, Memo.get?_cons]
    split
    · next heq => rw [heq]
    · next hne => exact ih ((List.mem_cons.mp hmem).resolve_left hne)

/-- A fit declaration resolves to something if its nested types do. -/
theorem exists_resolvesTo_of_fit (config : GenerateConfig) (hfit : index.Fit name)
    (hnested : ∀ child ∈ index.nestedTypes name, ∃ tree, index.ResolvesTo config child tree) :
    ∃ tree, index.ResolvesTo config name tree := by
  choose! trees htrees using hnested
  let memo : Memo := (index.nestedTypes name).map fun child => (child, trees child)
  have hget : ∀ child ∈ index.nestedTypes name, memo.get? child = some (trees child) :=
    fun child hchild => get?_map_names _ trees hchild
  have hknows : ∀ child ∈ index.nestedTypes name, memo.Knows child :=
    fun child hchild => Option.isSome_of_mem (hget child hchild)
  obtain ⟨tree, hassemble⟩ : ∃ tree, index.assemble config memo name = .ok tree :=
    exists_assemble_iff.mpr ⟨hfit, hknows⟩
  refine ⟨tree, .assembled memo (fun child hchild nested hnested => ?_) hassemble⟩
  obtain rfl : trees child = nested := Option.some.inj ((hget child hchild).symm.trans hnested)
  exact htrees child hchild

/-! ## All names -/

theorem mem_resolvableNames_iff :
    name ∈ index.resolvableNames ↔ index.IsType name ∨ (index.component? name).isSome := by
  simp only [resolvableNames, List.mem_map, List.mem_filter, IsType, type?, component?]
  constructor
  · rintro ⟨entry, ⟨hentry, hkind⟩, hname⟩
    rw [get?_eq_some_iff.mpr ⟨hentry, hname⟩]
    obtain ⟨source, decl⟩ := entry
    cases decl with
    | type decl => exact .inl rfl
    | enumeration decl => cases hkind
    | component decl => exact .inr rfl
  · intro hdeclared
    cases hget : index.get? name with
    | none => simp [hget] at hdeclared
    | some entry =>
      obtain ⟨hentry, hname⟩ := get?_eq_some_iff.mp hget
      refine ⟨entry, ⟨hentry, ?_⟩, hname⟩
      rw [hget] at hdeclared
      obtain ⟨source, decl⟩ := entry
      cases decl with
      | type decl => rfl
      | enumeration decl => simp [Declaration.type?, Declaration.component?] at hdeclared
      | component decl => rfl

theorem resolveEach_cons_snd (names : List String) (memo : Memo) :
    (index.resolveEach config (name :: names) memo).2 =
      ((index.resolve config name memo).2 >>= fun tree =>
        (index.resolveEach config names (index.resolve config name memo).1).2 >>= fun trees =>
          .ok (tree :: trees)) := by
  rw [resolveEach]
  rcases index.resolve config name memo with ⟨after, error | tree⟩
  · rfl
  · simp only
    rcases index.resolveEach config names after with ⟨last, error | trees⟩ <;> rfl

/-- All names are resolved if each of them resolves to something. -/
theorem exists_resolveEach {names : List String}
    (hnames : ∀ name ∈ names, ∃ tree, index.ResolvesTo config name tree) {memo : Memo}
    (hsound : memo.Sound index config) :
    ∃ trees, (index.resolveEach config names memo).2 = .ok trees := by
  induction names generalizing memo with
  | nil => exact ⟨[], rfl⟩
  | cons name names ih =>
    obtain ⟨⟨tree, hresolves⟩, hnames⟩ := List.forall_mem_cons.mp hnames
    obtain ⟨trees, htrees⟩ := ih hnames (hsound.resolve name)
    refine ⟨tree :: trees, ?_⟩
    rw [resolveEach_cons_snd, resolve_of_resolvesTo hresolves hsound, htrees]
    rfl

theorem resolvesTo_of_resolveAll {trees : List Resolved}
    (hresolve : (index.resolveAll config []).2 = .ok trees) (hmem : name ∈ index.resolvableNames) :
    ∃ tree, index.ResolvesTo config name tree := by
  have hassemble : ∀ memo name tree, Memo.All (index.ResolvesTo config) memo →
      index.assemble config memo name = .ok tree → index.ResolvesTo config name tree :=
    fun memo _ _ hall htree => .assembled memo (fun _ _ _ hget => hall.of_get? hget) htree
  have htrees := Memo.All.resolveEach hassemble index.resolvableNames (by simp [Memo.All]) hresolve
  obtain ⟨tree, -, hresolves⟩ := Outcome.exists_right_of_mem htrees hmem
  exact ⟨tree, hresolves⟩

theorem exists_resolveEnums_iff :
    (∃ enums, index.resolveEnums = .ok enums) ↔
      ∀ enum ∈ index.enumerations, ValuesFit enum.values := by
  have hresolve : ∀ enum ∈ index.enumerations,
      (∃ resolved, index.resolveEnum enum.qualified = .ok resolved) ↔ ValuesFit enum.values := by
    intro enum henum
    rw [exists_resolveEnum_iff, mem_enumerations_iff.mp henum]
    simp
  simp only [resolveEnums, Outcome.mapM_eq_ok_iff]
  constructor
  · rintro ⟨enums, henums⟩ enum henum
    obtain ⟨resolved, -, hresolved⟩ := Outcome.exists_right_of_mem henums henum
    exact (hresolve enum henum).mp ⟨resolved, hresolved⟩
  · intro hfit
    exact Outcome.exists_forall₂ fun enum henum => (hresolve enum henum).mpr (hfit enum henum)

/-! ## Declarations of a well-formed schema -/

theorem fit_iff_of_type? {type : TypeDecl} (htype : index.type? name = some type) :
    index.Fit name ↔ index.FieldsFit type.fields ∧ index.NestedEnumsFit name := by
  have hcomponent := component?_eq_none_of_type? (Option.isSome_of_mem htype)
  simp only [Fit, Index.declared, hcomponent, htype, Except.ok.injEq, exists_eq_left']
  constructor
  · exact And.right
  · exact fun hfit => ⟨⟨by simp, by simp⟩, hfit⟩

theorem fit_iff_of_component? {component : ComponentDecl}
    (hcomponent : index.component? name = some component) :
    index.Fit name ↔
      (∀ data, component.dataDefinition = some data → index.IsType data) ∧
        index.PayloadsFit component.events component.commands ∧
          index.FieldsFit (index.fieldsOf component) ∧ index.NestedEnumsFit name := by
  simp only [Fit, Index.declared, hcomponent, componentFields, fieldsOf]
  cases component.dataDefinition with
  | none => simp [Except.map]
  | some data =>
    cases htype : index.type? data with
    | none => simp [Except.map, IsType, htype]
    | some decl => simp [Except.map, IsType, htype]

theorem wellFormed_of_resolves (hresolves : ∀ name ∈ index.resolvableNames,
      ∃ tree, index.ResolvesTo config name tree)
    (henums : ∀ enum ∈ index.enumerations, ValuesFit enum.values) : index.WellFormed := by
  have htypes : ∀ {name : String} {type : TypeDecl}, index.type? name = some type →
      ∃ tree, index.ResolvesTo config name tree :=
    fun htype => hresolves _ (mem_resolvableNames_iff.mpr (.inl (Option.isSome_of_mem htype)))
  have hcomponents : ∀ component ∈ index.components, index.Fit component.qualified := by
    intro component hmem
    have hcomponent := Option.isSome_of_mem (mem_components_iff.mp hmem)
    obtain ⟨tree, htree⟩ := hresolves _ (mem_resolvableNames_iff.mpr (.inr hcomponent))
    exact htree.fit
  refine ⟨?_, ?_, ?_, ?_, ?_, henums⟩
  · intro name hcycle
    obtain ⟨outer, ⟨type, htype, -⟩, -⟩ := Relation.TransGen.head'_iff.mp hcycle
    obtain ⟨tree, htree⟩ := htypes htype
    exact not_transGen_of_acc htree.acc hcycle
  · intro component hmem
    exact ((fit_iff_of_component? (mem_components_iff.mp hmem)).mp (hcomponents component hmem)).1
  · intro component hmem
    exact ((fit_iff_of_component? (mem_components_iff.mp hmem)).mp (hcomponents component hmem)).2.1
  · intro type hmem
    obtain ⟨tree, htree⟩ := htypes (mem_types_iff.mp hmem)
    exact ((fit_iff_of_type? (mem_types_iff.mp hmem)).mp htree.fit).1
  · intro component hmem
    exact ((fit_iff_of_component? (mem_components_iff.mp hmem)).mp
      (hcomponents component hmem)).2.2.1

theorem WellFormed.nestedEnumsFit (hformed : index.WellFormed) (name : String) :
    index.NestedEnumsFit name := by
  intro enum henum
  obtain ⟨decl, hdecl⟩ :=
    Option.isSome_iff_exists.mp (enumeration?_of_mem_nestedEnumerations henum)
  obtain rfl := qualified_of_enumeration? hdecl
  exact exists_resolveEnum_iff.mpr
    ⟨decl, hdecl, hformed.enumerations decl (mem_enumerations_iff.mpr hdecl)⟩

theorem WellFormed.fit (hformed : index.WellFormed) (hmem : name ∈ index.resolvableNames) :
    index.Fit name := by
  rcases mem_resolvableNames_iff.mp hmem with htype | hcomponent
  · obtain ⟨type, htype⟩ := Option.isSome_iff_exists.mp htype
    obtain rfl := qualified_of_type? htype
    exact (fit_iff_of_type? htype).mpr
      ⟨hformed.types type (mem_types_iff.mpr htype), hformed.nestedEnumsFit _⟩
  · obtain ⟨component, hcomponent⟩ := Option.isSome_iff_exists.mp hcomponent
    obtain rfl := qualified_of_component? hcomponent
    have hmem := mem_components_iff.mpr hcomponent
    exact (fit_iff_of_component? hcomponent).mpr
      ⟨hformed.data component hmem, hformed.payloads component hmem,
        hformed.components component hmem, hformed.nestedEnumsFit _⟩

/-- In a well-formed schema every name resolves to something, the innermost first. -/
theorem WellFormed.exists_resolvesTo (hformed : index.WellFormed) (config : GenerateConfig)
    (hmem : name ∈ index.resolvableNames) : ∃ tree, index.ResolvesTo config name tree := by
  have hacc := acc_of_acyclic hformed.acyclic name
  induction hacc with
  | intro name _ ih =>
    refine exists_resolvesTo_of_fit config (hformed.fit hmem) fun child hchild => ?_
    have hnested := mem_nestedTypes_iff.mp hchild
    exact ih child hnested (mem_resolvableNames_iff.mpr (.inl hnested.isType))

/-! ## The configuration does not matter -/

/-- Both memos know the same names. -/
def SameNames (memo memo' : Memo) : Prop :=
  ∀ name, memo.Knows name ↔ memo'.Knows name

section Configuration

variable (config other : GenerateConfig)

theorem verdict_filterFields (policy : RecursionPolicy) (target : String) (fields : List Field) :
    Outcome.verdict (index.filterFields policy target fields) =
      index.checkFields target [] fields := by
  rw [filterFields]
  cases index.checkFields target [] fields <;> rfl

theorem verdict_remembered {memo memo' : Memo} (hsame : SameNames memo memo') (name : String) :
    Outcome.verdict (memo.remembered name) = Outcome.verdict (memo'.remembered name) := by
  have hknows := hsame name
  unfold Memo.Knows at hknows
  rw [Memo.remembered, Memo.remembered]
  cases hget : memo.get? name <;> cases hget' : memo'.get? name <;> simp_all

/-- Assembling ends the same way under all configurations. -/
theorem verdict_assemble {memo memo' : Memo} (hsame : SameNames memo memo') (name : String) :
    Outcome.verdict (index.assemble config memo name) =
      Outcome.verdict (index.assemble other memo' name) := by
  rw [assemble_eq, assemble_eq]
  refine Outcome.verdict_bind_congr rfl fun declared declared' hdeclared hdeclared' => ?_
  obtain rfl : declared = declared' := Except.ok.inj (hdeclared.symm.trans hdeclared')
  refine Outcome.verdict_bind_congr rfl fun _ _ _ _ => ?_
  refine Outcome.verdict_bind_congr ?_ fun filtered filtered' _ _ => ?_
  · rw [verdict_filterFields, verdict_filterFields]
  refine Outcome.verdict_bind_congr ?_ fun nested nested' _ _ => ?_
  · rw [Outcome.verdict_mapM, Outcome.verdict_mapM]
    simp only [verdict_remembered hsame]
  refine Outcome.verdict_bind_congr rfl fun _ _ _ _ => ?_
  rw [compose, compose]
  cases index.source? name <;> rfl

theorem SameNames.insert {memo memo' : Memo} (hsame : SameNames memo memo') (name : String)
    (tree tree' : Resolved) : SameNames (memo.insert name tree) (memo'.insert name tree') := by
  intro other
  rw [Memo.knows_insert, Memo.knows_insert, hsame other]

theorem conclude_config {attempt attempt' : Attempt Unit} (houtcome : attempt.2 = attempt'.2)
    (hsame : SameNames attempt.1 attempt'.1) :
    (index.conclude config name attempt).2 = (index.conclude other name attempt').2 ∧
      SameNames (index.conclude config name attempt).1
        (index.conclude other name attempt').1 := by
  obtain ⟨after, outcome⟩ := attempt
  obtain ⟨after', outcome'⟩ := attempt'
  obtain rfl : outcome = outcome' := houtcome
  rcases outcome with error | ⟨⟩
  · exact ⟨rfl, hsame⟩
  have hverdict : Outcome.verdict (index.assemble config after name) =
      Outcome.verdict (index.assemble other after' name) := verdict_assemble config other hsame name
  rw [conclude, conclude]
  cases hassemble : index.assemble config after name with
  | error error =>
    rw [hassemble] at hverdict
    rw [Outcome.verdict_eq_error_iff.mp hverdict.symm]
    exact ⟨rfl, hsame⟩
  | ok tree =>
    rw [hassemble] at hverdict
    obtain ⟨tree', htree'⟩ := Outcome.verdict_eq_ok_iff.mp hverdict.symm
    rw [htree']
    exact ⟨rfl, hsame.insert name tree tree'⟩

/-- Settling ends the same way under all configurations and makes the same names known. -/
theorem settle_config (fuel : Nat) (path : List String) (name : String) {memo memo' : Memo}
    (hsame : SameNames memo memo') :
    (index.settle config fuel path name memo).2 = (index.settle other fuel path name memo').2 ∧
      SameNames (index.settle config fuel path name memo).1
        (index.settle other fuel path name memo').1 := by
  induction fuel generalizing path name memo memo' with
  | zero => exact ⟨rfl, hsame⟩
  | succ fuel ih =>
    by_cases hknows : memo.Knows name
    · rw [settle_of_knows hknows, settle_of_knows ((hsame name).mp hknows)]
      exact ⟨rfl, hsame⟩
    have hknows' : ¬memo'.Knows name := fun hknown => hknows ((hsame name).mpr hknown)
    cases hchild : index.reentered? path name with
    | some child =>
      rw [settle_of_reentered hknows hchild, settle_of_reentered hknows' hchild]
      exact ⟨rfl, hsame⟩
    | none =>
      rw [settle_of_new hknows hchild, settle_of_new hknows' hchild]
      have hchildren := attemptAll_related
        (fun child (_ : child ∈ (index.nestedTypes name).reverse) _ _ hsame =>
          ih (name :: path) child hsame) hsame
      exact conclude_config config other hchildren.1 hchildren.2

theorem resolve_config (name : String) {memo memo' : Memo} (hsame : SameNames memo memo') :
    Outcome.verdict (index.resolve config name memo).2 =
        Outcome.verdict (index.resolve other name memo').2 ∧
      SameNames (index.resolve config name memo).1 (index.resolve other name memo').1 := by
  obtain ⟨houtcome, hafter⟩ := settle_config config other (index.size + 2) [] name hsame
  rw [resolve_fst, resolve_fst, resolve_snd, resolve_snd]
  refine ⟨Outcome.verdict_bind_congr (by rw [houtcome]) fun _ _ _ _ => ?_, hafter⟩
  exact verdict_remembered hafter name

theorem resolveEach_config (names : List String) {memo memo' : Memo}
    (hsame : SameNames memo memo') :
    Outcome.verdict (index.resolveEach config names memo).2 =
      Outcome.verdict (index.resolveEach other names memo').2 := by
  induction names generalizing memo memo' with
  | nil => rfl
  | cons name names ih =>
    obtain ⟨hverdict, hafter⟩ := resolve_config config other name hsame
    rw [resolveEach_cons_snd, resolveEach_cons_snd]
    refine Outcome.verdict_bind_congr hverdict fun _ _ _ _ => ?_
    exact Outcome.verdict_bind_congr (ih hafter) fun _ _ _ _ => rfl

end Configuration

/-! ## Acceptance -/

/-- Everything can be resolved exactly if the schema is well formed, and how the attempt ends, the
failure included, is the same under every configuration. -/
theorem resolves_iff_wellFormed (index : Index) (config : GenerateConfig) :
    ((∃ trees, (index.resolveAll config []).2 = .ok trees) ∧
        (∃ enums, index.resolveEnums = .ok enums) ↔ index.WellFormed) ∧
      ∀ other : GenerateConfig, (index.resolveAll config []).2.map (fun _ => ()) =
        (index.resolveAll other []).2.map fun _ => () := by
  refine ⟨⟨?_, ?_⟩, fun other => ?_⟩
  · rintro ⟨⟨trees, htrees⟩, henums⟩
    exact wellFormed_of_resolves (fun name hmem => resolvesTo_of_resolveAll htrees hmem)
      (exists_resolveEnums_iff.mp henums)
  · intro hformed
    refine ⟨?_, exists_resolveEnums_iff.mpr hformed.enumerations⟩
    exact exists_resolveEach (fun name hmem => hformed.exists_resolvesTo config hmem)
      (Memo.sound_nil index config)
  · exact resolveEach_config config other index.resolvableNames fun _ => Iff.rfl

end SchemaLoom.Index
