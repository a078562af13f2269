import SchemaLoom.Proofs.FilteredFields
import SchemaLoom.Proofs.WellFormedness

/-!
# Every dropped field is reported once

The warnings of a resolver are those of all names in its memo.  A component with a data definition
has the warnings of that type, so they can be in the memo many times; of the warnings about one
field of one type only the first is reported.  Once everything is resolved, what is reported are the
dropped fields of all declarations that have fields of their own.
-/

namespace SchemaLoom

/-! ## One warning for a field -/

/-- The type and the field that a warning is about. -/
def Warning.key (warning : Warning) : String × String :=
  (warning.typeName, warning.field)

theorem mem_keys_distinctWarnings_iff {seen : List (String × String)} {warnings : List Warning}
    {key : String × String} :
    key ∈ (distinctWarnings seen warnings).map Warning.key ↔
      key ∈ warnings.map Warning.key ∧ key ∉ seen := by
  induction warnings generalizing seen with
  | nil => simp [distinctWarnings]
  | cons warning warnings ih =>
    rw [distinctWarnings]
    split
    · next hseen =>
      have hmem : warning.key ∈ seen := by simpa [Warning.key] using hseen
      rw [ih, List.map_cons, List.mem_cons]
      constructor
      · exact fun ⟨hkey, hnew⟩ => ⟨.inr hkey, hnew⟩
      · rintro ⟨rfl | hkey, hnew⟩
        · exact absurd hmem hnew
        · exact ⟨hkey, hnew⟩
    · next hseen =>
      have hnew : warning.key ∉ seen := by simpa [Warning.key] using hseen
      rw [List.map_cons, List.mem_cons, ih, List.map_cons, List.mem_cons, List.mem_cons, not_or]
      constructor
      · rintro (rfl | ⟨hkey, -, hother⟩)
        · exact ⟨.inl rfl, hnew⟩
        · exact ⟨.inr hkey, hother⟩
      · rintro ⟨hkey, hother⟩
        by_cases hfirst : key = warning.key
        · exact .inl hfirst
        · exact .inr ⟨hkey.resolve_left hfirst, hfirst, hother⟩

theorem nodup_keys_distinctWarnings (seen : List (String × String)) (warnings : List Warning) :
    ((distinctWarnings seen warnings).map Warning.key).Nodup := by
  induction warnings generalizing seen with
  | nil => exact List.nodup_nil
  | cons warning warnings ih =>
    rw [distinctWarnings]
    split
    · exact ih seen
    · rw [List.map_cons, List.nodup_cons, mem_keys_distinctWarnings_iff]
      exact ⟨fun ⟨_, hnew⟩ => hnew List.mem_cons_self, ih _⟩

theorem distinctWarnings_subset (seen : List (String × String)) (warnings : List Warning) :
    distinctWarnings seen warnings ⊆ warnings := by
  induction warnings generalizing seen with
  | nil => exact List.Subset.refl _
  | cons warning warnings ih =>
    rw [distinctWarnings]
    split
    · exact List.subset_cons_of_subset warning (ih seen)
    · exact List.cons_subset_cons warning (ih _)

/-! ## Calls on a resolver -/

/-- What a resolver can be asked for: a name, or all types and components. -/
inductive ResolverCall where
  | name (name : String)
  | all

namespace Index

variable {index : Index} {config : GenerateConfig}

/-- The memo that a call leaves, whatever its outcome. -/
def afterCall (index : Index) (config : GenerateConfig) (memo : Memo) : ResolverCall → Memo
  | .name name => (index.resolve config name memo).1
  | .all => (index.resolveAll config memo).1

/-- The memo of a resolver after some calls. -/
def afterCalls (index : Index) (config : GenerateConfig) (calls : List ResolverCall) : Memo :=
  calls.foldl (index.afterCall config) []

theorem attempted_resolve {memo : Memo} (hsound : memo.Sound index config) (name : String) :
    Memo.Grows index config memo (index.resolve config name memo).1 ∧
      ∀ tree, (index.resolve config name memo).2 = .ok tree →
        (index.resolve config name memo).1.Knows name := by
  obtain ⟨hgrows, hknows⟩ := attempted_settle (index.size + 2) [] name hsound
  rw [resolve_fst]
  refine ⟨hgrows, fun tree htree => ?_⟩
  rw [resolve_snd] at htree
  obtain ⟨⟨⟩, hok, -⟩ := Outcome.bind_eq_ok_iff.mp htree
  exact hknows hok name List.mem_cons_self

theorem resolveEach_cons_fst (name : String) (names : List String) (memo : Memo) :
    (index.resolveEach config (name :: names) memo).1 =
      match (index.resolve config name memo).2 with
      | .ok _ => (index.resolveEach config names (index.resolve config name memo).1).1
      | .error _ => (index.resolve config name memo).1 := by
  rw [resolveEach]
  rcases index.resolve config name memo with ⟨after, error | tree⟩
  · rfl
  · simp only
    rcases index.resolveEach config names after with ⟨last, error | trees⟩ <;> rfl

/-- Resolving names in turn grows the memo, and if all could be resolved it knows them. -/
theorem attempted_resolveEach (names : List String) {memo : Memo}
    (hsound : memo.Sound index config) :
    Memo.Grows index config memo (index.resolveEach config names memo).1 ∧
      ∀ trees, (index.resolveEach config names memo).2 = .ok trees →
        ∀ name ∈ names, (index.resolveEach config names memo).1.Knows name := by
  induction names generalizing memo with
  | nil => exact ⟨hsound.grows, by simp⟩
  | cons name names ih =>
    obtain ⟨hgrows, hknows⟩ := attempted_resolve hsound name
    obtain ⟨hgrows', hknows'⟩ := ih hgrows.sound
    rw [resolveEach_cons_fst, resolveEach_cons_snd]
    cases houtcome : (index.resolve config name memo).2 with
    | error error => exact ⟨hgrows, fun trees hfailed => by cases hfailed⟩
    | ok tree =>
      refine ⟨hgrows.trans hgrows', fun trees htrees => ?_⟩
      obtain ⟨_, _, hrest⟩ := Outcome.bind_eq_ok_iff.mp htrees
      obtain ⟨rest, hrest, -⟩ := Outcome.bind_eq_ok_iff.mp hrest
      rw [List.forall_mem_cons]
      exact ⟨hgrows'.keeps name (hknows tree houtcome), hknows' rest hrest⟩

theorem grows_afterCall {memo : Memo} (hsound : memo.Sound index config) (call : ResolverCall) :
    Memo.Grows index config memo (index.afterCall config memo call) := by
  cases call with
  | name name => exact (attempted_resolve hsound name).1
  | all => exact (attempted_resolveEach index.resolvableNames hsound).1

theorem grows_foldl_afterCall (calls : List ResolverCall) {memo : Memo}
    (hsound : memo.Sound index config) :
    Memo.Grows index config memo (calls.foldl (index.afterCall config) memo) := by
  induction calls generalizing memo with
  | nil => exact hsound.grows
  | cons call calls ih =>
    have hgrows := grows_afterCall hsound call
    exact hgrows.trans (ih hgrows.sound)

theorem sound_afterCalls (index : Index) (config : GenerateConfig) (calls : List ResolverCall) :
    (index.afterCalls config calls).Sound index config :=
  (grows_foldl_afterCall calls (Memo.sound_nil index config)).sound

/-- What was resolved with all the rest stays known. -/
theorem knows_afterCalls {earlier : List ResolverCall} {trees : List Resolved}
    (hresolve : (index.resolveAll config (index.afterCalls config earlier)).2 = .ok trees)
    (later : List ResolverCall) {name : String} (hname : name ∈ index.resolvableNames) :
    (index.afterCalls config (earlier ++ .all :: later)).Knows name := by
  obtain ⟨hgrows, hknows⟩ := attempted_resolveEach index.resolvableNames
    (index.sound_afterCalls config earlier)
  rw [afterCalls, List.foldl_append, List.foldl_cons]
  exact (grows_foldl_afterCall later hgrows.sound).keeps name (hknows trees hresolve name hname)

/-! ## Fields of their own -/

/-- The field is one of the named type, or of the named component, which has no data definition. -/
def HasField (index : Index) (name : String) (field : Field) : Prop :=
  (∃ decl, index.type? name = some decl ∧ field ∈ decl.fields) ∨
    ∃ component, index.component? name = some component ∧ component.dataDefinition = none ∧
      field ∈ component.fields

/-- The field cannot be kept: it refers to the entity kind, or it leads back to its type and is no
collection that the policy lets recurse. -/
def Drops (index : Index) (policy : RecursionPolicy) (name : String) (field : Field) : Prop :=
  index.HasField name field ∧
    (field.HasEntity ∨ index.LeadsBack field.shape name ∧
      ¬(field.shape.isCollection ∧ policy = .keepCollections))

theorem not_keeps_iff {policy : RecursionPolicy} {name : String} {field : Field} :
    ¬index.Keeps policy name field ↔
      field.HasEntity ∨ index.LeadsBack field.shape name ∧
        ¬(field.shape.isCollection ∧ policy = .keepCollections) := by
  rw [Keeps, not_and_or, not_not, not_or, not_not]

/-- The fields that a declaration is filtered for are the target's own. -/
theorem hasField_of_declared {name : String} {declared : Declared}
    (hdeclared : index.declared name = .ok declared) {field : Field}
    (hfield : field ∈ declared.fields) : index.HasField declared.target field := by
  rw [Index.declared] at hdeclared
  split at hdeclared
  · next component hcomponent =>
    obtain ⟨⟨fields, target⟩, hfields, rfl⟩ := Outcome.map_eq_ok_iff.mp hdeclared
    rw [componentFields] at hfields
    split at hfields
    · next hnone =>
      cases hfields
      rw [← qualified_of_component? hcomponent] at hcomponent
      exact .inr ⟨component, hcomponent, hnone, hfield⟩
    · split at hfields
      · next decl hdecl =>
        cases hfields
        exact .inl ⟨decl, hdecl, hfield⟩
      · cases hfields
  · next decl _ hdecl =>
    cases hdeclared
    exact .inl ⟨decl, hdecl, hfield⟩
  · cases hdeclared

/-- Whoever has fields of its own is filtered for them. -/
theorem mem_fields_of_hasField {name : String} {field : Field} (hfield : index.HasField name field)
    {declared : Declared} (hdeclared : index.declared name = .ok declared) :
    field ∈ declared.fields ∧ declared.target = name := by
  rcases hfield with ⟨decl, hdecl, hfield⟩ | ⟨component, hcomponent, hnone, hfield⟩
  · obtain ⟨found, hfound, hfields, htarget⟩ :=
      declared_of_type? (Option.isSome_of_mem hdecl) hdeclared
    obtain rfl := Option.some.inj (hdecl.symm.trans hfound)
    exact ⟨hfields ▸ hfield, htarget⟩
  · have hname := qualified_of_component? hcomponent
    simp only [Index.declared, hcomponent, componentFields, hnone] at hdeclared
    cases hdeclared
    exact ⟨hfield, hname⟩

theorem HasField.mem_resolvableNames {name : String} {field : Field}
    (hfield : index.HasField name field) : name ∈ index.resolvableNames := by
  apply mem_resolvableNames_iff.mpr
  rcases hfield with ⟨decl, hdecl, -⟩ | ⟨component, hcomponent, -⟩
  · exact .inl (Option.isSome_of_mem hdecl)
  · exact .inr (Option.isSome_of_mem hcomponent)

/-! ## Warnings of a name -/

/-- What a name resolves to has one warning for each of its fields that is not kept. -/
theorem ResolvesTo.warnings_eq {name : String} {tree : Resolved}
    (hresolves : index.ResolvesTo config name tree) :
    ∃ declared, index.declared name = .ok declared ∧
      tree.type.warnings =
        (declared.fields.filter fun field =>
          ¬index.Keeps config.recursion declared.target field).map
            (warningFor declared.target) := by
  obtain ⟨memo, -, hassemble⟩ := hresolves
  obtain ⟨declared, filtered, htree⟩ := exists_assembled hassemble
  obtain ⟨-, hfiltered⟩ := filterFields_eq_ok_iff.mp htree.filterFields_eq
  refine ⟨declared, htree.declared_eq, ?_⟩
  rw [htree.warnings_eq, ← hfiltered]
  exact warnings_of_judge declared.fields

theorem ResolvesTo.drops_of_mem_warnings {name : String} {tree : Resolved}
    (hresolves : index.ResolvesTo config name tree) {warning : Warning}
    (hwarning : warning ∈ tree.type.warnings) :
    ∃ target field, index.Drops config.recursion target field ∧
      warning = warningFor target field := by
  obtain ⟨declared, hdeclared, hwarnings⟩ := hresolves.warnings_eq
  rw [hwarnings, List.mem_map] at hwarning
  obtain ⟨field, hfield, rfl⟩ := hwarning
  rw [List.mem_filter, decide_eq_true_eq, not_keeps_iff] at hfield
  exact ⟨declared.target, field, ⟨hasField_of_declared hdeclared hfield.1, hfield.2⟩, rfl⟩

theorem ResolvesTo.mem_warnings_of_drops {name : String} {tree : Resolved}
    (hresolves : index.ResolvesTo config name tree) {field : Field}
    (hdrops : index.Drops config.recursion name field) :
    warningFor name field ∈ tree.type.warnings := by
  obtain ⟨declared, hdeclared, hwarnings⟩ := hresolves.warnings_eq
  obtain ⟨hfield, htarget⟩ := mem_fields_of_hasField hdrops.1 hdeclared
  rw [hwarnings, htarget]
  apply List.mem_map_of_mem
  rw [List.mem_filter, decide_eq_true_eq, not_keeps_iff]
  exact ⟨hfield, hdrops.2⟩

theorem key_warningFor (name : String) (field : Field) :
    (warningFor name field).key = (name, field.name) := by
  rw [warningFor]
  split <;> rfl

end Index

/-! ## All warnings of a resolver -/

theorem Memo.mem_keys_warnings_iff {memo : Memo} {key : String × String} :
    key ∈ memo.warnings.map Warning.key ↔
      ∃ entry ∈ memo, ∃ warning ∈ entry.2.type.warnings, warning.key = key := by
  rw [Memo.warnings, mem_keys_distinctWarnings_iff]
  simp only [List.mem_map, List.mem_flatMap, List.not_mem_nil, not_false_eq_true, and_true]
  constructor
  · rintro ⟨warning, ⟨entry, hentry, hwarning⟩, hkey⟩
    exact ⟨entry, hentry, warning, hwarning, hkey⟩
  · rintro ⟨entry, hentry, warning, hwarning, hkey⟩
    exact ⟨warning, ⟨entry, hentry, hwarning⟩, hkey⟩

namespace Index

/-- If everything could be resolved, whatever was asked before, then from there on, whatever is
asked after, a resolver reports exactly the dropped fields of types and of components without a data
definition, no field of a type twice, and each for a reason why a field of that name was dropped. -/
theorem warnings_afterCalls (index : Index) (config : GenerateConfig)
    (earlier later : List ResolverCall) {trees : List Resolved}
    (hresolve : (index.resolveAll config (index.afterCalls config earlier)).2 = .ok trees) :
    (∀ typeName fieldName,
      (∃ warning ∈ (index.afterCalls config (earlier ++ .all :: later)).warnings,
        warning.typeName = typeName ∧ warning.field = fieldName) ↔
      ∃ field, index.Drops config.recursion typeName field ∧ field.name = fieldName) ∧
    ((index.afterCalls config (earlier ++ .all :: later)).warnings.map fun warning =>
      (warning.typeName, warning.field)).Nodup ∧
    ∀ warning ∈ (index.afterCalls config (earlier ++ .all :: later)).warnings,
      ∃ field, index.Drops config.recursion warning.typeName field ∧
        warning = warningFor warning.typeName field := by
  have hsound := index.sound_afterCalls config (earlier ++ .all :: later)
  have hreason : ∀ warning ∈ (index.afterCalls config (earlier ++ .all :: later)).warnings,
      ∃ field, index.Drops config.recursion warning.typeName field ∧
        warning = warningFor warning.typeName field := by
    intro warning hwarning
    obtain ⟨entry, hentry, hmem⟩ := List.mem_flatMap.mp (distinctWarnings_subset _ _ hwarning)
    obtain ⟨target, field, hdrops, rfl⟩ :=
      (hsound.resolves entry hentry).drops_of_mem_warnings hmem
    have htarget : (warningFor target field).typeName = target :=
      congrArg Prod.fst (key_warningFor target field)
    rw [htarget]
    exact ⟨field, hdrops, rfl⟩
  refine ⟨fun typeName fieldName => ⟨?_, ?_⟩, nodup_keys_distinctWarnings _ _, hreason⟩
  · rintro ⟨warning, hwarning, rfl, rfl⟩
    obtain ⟨field, hdrops, hfor⟩ := hreason warning hwarning
    have hname : warning.field = field.name := by
      rw [hfor]
      exact congrArg Prod.snd (key_warningFor _ field)
    exact ⟨field, hdrops, hname.symm⟩
  · rintro ⟨field, hdrops, rfl⟩
    have hknows := knows_afterCalls hresolve later hdrops.1.mem_resolvableNames
    obtain ⟨tree, hget, hresolves⟩ := hsound.exists_resolvesTo hknows
    obtain ⟨entry, hfind, rfl⟩ := Option.map_eq_some_iff.mp hget
    have hkey : (typeName, field.name) ∈
        (index.afterCalls config (earlier ++ .all :: later)).warnings.map Warning.key :=
      Memo.mem_keys_warnings_iff.mpr ⟨entry, List.mem_of_find?_eq_some hfind,
        warningFor typeName field, hresolves.mem_warnings_of_drops hdrops,
        key_warningFor typeName field⟩
    obtain ⟨warning, hwarning, heq⟩ := List.mem_map.mp hkey
    obtain ⟨htype, hfield⟩ := Prod.mk.inj heq
    exact ⟨warning, hwarning, htype, hfield⟩

/-- Links, two components that hold what a link does, and one with fields of its own. -/
def sharedLinks : Index where
  entries :=
    [.component ((ComponentDecl.declare "net.Hub" 7 []).withData "net.Link"),
      .type (.declare "net.Link" linkFields),
      .type (.declare "net.Node" [.list "links" 1 (.named "net.Link")]),
      .component ((ComponentDecl.declare "net.Port" 8 []).withData "net.Link"),
      .component (.declare "net.Wire" 9 [.singular "owner" 1 (.primitive .entity)])].map
        fun decl => ⟨⟨"net.schema", "net"⟩, decl⟩
  ascending := by decide

theorem warnings_afterCalls_sharedLinks :
    ∃ trees, (sharedLinks.resolveAll { recursion := .keepCollections }
        (sharedLinks.afterCalls { recursion := .keepCollections }
          [.name "net.Port", .name "net.Gone"])).2 = .ok trees ∧
      (∃ warning ∈ (sharedLinks.afterCalls { recursion := .keepCollections }
          [.name "net.Port", .name "net.Gone", .all, .name "net.Hub"]).warnings,
        warning.typeName = "net.Link" ∧ warning.field = "next") ∧
      ¬(∃ warning ∈ (sharedLinks.afterCalls { recursion := .keepCollections }
          [.name "net.Port", .name "net.Gone", .all, .name "net.Hub"]).warnings,
        warning.typeName = "net.Hub" ∧ warning.field = "next") ∧
      ((sharedLinks.afterCalls { recursion := .keepCollections }
          [.name "net.Port", .name "net.Gone", .all, .name "net.Hub"]).warnings.map fun warning =>
        (warning.typeName, warning.field)).Nodup := by
  obtain ⟨hreported, honce, -⟩ := warnings_afterCalls sharedLinks { recursion := .keepCollections }
    [.name "net.Port", .name "net.Gone"] [.name "net.Hub"] rfl
  have hlink : sharedLinks.HasField "net.Link" (.option "next" 3 (.named "net.Node")) :=
    .inl ⟨_, rfl, .tail _ (.tail _ (.head _))⟩
  refine ⟨_, rfl, (hreported "net.Link" "next").mpr ⟨_, ⟨hlink, ?_⟩, rfl⟩, ?_, honce⟩
  · exact not_keeps_iff.mp (by decide)
  · intro hwarned
    obtain ⟨field, ⟨⟨decl, hdecl, -⟩ | ⟨component, hcomponent, hnone, -⟩, -⟩, -⟩ :=
      (hreported "net.Hub" "next").mp hwarned
    · cases hdecl
    · cases hcomponent
      cases hnone

end Index

end SchemaLoom
