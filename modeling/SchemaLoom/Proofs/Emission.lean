import SchemaLoom.Proofs.WrittenModules

/-!
# Emission loses and repeats nothing

The declarations of an index are added to the assembly one after the other, nested ones first.  If
every chain of outer declarations ends, each member waits when its outer declaration is added, so
nothing is missing and nothing is left over; if some chain ends nowhere or runs in a circle, some
member is missing or left over, and emission fails.  What comes out otherwise is a forest of modules
with every declaration in it once, and this is what a reader finds in the code of the files.
-/

namespace SchemaLoom

/-- All declarations are in the files: each without an outer one has its file, in the order of the
names, and each is the item of one module, with the declarations nested in it as members. -/
structure Surroundings.Complete (around : Surroundings) (subjects : List Subject)
    (units : List OutputUnit) : Prop where
  names : units.map (·.name) =
    (around.index.entries.filter (·.decl.outer?.isNone)).map Entry.name
  tops : ∀ unit ∈ units, unit.module.item.name = unit.name ∧
    around.filePath unit.name = .ok unit.path
  once : ((units.flatMap (·.module.all)).map (·.item.name)).Perm
    (around.index.entries.map Entry.name)
  fits : ∀ module ∈ units.flatMap (·.module.all), module.Fits around subjects

namespace Index

variable {index : Index}

theorem ascending_names (index : Index) : (index.entries.map Entry.name).Pairwise (· < ·) :=
  List.pairwise_map.mpr index.ascending

theorem filter_names (index : Index) :
    (index.entries.map Entry.name).filter (fun name => (index.outer? name).isNone) =
      (index.entries.filter (·.decl.outer?.isNone)).map Entry.name := by
  rw [List.filter_map]
  congr 1
  apply List.filter_congr
  intro entry hentry
  have hget : index.get? entry.name = some entry := get?_eq_some_iff.mpr ⟨hentry, rfl⟩
  simp [outer?, hget]

theorem Grounded.isSome_get? {name : String} (hgrounded : index.Grounded name) :
    (index.get? name).isSome := by
  cases hgrounded with
  | top hdeclared => exact hdeclared
  | nested houter => exact isSome_get?_of_outer? houter

/-- Only types and enumerations have outer declarations at all. -/
theorem grounded_iff :
    (∀ name ∈ index.entries.map Entry.name, index.Grounded name) ↔
      ∀ name, index.IsType name ∨ index.IsEnumeration name → index.Grounded name := by
  constructor
  · intro hall name hname
    apply hall
    rw [← isSome_get?_iff]
    exact hname.elim Option.isSome_of_isSome_bind Option.isSome_of_isSome_bind
  · intro hall name hname
    cases houter : index.outer? name with
    | none => exact .top (isSome_get?_iff.mpr hname) houter
    | some outer =>
      apply hall
      rw [outer?_eq_some_iff] at houter
      exact houter.imp (fun htype => (mem_nestedTypes_iff.mp htype).isType)
        enumeration?_of_mem_nestedEnumerations

end Index

theorem Surroundings.exists_filePath {around : Surroundings} {name : String}
    (hdeclared : (around.index.get? name).isSome) : ∃ path, around.filePath name = .ok path := by
  obtain ⟨parts, hsplit⟩ := exists_split hdeclared
  rw [filePath, hsplit]
  exact ⟨_, rfl⟩

theorem Surroundings.ofConfig_default (index : Index) :
    ofConfig index {} = .ok ⟨index, ⟨false, ["crate"]⟩, ⟨true, ["compgen_runtime"]⟩⟩ := by
  rfl

namespace Resolution

variable (resolution : Resolution)

/-- All identifiers in the emitted code, as texts that may turn out not to be identifiers: those of
the declarations, and the names of the modules of nested ones. -/
def identifiers (around : Surroundings) : List String :=
  resolution.subjects.flatMap (·.identifiers around) ++
    (resolution.index.entries.filter (·.decl.outer?.isSome)).map fun entry =>
      Ident.moduleName (shortName entry.name)

/-- The names in the order in which they are added. -/
def order : List String :=
  resolution.index.emissionOrder (resolution.subjects.map Subject.name)

theorem order_perm : resolution.order.Perm (resolution.index.entries.map Entry.name) := by
  have hnodup := SortedNames.nodup_of_ascending resolution.index.ascending_names
  apply List.Perm.trans _ resolution.subjects_perm
  exact resolution.index.emissionOrder_perm (resolution.subjects_perm.nodup_iff.mpr hnodup)

theorem nodup_order : resolution.order.Nodup :=
  resolution.order_perm.nodup_iff.mpr
    (SortedNames.nodup_of_ascending resolution.index.ascending_names)

theorem mem_order_iff {name : String} :
    name ∈ resolution.order ↔ (resolution.index.get? name).isSome := by
  rw [resolution.order_perm.mem_iff, Index.isSome_get?_iff]

variable {resolution} {around : Surroundings} (hindex : around.index = resolution.index)
include hindex

theorem assembleUnits_eq :
    assembleUnits around resolution.subjects =
      (resolution.order.foldlM (Assembly.add around resolution.subjects) {} >>=
        Assembly.finish) := by
  rw [assembleUnits, hindex]
  rfl

/-- If the assembly succeeds, everything is in the files and all chains end. -/
theorem complete_of_assembleUnits {units : List OutputUnit}
    (hunits : assembleUnits around resolution.subjects = .ok units) :
    around.Complete resolution.subjects units ∧
      ∀ name ∈ around.index.entries.map Entry.name, around.index.Grounded name := by
  rw [assembleUnits_eq hindex] at hunits
  obtain ⟨assembly, hrun, hfinish⟩ := Outcome.bind_eq_ok_iff.mp hunits
  have hsound := Assembly.Sound.of_run resolution.nodup_order hrun
  obtain ⟨hwaiting, hperm, hsorted⟩ := Assembly.exists_of_finish_eq_ok hfinish
  have hnames := resolution.order_perm
  rw [← hindex] at hnames
  have hmodules : (units.flatMap (·.module.all)).Perm (assembly.modules.flatMap Module.all) := by
    rw [Assembly.modules, hwaiting, List.map_nil, List.nil_append, List.flatMap_map]
    exact hperm.flatMap_right _
  refine ⟨?_, fun name hname => ?_⟩
  · exact
    { names := by
        apply SortedNames.eq_of_perm _ hsorted
        · rw [← Index.filter_names]
          exact SortedNames.pairwise_le_of_ascending (around.index.ascending_names.filter _)
        · rw [← Index.filter_names]
          apply (hperm.map _).trans
          rw [hsound.units]
          exact hnames.filter _
      tops := fun unit hunit => hsound.tops unit (hperm.mem_iff.mp hunit)
      once := ((hmodules.map _).trans hsound.once).trans hnames
      fits := fun module hmodule => hsound.fits module (hmodules.mem_iff.mp hmodule) }
  · apply hsound.grounded resolution.nodup_order _ hwaiting name (hnames.mem_iff.mpr hname)
    intro name hname
    rw [hindex]
    exact resolution.mem_order_iff.mp hname

/-- The assembly fails only for a text that is no identifier, or for a missing outer declaration or
member, and the latter only if some chain does not end. -/
theorem cases_of_assembleUnits_eq_error {error : EmitError}
    (hunits : assembleUnits around resolution.subjects = .error error) :
    (∃ text ∈ resolution.identifiers around, Ident.ofName text = .error error) ∨
      ∃ missing, error = .missingNested missing ∧
        ∃ name ∈ around.index.entries.map Entry.name, ¬ around.index.Grounded name := by
  rw [assembleUnits_eq hindex] at hunits
  rcases Outcome.bind_eq_error_iff.mp hunits with hrun | ⟨assembly, hrun, hfinish⟩
  · obtain ⟨done, name, rest, reached, horder, hdone, hadd⟩ :=
      Outcome.exists_of_foldlM_eq_error hrun
    have hname : name ∈ resolution.order := by simp [horder]
    have hnodup := resolution.nodup_order
    rw [horder, List.nodup_append] at hnodup
    have hsound := Assembly.Sound.of_run hnodup.1 hdone
    rcases Assembly.cases_of_add_eq_error hadd with
      hunknown | ⟨subject, hsubject, hitem⟩ | htake | hpath
    · rw [resolution.order_perm.mem_iff, ← resolution.subjects_perm.mem_iff, List.mem_map] at hname
      obtain ⟨subject, hsubject, hname⟩ := hname
      exact absurd hname (hunknown subject hsubject)
    · left
      obtain ⟨text, htext, hfailed⟩ := resolution.failsByIdentifier_item hindex hsubject error hitem
      refine ⟨text, List.mem_append_left _ ?_, hfailed⟩
      exact List.mem_flatMap.mpr ⟨subject, hsubject, htext⟩
    · rcases takeMembers_eq_error (around.index.nodup_nestedMembers name) htake with
        ⟨member, hmember, hident⟩ | ⟨member, hmember, hmissing, rfl⟩
      · left
        refine ⟨_, List.mem_append_right _ ?_, hident⟩
        rw [Index.mem_nestedMembers_iff, hindex] at hmember
        obtain ⟨entry, hget, houter⟩ := Option.bind_eq_some_iff.mp hmember
        obtain ⟨hentry, rfl⟩ := Index.get?_eq_some_iff.mp hget
        exact List.mem_map.mpr ⟨entry, List.mem_filter.mpr ⟨hentry, by simp [houter]⟩, rfl⟩
      · right
        have houter := Index.mem_nestedMembers_iff.mp hmember
        have hnew : name ∉ done := fun hmem => hnodup.2.2 name hmem name List.mem_cons_self rfl
        refine ⟨member, rfl, name, ?_, fun hgrounded => hmissing ?_⟩
        · rw [hindex, ← resolution.order_perm.mem_iff]
          exact hname
        · apply (hsound.waiting member).mpr
          refine ⟨?_, name, houter, hnew⟩
          rw [hindex] at houter hgrounded
          obtain ⟨depth, hdepth⟩ := hgrounded.exists_depthIs
          apply Index.mem_before_outer horder _ houter hdepth
          exact resolution.mem_order_iff.mpr (Index.isSome_get?_of_outer? houter)
    · rw [resolution.mem_order_iff, ← hindex] at hname
      obtain ⟨path, hfound⟩ := Surroundings.exists_filePath hname
      rw [hfound] at hpath
      cases hpath
  · have hsound := Assembly.Sound.of_run resolution.nodup_order hrun
    obtain ⟨orphan, horphan, rfl⟩ := Assembly.exists_of_finish_eq_error hfinish
    obtain ⟨hmem, outer, houter, hopen⟩ := (hsound.waiting orphan).mp horphan
    refine .inr ⟨orphan, rfl, orphan, ?_, fun hgrounded => hopen ?_⟩
    · rw [hindex, ← resolution.order_perm.mem_iff]
      exact hmem
    · rw [resolution.mem_order_iff, ← hindex]
      cases hgrounded with
      | top _ hnone => simp [hnone] at houter
      | nested houter' hgrounded =>
        rw [houter, Option.some.injEq] at houter'
        exact houter' ▸ hgrounded.isSome_get?

omit hindex

theorem emit_eq (index : Index) (config : GenerateConfig)
    (haround : Surroundings.ofConfig index config = .ok around) (trees : List Resolved)
    (enums : List ResolvedEnum) :
    emit index config trees enums =
      (assembleUnits around (trees.map (.type ·.type) ++ enums.map .enumeration)).map
        fun units => units.map OutputUnit.artifact := by
  rw [emit, emitUnits, haround]
  rfl

theorem index_of_ofConfig {index : Index} {config : GenerateConfig}
    (haround : Surroundings.ofConfig index config = .ok around) : around.index = index := by
  obtain ⟨root, -, haround⟩ := Outcome.bind_eq_ok_iff.mp haround
  obtain ⟨runtime, -, haround⟩ := Outcome.bind_eq_ok_iff.mp haround
  cases haround
  rfl

/-- The items of complete output are given paths, so that their code can be read. -/
theorem spelled_of_complete {index : Index} {config : GenerateConfig}
    (haround : Surroundings.ofConfig index config = .ok around) {subjects : List Subject}
    {units : List OutputUnit} (hcomplete : around.Complete subjects units) :
    ∀ module ∈ units.flatMap (·.module.all), module.Spelled := by
  intro module hmodule inner hinner
  obtain ⟨unit, hunit, hmodule⟩ := List.mem_flatMap.mp hmodule
  have hfits := hcomplete.fits inner
    (List.mem_flatMap.mpr ⟨unit, hunit, Module.mem_all_trans hmodule hinner⟩)
  obtain ⟨subject, -, -, hitem⟩ := hfits.item
  exact Item.spelled_of_eq_ok haround hitem

theorem spelled_unit_of_complete {index : Index} {config : GenerateConfig}
    (haround : Surroundings.ofConfig index config = .ok around) {subjects : List Subject}
    {units : List OutputUnit} (hcomplete : around.Complete subjects units) {unit : OutputUnit}
    (hunit : unit ∈ units) : unit.module.Spelled :=
  spelled_of_complete haround hcomplete _
    (List.mem_flatMap.mpr ⟨unit, hunit, unit.module.mem_all_self⟩)

/-- With valid identifiers, either everything is emitted and all chains end, or something is missing
and some chain does not end. -/
theorem cases_emit (resolution : Resolution) (config : GenerateConfig) {around : Surroundings}
    (haround : Surroundings.ofConfig resolution.index config = .ok around)
    (hvalid : ∀ text ∈ resolution.identifiers around, Ident.isValid (Ident.escape text) = true) :
    (∃ units, emit resolution.index config resolution.trees resolution.enums =
        .ok (units.map OutputUnit.artifact) ∧ around.Complete resolution.subjects units ∧
        ∀ name ∈ resolution.index.entries.map Entry.name, resolution.index.Grounded name) ∨
      ∃ missing, emit resolution.index config resolution.trees resolution.enums =
        .error (.missingNested missing) ∧
        ∃ name ∈ resolution.index.entries.map Entry.name, ¬ resolution.index.Grounded name := by
  have hindex := index_of_ofConfig haround
  rw [emit_eq resolution.index config haround resolution.trees resolution.enums]
  change (∃ units, (assembleUnits around resolution.subjects).map _ = _ ∧ _) ∨
    ∃ missing, (assembleUnits around resolution.subjects).map _ = _ ∧ _
  cases hunits : assembleUnits around resolution.subjects with
  | ok units =>
    obtain ⟨hcomplete, hgrounded⟩ := complete_of_assembleUnits hindex hunits
    rw [hindex] at hgrounded
    exact .inl ⟨units, rfl, hcomplete, hgrounded⟩
  | error error =>
    rcases cases_of_assembleUnits_eq_error hindex hunits with
      ⟨text, htext, hfailed⟩ | ⟨missing, rfl, hopen⟩
    · have hinvalid := (Ident.ofName_eq_error_iff.mp hfailed).1
      rw [hvalid text htext] at hinvalid
      cases hinvalid
    · rw [hindex] at hopen
      exact .inr ⟨missing, rfl, hopen⟩

/-- Emission succeeds if and only if every chain of outer declarations ends, and fails for a missing
outer declaration or member otherwise.  The artifacts are one for each declaration without an outer
one, by name, and every declaration is in them once, a nested one as a module of its own directly
inside its outer declaration.  The code of an artifact is read back accordingly: after a mark comes
the code of its module, and in the code of each module the item is declared and the members stand as
inner modules. -/
theorem emit_complete (resolution : Resolution) (config : GenerateConfig) {around : Surroundings}
    (haround : Surroundings.ofConfig resolution.index config = .ok around)
    (hvalid : ∀ text ∈ resolution.identifiers around, Ident.isValid (Ident.escape text) = true) :
    ((∃ artifacts, emit resolution.index config resolution.trees resolution.enums = .ok artifacts) ↔
        ∀ name, resolution.index.IsType name ∨ resolution.index.IsEnumeration name →
          resolution.index.Grounded name) ∧
      ((∃ name, (resolution.index.IsType name ∨ resolution.index.IsEnumeration name) ∧
          ¬ resolution.index.Grounded name) →
        ∃ missing, emit resolution.index config resolution.trees resolution.enums =
          .error (.missingNested missing)) ∧
      ∀ artifacts, emit resolution.index config resolution.trees resolution.enums = .ok artifacts →
        artifacts.map (·.name) =
            (resolution.index.entries.filter (·.decl.outer?.isNone)).map Entry.name ∧
          ∃ units, artifacts = units.map OutputUnit.artifact ∧
            around.Complete resolution.subjects units ∧
            (∀ unit ∈ units, unit.artifact.code = lintMark ++ unit.module.code ∧
              unit.artifact.code.outline = unit.module.code.outline) ∧
            ∀ module ∈ units.flatMap (·.module.all), module.Written := by
  have hgrounded := @Index.grounded_iff resolution.index
  rw [← hgrounded]
  rcases cases_emit resolution config haround hvalid with
    ⟨units, hemit, hcomplete, hall⟩ | ⟨missing, hemit, name, hname, hopen⟩
  · rw [hemit]
    refine ⟨⟨fun _ => hall, fun _ => ⟨_, rfl⟩⟩, ?_, ?_⟩
    · rintro ⟨name, hname, hopen⟩
      exact absurd (hgrounded.mp hall name hname) hopen
    · rintro artifacts hartifacts
      cases hartifacts
      refine ⟨?_, units, rfl, hcomplete, fun unit hunit => ⟨rfl, ?_⟩, fun module hmodule => ?_⟩
      · rw [← index_of_ofConfig haround, ← hcomplete.names, List.map_map]
        rfl
      · exact unit.outline_artifact (spelled_unit_of_complete haround hcomplete hunit)
      · exact (spelled_of_complete haround hcomplete module hmodule).written
  · rw [hemit]
    refine ⟨⟨?_, fun hall => absurd (hall name hname) hopen⟩, fun _ => ⟨missing, rfl⟩, ?_⟩
    · rintro ⟨artifacts, hfailed⟩
      cases hfailed
    · intro artifacts hfailed
      cases hfailed

/-- A component with a type in it, an enumeration in that and a type in that again, in a package and
under names that are keywords. -/
def memberIndex : Index where
  entries :=
    [⟨⟨"pkg/type.schema", "pkg.type"⟩, .component (.declare "pkg.type.Body" 7
        [.singular "part" 1 (.named "pkg.type.Body.Self")])⟩,
      ⟨⟨"pkg/type.schema", "pkg.type"⟩, .type ((TypeDecl.declare "pkg.type.Body.Self"
        [.singular "mode" 1 (.enumeration "pkg.type.Body.Self.Mode")]).nestedIn "pkg.type.Body")⟩,
      ⟨⟨"pkg/type.schema", "pkg.type"⟩, .enumeration ((EnumDecl.declare "pkg.type.Body.Self.Mode"
        [("IDLE", 0)]).nestedIn "pkg.type.Body.Self")⟩,
      ⟨⟨"pkg/type.schema", "pkg.type"⟩, .type ((TypeDecl.declare "pkg.type.Body.Self.Mode.Note"
        []).nestedIn "pkg.type.Body.Self.Mode")⟩]
  ascending := by decide

def ofMembers : Resolution where
  index := memberIndex
  config := {}
  trees := (memberIndex.resolveAll {} []).2.toOption.getD []
  enums := memberIndex.resolveEnums.toOption.getD []
  resolveAll_eq := rfl
  resolveEnums_eq := rfl

def memberSurroundings : Surroundings where
  index := memberIndex
  root := ⟨false, ["crate"]⟩
  runtime := ⟨true, ["compgen_runtime"]⟩

theorem memberSurroundings_eq :
    Surroundings.ofConfig memberIndex {} = .ok memberSurroundings :=
  Surroundings.ofConfig_default memberIndex

theorem isValid_members : ∀ text ∈ ofMembers.identifiers memberSurroundings,
    Ident.isValid (Ident.escape text) = true := by
  decide +kernel

theorem grounded_members :
    ∀ name, memberIndex.IsType name ∨ memberIndex.IsEnumeration name →
      memberIndex.Grounded name := by
  have hbody : memberIndex.Grounded "pkg.type.Body" := .top (by decide) (by decide)
  have hself : memberIndex.Grounded "pkg.type.Body.Self" := .nested (by decide) hbody
  have hmode : memberIndex.Grounded "pkg.type.Body.Self.Mode" := .nested (by decide) hself
  have hnote : memberIndex.Grounded "pkg.type.Body.Self.Mode.Note" := .nested (by decide) hmode
  rw [← Index.grounded_iff]
  simp only [memberIndex, List.map_cons, List.map_nil, List.forall_mem_cons]
  exact ⟨hbody, hself, hmode, hnote, by simp⟩

/-- A declaration with one nested in it has one inner module. -/
theorem exists_member_of_complete {subjects : List Subject} {units : List OutputUnit}
    (hcomplete : around.Complete subjects units) {module : Module}
    (hmodule : module ∈ units.flatMap (·.module.all)) {name nested text : String}
    (hname : module.item.name = name) (hnested : around.index.nestedMembers name = [nested])
    (htext : (Ident.ofModule (shortName nested)).toOption.map Ident.text = some text) :
    ∃ inner ∈ units.flatMap (·.module.all), inner.item.name = nested ∧
      (module.members.map fun member => (member.1.text, member.2.code)) = [(text, inner.code)] := by
  have hmembers := (hcomplete.fits module hmodule).members
  rw [hname, hnested] at hmembers
  obtain ⟨⟨ident, inner⟩, members, ⟨hident, hinnerName⟩, hnil, hcons⟩ :=
    List.forall₂_cons_left_iff.mp hmembers
  obtain rfl := List.forall₂_nil_left_iff.mp hnil
  obtain ⟨unit, hunit, hmodule⟩ := List.mem_flatMap.mp hmodule
  have hinner : inner ∈ module.all := Module.mem_all_of_member
    (hcons ▸ List.mem_cons_self) inner.mem_all_self
  refine ⟨inner, List.mem_flatMap.mpr ⟨unit, hunit, Module.mem_all_trans hmodule hinner⟩,
    hinnerName, ?_⟩
  rw [hident] at htext
  rw [hcons, List.map_singleton, Option.some.inj htext]

theorem nestedMembers_members :
    memberSurroundings.index.nestedMembers "pkg.type.Body" = ["pkg.type.Body.Self"] ∧
      memberSurroundings.index.nestedMembers "pkg.type.Body.Self" = ["pkg.type.Body.Self.Mode"] ∧
      memberSurroundings.index.nestedMembers "pkg.type.Body.Self.Mode" =
        ["pkg.type.Body.Self.Mode.Note"] ∧
      memberSurroundings.index.nestedMembers "pkg.type.Body.Self.Mode.Note" = [] :=
  ⟨List.mergeSort_of_pairwise (by decide), List.mergeSort_of_pairwise (by decide),
    List.mergeSort_of_pairwise (by decide), List.mergeSort_of_pairwise (by decide)⟩

theorem moduleTexts_members :
    (Ident.ofModule (shortName "pkg.type.Body.Self")).toOption.map Ident.text = some "self_" ∧
      (Ident.ofModule (shortName "pkg.type.Body.Self.Mode")).toOption.map Ident.text =
        some "mode" ∧
      (Ident.ofModule (shortName "pkg.type.Body.Self.Mode.Note")).toOption.map Ident.text =
        some "note" := by
  decide +kernel

/-- What the first blocks in the code of the members are named. -/
def memberBlocks : List (String × String) :=
  [("pkg.type.Body", "Body"), ("pkg.type.Body.Self", "Self_"),
    ("pkg.type.Body.Self.Mode", "Mode"), ("pkg.type.Body.Self.Mode.Note", "Note")]

theorem head?_outline_members {units : List OutputUnit}
    (hcomplete : memberSurroundings.Complete ofMembers.subjects units) {module : Module}
    (hmodule : module ∈ units.flatMap (·.module.all)) (hwritten : module.Written) :
    module.code.outline.head?.map (·.name) = memberBlocks.lookup module.item.name := by
  have hidents : ∀ subject ∈ ofMembers.subjects,
      (Ident.ofType subject.label).toOption.map Ident.text = memberBlocks.lookup subject.name := by
    decide +kernel
  obtain ⟨subject, hsubject, hname, hitem⟩ := (hcomplete.fits module hmodule).item
  have hblock := hidents subject hsubject
  have hfirst := congrArg (Option.map Prod.snd) hwritten.first
  rw [(Item.of_eq_ok hitem).2, hname] at hblock
  rw [Option.map_map] at hfirst
  exact hfirst.trans hblock

theorem emit_complete_members :
    Surroundings.ofConfig memberIndex {} = .ok memberSurroundings ∧
      (∀ text ∈ ofMembers.identifiers memberSurroundings,
        Ident.isValid (Ident.escape text) = true) ∧
      ∃ (artifact : Artifact) (self mode note : Code),
        emit memberIndex {} ofMembers.trees ofMembers.enums = .ok [artifact] ∧
        artifact.name = "pkg.type.Body" ∧ artifact.code.introduced "mod" = [("self_", self)] ∧
        self.introduced "mod" = [("mode", mode)] ∧ mode.introduced "mod" = [("note", note)] ∧
        note.introduced "mod" = [] ∧
        [artifact.code, self, mode, note].map (fun code => code.outline.head?.map (·.name)) =
          [some "Body", some "Self_", some "Mode", some "Note"] := by
  obtain ⟨hemits, -, hartifacts⟩ :=
    emit_complete ofMembers {} memberSurroundings_eq isValid_members
  obtain ⟨artifacts, hemit⟩ := hemits.mpr grounded_members
  obtain ⟨-, units, rfl, hcomplete, hcode, hwritten⟩ := hartifacts artifacts hemit
  obtain ⟨unit, rfl⟩ : ∃ unit, units = [unit] := by
    apply List.length_eq_one_iff.mp
    rw [← List.length_map (·.name), hcomplete.names]
    rfl
  obtain ⟨htop, -⟩ := hcomplete.tops unit List.mem_cons_self
  obtain ⟨-, houtline⟩ := hcode unit List.mem_cons_self
  have hname : unit.name = "pkg.type.Body" := List.head_eq_of_cons_eq hcomplete.names
  have hbody : unit.module ∈ [unit].flatMap (·.module.all) := by
    simpa using unit.module.mem_all_self
  obtain ⟨hinBody, hinSelf, hinMode, hinNote⟩ := nestedMembers_members
  obtain ⟨hselfText, hmodeText, hnoteText⟩ := moduleTexts_members
  obtain ⟨self, hself, hselfName, hbodyMembers⟩ :=
    exists_member_of_complete hcomplete hbody (htop.trans hname) hinBody hselfText
  obtain ⟨mode, hmode, hmodeName, hselfMembers⟩ :=
    exists_member_of_complete hcomplete hself hselfName hinSelf hmodeText
  obtain ⟨note, hnote, hnoteName, hmodeMembers⟩ :=
    exists_member_of_complete hcomplete hmode hmodeName hinMode hnoteText
  have hnoteMembers : note.members = [] := by
    have hmembers := (hcomplete.fits note hnote).members
    rw [hnoteName, hinNote] at hmembers
    exact List.forall₂_nil_left_iff.mp hmembers
  refine ⟨memberSurroundings_eq, isValid_members, unit.artifact, self.code, mode.code, note.code,
    hemit, hname, ?_, (hwritten self hself).members.trans hselfMembers,
    (hwritten mode hmode).members.trans hmodeMembers,
    (hwritten note hnote).members.trans (by rw [hnoteMembers, List.map_nil]), ?_⟩
  · rw [Code.introduced, houtline]
    exact (hwritten _ hbody).members.trans hbodyMembers
  · simp only [List.map_cons, List.map_nil, houtline]
    rw [head?_outline_members hcomplete hbody (hwritten _ hbody),
      head?_outline_members hcomplete hself (hwritten _ hself),
      head?_outline_members hcomplete hmode (hwritten _ hmode),
      head?_outline_members hcomplete hnote (hwritten _ hnote), htop, hname, hselfName, hmodeName,
      hnoteName]
    decide

theorem exists_emit_members :
    ∃ artifacts, emit memberIndex {} ofMembers.trees ofMembers.enums = .ok artifacts := by
  rcases cases_emit ofMembers {} memberSurroundings_eq isValid_members with
    ⟨units, hemit, -⟩ | ⟨missing, -, name, hname, hopen⟩
  · exact ⟨_, hemit⟩
  · exact absurd (Index.grounded_iff.mpr grounded_members name hname) hopen

end Resolution

end SchemaLoom
