import SchemaLoom.Proofs.OutputFiles

/-!
# Files below the output directory

A generated file has a path of names only, so joined to the output directory it stays below it.
The one exception is a path that starts at the root, which stands for itself wherever it is joined
to.  Names are made into files without a look at their slashes, so this happens just for the
declarations with a segment that begins with one.
-/

namespace SchemaLoom

open Storage (Path Component)

/-! ## Paths that start at the root -/

theorem Ident.head?_moduleName_eq_slash_iff (name : String) :
    (moduleName name).toList.head? = some '/' ↔ name.toList.head? = some '/' := by
  refine Iff.trans ?_ (Text.head?_snake_eq_slash_iff name)
  rw [moduleName, escape]
  split
  · rw [String.toList_append]
    cases (Text.snake name).toList <;> simp
  · rfl

namespace Storage.Path

theorem isAbsolute_join (path other : Path) :
    (path.join other).isAbsolute = (path.isAbsolute || other.isAbsolute) := by
  rw [join]
  cases hother : other.isAbsolute with
  | true => simp [hother]
  | false =>
    simp only [Bool.false_eq_true, if_false, Bool.or_false]
    rcases List.eq_nil_or_concat path.text.toList with hempty | ⟨front, last, htext⟩
    · rw [hempty]
      simpa [hempty, isAbsolute] using hother
    · rw [htext]
      split
      · next hlast => simp at hlast
      · split <;> cases front <;> simp [isAbsolute, htext]

theorem isAbsolute_ofNames (names : List String) :
    (ofNames names).isAbsolute = names.any fun name => isAbsolute ⟨name⟩ := by
  suffices hfold : ∀ path : Path,
      (names.foldl (fun path name => path.join ⟨name⟩) path).isAbsolute =
        (path.isAbsolute || names.any fun name => isAbsolute ⟨name⟩) from hfold ⟨""⟩
  induction names with
  | nil => simp
  | cons name names ih =>
    intro path
    rw [List.foldl_cons, ih, isAbsolute_join, List.any_cons, Bool.or_assoc]

/-- A path below another one: the same components and then names. -/
def Below (directory path : Path) : Prop :=
  ∃ names, names ≠ [] ∧ (∀ name ∈ names, IsPlain name) ∧
    path.components = directory.components ++ names.map .name

/-- What has a path of names stays below every directory that it is joined to. -/
theorem below_join {path : Path} {names : List String} (hne : names ≠ [])
    (hplain : ∀ name ∈ names, IsPlain name) (hpath : path.components = spelled false names)
    (directory : Path) : Below directory (directory.join path) := by
  refine ⟨names, hne, hplain, ?_⟩
  rw [components_join_of_spelled directory hpath, hpath]
  rfl

/-- A path with one dot stays below every directory exactly if it does not start at the root. -/
theorem HasOneDot.below_join_iff {path : Path} (hdot : path.HasOneDot) :
    (∀ directory : Path, Below directory (directory.join path)) ↔ path.isAbsolute = false := by
  obtain ⟨names, hne, hplain, hpath⟩ := hdot.exists_names
  constructor
  · intro hbelow
    obtain ⟨inner, -, -, hinner⟩ := hbelow ⟨"a"⟩
    rw [components_join_of_spelled _ hpath, hpath] at hinner
    cases habsolute : path.isAbsolute with
    | false => rfl
    | true =>
      have hdirectory : (⟨"a"⟩ : Path).components = [.name "a"] := by decide
      simp [habsolute, spelled, hdirectory] at hinner
  · intro hrelative
    rw [hrelative] at hpath
    exact below_join hne hplain hpath

/-- The file of a directory on the way to such a path stays below as well. -/
theorem HasOneDot.below_moduleFile {path : Path} (hdot : path.HasOneDot)
    (hrelative : path.isAbsolute = false) {directory : Directory} {component : Component}
    {back : List Component} (hlink : path.components = directory ++ component :: back)
    (outDir : Path) : Below outDir (ModuleTree.moduleFile outDir directory) := by
  obtain ⟨names, -, hplain, hpath⟩ := hdot.exists_names
  rw [hrelative, hlink] at hpath
  obtain ⟨inner, hinner, rfl⟩ := List.prefix_map_iff.mp ⟨component :: back, hpath⟩
  have hplainInner : ∀ name ∈ inner, IsPlain name := fun name hmem => hplain name (hinner.mem hmem)
  refine ⟨inner ++ ["mod.rs"], by simp, ?_, ?_⟩
  · rw [List.forall_mem_append, List.forall_mem_singleton]
    exact ⟨hplainInner, ModuleTree.isPlain_moduleFile⟩
  · rw [List.map_append, ← List.append_assoc]
    exact ModuleTree.components_moduleFile outDir false hplainInner

end Storage.Path

/-! ## Generated files -/

namespace Surroundings

variable {around : Surroundings} {name : String}

/-- The segments that the path of a file is made of: those of the package and the first of the
name. -/
def fileSegments (around : Surroundings) (name : String) : List String :=
  match around.split name with
  | .ok (package, parts) => package ++ parts.head?.toList
  | .error _ => []

/-- The path of a file starts at the root if one of its segments does. -/
theorem isAbsolute_of_filePath {path : Path} (hpath : around.filePath name = .ok path) :
    path.isAbsolute = true ↔
      ∃ segment ∈ around.fileSegments name, segment.toList.head? = some '/' := by
  obtain ⟨⟨package, parts⟩, hsplit, -⟩ := Outcome.bind_eq_ok_iff.mp hpath
  obtain ⟨-, hne, -⟩ := notMem_dot_of_split hsplit
  have hmodule : ∀ segment, Path.isAbsolute ⟨Ident.moduleName segment⟩ = true ↔
      segment.toList.head? = some '/' := fun segment => by
    rw [← Ident.head?_moduleName_eq_slash_iff, Path.isAbsolute, beq_iff_eq]
  have hfile : ∀ segment, Path.isAbsolute ⟨Ident.moduleName segment ++ ".rs"⟩ = true ↔
      segment.toList.head? = some '/' := fun segment => by
    rw [← Ident.head?_moduleName_eq_slash_iff, Path.isAbsolute, beq_iff_eq, String.toList_append]
    cases (Ident.moduleName segment).toList <;> simp
  rw [filePath_eq hsplit, Except.ok.injEq] at hpath
  subst hpath
  rw [Path.isAbsolute_join, Path.isAbsolute_ofNames, List.any_map, List.head?_eq_some_head hne]
  simp only [fileSegments, hsplit, List.head?_eq_some_head hne, Bool.or_eq_true, List.any_eq_true,
    Function.comp_apply, hmodule, hfile, Option.getD_some, Option.toList_some, List.mem_append,
    List.mem_singleton, or_and_right, exists_or, exists_eq_left]

end Surroundings

/-- Every file that is written for artifacts without an absolute path is below the output
directory. -/
theorem below_of_outputFiles {artifacts : List Artifact}
    (hdot : ∀ artifact ∈ artifacts, artifact.path.HasOneDot)
    (hrelative : ∀ artifact ∈ artifacts, artifact.path.isAbsolute = false) {outDir : Path}
    {header : String} {files : List (Path × String)}
    (hfiles : outputFiles artifacts outDir header = .ok files) :
    ∀ file ∈ files, Path.Below outDir file.1 := by
  obtain ⟨tree, htree, hfiles⟩ := Outcome.bind_eq_ok_iff.mp hfiles
  obtain ⟨-, rfl⟩ := ModuleTree.exists_of_ofPaths_eq_ok htree
  cases hfiles
  rw [List.forall_mem_append, List.forall_mem_map]
  constructor
  · intro artifact hartifact
    exact (hdot artifact hartifact).below_join_iff.mpr (hrelative artifact hartifact) outDir
  · rw [ModuleTree.files, List.map_map, List.forall_mem_map]
    intro directory hdirectory
    obtain ⟨component, artifact, hartifact, back, hlink⟩ :=
      mem_directories_linksOf_iff.mp hdirectory
    exact (hdot artifact hartifact).below_moduleFile (hrelative artifact hartifact) hlink outDir

/-- The path of a generated file has only names as components, after the root if one of its segments
begins with a slash.  Without such a segment it is relative and stays below every output directory;
with one it stands for itself whatever the output directory is.  If no declaration has such a
segment, every file that is written is below the output directory, those of directories included. -/
theorem generated_below_iff {index : Index} {config : GenerateConfig} {generation : Generation}
    (hgenerate : generate index config = .ok generation) :
    ∃ around, Surroundings.ofConfig index config = .ok around ∧
      (∀ artifact ∈ generation.artifacts,
        (∃ names, names ≠ [] ∧ (∀ name ∈ names, Path.IsPlain name) ∧
          artifact.path.components = Path.spelled artifact.path.isAbsolute names) ∧
        (artifact.path.isAbsolute = true ↔
          ∃ segment ∈ around.fileSegments artifact.name, segment.toList.head? = some '/') ∧
        ((∀ outDir : Path, Path.Below outDir (outDir.join artifact.path)) ↔
          artifact.path.isAbsolute = false) ∧
        (artifact.path.isAbsolute = true → ∀ outDir : Path,
          outDir.join artifact.path = artifact.path)) ∧
      ∀ outDir header files, outputFiles generation.artifacts outDir header = .ok files →
        (∀ artifact ∈ generation.artifacts, artifact.path.isAbsolute = false) →
          ∀ file ∈ files, Path.Below outDir file.1 := by
  have hdot := hasOneDot_of_generate hgenerate
  obtain ⟨_, around, units, -, -, haround, hunits, hcomplete⟩ :=
    exists_complete_of_generate hgenerate
  refine ⟨around, haround, fun artifact hartifact => ⟨?_, ?_, ?_, fun habsolute outDir => ?_⟩,
    fun outDir header files hfiles hrelative => below_of_outputFiles hdot hrelative hfiles⟩
  · exact (hdot artifact hartifact).exists_names
  · rw [hunits, List.mem_map] at hartifact
    obtain ⟨unit, hunit, rfl⟩ := hartifact
    exact Surroundings.isAbsolute_of_filePath (hcomplete.tops unit hunit).2
  · exact (hdot artifact hartifact).below_join_iff
  · rw [Path.join, if_pos habsolute]

theorem generated_below_iff_plain :
    ∃ generation, generate plainIndex {} = .ok generation ∧
      (∃ artifact ∈ generation.artifacts, artifact.path = ⟨"kind.rs"⟩ ∧
        ∀ outDir : Path, Path.Below outDir (outDir.join artifact.path)) ∧
      ∀ outDir header files, outputFiles generation.artifacts outDir header = .ok files →
        ∀ file ∈ files, Path.Below outDir file.1 := by
  obtain ⟨kind, mod, generation, hgenerate, hartifacts, hkind, hmod⟩ := exists_generate_plain
  have hrelative : ∀ artifact ∈ generation.artifacts, artifact.path.isAbsolute = false := by
    rw [hartifacts, List.forall_mem_cons, List.forall_mem_singleton]
    simp only [OutputUnit.artifact, hkind, hmod]
    exact ⟨by decide, by decide⟩
  have hmem : kind.artifact ∈ generation.artifacts := by simp [hartifacts]
  obtain ⟨around, -, hpaths, hwritten⟩ := generated_below_iff hgenerate
  refine ⟨generation, hgenerate, ⟨kind.artifact, hmem, hkind, ?_⟩, fun outDir header files hfiles =>
    hwritten outDir header files hfiles hrelative⟩
  exact (hpaths kind.artifact hmem).2.2.1.mpr (hrelative kind.artifact hmem)

/-- An enumeration in a package with a name that begins with a slash. -/
def rootedIndex : Index where
  entries := [⟨⟨"a.schema", "/etc"⟩, .enumeration (.declare "/etc.Kind" [("A", 0)])⟩]
  ascending := by decide

def ofRooted : Resolution where
  index := rootedIndex
  config := {}
  trees := []
  enums := rootedIndex.resolveEnums.toOption.getD []
  resolveAll_eq := rfl
  resolveEnums_eq := rfl

theorem exists_generate_rooted :
    ∃ kind : OutputUnit, ∃ generation, generate rootedIndex {} = .ok generation ∧
      generation.artifacts = [kind.artifact] ∧ kind.path = ⟨"/etc/kind.rs"⟩ := by
  obtain ⟨units, generation, hgenerate, hartifacts, hpaths⟩ :=
    ofRooted.exists_generate_of_tops (Surroundings.ofConfig_default rootedIndex)
      (by decide +kernel) (by decide)
  obtain ⟨kind, last, rfl, hkind, hlast⟩ := List.map_eq_cons_iff.mp hpaths
  obtain rfl := List.map_eq_nil_iff.mp hlast
  exact ⟨kind, generation, hgenerate, hartifacts, Except.ok.inj hkind⟩

/-- The file of the enumeration is written to the same place whatever the output directory is. -/
theorem generated_file_outside :
    ∃ generation, generate rootedIndex {} = .ok generation ∧
      ∃ artifact ∈ generation.artifacts, artifact.path.isAbsolute = true ∧
        (∀ outDir : Path, outDir.join artifact.path = ⟨"/etc/kind.rs"⟩) ∧
        ¬ Path.Below ⟨"out"⟩ ((⟨"out"⟩ : Path).join artifact.path) := by
  obtain ⟨kind, generation, hgenerate, hartifacts, hkind⟩ := exists_generate_rooted
  have habsolute : (⟨"/etc/kind.rs"⟩ : Path).isAbsolute = true := by decide
  refine ⟨generation, hgenerate, kind.artifact, by simp [hartifacts], ?_⟩
  simp only [OutputUnit.artifact, hkind]
  refine ⟨habsolute, fun outDir => by rw [Path.join, if_pos habsolute], ?_⟩
  rintro ⟨names, -, -, hnames⟩
  have hfile : ((⟨"out"⟩ : Path).join ⟨"/etc/kind.rs"⟩).components =
      [.root, .name "etc", .name "kind.rs"] := by decide
  have hdirectory : (⟨"out"⟩ : Path).components = [.name "out"] := by decide
  simp [hfile, hdirectory] at hnames

end SchemaLoom
