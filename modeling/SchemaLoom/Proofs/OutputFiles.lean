import SchemaLoom.Proofs.GeneratedPaths
import SchemaLoom.Proofs.StoredFiles

/-!
# Which files are kept

The files of artifacts are written first, and after them one file for each directory, which declares
its modules.  No two artifacts have the same components and neither have two directories, so a file
is lost only where an artifact has the name of the files of directories: what is then found in its
place are the declarations of its directory.
-/

namespace SchemaLoom

open Storage (Path Component Volume)

/-! ## Places of names -/

namespace Storage

theorem Place.along_append (place : Place) (front back : List Component) :
    along place (front ++ back) = along (along place front) back := by
  fun_induction along place front with
  | case1 => rfl
  | case2 _ _ ih => exact ih
  | case3 _ _ ih => exact ih
  | case4 _ _ ih => exact ih
  | case5 _ _ _ ih => exact ih

theorem Place.along_names (place : Place) (names : List String) :
    along place (names.map .name) = place ++ names := by
  induction names generalizing place with
  | nil => simp [along]
  | cons name names ih => rw [List.map_cons, along, ih, List.append_assoc, List.singleton_append]

namespace Path

theorem along_spelled (place : Place) (rooted : Bool) (names : List String) :
    Place.along place (spelled rooted names) = (if rooted then [] else place) ++ names := by
  cases rooted with
  | true => exact Place.along_names [] names
  | false => exact Place.along_names place names

theorem place_join_of_spelled (path : Path) {other : Path} {rooted : Bool} {names : List String}
    (hother : other.components = spelled rooted names) :
    (path.join other).place = Place.along path.place other.components := by
  rw [place, place, components_join_of_spelled path hother]
  cases rooted with
  | false => exact Place.along_append [] path.components other.components
  | true =>
    rw [hother]
    rfl

/-- Components of names that lead from a place to somewhere below it, or from the root to somewhere
else. -/
def Apart (base : Place) (components : List Component) : Prop :=
  ∃ rooted names, names ≠ [] ∧ (rooted = true → ¬ base <+: names.dropLast) ∧
    components = spelled rooted names

/-- Components that lead to the same place are the same. -/
theorem Apart.eq_of_along_eq {base : Place} {left right : List Component}
    (hleft : Apart base left) (hright : Apart base right)
    (heq : Place.along base left = Place.along base right) : left = right := by
  have hbelow : ∀ names inner, inner ≠ [] → base ++ inner = names → base <+: names.dropLast := by
    rintro _ inner hinner rfl
    rw [List.dropLast_append_of_ne_nil hinner]
    exact List.prefix_append _ _
  obtain ⟨rooted, names, hne, houtside, rfl⟩ := hleft
  obtain ⟨rooted', names', hne', houtside', rfl⟩ := hright
  rw [along_spelled, along_spelled] at heq
  cases rooted with
  | false =>
    cases rooted' with
    | false => rw [List.append_cancel_left heq]
    | true => exact absurd (hbelow names' names hne heq) (houtside' rfl)
  | true =>
    cases rooted' with
    | false => exact absurd (hbelow names names' hne' heq.symm) (houtside rfl)
    | true => rw [List.append_cancel_left heq]

/-- A path leads along components that are apart. -/
structure Located (base : Place) (path : Path) (components : List Component) : Prop where
  apart : Apart base components
  place : path.place = Place.along base components

theorem Located.eq_of_place_eq {base : Place} {left right : Path}
    {components components' : List Component} (hleft : left.Located base components)
    (hright : right.Located base components') (hplace : left.place = right.place) :
    components = components' := by
  apply hleft.apart.eq_of_along_eq hright.apart
  rw [← hleft.place, ← hright.place, hplace]

theorem same_eq_false_of_place_ne {left right : Path} (hplace : left.place ≠ right.place) :
    left.same right = false := by
  rw [same, beq_eq_false_iff_ne]
  intro hsame
  exact hplace (congrArg (Place.along []) hsame)

theorem fileName?_eq_some_iff {path : Path} {text : String} :
    path.fileName? = some text.toList ↔ ∃ front, path.components = front ++ [.name text] := by
  rw [fileName?]
  rcases List.eq_nil_or_concat path.components with hnil | ⟨front, last, hlast⟩
  · simp [hnil]
  · rw [List.concat_eq_append] at hlast
    cases last <;> simp [hlast, Component.fileName?, String.toList_inj, eq_comm]

end Path

end Storage

/-! ## Directories -/

namespace ModuleTree

theorem mem_linksFrom_iff {start directory : Directory} {component : Component}
    {components : List Component} :
    (directory, component) ∈ linksFrom start components ↔
      ∃ front back, components = front ++ component :: back ∧ directory = start ++ front := by
  induction components generalizing start with
  | nil => simp [linksFrom]
  | cons first rest ih =>
    rw [linksFrom, List.mem_cons, ih]
    constructor
    · rintro (hfirst | ⟨front, back, rfl, rfl⟩)
      · cases hfirst
        exact ⟨[], rest, rfl, by simp⟩
      · exact ⟨first :: front, back, rfl, by simp⟩
    · rintro ⟨front, back, hsplit, rfl⟩
      cases front with
      | nil =>
        cases hsplit
        exact .inl (by simp)
      | cons other front =>
        cases hsplit
        exact .inr ⟨front, back, rfl, by simp⟩

theorem mem_links_iff {path : Path} {directory : Directory} {component : Component} :
    (directory, component) ∈ links path ↔
      ∃ back, path.components = directory ++ component :: back := by
  rw [links, mem_linksFrom_iff]
  simp

theorem components_directoryPath (rooted : Bool) {names : List String}
    (hplain : ∀ name ∈ names, Path.IsPlain name) :
    (directoryPath (Path.spelled rooted names)).components = Path.spelled rooted names := by
  have htexts : (names.map Component.name).map Component.text = names := by
    simp [Function.comp_def, Component.text]
  cases rooted with
  | false =>
    change (Path.ofNames ((names.map Component.name).map Component.text)).components = _
    rw [htexts]
    exact Path.components_ofNames hplain
  | true =>
    have hroot : (⟨"/"⟩ : Path).components = [.root] := by decide
    change (((names.map Component.name).map Component.text).foldl
      (fun (path : Path) name => path.join ⟨name⟩) ⟨"/"⟩).components = _
    rw [htexts, Path.components_foldl_join hplain, hroot]
    rfl

theorem nodup_of_firstRepeated_eq_none {seen paths : List Path}
    (hnone : firstRepeated seen paths = none) :
    (paths.map Path.components).Nodup ∧
      ∀ path ∈ paths, ∀ other ∈ seen, other.components ≠ path.components := by
  induction paths generalizing seen with
  | nil => simp
  | cons path rest ih =>
    rw [firstRepeated] at hnone
    split at hnone
    · cases hnone
    · next hnew =>
      obtain ⟨hnodup, hseen⟩ := ih hnone
      have hfirst : ∀ other ∈ seen, other.components ≠ path.components := by
        simpa [Path.same] using hnew
      refine ⟨?_, ?_⟩
      · rw [List.map_cons, List.nodup_cons, List.mem_map]
        refine ⟨?_, hnodup⟩
        rintro ⟨later, hlater, hsame⟩
        exact hseen later hlater path List.mem_cons_self hsame.symm
      · rw [List.forall_mem_cons]
        refine ⟨hfirst, fun later hlater other hother => ?_⟩
        exact hseen later hlater other (List.mem_cons_of_mem _ hother)

theorem nodup_directories (found : List (Directory × Component)) : (directories found).Nodup := by
  apply (List.mergeSort_perm _ _).nodup_iff.mpr
  exact SortedNames.nodup_eraseDups _

theorem ascending_modulesIn (found : List (Directory × Component)) (directory : Directory) :
    (modulesIn found directory).Pairwise (· < ·) :=
  SortedNames.ascending_mergeSort (SortedNames.nodup_eraseDups _)

/-- The file that declares the modules of a directory. -/
def moduleFile (outDir : Path) (directory : Directory) : Path :=
  (outDir.join (directoryPath directory)).join ⟨"mod.rs"⟩

theorem isPlain_moduleFile : Path.IsPlain "mod.rs" where
  slash := by decide
  component := by decide

theorem components_moduleFile (outDir : Path) (rooted : Bool) {names : List String}
    (hplain : ∀ name ∈ names, Path.IsPlain name) :
    (moduleFile outDir (Path.spelled rooted names)).components =
      (if rooted then [] else outDir.components) ++ Path.spelled rooted names ++
        [.name "mod.rs"] := by
  have hdirectory := components_directoryPath rooted hplain
  rw [moduleFile, Path.components_join (Path.isInner_of_isPlain isPlain_moduleFile),
    Path.components_of_isPlain isPlain_moduleFile, Path.components_join_of_spelled outDir hdirectory,
    hdirectory]

end ModuleTree

namespace Storage.Path.HasOneDot

variable {outDir path : Path} (hdot : path.HasOneDot)
include hdot

/-- An artifact with the name of the files of directories is the file of its directory. -/
theorem same_moduleFile {directory : Directory}
    (hname : path.components = directory ++ [.name "mod.rs"]) :
    (outDir.join path).same (ModuleTree.moduleFile outDir directory) = true := by
  obtain ⟨names, hne, hplain, hspelled⟩ := hdot.exists_names
  have hlast : spelled path.isAbsolute names =
      spelled path.isAbsolute names.dropLast ++ [.name (names.getLast hne)] := by
    rw [← spelled_concat, List.dropLast_append_getLast]
  have hdirectory : directory = spelled path.isAbsolute names.dropLast := by
    rw [hname, hlast] at hspelled
    exact List.append_inj_left' hspelled rfl
  have hinner : ∀ name ∈ names.dropLast, IsPlain name :=
    fun name hmem => hplain name ((List.dropLast_prefix names).mem hmem)
  rw [same, beq_iff_eq, components_join_of_spelled outDir hspelled, hname, hdirectory,
    ModuleTree.components_moduleFile outDir _ hinner, List.append_assoc]

variable (houtside : path.isAbsolute = true → ¬ outDir.place <+: path.place)
include houtside

theorem located : (outDir.join path).Located outDir.place path.components := by
  obtain ⟨names, hne, -, hspelled⟩ := hdot.exists_names
  have hplace : path.place = names := by simp [place, hspelled, along_spelled]
  constructor
  · refine ⟨path.isAbsolute, names, hne, fun habsolute hbelow => ?_, hspelled⟩
    apply houtside habsolute
    rw [hplace]
    exact hbelow.trans (List.dropLast_prefix names)
  · exact place_join_of_spelled outDir hspelled

theorem located_moduleFile {directory : Directory} {component : Component} {back : List Component}
    (hlink : path.components = directory ++ component :: back) :
    (ModuleTree.moduleFile outDir directory).Located outDir.place
      (directory ++ [.name "mod.rs"]) := by
  obtain ⟨names, hne, hplain, hspelled⟩ := hdot.exists_names
  have hplace : path.place = names := by simp [place, hspelled, along_spelled]
  obtain ⟨rooted, inner, hrooted, hinner, rfl⟩ : ∃ rooted inner,
      (rooted = true → path.isAbsolute = true) ∧ inner <+: names ∧
        directory = spelled rooted inner := by
    apply exists_of_prefix_spelled
    rw [← hspelled, hlink]
    exact List.prefix_append _ _
  have hplainInner : ∀ name ∈ inner, IsPlain name := fun name hmem => hplain name (hinner.mem hmem)
  have hconcat := spelled_concat rooted inner "mod.rs"
  constructor
  · refine ⟨rooted, inner ++ ["mod.rs"], by simp, fun hroot hbelow => ?_, hconcat.symm⟩
    rw [List.dropLast_concat] at hbelow
    apply houtside (hrooted hroot)
    rw [hplace]
    exact hbelow.trans hinner
  · rw [place, ModuleTree.components_moduleFile outDir rooted hplainInner, List.append_assoc,
      Place.along_append, ← hconcat]
    cases rooted <;> rfl

end Storage.Path.HasOneDot

/-! ## Generated code is no list of declarations -/

theorem Code.exists_renderAfter_eq (text last : String) (code : Code) :
    ∃ rest, Code.renderAfter text last code = text ++ rest := by
  induction code generalizing text last with
  | nil => exact ⟨"", by rw [Code.renderAfter, String.append_empty]⟩
  | cons token code ih =>
    obtain ⟨rest, hrest⟩ := ih (text ++ (if spaced last token then " " else "") ++ token) token
    rw [Code.renderAfter, hrest, String.append_assoc, String.append_assoc]
    exact ⟨_, rfl⟩

theorem OutputUnit.head?_render (unit : OutputUnit) :
    unit.artifact.code.render.toList.head? = some '#' := by
  obtain ⟨rest, hrest⟩ : ∃ rest, lintMark = "#" :: rest := ⟨_, rfl⟩
  obtain ⟨text, htext⟩ := Code.exists_renderAfter_eq "#" "#" (rest ++ unit.module.code)
  rw [OutputUnit.artifact, hrest, List.cons_append, Code.render, htext]
  simp

/-- A generated file is never taken for the file of a directory. -/
theorem OutputUnit.render_ne_declarations (unit : OutputUnit) (header : String)
    (modules : List String) :
    unit.artifact.render header ≠ ModuleTree.declarations header modules := by
  intro hsame
  have hrest : unit.artifact.code.render.toList ++ "\n".toList =
      (String.join (modules.map fun name => "pub mod " ++ name ++ ";\n")).toList := by
    have htexts := congrArg String.toList hsame
    simp only [Artifact.render, ModuleTree.declarations, String.toList_append,
      List.append_assoc] at htexts
    exact List.append_cancel_left (List.append_cancel_left (List.append_cancel_left htexts))
  have hhead := congrArg List.head? hrest
  rw [List.head?_append, unit.head?_render, Option.some_or] at hhead
  cases modules with
  | nil => cases hhead
  | cons name modules => simp [String.toList_join] at hhead

/-! ## Generated artifacts -/

/-- What is generated is everything that was resolved, in complete files. -/
theorem exists_complete_of_generate {index : Index} {config : GenerateConfig}
    {generation : Generation} (hgenerate : generate index config = .ok generation) :
    ∃ (resolution : Resolution) (around : Surroundings) (units : List OutputUnit),
      resolution.index = index ∧ resolution.config = config ∧
        Surroundings.ofConfig index config = .ok around ∧
        generation.artifacts = units.map OutputUnit.artifact ∧
        around.Complete resolution.subjects units := by
  obtain ⟨trees, htrees, hgenerate⟩ := Outcome.bind_eq_ok_iff.mp hgenerate
  obtain ⟨enums, henums, hgenerate⟩ := Outcome.bind_eq_ok_iff.mp hgenerate
  obtain ⟨artifacts, hartifacts, hgenerate⟩ := Outcome.bind_eq_ok_iff.mp hgenerate
  cases hgenerate
  obtain ⟨units, hunits, rfl⟩ :=
    Outcome.map_eq_ok_iff.mp (Outcome.mapError_eq_ok_iff.mp hartifacts)
  obtain ⟨around, haround, hassemble⟩ := Outcome.bind_eq_ok_iff.mp hunits
  let resolution : Resolution := ⟨index, config, trees, enums,
    Outcome.mapError_eq_ok_iff.mp htrees, Outcome.mapError_eq_ok_iff.mp henums⟩
  have hindex : around.index = resolution.index := Resolution.index_of_ofConfig haround
  exact ⟨resolution, around, units, rfl, rfl, haround, rfl,
    (Resolution.complete_of_assembleUnits hindex hassemble).1⟩

theorem exists_units_of_generate {index : Index} {config : GenerateConfig} {generation : Generation}
    (hgenerate : generate index config = .ok generation) :
    ∃ units : List OutputUnit, generation.artifacts = units.map OutputUnit.artifact ∧
      ∀ unit ∈ units, unit.path.HasOneDot := by
  obtain ⟨_, around, units, -, -, -, hunits, hcomplete⟩ := exists_complete_of_generate hgenerate
  refine ⟨units, hunits, fun unit hunit => ?_⟩
  exact Surroundings.hasOneDot_of_filePath (hcomplete.tops unit hunit).2

theorem hasOneDot_of_generate {index : Index} {config : GenerateConfig} {generation : Generation}
    (hgenerate : generate index config = .ok generation) :
    ∀ artifact ∈ generation.artifacts, artifact.path.HasOneDot := by
  obtain ⟨units, hunits, hpaths⟩ := exists_units_of_generate hgenerate
  rw [hunits, List.forall_mem_map]
  exact hpaths

theorem Resolution.exists_generate_of_emit (resolution : Resolution) {artifacts : List Artifact}
    (hemit : emit resolution.index resolution.config resolution.trees resolution.enums =
      .ok artifacts) :
    ∃ generation, generate resolution.index resolution.config = .ok generation ∧
      generation.artifacts = artifacts := by
  refine ⟨⟨artifacts, (resolution.index.resolveAll resolution.config []).1.warnings⟩, ?_, rfl⟩
  simp only [generate, resolution.resolveAll_eq, resolution.resolveEnums_eq, Except.mapError, bind,
    Except.bind, hemit]
  rfl

/-- Declarations that are nested in nothing are all generated, each to its own file. -/
theorem Resolution.exists_generate_of_tops (resolution : Resolution) {around : Surroundings}
    (haround : Surroundings.ofConfig resolution.index resolution.config = .ok around)
    (hvalid : ∀ text ∈ resolution.identifiers around, Ident.isValid (Ident.escape text) = true)
    (htops : ∀ entry ∈ resolution.index.entries, entry.decl.outer? = none) :
    ∃ (units : List OutputUnit) (generation : Generation),
      generate resolution.index resolution.config = .ok generation ∧
        generation.artifacts = units.map OutputUnit.artifact ∧
        units.map (fun unit => Except.ok unit.path) =
          resolution.index.entries.map fun entry => around.filePath entry.name := by
  rcases resolution.cases_emit resolution.config haround hvalid with
    ⟨units, hemit, hcomplete, -⟩ | ⟨missing, -, name, hname, hopen⟩
  · obtain ⟨generation, hgenerate, hartifacts⟩ := resolution.exists_generate_of_emit hemit
    refine ⟨units, generation, hgenerate, hartifacts, ?_⟩
    have hnames : units.map (·.name) = resolution.index.entries.map Entry.name := by
      rw [hcomplete.names, index_of_ofConfig haround, List.filter_eq_self.mpr]
      exact fun entry hentry => by rw [htops entry hentry, Option.isNone_none]
    calc units.map (fun unit => Except.ok unit.path)
      _ = units.map (fun unit => around.filePath unit.name) :=
        List.map_congr_left fun unit hunit => (hcomplete.tops unit hunit).2.symm
      _ = (units.map (·.name)).map around.filePath := by rw [List.map_map, Function.comp_def]
      _ = resolution.index.entries.map (fun entry => around.filePath entry.name) := by
        rw [hnames, List.map_map, Function.comp_def]
  · have hdeclared := Index.isSome_get?_iff.mpr hname
    obtain ⟨entry, hentry, rfl⟩ := List.mem_map.mp hname
    have hnone : resolution.index.outer? entry.name = none := by
      rw [Index.outer?, Index.get?_eq_some_iff.mpr ⟨hentry, rfl⟩]
      exact htops entry hentry
    exact absurd (.top hdeclared hnone) hopen

/-! ## Written files -/

/-- A directory on the way to an artifact, and what follows in it. -/
def LeadsTo (artifacts : List Artifact) (directory : Directory) (component : Component) : Prop :=
  ∃ artifact ∈ artifacts, ∃ back, artifact.path.components = directory ++ component :: back

/-- The links of all artifacts. -/
def linksOf (artifacts : List Artifact) : List (Directory × Component) :=
  (artifacts.map Artifact.path).flatMap ModuleTree.links

section Written

variable {artifacts : List Artifact} {outDir : Path} {header : String}
  {directory : Directory} {component : Component}

theorem mem_linksOf_iff :
    (directory, component) ∈ linksOf artifacts ↔ LeadsTo artifacts directory component := by
  simp [linksOf, LeadsTo, ModuleTree.mem_links_iff]

theorem mem_directories_linksOf_iff :
    directory ∈ ModuleTree.directories (linksOf artifacts) ↔
      ∃ component, LeadsTo artifacts directory component := by
  simp only [ModuleTree.mem_directories_iff, mem_linksOf_iff]

/-- The files of artifacts. -/
def artifactFiles (artifacts : List Artifact) (outDir : Path) (header : String) :
    List (Path × String) :=
  artifacts.map fun artifact => (outDir.join artifact.path, artifact.render header)

/-- The files of the directories of artifacts. -/
def directoryFiles (artifacts : List Artifact) (outDir : Path) (header : String) :
    List (Path × String) :=
  (ModuleTree.directories (linksOf artifacts)).map fun directory =>
    (ModuleTree.moduleFile outDir directory,
      ModuleTree.declarations header (ModuleTree.modulesIn (linksOf artifacts) directory))

theorem map_fst_files (artifacts : List Artifact) (outDir : Path) (header : String) :
    (artifactFiles artifacts outDir header ++ directoryFiles artifacts outDir header).map (·.1) =
      artifacts.map (fun artifact => outDir.join artifact.path) ++
        (ModuleTree.directories (linksOf artifacts)).map (ModuleTree.moduleFile outDir) := by
  simp [artifactFiles, directoryFiles, Function.comp_def]

theorem exists_of_writeArtifacts_eq_ok {before after : Volume} {written : List Path}
    (hwrite : (writeArtifacts Volume.disk artifacts outDir header).runOn before =
      (.ok written, after)) :
    (artifacts.map (·.path.components)).Nodup ∧
      written = artifacts.map (fun artifact => outDir.join artifact.path) ++
        (ModuleTree.directories (linksOf artifacts)).map (ModuleTree.moduleFile outDir) ∧
      ((artifactFiles artifacts outDir header ++ directoryFiles artifacts outDir header).forM
        fun (path, text) => writeFile Volume.disk path text).runOn before = (.ok (), after) := by
  obtain ⟨files, reached, hplan, hwrite⟩ := Storage.Action.runOn_bind_eq_ok_iff.mp hwrite
  obtain ⟨hfiles, rfl⟩ := Storage.Action.runOn_ofOutcome_eq_ok_iff.mp hplan
  obtain ⟨⟨⟩, last, hwrites, hwrite⟩ := Storage.Action.runOn_bind_eq_ok_iff.mp hwrite
  obtain ⟨rfl, rfl⟩ := Storage.Action.runOn_pure_eq_iff.mp hwrite
  obtain ⟨tree, htree, hlist⟩ := Outcome.bind_eq_ok_iff.mp hfiles
  obtain ⟨hrepeated, rfl⟩ := ModuleTree.exists_of_ofPaths_eq_ok htree
  have hnodup := (ModuleTree.nodup_of_firstRepeated_eq_none hrepeated).1
  rw [List.map_map] at hnodup
  have hsame : files = artifactFiles artifacts outDir header ++
      directoryFiles artifacts outDir header := by
    cases hlist
    rw [ModuleTree.files, List.map_map]
    rfl
  rw [← map_fst_files artifacts outDir header, ← hsame]
  exact ⟨hnodup, rfl, hwrites⟩

theorem runOn_writeArtifacts_eq_ok {before after : Volume} {files : List (Path × String)}
    (hfiles : outputFiles artifacts outDir header = .ok files)
    (hwrites : (files.forM fun (path, text) => writeFile Volume.disk path text).runOn before =
      (.ok (), after)) :
    (writeArtifacts Volume.disk artifacts outDir header).runOn before =
      (.ok (files.map (·.1)), after) := by
  apply Storage.Action.runOn_bind_eq_ok_iff.mpr
  refine ⟨files, before, Storage.Action.runOn_ofOutcome_eq_ok_iff.mpr ⟨hfiles, rfl⟩, ?_⟩
  exact Storage.Action.runOn_bind_eq_ok_iff.mpr ⟨(), after, hwrites, rfl⟩

variable (hdot : ∀ artifact ∈ artifacts, artifact.path.HasOneDot)
  (houtside : ∀ artifact ∈ artifacts, artifact.path.isAbsolute = true →
    ¬ outDir.place <+: artifact.path.place)
include hdot houtside

theorem located_artifact {artifact : Artifact} (hartifact : artifact ∈ artifacts) :
    (outDir.join artifact.path).Located outDir.place artifact.path.components :=
  (hdot artifact hartifact).located (houtside artifact hartifact)

theorem located_directory (hleads : LeadsTo artifacts directory component) :
    (ModuleTree.moduleFile outDir directory).Located outDir.place
      (directory ++ [.name "mod.rs"]) := by
  obtain ⟨artifact, hartifact, back, hlink⟩ := hleads
  exact (hdot artifact hartifact).located_moduleFile (houtside artifact hartifact) hlink

theorem components_eq_of_place_eq {artifact other : Artifact} (hartifact : artifact ∈ artifacts)
    (hother : other ∈ artifacts)
    (hplace : (outDir.join artifact.path).place = (outDir.join other.path).place) :
    artifact.path.components = other.path.components :=
  (located_artifact hdot houtside hartifact).eq_of_place_eq
    (located_artifact hdot houtside hother) hplace

theorem directory_eq_of_place_eq {other : Directory} {component' : Component}
    (hleads : LeadsTo artifacts directory component) (hother : LeadsTo artifacts other component')
    (hplace : (ModuleTree.moduleFile outDir directory).place =
      (ModuleTree.moduleFile outDir other).place) : directory = other := by
  apply List.append_cancel_right
  exact (located_directory hdot houtside hleads).eq_of_place_eq
    (located_directory hdot houtside hother) hplace

theorem fileName?_of_place_eq {artifact : Artifact} (hartifact : artifact ∈ artifacts)
    (hleads : LeadsTo artifacts directory component)
    (hplace : (outDir.join artifact.path).place =
      (ModuleTree.moduleFile outDir directory).place) :
    artifact.path.fileName? = some "mod.rs".toList := by
  apply Path.fileName?_eq_some_iff.mpr
  exact ⟨directory, (located_artifact hdot houtside hartifact).eq_of_place_eq
    (located_directory hdot houtside hleads) hplace⟩

/-- The only files with the same path are an artifact and the file of its directory. -/
theorem pairwise_written_iff (hnodup : (artifacts.map (·.path.components)).Nodup) :
    (artifacts.map (fun artifact => outDir.join artifact.path) ++
        (ModuleTree.directories (linksOf artifacts)).map
          (ModuleTree.moduleFile outDir)).Pairwise (fun left right => left.same right = false) ↔
      ∀ artifact ∈ artifacts, artifact.path.fileName? ≠ some "mod.rs".toList := by
  have hartifacts : (artifacts.map fun artifact => outDir.join artifact.path).Pairwise
      (fun left right => left.same right = false) := by
    rw [List.pairwise_map]
    apply (List.pairwise_map.mp hnodup).imp_of_mem
    intro left right hleft hright hne
    apply Path.same_eq_false_of_place_ne
    intro hplace
    exact hne (components_eq_of_place_eq hdot houtside hleft hright hplace)
  have hdirectories : ((ModuleTree.directories (linksOf artifacts)).map
      (ModuleTree.moduleFile outDir)).Pairwise (fun left right => left.same right = false) := by
    rw [List.pairwise_map]
    apply (ModuleTree.nodup_directories (linksOf artifacts)).imp_of_mem
    intro left right hleft hright hne
    obtain ⟨component, hleft⟩ := mem_directories_linksOf_iff.mp hleft
    obtain ⟨component', hright⟩ := mem_directories_linksOf_iff.mp hright
    apply Path.same_eq_false_of_place_ne
    intro hplace
    exact hne (directory_eq_of_place_eq hdot houtside hleft hright hplace)
  rw [List.pairwise_append]
  constructor
  · rintro ⟨-, -, hcross⟩ artifact hartifact hname
    obtain ⟨directory, hcomponents⟩ := Path.fileName?_eq_some_iff.mp hname
    have hdirectory := mem_directories_linksOf_iff.mpr
      ⟨_, artifact, hartifact, [], hcomponents⟩
    have hsame : (outDir.join artifact.path).same (ModuleTree.moduleFile outDir directory) = true :=
      (hdot artifact hartifact).same_moduleFile hcomponents
    have hdifferent := hcross _ (List.mem_map_of_mem hartifact) _ (List.mem_map_of_mem hdirectory)
    rw [hsame] at hdifferent
    cases hdifferent
  · intro hnames
    refine ⟨hartifacts, hdirectories, fun left hleft right hright => ?_⟩
    obtain ⟨artifact, hartifact, rfl⟩ := List.mem_map.mp hleft
    obtain ⟨directory, hdirectory, rfl⟩ := List.mem_map.mp hright
    obtain ⟨component, hleads⟩ := mem_directories_linksOf_iff.mp hdirectory
    apply Path.same_eq_false_of_place_ne
    intro hplace
    exact hnames artifact hartifact (fileName?_of_place_eq hdot houtside hartifact hleads hplace)

variable {before after : Volume}
  (hwrites : ((artifactFiles artifacts outDir header ++
    directoryFiles artifacts outDir header).forM
      fun (path, text) => writeFile Volume.disk path text).runOn before = (.ok (), after))
include hwrites

/-- The file of a directory declares its modules. -/
theorem read_moduleFile (hleads : LeadsTo artifacts directory component) :
    after.read (ModuleTree.moduleFile outDir directory) =
      some (ModuleTree.declarations header
        (ModuleTree.modulesIn (linksOf artifacts) directory)) := by
  obtain ⟨front, back, hsplit⟩ :=
    List.append_of_mem (mem_directories_linksOf_iff.mpr ⟨component, hleads⟩)
  have hnodup := ModuleTree.nodup_directories (linksOf artifacts)
  rw [hsplit, List.nodup_append, List.nodup_cons] at hnodup
  apply (keeps_writeFiles hwrites).2
  · rw [directoryFiles, hsplit, List.map_append, List.map_cons, ← List.append_assoc]
  · simp only [List.map_map, List.mem_map, Function.comp_apply]
    rintro ⟨later, hlater, hplace⟩
    have hmem : later ∈ ModuleTree.directories (linksOf artifacts) := by simp [hsplit, hlater]
    obtain ⟨component', hleads'⟩ := mem_directories_linksOf_iff.mp hmem
    apply hnodup.2.1.1
    rwa [directory_eq_of_place_eq hdot houtside hleads hleads' hplace.symm]

/-- An artifact with another name than the file of its directory keeps its text. -/
theorem read_artifact (hnodup : (artifacts.map (·.path.components)).Nodup) {artifact : Artifact}
    (hartifact : artifact ∈ artifacts)
    (hname : artifact.path.fileName? ≠ some "mod.rs".toList) :
    after.read (outDir.join artifact.path) = some (artifact.render header) := by
  obtain ⟨front, back, hsplit⟩ := List.append_of_mem hartifact
  apply (keeps_writeFiles hwrites).2 (artifactFiles front outDir header) _ _
    (artifactFiles back outDir header ++ directoryFiles artifacts outDir header)
  · conv => lhs; lhs; rw [hsplit]
    simp [artifactFiles]
  · rw [List.map_append, List.mem_append]
    rintro (hlater | hlater)
    · simp only [artifactFiles, List.map_map, List.mem_map, Function.comp_apply] at hlater
      obtain ⟨later, hlater, hplace⟩ := hlater
      have hsame := components_eq_of_place_eq hdot houtside (by simp [hsplit, hlater]) hartifact
        hplace
      rw [hsplit, List.map_append, List.nodup_append, List.map_cons, List.nodup_cons] at hnodup
      apply hnodup.2.1.1
      exact List.mem_map.mpr ⟨later, hlater, hsame⟩
    · simp only [directoryFiles, List.map_map, List.mem_map, Function.comp_apply] at hlater
      obtain ⟨directory, hdirectory, hplace⟩ := hlater
      obtain ⟨component, hleads⟩ := mem_directories_linksOf_iff.mp hdirectory
      exact hname (fileName?_of_place_eq hdot houtside hartifact hleads hplace.symm)

/-- An artifact with the name of the file of its directory has lost its text. -/
theorem read_artifact_ne {unit : OutputUnit} (hunit : unit.artifact ∈ artifacts)
    (hname : unit.path.fileName? = some "mod.rs".toList) :
    after.read (outDir.join unit.path) ≠ some (unit.artifact.render header) := by
  intro hread
  obtain ⟨directory, hcomponents⟩ := Path.fileName?_eq_some_iff.mp hname
  have hleads : LeadsTo artifacts directory (.name "mod.rs") :=
    ⟨unit.artifact, hunit, [], hcomponents⟩
  have hplace : (outDir.join unit.path).place = (ModuleTree.moduleFile outDir directory).place := by
    have hlocated := located_artifact hdot houtside hunit
    rw [(located_directory hdot houtside hleads).place, ← hcomponents]
    exact hlocated.place
  apply unit.render_ne_declarations header
  exact Volume.eq_of_read_eq_some hplace hread (read_moduleFile hdot houtside hwrites hleads)

end Written

/-- Every generated file is where it belongs, apart from those with the name of the files of
directories: the written paths are different if and only if no artifact has this name, an artifact
can be read back if and only if it does not have it, and the file of every directory declares just
the modules in it.  Paths of artifacts are meant to be relative; the name of a package that begins
with a slash makes an absolute one, which must not lead into the output directory. -/
theorem writeArtifacts_kept_iff {index : Index} {config : GenerateConfig} {generation : Generation}
    (hgenerate : generate index config = .ok generation) {outDir : Path} {header : String}
    {before after : Volume} {written : List Path}
    (hwrite : (writeArtifacts Volume.disk generation.artifacts outDir header).runOn before =
      (.ok written, after))
    (houtside : ∀ artifact ∈ generation.artifacts, artifact.path.isAbsolute = true →
      ¬ outDir.place <+: artifact.path.place) :
    (∀ path, path ∈ written ↔
        (∃ artifact ∈ generation.artifacts, path = outDir.join artifact.path) ∨
          ∃ directory component, LeadsTo generation.artifacts directory component ∧
            path = ModuleTree.moduleFile outDir directory) ∧
      (written.Pairwise (fun left right => left.same right = false) ↔
        ∀ artifact ∈ generation.artifacts, artifact.path.fileName? ≠ some "mod.rs".toList) ∧
      (∀ artifact ∈ generation.artifacts,
        after.read (outDir.join artifact.path) = some (artifact.render header) ↔
          artifact.path.fileName? ≠ some "mod.rs".toList) ∧
      ∀ directory component, LeadsTo generation.artifacts directory component →
        ∃ modules : List String, modules.Pairwise (· < ·) ∧
          (∀ module, module ∈ modules ↔ ∃ component,
            LeadsTo generation.artifacts directory component ∧
              ModuleTree.declaredName component = module) ∧
          after.read (ModuleTree.moduleFile outDir directory) =
            some (ModuleTree.declarations header modules) := by
  obtain ⟨units, hunits, -⟩ := exists_units_of_generate hgenerate
  have hdot := hasOneDot_of_generate hgenerate
  obtain ⟨hnodup, rfl, hwrites⟩ := exists_of_writeArtifacts_eq_ok hwrite
  refine ⟨fun path => ?_, pairwise_written_iff hdot houtside hnodup,
    fun artifact hartifact => ⟨fun hread hname => ?_, ?_⟩, fun directory component hleads => ?_⟩
  · simp only [List.mem_append, List.mem_map, mem_directories_linksOf_iff, exists_and_right, eq_comm]
  · have hmem := hartifact
    rw [hunits, List.mem_map] at hmem
    obtain ⟨unit, -, rfl⟩ := hmem
    exact read_artifact_ne hdot houtside hwrites hartifact hname hread
  · exact read_artifact hdot houtside hwrites hnodup hartifact
  · refine ⟨_, ModuleTree.ascending_modulesIn _ directory, fun module => ?_,
      read_moduleFile hdot houtside hwrites hleads⟩
    simp only [ModuleTree.mem_modulesIn_iff, mem_linksOf_iff]

/-! ## A lost file -/

/-- Two enumerations outside packages, one of them with the name of the file of its directory. -/
def plainIndex : Index where
  entries :=
    [⟨⟨"a.schema", ""⟩, .enumeration (.declare "Kind" [("A", 0)])⟩,
      ⟨⟨"a.schema", ""⟩, .enumeration (.declare "Mod" [("A", 0)])⟩]
  ascending := by decide

def ofPlain : Resolution where
  index := plainIndex
  config := {}
  trees := []
  enums := plainIndex.resolveEnums.toOption.getD []
  resolveAll_eq := rfl
  resolveEnums_eq := rfl

theorem exists_generate_plain :
    ∃ kind mod : OutputUnit, ∃ generation, generate plainIndex {} = .ok generation ∧
      generation.artifacts = [kind.artifact, mod.artifact] ∧ kind.path = ⟨"kind.rs"⟩ ∧
      mod.path = ⟨"mod.rs"⟩ := by
  obtain ⟨units, generation, hgenerate, hartifacts, hpaths⟩ :=
    ofPlain.exists_generate_of_tops (Surroundings.ofConfig_default plainIndex)
      (by decide +kernel) (by decide)
  obtain ⟨kind, rest, rfl, hkind, hrest⟩ := List.map_eq_cons_iff.mp hpaths
  obtain ⟨mod, last, rfl, hmod, hlast⟩ := List.map_eq_cons_iff.mp hrest
  obtain rfl := List.map_eq_nil_iff.mp hlast
  exact ⟨kind, mod, generation, hgenerate, hartifacts, Except.ok.inj hkind, Except.ok.inj hmod⟩

theorem ofPaths_plain :
    ModuleTree.ofPaths [⟨"kind.rs"⟩, ⟨"mod.rs"⟩] = .ok [([], ["kind", "r#mod"])] := by
  have hlinks : [⟨"kind.rs"⟩, ⟨"mod.rs"⟩].flatMap ModuleTree.links =
      [([], .name "kind.rs"), ([], .name "mod.rs")] := by
    decide
  have hpaths : ([⟨"kind.rs"⟩, ⟨"mod.rs"⟩] : List Path).mergeSort Path.le =
      [⟨"kind.rs"⟩, ⟨"mod.rs"⟩] :=
    List.mergeSort_of_pairwise (by decide)
  have hdirectories : ModuleTree.directories [([], .name "kind.rs"), ([], .name "mod.rs")] = [[]] :=
    List.mergeSort_of_pairwise (by decide)
  have hmodules : ModuleTree.modulesIn [([], .name "kind.rs"), ([], .name "mod.rs")] [] =
      ["kind", "r#mod"] :=
    List.mergeSort_of_pairwise (by decide)
  have hnone : ModuleTree.firstRepeated [] [⟨"kind.rs"⟩, ⟨"mod.rs"⟩] = none := by
    decide
  simp only [ModuleTree.ofPaths, hlinks, hpaths, hdirectories, hmodules, hnone, List.map_cons,
    List.map_nil]
  rfl

/-- A file and then another one twice, whatever their texts are. -/
theorem exists_forM_overwritten {first second : Path} {directory : Volume} {place : Storage.Place}
    {text outer inner : String}
    (hfirst : (writeFile Volume.disk first text).runOn {} = (.ok (), directory))
    (hsecond : (writeFile Volume.disk second outer).runOn directory =
      (.ok (), directory.insert place (.file outer)))
    (hthird : (writeFile Volume.disk second inner).runOn (directory.insert place (.file outer)) =
      (.ok (), directory.insert place (.file inner))) :
    ∃ after, (List.forM [(first, text), (second, outer), (second, inner)]
      fun (path, text) => writeFile Volume.disk path text).runOn {} = (.ok (), after) := by
  refine ⟨directory.insert place (.file inner), ?_⟩
  apply Storage.Action.runOn_bind_eq_ok_iff.mpr ⟨(), _, hfirst, _⟩
  apply Storage.Action.runOn_bind_eq_ok_iff.mpr ⟨(), _, hsecond, _⟩
  exact Storage.Action.runOn_bind_eq_ok_iff.mpr ⟨(), _, hthird, rfl⟩

theorem exists_forM_plain (kind mod modules : String) :
    ∃ after, (List.forM [((⟨"out/kind.rs"⟩ : Path), kind), (⟨"out/mod.rs"⟩, mod),
      (⟨"out/mod.rs"⟩, modules)] fun (path, text) => writeFile Volume.disk path text).runOn {} =
        (.ok (), after) := by
  apply @exists_forM_overwritten _ _
    ⟨[(["out"], .directory), (["out", "kind.rs"], .file kind)]⟩ ["out", "mod.rs"]
  · exact runOn_writeFile_eq_ok ⟨"out"⟩ (by decide) rfl rfl
  · exact runOn_writeFile_eq_ok ⟨"out"⟩ (by decide) rfl rfl
  · exact runOn_writeFile_eq_ok ⟨"out"⟩ (by decide) rfl rfl

theorem exists_write_plain {kind mod : OutputUnit} (hkind : kind.path = ⟨"kind.rs"⟩)
    (hmod : mod.path = ⟨"mod.rs"⟩) (header : String) :
    ∃ written after, (writeArtifacts Volume.disk [kind.artifact, mod.artifact] ⟨"out"⟩
      header).runOn {} = (.ok written, after) := by
  have hkindFile : (⟨"out"⟩ : Path).join ⟨"kind.rs"⟩ = ⟨"out/kind.rs"⟩ := by decide
  have hmodFile : (⟨"out"⟩ : Path).join ⟨"mod.rs"⟩ = ⟨"out/mod.rs"⟩ := by decide
  have hmodule : ((⟨"out"⟩ : Path).join (ModuleTree.directoryPath [])).join ⟨"mod.rs"⟩ =
      ⟨"out/mod.rs"⟩ := by decide
  have hfiles : outputFiles [kind.artifact, mod.artifact] ⟨"out"⟩ header =
      .ok [(⟨"out/kind.rs"⟩, kind.artifact.render header),
        (⟨"out/mod.rs"⟩, mod.artifact.render header),
        (⟨"out/mod.rs"⟩, ModuleTree.declarations header ["kind", "r#mod"])] := by
    simp only [outputFiles, List.map_cons, List.map_nil, OutputUnit.artifact, hkind, hmod,
      ofPaths_plain, hkindFile, hmodFile, hmodule, ModuleTree.files, bind, Except.bind]
    rfl
  obtain ⟨after, hwrites⟩ := exists_forM_plain (kind.artifact.render header)
    (mod.artifact.render header) (ModuleTree.declarations header ["kind", "r#mod"])
  exact ⟨_, after, runOn_writeArtifacts_eq_ok hfiles hwrites⟩

theorem exists_written_plain :
    ∃ kind mod : OutputUnit, ∃ generation written after,
      generate plainIndex {} = .ok generation ∧
        generation.artifacts = [kind.artifact, mod.artifact] ∧ kind.path = ⟨"kind.rs"⟩ ∧
        mod.path = ⟨"mod.rs"⟩ ∧
        (writeArtifacts Volume.disk generation.artifacts ⟨"out"⟩ ({} : GenerateConfig).header).runOn
          {} = (.ok written, after) ∧
        ∀ artifact ∈ generation.artifacts, artifact.path.isAbsolute = true →
          ¬ (⟨"out"⟩ : Path).place <+: artifact.path.place := by
  obtain ⟨kind, mod, generation, hgenerate, hartifacts, hkind, hmod⟩ := exists_generate_plain
  obtain ⟨written, after, hwrite⟩ := exists_write_plain hkind hmod ({} : GenerateConfig).header
  refine ⟨kind, mod, generation, written, after, hgenerate, hartifacts, hkind, hmod, ?_, ?_⟩
  · rw [hartifacts]
    exact hwrite
  · rw [hartifacts, List.forall_mem_cons, List.forall_mem_singleton]
    simp only [OutputUnit.artifact, hkind, hmod]
    exact ⟨by decide, by decide⟩

theorem writeArtifacts_kept_iff_plain :
    ∃ generation written after, generate plainIndex {} = .ok generation ∧
      (writeArtifacts Volume.disk generation.artifacts ⟨"out"⟩ ({} : GenerateConfig).header).runOn
        {} = (.ok written, after) ∧
      (∀ artifact ∈ generation.artifacts, artifact.path.isAbsolute = true →
        ¬ (⟨"out"⟩ : Path).place <+: artifact.path.place) ∧
      ∃ artifact ∈ generation.artifacts, artifact.path = ⟨"kind.rs"⟩ ∧
        after.read ((⟨"out"⟩ : Path).join artifact.path) =
          some (artifact.render ({} : GenerateConfig).header) := by
  obtain ⟨kind, mod, generation, written, after, hgenerate, hartifacts, hkind, -, hwrite, houtside⟩ :=
    exists_written_plain
  have hmem : kind.artifact ∈ generation.artifacts := by simp [hartifacts]
  obtain ⟨-, -, hread, -⟩ := writeArtifacts_kept_iff hgenerate hwrite houtside
  refine ⟨generation, written, after, hgenerate, hwrite, houtside, kind.artifact, hmem, hkind, ?_⟩
  apply (hread kind.artifact hmem).mpr
  simp only [OutputUnit.artifact, hkind]
  decide

/-- An enumeration with a name that begins with a slash. -/
def slashIndex : Index where
  entries :=
    [⟨⟨"a.schema", ""⟩,
      .enumeration { EnumDecl.declare "Kind" [("A", 0)] with qualified := "/kind" }⟩]
  ascending := by decide

def ofSlash : Resolution where
  index := slashIndex
  config := {}
  trees := []
  enums := slashIndex.resolveEnums.toOption.getD []
  resolveAll_eq := rfl
  resolveEnums_eq := rfl

theorem exists_generate_slash :
    ∃ kind : OutputUnit, ∃ generation, generate slashIndex {} = .ok generation ∧
      generation.artifacts = [kind.artifact] ∧ kind.path = ⟨"/kind.rs"⟩ := by
  obtain ⟨units, generation, hgenerate, hartifacts, hpaths⟩ :=
    ofSlash.exists_generate_of_tops (Surroundings.ofConfig_default slashIndex)
      (by decide +kernel) (by decide)
  obtain ⟨kind, last, rfl, hkind, hlast⟩ := List.map_eq_cons_iff.mp hpaths
  obtain rfl := List.map_eq_nil_iff.mp hlast
  exact ⟨kind, generation, hgenerate, hartifacts, Except.ok.inj hkind⟩

theorem ofPaths_slash :
    ModuleTree.ofPaths [⟨"/kind.rs"⟩] = .ok [([], [""]), ([.root], ["kind"])] := by
  have hlinks : [⟨"/kind.rs"⟩].flatMap ModuleTree.links =
      [([], .root), ([.root], .name "kind.rs")] := by
    decide
  have hdirectories : ModuleTree.directories [([], .root), ([.root], .name "kind.rs")] =
      [[], [.root]] :=
    List.mergeSort_of_pairwise (by decide)
  have houter : ModuleTree.modulesIn [([], .root), ([.root], .name "kind.rs")] [] = [""] :=
    List.mergeSort_of_pairwise (by decide)
  have hinner : ModuleTree.modulesIn [([], .root), ([.root], .name "kind.rs")] [.root] = ["kind"] :=
    List.mergeSort_of_pairwise (by decide)
  have hnone : ModuleTree.firstRepeated [] [⟨"/kind.rs"⟩] = none := by
    decide
  simp only [ModuleTree.ofPaths, hlinks, hdirectories, houter, hinner, hnone,
    List.mergeSort_singleton, List.map_cons, List.map_nil]
  rfl

theorem exists_write_slash {kind : OutputUnit} (hkind : kind.path = ⟨"/kind.rs"⟩)
    (header : String) :
    ∃ after, (writeArtifacts Volume.disk [kind.artifact] ⟨"/"⟩ header).runOn {} =
      (.ok [⟨"/kind.rs"⟩, ⟨"/mod.rs"⟩, ⟨"/mod.rs"⟩], after) := by
  have hkindFile : (⟨"/"⟩ : Path).join ⟨"/kind.rs"⟩ = ⟨"/kind.rs"⟩ := by decide
  have hmodule : ∀ directory ∈ [[], [Component.root]],
      ((⟨"/"⟩ : Path).join (ModuleTree.directoryPath directory)).join ⟨"mod.rs"⟩ =
        ⟨"/mod.rs"⟩ := by decide
  have hfiles : outputFiles [kind.artifact] ⟨"/"⟩ header =
      .ok [(⟨"/kind.rs"⟩, kind.artifact.render header),
        (⟨"/mod.rs"⟩, ModuleTree.declarations header [""]),
        (⟨"/mod.rs"⟩, ModuleTree.declarations header ["kind"])] := by
    simp only [outputFiles, List.map_cons, List.map_nil, OutputUnit.artifact, hkind,
      ofPaths_slash, hkindFile, hmodule [] (by simp), hmodule [.root] (by simp), ModuleTree.files,
      bind, Except.bind]
    rfl
  generalize kind.artifact.render header = text at hfiles
  generalize ModuleTree.declarations header [""] = outer at hfiles
  generalize ModuleTree.declarations header ["kind"] = inner at hfiles
  obtain ⟨after, hwrites⟩ := @exists_forM_overwritten ⟨"/kind.rs"⟩ ⟨"/mod.rs"⟩
    ⟨[(["kind.rs"], .file text)]⟩ ["mod.rs"] text outer inner
    (runOn_writeFile_eq_ok ⟨"/"⟩ (by decide) rfl rfl)
    (runOn_writeFile_eq_ok ⟨"/"⟩ (by decide) rfl rfl)
    (runOn_writeFile_eq_ok ⟨"/"⟩ (by decide) rfl rfl)
  exact ⟨after, runOn_writeArtifacts_eq_ok hfiles hwrites⟩

/-- The artifact of a declaration named after the files of directories is lost: two of the written
paths are the same, and what is read back is not its text.  Without such a name, two of the written
paths can still be the same if a path is absolute. -/
theorem generated_file_lost :
    (∃ generation written after, generate plainIndex {} = .ok generation ∧
      (writeArtifacts Volume.disk generation.artifacts ⟨"out"⟩ ({} : GenerateConfig).header).runOn
        {} = (.ok written, after) ∧
      ¬ written.Pairwise (fun left right => left.same right = false) ∧
      ∃ artifact ∈ generation.artifacts, after.read ((⟨"out"⟩ : Path).join artifact.path) ≠
        some (artifact.render ({} : GenerateConfig).header)) ∧
      ∃ generation written after, generate slashIndex {} = .ok generation ∧
        (writeArtifacts Volume.disk generation.artifacts ⟨"/"⟩ ({} : GenerateConfig).header).runOn
          {} = (.ok written, after) ∧
        (∀ artifact ∈ generation.artifacts, artifact.path.fileName? ≠ some "mod.rs".toList) ∧
        ¬ written.Pairwise (fun left right => left.same right = false) := by
  constructor
  · obtain ⟨kind, mod, generation, written, after, hgenerate, hartifacts, -, hmod, hwrite,
      houtside⟩ := exists_written_plain
    have hmem : mod.artifact ∈ generation.artifacts := by simp [hartifacts]
    have hname : mod.path.fileName? = some "mod.rs".toList := by
      rw [hmod]
      decide
    have hdot := hasOneDot_of_generate hgenerate
    obtain ⟨hnodup, rfl, hwrites⟩ := exists_of_writeArtifacts_eq_ok hwrite
    refine ⟨generation, _, after, hgenerate, hwrite, fun hpairwise => ?_, mod.artifact, hmem, ?_⟩
    · exact (pairwise_written_iff hdot houtside hnodup).mp hpairwise mod.artifact hmem hname
    · exact read_artifact_ne hdot houtside hwrites hmem hname
  · obtain ⟨kind, generation, hgenerate, hartifacts, hkind⟩ := exists_generate_slash
    obtain ⟨after, hwrite⟩ := exists_write_slash hkind ({} : GenerateConfig).header
    rw [← hartifacts] at hwrite
    refine ⟨generation, _, after, hgenerate, hwrite, ?_, by decide⟩
    rw [hartifacts, List.forall_mem_singleton]
    simp only [OutputUnit.artifact, hkind]
    decide

end SchemaLoom
