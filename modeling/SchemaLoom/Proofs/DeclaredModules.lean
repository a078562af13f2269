import Mathlib.Data.List.Induction
import SchemaLoom.Proofs.Confinement

/-!
# The modules that directories declare

Files are named after the snake-case segments of a declaration, with an underscore where a keyword
has no raw form, and directories declare the stems of what is in them as identifiers, keywords as
raw ones.  For segments that are valid modules these two ways of naming agree: the tree of modules
declares exactly the files and directories, and every file is reached from the root.  It fails only
if two paths are the same, or if the stem of a file is also a directory.
-/

namespace SchemaLoom

open Storage (Path Component slashPieces)

/-! ## Stems of files and identifiers of modules -/

namespace Ident

/-- A name that files and directories of modules have: valid, and with a raw form if need be. -/
structure IsStem (text : String) : Prop where
  valid : isValid text = true
  raw : text ∉ neverRaw

theorem isStem_of_ofModule {name : String} {ident : Ident} (hident : ofModule name = .ok ident) :
    IsStem (moduleName name) :=
  ⟨isValid_of_ofModule hident, notMem_neverRaw_escape _⟩

/-- The stem that an identifier stands for, without the mark of a raw one. -/
def bare (text : String) : String :=
  match stripStart? ['r', '#'] text.toList with
  | some rest => String.ofList rest
  | none => text

/-- What may stand as the name of a module: a word that is no keyword, or a keyword in raw form. -/
def IsIdentifier (text : String) : Prop :=
  isValid text = true ∧ isKeyword text = false ∨
    ∃ word, isValid word = true ∧ isKeyword word = true ∧ word ∉ neverRaw ∧ text = "r#" ++ word

variable {stem : String} (hstem : IsStem stem)
include hstem

theorem ofName_of_isStem : ∃ ident, ofName stem = .ok ident ∧ ident.text = written stem := by
  have hescape : escape stem = stem := by simp [escape, hstem.raw]
  have hvalid : isValid (escape stem) = true := by rw [hescape, hstem.valid]
  exact ⟨_, dif_pos hvalid, congrArg written hescape⟩

theorem isIdentifier_written : IsIdentifier (written stem) := by
  rw [written]
  cases hkeyword : isKeyword stem with
  | false => exact .inl ⟨hstem.valid, hkeyword⟩
  | true => exact .inr ⟨stem, hstem.valid, hkeyword, hstem.raw, rfl⟩

/-- No valid name has the mark of raw identifiers, so nothing but the mark is taken away. -/
theorem bare_written : bare (written stem) = stem := by
  rw [written, bare]
  cases isKeyword stem with
  | true =>
    have hraw : ("r#" ++ stem).toList = ['r', '#'] ++ stem.toList := by simp
    rw [if_pos rfl, hraw, stripStart?_append]
    exact String.ofList_toList
  | false =>
    have hmark : '#' ∉ stem.toList := fun hmem =>
      absurd (isPartChar_of_isValid hstem.valid '#' hmem) (by decide)
    have hstrip : stripStart? ['r', '#'] stem.toList = none := by
      rw [stripStart?, if_neg]
      intro hprefix
      exact hmark ((List.isPrefixOf_iff_prefix.mp hprefix).mem (by simp))
    rw [if_neg Bool.false_ne_true, hstrip]

end Ident

/-! ## Paths of modules -/

namespace Storage.Path

variable {path : Path} {text : String}

theorem exists_slashPieces_join (hplain : IsPlain text) (path : Path) :
    ∃ front, slashPieces (path.join ⟨text⟩).text.toList = front ++ [text.toList] := by
  have hrelative : isAbsolute ⟨text⟩ = false := by
    simpa using (Bool.and_eq_true_iff.mp (isInner_of_isPlain hplain)).1
  have hlast := slashPieces_of_notMem hplain.slash
  rw [join, hrelative]
  rcases List.eq_nil_or_concat path.text.toList with hempty | ⟨front, last, htext⟩
  · exact ⟨[], by simpa [hempty] using hlast⟩
  rw [List.concat_eq_append] at htext
  simp only [htext, List.getLast?_concat, Bool.false_eq_true, if_false]
  split
  · next hslash =>
    refine ⟨slashPieces front, ?_⟩
    rw [← hlast, ← slashPieces_append, String.toList_append, htext, hslash, List.append_assoc]
    rfl
  · refine ⟨slashPieces (front ++ [last]), ?_⟩
    rw [← hlast, ← slashPieces_append, String.toList_append, String.toList_append, htext,
      List.append_assoc _ "/".toList]
    rfl

/-- A relative path that ends with a name has nothing to be trimmed. -/
theorem trimmed_join (hplain : IsPlain text) (hrelative : (path.join ⟨text⟩).isAbsolute = false) :
    (path.join ⟨text⟩).trimmed = (path.join ⟨text⟩).text.toList := by
  obtain ⟨front, hpieces⟩ := exists_slashPieces_join hplain path
  have hname : ¬(text.toList = [] ∨ text.toList = ['.']) := by
    intro hnone
    have hcomponent := hplain.component
    rw [component?, if_pos hnone] at hcomponent
    cases hcomponent
  have htrim : trimPieces false (slashPieces (path.join ⟨text⟩).text.toList).reverse =
      (slashPieces (path.join ⟨text⟩).text.toList).reverse := by
    rw [hpieces, List.reverse_append, List.reverse_singleton, List.singleton_append, trimPieces,
      if_neg fun htrimmed => hname htrimmed.1]
  simp only [trimmed, hrelative, Bool.false_eq_true, if_false, htrim, List.reverse_reverse]
  rw [slashPieces_eq_splitOn, List.intercalate_splitOn]

theorem text_join_append (hnonempty : text ≠ "") (ending : String) (path : Path) :
    (path.join ⟨text ++ ending⟩).text = (path.join ⟨text⟩).text ++ ending := by
  have habsolute : isAbsolute ⟨text ++ ending⟩ = isAbsolute ⟨text⟩ := by
    have hne : text.toList ≠ [] := by simpa using hnonempty
    simp [isAbsolute, List.head?_append, List.head?_eq_some_head hne]
  rw [join, join, habsolute]
  cases isAbsolute ⟨text⟩ with
  | true => rfl
  | false =>
    rw [if_neg Bool.false_ne_true, if_neg Bool.false_ne_true]
    split
    · rfl
    · split <;> simp [String.append_assoc]

/-- Without its extension, the path of a file is that of its stem. -/
theorem withoutExtension_join {stem : String} (hstem : Ident.IsStem stem)
    (hrelative : path.isAbsolute = false) :
    (path.join ⟨stem ++ ".rs"⟩).withoutExtension = path.join ⟨stem⟩ := by
  have hfile := Ident.isPlain_file_of_isValid hstem.valid
  have hnonempty := Ident.ne_empty_of_isValid hstem.valid
  have hfileName : (path.join ⟨stem ++ ".rs"⟩).fileName? = some (stem ++ ".rs").toList := by
    refine fileName?_eq_some_iff.mpr ⟨path.components, ?_⟩
    rw [components_join (isInner_of_isPlain hfile), components_of_isPlain hfile]
  have hsplit : splitExtension (stem ++ ".rs").toList = (stem.toList, some ['r', 's']) := by
    rw [String.toList_append]
    exact splitExtension_append (by simpa using hnonempty) (by decide)
  have hjoined : (path.join ⟨stem ++ ".rs"⟩).isAbsolute = false := by
    have hinner := (Bool.and_eq_true_iff.mp (isInner_of_isPlain hfile)).1
    rw [isAbsolute_join, hrelative, Bool.false_or]
    simpa using hinner
  have htext : (path.join ⟨stem ++ ".rs"⟩).text.toList =
      (path.join ⟨stem⟩).text.toList ++ ['.', 'r', 's'] := by
    rw [text_join_append hnonempty, String.toList_append]
    rfl
  simp only [withoutExtension, hfileName, hsplit, trimmed_join hfile hjoined, htext]
  simp

/-- A path through directories to a file, all of them with the names of modules. -/
structure IsModulePath (path : Path) (directories : List String) (stem : String) : Prop where
  isStem_directories : ∀ name ∈ directories, Ident.IsStem name
  isStem : Ident.IsStem stem
  eq_join : path = (ofNames directories).join ⟨stem ++ ".rs"⟩

namespace IsModulePath

variable {path other : Path} {directories directories' : List String} {stem stem' : String}

theorem isPlain_directories (hpath : path.IsModulePath directories stem) :
    ∀ name ∈ directories, IsPlain name :=
  fun name hname => Ident.isPlain_of_isValid (hpath.isStem_directories name hname).valid

theorem components_eq (hpath : path.IsModulePath directories stem) :
    path.components = directories.map .name ++ [.name (stem ++ ".rs")] := by
  have hfile := Ident.isPlain_file_of_isValid hpath.isStem.valid
  rw [hpath.eq_join, components_join (isInner_of_isPlain hfile), components_of_isPlain hfile,
    components_ofNames hpath.isPlain_directories]

theorem components_withoutExtension (hpath : path.IsModulePath directories stem) :
    path.withoutExtension.components = directories.map .name ++ [.name stem] := by
  have hrelative : (ofNames directories).isAbsolute = false := by
    rw [isAbsolute_ofNames, List.any_eq_false]
    intro name hname
    have hinner := isInner_of_isPlain (hpath.isPlain_directories name hname)
    simpa using (Bool.and_eq_true_iff.mp hinner).1
  have hplain := Ident.isPlain_of_isValid hpath.isStem.valid
  rw [hpath.eq_join, withoutExtension_join hpath.isStem hrelative, components_join
    (isInner_of_isPlain hplain), components_of_isPlain hplain,
    components_ofNames hpath.isPlain_directories]

/-- The components say where the directories end and which stem the file has. -/
theorem eq_of_components {directory : List Component} (hpath : path.IsModulePath directories stem)
    (hcomponents : path.components = directory ++ [.name (stem' ++ ".rs")]) :
    directory = directories.map .name ∧ stem' = stem := by
  rw [hpath.components_eq] at hcomponents
  obtain ⟨hdirectory, hfile⟩ := List.append_inj' hcomponents rfl
  obtain hfile := Component.name.inj (List.singleton_inj.mp hfile)
  exact ⟨hdirectory.symm, (String.append_left_inj ".rs").mp hfile.symm⟩

theorem eq_of_components_eq (hpath : path.IsModulePath directories stem)
    (hother : other.IsModulePath directories' stem')
    (heq : path.components = other.components) : path = other := by
  obtain ⟨hdirectories, rfl⟩ := hpath.eq_of_components (heq.trans hother.components_eq)
  have hnames : directories' = directories :=
    List.map_injective_iff.mpr (fun _ _ => Component.name.inj) hdirectories
  rw [hpath.eq_join, hother.eq_join, hnames]

end IsModulePath

end Storage.Path

/-- The file of a declaration with valid segments has the path of a module. -/
theorem Surroundings.exists_isModulePath {around : Surroundings} {name : String} {path : Path}
    (hpath : around.filePath name = .ok path)
    (hsegments : ∀ segment ∈ around.fileSegments name,
      ∃ ident, Ident.ofModule segment = .ok ident) :
    ∃ directories stem, path.IsModulePath directories stem := by
  obtain ⟨⟨package, parts⟩, hsplit, -⟩ := Outcome.bind_eq_ok_iff.mp hpath
  obtain ⟨-, hne, -⟩ := notMem_dot_of_split hsplit
  have hhead := List.head?_eq_some_head hne
  have hstem : ∀ segment ∈ package ++ [parts.head hne],
      Ident.IsStem (Ident.moduleName segment) := by
    intro segment hsegment
    obtain ⟨ident, hident⟩ := hsegments segment (by
      simpa [fileSegments, hsplit, hhead] using hsegment)
    exact Ident.isStem_of_ofModule hident
  rw [List.forall_mem_append, List.forall_mem_singleton] at hstem
  refine ⟨package.map Ident.moduleName, Ident.moduleName (parts.head hne), ?_, hstem.2, ?_⟩
  · rw [List.forall_mem_map]
    exact hstem.1
  · rw [filePath_eq hsplit, hhead, Except.ok.injEq] at hpath
    exact hpath.symm

namespace ModuleTree

variable {paths : List Path} {path : Path} {directory : Directory} {component : Component}
  {module stem : String} {tree : ModuleTree}

/-! ## What directories contain -/

/-- The file or directory stands directly in the directory, on the way to one of the paths. -/
def Contains (paths : List Path) (directory : Directory) (component : Component) : Prop :=
  ∃ path ∈ paths, ∃ back, path.components = directory ++ component :: back

/-- The path without its extension is a directory on the way to one of the paths. -/
def Conflicts (paths : List Path) (path : Path) : Prop :=
  ∃ directory stem component, path.components = directory ++ [.name (stem ++ ".rs")] ∧
    Contains paths (directory ++ [.name stem]) component

/-- A directory or a file with the given stem.  The module of an identifier is looked for where the
stem is the identifier without the mark of a raw one. -/
def HasStem (stem : String) (component : Component) : Prop :=
  component = .name stem ∨ component = .name (stem ++ ".rs")

/-- What is found from the root through modules that the directories on the way declare. -/
inductive Reachable (tree : ModuleTree) : List Component → Prop
  | root : Reachable tree []
  | declared {directory : Directory} {modules : List String} {module : String}
    {component : Component} (hdirectory : Reachable tree directory)
    (hmodules : (directory, modules) ∈ tree) (hmodule : module ∈ modules)
    (hstem : HasStem (Ident.bare module) component) : Reachable tree (directory ++ [component])

/-- The tree has the directories on the way to the paths, and each of them declares its files and
directories one to one.  So all paths are reached, and nothing else is declared. -/
structure Describes (tree : ModuleTree) (paths : List Path) : Prop where
  nodup : (tree.map (·.1)).Nodup
  directories : ∀ directory, (∃ modules, (directory, modules) ∈ tree) ↔
    ∃ component, Contains paths directory component
  ascending : ∀ directory modules, (directory, modules) ∈ tree → modules.Pairwise (· < ·)
  identifiers : ∀ directory modules, (directory, modules) ∈ tree →
    ∀ module ∈ modules, Ident.IsIdentifier module
  existsUnique_module : ∀ directory modules, (directory, modules) ∈ tree →
    ∀ component, Contains paths directory component →
      ∃! module, module ∈ modules ∧ HasStem (Ident.bare module) component
  existsUnique_component : ∀ directory modules, (directory, modules) ∈ tree →
    ∀ module ∈ modules,
      ∃! component, Contains paths directory component ∧ HasStem (Ident.bare module) component
  reachable : ∀ path ∈ paths, Reachable tree path.components
  stands : ∀ directory modules, (directory, modules) ∈ tree → ∀ module ∈ modules,
    (∃ path ∈ paths, path.components = directory ++ [.name (Ident.bare module ++ ".rs")]) ∨
      ∃ inner, (directory ++ [.name (Ident.bare module)], inner) ∈ tree

theorem mem_links_paths_iff :
    (directory, component) ∈ paths.flatMap links ↔ Contains paths directory component := by
  simp only [List.mem_flatMap, mem_links_iff, Contains]

theorem declaredName_of_hasStem (hstem : Ident.IsStem stem) (hcomponent : HasStem stem component) :
    declaredName component = Ident.written stem := by
  have hstemOf : Path.stemOf component = stem := by
    rcases hcomponent with rfl | rfl
    · exact Path.stemOf_of_notMem (Ident.notMem_dot_of_isValid hstem.valid)
    · exact Ident.stemOf_file_of_isValid hstem.valid
  obtain ⟨ident, hident, htext⟩ := Ident.ofName_of_isStem hstem
  rw [declaredName, hstemOf, hident]
  exact htext

/-- No stem has the extension of a file. -/
theorem isStem_ne_file {text : String} (hstem : Ident.IsStem text) : text ≠ stem ++ ".rs" := by
  rintro rfl
  exact Ident.notMem_dot_of_isValid hstem.valid (by simp)

section Entries

variable (hpaths : ∀ path ∈ paths, ∃ directories stem, path.IsModulePath directories stem)
include hpaths

/-- What stands in a directory is a directory with something in it, or the file of a path. -/
theorem cases_of_contains (hcontains : Contains paths directory component) :
    ∃ stem, Ident.IsStem stem ∧
      (component = .name stem ∧ (∃ next, Contains paths (directory ++ [.name stem]) next) ∨
        component = .name (stem ++ ".rs") ∧
          ∃ path ∈ paths, path.components = directory ++ [.name (stem ++ ".rs")]) := by
  obtain ⟨path, hmem, back, hcomponents⟩ := hcontains
  obtain ⟨directories, stem, hpath⟩ := hpaths path hmem
  have hsplit := hpath.components_eq.symm.trans hcomponents
  -- Only the last component of a path is a file; all before it are directories.
  rcases List.eq_nil_or_concat back with rfl | ⟨inner, last, rfl⟩
  · obtain ⟨-, hfile⟩ := List.append_inj' hsplit rfl
    obtain rfl := List.singleton_inj.mp hfile
    exact ⟨stem, hpath.isStem, .inr ⟨rfl, path, hmem, hcomponents⟩⟩
  · rw [List.concat_eq_append, ← List.cons_append, ← List.append_assoc] at hsplit
    obtain ⟨hdirectories, -⟩ := List.append_inj' hsplit rfl
    have hcomponent : component ∈ directories.map .name := by simp [hdirectories]
    obtain ⟨name, hname, rfl⟩ := List.mem_map.mp hcomponent
    refine ⟨name, hpath.isStem_directories name hname, .inl ⟨rfl, ?_⟩⟩
    cases inner with
    | nil => exact ⟨last, path, hmem, [], by simp [hcomponents]⟩
    | cons next inner => exact ⟨next, path, hmem, inner ++ [last], by simp [hcomponents]⟩

theorem exists_stem_of_contains (hcontains : Contains paths directory component) :
    ∃ stem, Ident.IsStem stem ∧ HasStem stem component := by
  obtain ⟨stem, hstem, ⟨rfl, -⟩ | ⟨rfl, -⟩⟩ := cases_of_contains hpaths hcontains
  · exact ⟨stem, hstem, .inl rfl⟩
  · exact ⟨stem, hstem, .inr rfl⟩

theorem exists_next_of_contains (hstem : Ident.IsStem stem)
    (hcontains : Contains paths directory (.name stem)) :
    ∃ next, Contains paths (directory ++ [.name stem]) next := by
  obtain ⟨other, -, ⟨heq, hnext⟩ | ⟨heq, -⟩⟩ := cases_of_contains hpaths hcontains
  · rw [heq]
    exact hnext
  · exact absurd (Component.name.inj heq) (isStem_ne_file hstem)

theorem exists_path_of_contains (hcontains : Contains paths directory (.name (stem ++ ".rs"))) :
    ∃ path ∈ paths, path.components = directory ++ [.name (stem ++ ".rs")] := by
  obtain ⟨other, hother, ⟨heq, -⟩ | ⟨heq, hpath⟩⟩ := cases_of_contains hpaths hcontains
  · exact absurd (Component.name.inj heq).symm (isStem_ne_file hother)
  · rw [heq]
    exact hpath

/-- A directory and a file beside it have the same stem only if the file conflicts. -/
theorem eq_of_hasStem (hfree : ∀ path ∈ paths, ¬Conflicts paths path) {other : Component}
    (hstem : Ident.IsStem stem) (hcontains : Contains paths directory component)
    (hother : Contains paths directory other) (hcomponent : HasStem stem component)
    (hotherStem : HasStem stem other) : component = other := by
  have hapart : Contains paths directory (.name stem) →
      ¬Contains paths directory (.name (stem ++ ".rs")) := by
    intro hdirectory hfile
    obtain ⟨next, hnext⟩ := exists_next_of_contains hpaths hstem hdirectory
    obtain ⟨path, hmem, hpath⟩ := exists_path_of_contains hpaths hfile
    exact hfree path hmem ⟨directory, stem, next, hpath, hnext⟩
  rcases hcomponent with rfl | rfl
  · rcases hotherStem with rfl | rfl
    · rfl
    · exact absurd hother (hapart hcontains)
  · rcases hotherStem with rfl | rfl
    · exact absurd hcontains (hapart hother)
    · rfl

/-- A directory declares the identifiers of the stems of what is in it. -/
theorem mem_modulesIn_paths_iff :
    module ∈ modulesIn (paths.flatMap links) directory ↔
      ∃ stem component, Ident.IsStem stem ∧ module = Ident.written stem ∧
        HasStem stem component ∧ Contains paths directory component := by
  rw [mem_modulesIn_iff]
  constructor
  · rintro ⟨component, hlink, rfl⟩
    have hcontains := mem_links_paths_iff.mp hlink
    obtain ⟨stem, hstem, hcomponent⟩ := exists_stem_of_contains hpaths hcontains
    exact ⟨stem, component, hstem, declaredName_of_hasStem hstem hcomponent, hcomponent, hcontains⟩
  · rintro ⟨stem, component, hstem, rfl, hcomponent, hcontains⟩
    exact ⟨component, mem_links_paths_iff.mpr hcontains, declaredName_of_hasStem hstem hcomponent⟩

end Entries

/-! ## When there is a tree -/

theorem firstRepeated_eq_none {seen : List Path} (hnodup : (paths.map Path.components).Nodup)
    (hseen : ∀ path ∈ paths, ∀ other ∈ seen, other.components ≠ path.components) :
    firstRepeated seen paths = none := by
  induction paths generalizing seen with
  | nil => rfl
  | cons path rest ih =>
    obtain ⟨hnew, hnodup⟩ := List.nodup_cons.mp hnodup
    obtain ⟨hfirst, hrest⟩ := List.forall_mem_cons.mp hseen
    have hunseen : seen.any (·.same path) = false := by
      simpa [Path.same] using hfirst
    rw [firstRepeated, hunseen, if_neg Bool.false_ne_true]
    refine ih hnodup fun later hlater other hother => ?_
    rcases List.mem_cons.mp hother with rfl | hother
    · exact fun heq => hnew (heq ▸ List.mem_map_of_mem hlater)
    · exact hrest later hlater other hother

theorem exists_of_firstRepeated_eq_some {seen : List Path}
    (hrepeated : firstRepeated seen paths = some path) :
    ∃ before after, paths = before ++ path :: after ∧
      ∃ other ∈ seen ++ before, other.components = path.components := by
  induction paths generalizing seen with
  | nil => cases hrepeated
  | cons first rest ih =>
    rw [firstRepeated] at hrepeated
    split at hrepeated
    · next hknown =>
      cases hrepeated
      obtain ⟨other, hother, hsame⟩ := List.any_eq_true.mp hknown
      exact ⟨[], rest, rfl, other, by simpa using hother, by simpa [Path.same] using hsame⟩
    · obtain ⟨before, after, rfl, other, hother, hsame⟩ := ih hrepeated
      refine ⟨first :: before, after, rfl, other, ?_, hsame⟩
      simpa [or_left_comm, or_assoc] using hother

/-- Whether the path without its extension is a directory of some path. -/
def stemIsDirectory (paths : List Path) (path : Path) : Bool :=
  (paths.flatMap links).any (·.1 == path.withoutExtension.components)

theorem ofPaths_eq_of_distinct (hdistinct : firstRepeated [] paths = none) :
    ofPaths paths =
      match (paths.mergeSort Path.le).find? (stemIsDirectory paths) with
      | some path => .error (.moduleConflict path.withoutExtension)
      | none =>
        .ok ((directories (paths.flatMap links)).map fun directory =>
          (directory, modulesIn (paths.flatMap links) directory)) := by
  rw [ofPaths, hdistinct]
  rfl

theorem stemIsDirectory_iff {directories : List String}
    (hpath : path.IsModulePath directories stem) :
    stemIsDirectory paths path = true ↔ Conflicts paths path := by
  rw [stemIsDirectory, hpath.components_withoutExtension, List.any_eq_true]
  constructor
  · rintro ⟨⟨directory, next⟩, hlink, heq⟩
    obtain rfl : directory = _ := by simpa using heq
    exact ⟨_, stem, next, hpath.components_eq, mem_links_paths_iff.mp hlink⟩
  · rintro ⟨directory, other, next, hcomponents, hnext⟩
    obtain ⟨rfl, rfl⟩ := hpath.eq_of_components hcomponents
    exact ⟨_, mem_links_paths_iff.mpr hnext, beq_self_eq_true _⟩

section Tree

variable (hpaths : ∀ path ∈ paths, ∃ directories stem, path.IsModulePath directories stem)
include hpaths

/-- Different paths of modules have different components. -/
theorem nodup_components_iff : (paths.map Path.components).Nodup ↔ paths.Nodup := by
  refine ⟨List.Nodup.of_map _, fun hnodup => hnodup.map_on ?_⟩
  intro path hpath other hother heq
  obtain ⟨_, _, hmodule⟩ := hpaths path hpath
  obtain ⟨_, _, hmodule'⟩ := hpaths other hother
  exact hmodule.eq_of_components_eq hmodule' heq

theorem ofPaths_of_not_nodup (hrepeats : ¬paths.Nodup) :
    ∃ before path after, paths = before ++ path :: after ∧ path ∈ before ∧
      ofPaths paths = .error (.duplicatePath path) := by
  cases hrepeated : firstRepeated [] paths with
  | none =>
    have hnodup := (nodup_of_firstRepeated_eq_none hrepeated).1
    exact absurd ((nodup_components_iff hpaths).mp hnodup) hrepeats
  | some path =>
    obtain ⟨before, after, rfl, other, hother, hsame⟩ :=
      exists_of_firstRepeated_eq_some hrepeated
    obtain ⟨_, _, hpath⟩ := hpaths path (by simp)
    have hknown : other ∈ before := by simpa using hother
    obtain ⟨_, _, hmodule⟩ := hpaths other (List.mem_append_left _ hknown)
    obtain rfl := hmodule.eq_of_components_eq hpath hsame
    refine ⟨before, other, after, rfl, hknown, ?_⟩
    rw [ofPaths, hrepeated]

theorem firstRepeated_eq_none_of_nodup (hnodup : paths.Nodup) : firstRepeated [] paths = none :=
  firstRepeated_eq_none ((nodup_components_iff hpaths).mpr hnodup) (by simp)

theorem ofPaths_of_conflicts (hnodup : paths.Nodup)
    (hconflict : ∃ path ∈ paths, Conflicts paths path) :
    ∃ path ∈ paths, Conflicts paths path ∧
      ofPaths paths = .error (.moduleConflict path.withoutExtension) := by
  rw [ofPaths_eq_of_distinct (firstRepeated_eq_none_of_nodup hpaths hnodup)]
  split
  · next path hfound =>
    have hmem : path ∈ paths := by simpa using List.mem_of_find?_eq_some hfound
    obtain ⟨_, _, hpath⟩ := hpaths path hmem
    exact ⟨path, hmem, (stemIsDirectory_iff hpath).mp (List.find?_some hfound), rfl⟩
  · next hnone =>
    obtain ⟨path, hmem, hpath⟩ := hconflict
    obtain ⟨_, _, hmodule⟩ := hpaths path hmem
    exact absurd ((stemIsDirectory_iff hmodule).mpr hpath)
      (List.find?_eq_none.mp hnone path (by simpa using hmem))

theorem exists_ofPaths (hnodup : paths.Nodup) (hfree : ∀ path ∈ paths, ¬Conflicts paths path) :
    ∃ tree, ofPaths paths = .ok tree := by
  rw [ofPaths_eq_of_distinct (firstRepeated_eq_none_of_nodup hpaths hnodup)]
  split
  · next path hfound =>
    have hmem : path ∈ paths := by simpa using List.mem_of_find?_eq_some hfound
    obtain ⟨_, _, hpath⟩ := hpaths path hmem
    exact absurd ((stemIsDirectory_iff hpath).mp (List.find?_some hfound)) (hfree path hmem)
  · exact ⟨_, rfl⟩

theorem exists_ofPaths_iff :
    (∃ tree, ofPaths paths = .ok tree) ↔
      paths.Nodup ∧ ∀ path ∈ paths, ¬Conflicts paths path := by
  refine ⟨fun ⟨tree, htree⟩ => ?_, fun ⟨hnodup, hfree⟩ => exists_ofPaths hpaths hnodup hfree⟩
  have hnodup : paths.Nodup := by
    by_contra hrepeats
    obtain ⟨_, _, _, -, -, hfailed⟩ := ofPaths_of_not_nodup hpaths hrepeats
    cases htree.symm.trans hfailed
  refine ⟨hnodup, fun path hmem hconflict => ?_⟩
  obtain ⟨_, -, -, hfailed⟩ := ofPaths_of_conflicts hpaths hnodup ⟨path, hmem, hconflict⟩
  cases htree.symm.trans hfailed

end Tree

/-! ## What a tree declares -/

section Declares

variable (hpaths : ∀ path ∈ paths, ∃ directories stem, path.IsModulePath directories stem)
  (htree : ofPaths paths = .ok tree)

include htree

theorem mem_tree_iff {modules : List String} :
    (directory, modules) ∈ tree ↔
      (∃ component, Contains paths directory component) ∧
        modules = modulesIn (paths.flatMap links) directory := by
  obtain ⟨-, rfl⟩ := exists_of_ofPaths_eq_ok htree
  simp only [List.mem_map, mem_directories_iff, mem_links_paths_iff, Prod.mk.injEq]
  constructor
  · rintro ⟨_, hcontains, rfl, rfl⟩
    exact ⟨hcontains, rfl⟩
  · rintro ⟨hcontains, rfl⟩
    exact ⟨directory, hcontains, rfl, rfl⟩

include hpaths

/-- The module of what stands in a directory is the one that the directory declares for it. -/
theorem existsUnique_module {modules : List String} (hmodules : (directory, modules) ∈ tree)
    (hcontains : Contains paths directory component) :
    ∃! module, module ∈ modules ∧ HasStem (Ident.bare module) component := by
  obtain ⟨-, rfl⟩ := (mem_tree_iff htree).mp hmodules
  obtain ⟨stem, hstem, hcomponent⟩ := exists_stem_of_contains hpaths hcontains
  refine ⟨Ident.written stem, ⟨?_, ?_⟩, ?_⟩
  · exact (mem_modulesIn_paths_iff hpaths).mpr ⟨stem, component, hstem, rfl, hcomponent, hcontains⟩
  · rwa [Ident.bare_written hstem]
  · rintro module ⟨hmodule, hother⟩
    obtain ⟨other, _, hotherStem, rfl, -, -⟩ := (mem_modulesIn_paths_iff hpaths).mp hmodule
    rw [Ident.bare_written hotherStem] at hother
    rw [← declaredName_of_hasStem hotherStem hother, declaredName_of_hasStem hstem hcomponent]

theorem existsUnique_component {modules : List String} (hmodules : (directory, modules) ∈ tree)
    (hmodule : module ∈ modules) :
    ∃! component, Contains paths directory component ∧ HasStem (Ident.bare module) component := by
  have hfree := ((exists_ofPaths_iff hpaths).mp ⟨tree, htree⟩).2
  obtain ⟨-, rfl⟩ := (mem_tree_iff htree).mp hmodules
  obtain ⟨stem, component, hstem, rfl, hcomponent, hcontains⟩ :=
    (mem_modulesIn_paths_iff hpaths).mp hmodule
  rw [Ident.bare_written hstem]
  refine ⟨component, ⟨hcontains, hcomponent⟩, fun other ⟨hother, hotherStem⟩ => ?_⟩
  exact eq_of_hasStem hpaths hfree hstem hother hcontains hotherStem hcomponent

/-- A path is reached along its components, each of which the directory before it declares. -/
theorem reachable_of_prefix {front : List Component} (hmem : path ∈ paths)
    (hfront : front <+: path.components) : Reachable tree front := by
  induction front using List.reverseRecOn with
  | nil => exact .root
  | append_singleton directory component ih =>
    obtain ⟨back, hback⟩ := hfront
    have hcontains : Contains paths directory component := ⟨path, hmem, back, by simp [← hback]⟩
    have hmodules := (mem_tree_iff htree).mpr ⟨⟨component, hcontains⟩, rfl⟩
    obtain ⟨module, ⟨hmodule, hstem⟩, -⟩ :=
      existsUnique_module hpaths htree hmodules hcontains
    exact .declared (ih ⟨component :: back, by simp [← hback]⟩) hmodules hmodule hstem

theorem describes_of_ofPaths : Describes tree paths where
  nodup := by
    obtain ⟨-, rfl⟩ := exists_of_ofPaths_eq_ok htree
    rw [List.map_map]
    exact (List.map_id _).symm ▸ nodup_directories (paths.flatMap links)
  directories directory := by
    simp [mem_tree_iff htree]
  ascending directory modules hmodules := by
    rw [((mem_tree_iff htree).mp hmodules).2]
    exact ascending_modulesIn _ _
  identifiers directory modules hmodules module hmodule := by
    obtain ⟨-, rfl⟩ := (mem_tree_iff htree).mp hmodules
    obtain ⟨stem, _, hstem, rfl, -, -⟩ := (mem_modulesIn_paths_iff hpaths).mp hmodule
    exact Ident.isIdentifier_written hstem
  existsUnique_module _ _ hmodules _ := existsUnique_module hpaths htree hmodules
  existsUnique_component _ _ hmodules _ := existsUnique_component hpaths htree hmodules
  reachable path hmem := reachable_of_prefix hpaths htree hmem (List.prefix_refl _)
  stands directory modules hmodules module hmodule := by
    obtain ⟨-, rfl⟩ := (mem_tree_iff htree).mp hmodules
    obtain ⟨stem, component, hstem, rfl, hcomponent, hcontains⟩ :=
      (mem_modulesIn_paths_iff hpaths).mp hmodule
    rw [Ident.bare_written hstem]
    rcases hcomponent with rfl | rfl
    · obtain ⟨next, hnext⟩ := exists_next_of_contains hpaths hstem hcontains
      exact .inr ⟨_, (mem_tree_iff htree).mpr ⟨⟨next, hnext⟩, rfl⟩⟩
    · exact .inl (exists_path_of_contains hpaths hcontains)

end Declares

/-- The tree of modules declares exactly the generated modules.  For files of declarations whose
segments are valid modules it exists if and only if the paths differ and no path is a directory once
its extension is gone; a repeated path is reported first, and then such a conflict.  The tree has
the directories on the way to the files, and these declare what is in them one to one, by valid
identifiers, so that every file is reached from the root and nothing else is declared. -/
theorem ofPaths_exact (around : Surroundings) (paths : List Path)
    (hfiles : ∀ path ∈ paths, ∃ name, around.filePath name = .ok path ∧
      ∀ segment ∈ around.fileSegments name, ∃ ident, Ident.ofModule segment = .ok ident) :
    ((∃ tree, ofPaths paths = .ok tree) ↔
        paths.Nodup ∧ ∀ path ∈ paths, ¬Conflicts paths path) ∧
      (¬paths.Nodup → ∃ before path after, paths = before ++ path :: after ∧ path ∈ before ∧
        ofPaths paths = .error (.duplicatePath path)) ∧
      (paths.Nodup → (∃ path ∈ paths, Conflicts paths path) →
        ∃ path ∈ paths, Conflicts paths path ∧
          ofPaths paths = .error (.moduleConflict path.withoutExtension)) ∧
      ∀ tree, ofPaths paths = .ok tree → Describes tree paths := by
  have hpaths : ∀ path ∈ paths, ∃ directories stem, path.IsModulePath directories stem := by
    intro path hmem
    obtain ⟨name, hpath, hsegments⟩ := hfiles path hmem
    exact Surroundings.exists_isModulePath hpath hsegments
  exact ⟨exists_ofPaths_iff hpaths, ofPaths_of_not_nodup hpaths, ofPaths_of_conflicts hpaths,
    fun tree htree => describes_of_ofPaths hpaths htree⟩

/-- Packages one inside the other with keywords among the names, and a type named like a package. -/
def shopIndex : Index where
  entries :=
    [⟨⟨"shop.schema", ""⟩, .type (.declare "Shop" [])⟩,
      ⟨⟨"shop/self.schema", "shop"⟩, .type (.declare "shop.Self" [])⟩,
      ⟨⟨"shop/type.schema", "shop.type"⟩, .type (.declare "shop.type.Cart" [])⟩]
  ascending := by decide

def shopSurroundings : Surroundings where
  index := shopIndex
  root := ⟨false, ["crate"]⟩
  runtime := ⟨true, ["compgen_runtime"]⟩

theorem exists_filePath_shop :
    ∀ path ∈ ([⟨"shop.rs"⟩, ⟨"shop/self_.rs"⟩, ⟨"shop/type/cart.rs"⟩] : List Path),
      ∃ name, shopSurroundings.filePath name = .ok path ∧
        ∀ segment ∈ shopSurroundings.fileSegments name,
          ∃ ident, Ident.ofModule segment = .ok ident := by
  have hverdict : ∀ name ∈ ["Shop", "shop.Self", "shop.type.Cart"],
      ∀ segment ∈ shopSurroundings.fileSegments name,
        Outcome.verdict (Ident.ofModule segment) = .ok () := by
    decide +kernel
  have hvalid : ∀ name ∈ ["Shop", "shop.Self", "shop.type.Cart"],
      ∀ segment ∈ shopSurroundings.fileSegments name,
        ∃ ident, Ident.ofModule segment = .ok ident :=
    fun name hname segment hsegment =>
      Outcome.verdict_eq_ok_iff.mp (hverdict name hname segment hsegment)
  simp only [List.forall_mem_cons]
  exact ⟨⟨"Shop", by decide, hvalid _ (by simp)⟩, ⟨"shop.Self", by decide, hvalid _ (by simp)⟩,
    ⟨"shop.type.Cart", by decide, hvalid _ (by simp)⟩, by simp⟩

def shopLinks : List (Directory × Component) :=
  [([], .name "shop"), ([.name "shop"], .name "type"),
    ([.name "shop", .name "type"], .name "cart.rs"), ([], .name "shop"),
    ([.name "shop"], .name "self_.rs")]

theorem ofPaths_shop :
    ofPaths [⟨"shop/type/cart.rs"⟩, ⟨"shop/self_.rs"⟩] =
      .ok [([], ["shop"]), ([.name "shop"], ["r#type", "self_"]),
        ([.name "shop", .name "type"], ["cart"])] := by
  have hlinks : [⟨"shop/type/cart.rs"⟩, ⟨"shop/self_.rs"⟩].flatMap links = shopLinks := by decide
  have hnone : (([⟨"shop/type/cart.rs"⟩, ⟨"shop/self_.rs"⟩] : List Path).mergeSort Path.le).find?
      (stemIsDirectory [⟨"shop/type/cart.rs"⟩, ⟨"shop/self_.rs"⟩]) = none := by
    simp only [List.find?_eq_none, List.mem_mergeSort]
    decide
  have hdirectories : directories shopLinks = [[], [.name "shop"], [.name "shop", .name "type"]] :=
    List.mergeSort_of_pairwise (by decide)
  have hroot : modulesIn shopLinks [] = ["shop"] := List.mergeSort_of_pairwise (by decide)
  have hshop : modulesIn shopLinks [.name "shop"] = ["r#type", "self_"] :=
    List.mergeSort_of_pairwise (by decide)
  have htype : modulesIn shopLinks [.name "shop", .name "type"] = ["cart"] :=
    List.mergeSort_of_pairwise (by decide)
  rw [ofPaths_eq_of_distinct (by decide), hnone, hlinks, hdirectories]
  simp only [List.map_cons, List.map_nil, hroot, hshop, htype]

theorem ofPaths_exact_shop :
    Describes [([], ["shop"]), ([.name "shop"], ["r#type", "self_"]),
        ([.name "shop", .name "type"], ["cart"])]
      [⟨"shop/type/cart.rs"⟩, ⟨"shop/self_.rs"⟩] ∧
      (∃ path, ofPaths [⟨"shop.rs"⟩, ⟨"shop/self_.rs"⟩] = .error (.moduleConflict path)) ∧
        ∃ path, ofPaths [⟨"shop.rs"⟩, ⟨"shop.rs"⟩] = .error (.duplicatePath path) := by
  refine ⟨?_, ?_, ?_⟩
  · obtain ⟨-, -, -, hdescribes⟩ := ofPaths_exact shopSurroundings
      [⟨"shop/type/cart.rs"⟩, ⟨"shop/self_.rs"⟩] fun path hmem => exists_filePath_shop path (by
        simp only [List.mem_cons, List.not_mem_nil, or_false] at hmem ⊢
        exact .inr hmem.symm)
    exact hdescribes _ ofPaths_shop
  · obtain ⟨-, -, hconflict, -⟩ := ofPaths_exact shopSurroundings
      [⟨"shop.rs"⟩, ⟨"shop/self_.rs"⟩] fun path hmem => exists_filePath_shop path (by
        simp only [List.mem_cons, List.not_mem_nil, or_false] at hmem ⊢
        exact hmem.imp_right .inl)
    obtain ⟨path, -, -, hfailed⟩ := hconflict (by decide) ⟨⟨"shop.rs"⟩, by simp, [], "shop",
      .name "self_.rs", by decide, ⟨"shop/self_.rs"⟩, by simp, [], by decide⟩
    exact ⟨_, hfailed⟩
  · obtain ⟨-, hrepeated, -, -⟩ := ofPaths_exact shopSurroundings
      [⟨"shop.rs"⟩, ⟨"shop.rs"⟩] fun path hmem => exists_filePath_shop path (by
        simp only [List.mem_cons, List.not_mem_nil, or_false] at hmem ⊢
        exact .inl (hmem.elim id id))
    obtain ⟨_, path, _, -, -, hfailed⟩ := hrepeated (by decide)
    exact ⟨path, hfailed⟩

end ModuleTree

end SchemaLoom
