import SchemaLoom.Output.ModuleTree
import SchemaLoom.Proofs.Emission
import SchemaLoom.Proofs.PathComponents
import SchemaLoom.Proofs.WrittenNames

/-!
# Where declarations stand

A path in generated code leads through modules to a declaration.  The modules come from different
sources: directories declare those of packages and files, and each file has those of the nested
declarations inside it.  When the names of an index are consistent, the modules around a declaration
are the ones its path goes through.
-/

namespace SchemaLoom

open Storage (Path Component)

/-! ## Names of modules -/

namespace Ident

theorem isValid_of_ofName {name : String} {ident : Ident} (hident : ofName name = .ok ident) :
    isValid (escape name) = true := by
  by_contra hvalid
  rw [ofName_eq_error_iff.mpr ⟨by simpa using hvalid, rfl⟩] at hident
  cases hident

theorem escape_escape (name : String) : escape (escape name) = escape name := by
  by_cases hraw : name ∈ neverRaw
  · simp only [neverRaw, List.mem_cons, List.not_mem_nil, or_false] at hraw
    rcases hraw with rfl | rfl | rfl | rfl <;> decide
  · simp [escape, hraw]

theorem isValid_of_ofModule {name : String} {ident : Ident} (hident : ofModule name = .ok ident) :
    isValid (moduleName name) = true := by
  have hvalid := isValid_of_ofName hident
  rwa [moduleName, escape_escape] at hvalid

theorem isPartChar_of_isValid {name : String} (hvalid : isValid name = true) :
    ∀ char ∈ name.toList, isPartChar char = true := by
  rw [isValid] at hvalid
  split at hvalid
  · cases hvalid
  · next first rest hchars =>
    simp only [Bool.and_eq_true, List.all_eq_true] at hvalid
    rw [hchars, List.forall_mem_cons]
    refine ⟨?_, hvalid.1.2⟩
    have hstart := hvalid.1.1
    simp only [isStartChar, isPartChar, Char.isAlphanum, Bool.or_eq_true] at hstart ⊢
    exact hstart.imp_left .inl

variable {name : String} (hvalid : isValid name = true)
include hvalid

theorem ne_empty_of_isValid : name ≠ "" := by
  rintro rfl
  cases hvalid

theorem notMem_dot_of_isValid : '.' ∉ name.toList := by
  intro hdot
  exact absurd (isPartChar_of_isValid hvalid '.' hdot) (by decide)

theorem notMem_slash_of_isValid : '/' ∉ name.toList := by
  intro hslash
  exact absurd (isPartChar_of_isValid hvalid '/' hslash) (by decide)

theorem isPlain_of_isValid : Path.IsPlain name := by
  obtain ⟨char, hchar⟩ := List.exists_mem_of_ne_nil name.toList
    (by simpa using ne_empty_of_isValid hvalid)
  apply Path.isPlain_of_mem (notMem_slash_of_isValid hvalid) hchar
  rintro rfl
  exact notMem_dot_of_isValid hvalid hchar

theorem isPlain_file_of_isValid : Path.IsPlain (name ++ ".rs") := by
  have hmem : 'r' ∈ (name ++ ".rs").toList := by simp
  apply Path.isPlain_of_mem _ hmem (by decide)
  simpa using notMem_slash_of_isValid hvalid

theorem stemOf_file_of_isValid : Path.stemOf (.name (name ++ ".rs")) = name := by
  have hsplit : name ++ ".rs" = name ++ "." ++ "rs" := by
    rw [String.append_assoc]
    rfl
  rw [hsplit]
  exact Path.stemOf_append (ne_empty_of_isValid hvalid) (by decide)

end Ident

namespace ModuleTree

theorem map_linksFrom (directory : Directory) (components : List Component) :
    (linksFrom directory components).map (·.2) = components := by
  induction components generalizing directory with
  | nil => rfl
  | cons component rest ih => rw [linksFrom, List.map_cons, ih]

variable {part : String} {ident : Ident} (hident : Ident.ofModule part = .ok ident)
include hident

theorem declaredName_directory :
    declaredName (.name (Ident.moduleName part)) = ident.text := by
  have hvalid := Ident.isValid_of_ofModule hident
  rw [Ident.ofModule] at hident
  rw [declaredName, Path.stemOf_of_notMem (Ident.notMem_dot_of_isValid hvalid), hident]

theorem declaredName_file :
    declaredName (.name (Ident.moduleName part ++ ".rs")) = ident.text := by
  have hvalid := Ident.isValid_of_ofModule hident
  rw [Ident.ofModule] at hident
  rw [declaredName, Ident.stemOf_file_of_isValid hvalid, hident]

end ModuleTree

/-- The names that directories declare along the path of a file: those of the modules of its
package, and then its own. -/
def OutputUnit.declaredNames (unit : OutputUnit) : List String :=
  (ModuleTree.links unit.path).map fun link => ModuleTree.declaredName link.2

theorem OutputUnit.declaredNames_eq (unit : OutputUnit) :
    unit.declaredNames = unit.path.components.map ModuleTree.declaredName := by
  have hcomponents := ModuleTree.map_linksFrom [] unit.path.components
  rw [← hcomponents, List.map_map]
  rfl

namespace Surroundings

variable {around : Surroundings} {name label : String} {package : List String} {path : Path}

theorem filePath_eq {parts : List String} (hsplit : around.split name = .ok (package, parts)) :
    around.filePath name =
      .ok ((Path.ofNames (package.map Ident.moduleName)).join
        ⟨Ident.moduleName (parts.head?.getD name) ++ ".rs"⟩) := by
  rw [filePath, hsplit]
  rfl

variable {modules : List Ident} {ident : Ident}

theorem components_of_filePath (hsplit : around.split name = .ok (package, [label]))
    (hpath : around.filePath name = .ok path)
    (hpackage : List.Forall₂ (fun part ident => Ident.ofModule part = .ok ident) package modules)
    (hlabel : Ident.ofModule label = .ok ident) :
    path.components = (package.map Ident.moduleName).map .name ++
      [.name (Ident.moduleName label ++ ".rs")] := by
  have hplain : ∀ text ∈ package.map Ident.moduleName, Path.IsPlain text := by
    rw [List.forall_mem_map]
    intro part hpart
    obtain ⟨module, -, hmodule⟩ := Outcome.exists_right_of_mem hpackage hpart
    exact Ident.isPlain_of_isValid (Ident.isValid_of_ofModule hmodule)
  have hfile := Ident.isPlain_file_of_isValid (Ident.isValid_of_ofModule hlabel)
  rw [filePath_eq hsplit, Except.ok.injEq] at hpath
  rw [← hpath, List.head?_cons, Option.getD_some, Path.components_join
    (Path.isInner_of_isPlain hfile), Path.components_ofNames hplain, Path.components_of_isPlain hfile]

theorem declaredNames_of_filePath (hsplit : around.split name = .ok (package, [label]))
    (hpath : around.filePath name = .ok path)
    (hpackage : List.Forall₂ (fun part ident => Ident.ofModule part = .ok ident) package modules)
    (hlabel : Ident.ofModule label = .ok ident) :
    path.components.map ModuleTree.declaredName = (modules ++ [ident]).map Ident.text := by
  have hdirectories : package.map (fun part =>
      ModuleTree.declaredName (.name (Ident.moduleName part))) = modules.map Ident.text :=
    Outcome.map_eq_map hpackage fun _ _ hident => ModuleTree.declaredName_directory hident
  rw [components_of_filePath hsplit hpath hpackage hlabel]
  simp only [List.map_append, List.map_map, Function.comp_def, List.map_singleton, hdirectories,
    ModuleTree.declaredName_file hlabel]

end Surroundings

namespace ModuleTree

theorem exists_of_ofPaths_eq_ok {paths : List Path} {tree : ModuleTree}
    (htree : ofPaths paths = .ok tree) :
    firstRepeated [] paths = none ∧
      tree = (directories (paths.flatMap links)).map fun directory =>
        (directory, modulesIn (paths.flatMap links) directory) := by
  rw [ofPaths] at htree
  split at htree
  · cases htree
  · next hrepeated =>
    simp only at htree
    split at htree
    · cases htree
    · cases htree
      exact ⟨hrepeated, rfl⟩

variable {found : List (Directory × Component)} {directory : Directory}

theorem mem_directories_iff :
    directory ∈ directories found ↔ ∃ component, (directory, component) ∈ found := by
  simp [directories]

theorem mem_modulesIn_iff {module : String} :
    module ∈ modulesIn found directory ↔
      ∃ component, (directory, component) ∈ found ∧ declaredName component = module := by
  rw [modulesIn, List.mem_mergeSort, List.mem_eraseDups, List.mem_map]
  constructor
  · rintro ⟨⟨other, component⟩, hlink, rfl⟩
    obtain ⟨hfound, hother⟩ := List.mem_filter.mp hlink
    obtain rfl : other = directory := by simpa using hother
    exact ⟨component, hfound, rfl⟩
  · rintro ⟨component, hlink, rfl⟩
    exact ⟨(directory, component), List.mem_filter.mpr ⟨hlink, beq_self_eq_true _⟩, rfl⟩

/-- Every directory on the way to a file declares what comes next. -/
theorem declares_of_ofPaths {paths : List Path} {tree : ModuleTree}
    (htree : ofPaths paths = .ok tree) {path : Path} (hpath : path ∈ paths) :
    ∀ link ∈ links path, ∃ modules, (link.1, modules) ∈ tree ∧ declaredName link.2 ∈ modules := by
  intro link hlink
  have hmem : link ∈ paths.flatMap links := List.mem_flatMap.mpr ⟨path, hpath, hlink⟩
  obtain ⟨-, rfl⟩ := exists_of_ofPaths_eq_ok htree
  refine ⟨_, List.mem_map_of_mem (mem_directories_iff.mpr ⟨link.2, hmem⟩), ?_⟩
  exact mem_modulesIn_iff.mpr ⟨link.2, hmem, rfl⟩

end ModuleTree

/-! ## Modules inside modules -/

namespace Module

/-- One module is found inside another by going through the modules of the given names. -/
inductive Inside : Module → List Ident → Module → Prop where
  | here (module : Module) : Inside module [] module
  | member {module inner found : Module} {ident : Ident} {idents : List Ident}
      (hmember : (ident, inner) ∈ module.members) (hinside : Inside inner idents found) :
      Inside module (ident :: idents) found

variable {module found : Module} {idents : List Ident}

theorem Inside.mem_all (hinside : module.Inside idents found) : found ∈ module.all := by
  induction hinside with
  | here module => exact module.mem_all_self
  | member hmember _ ih => exact mem_all_of_member hmember ih

theorem exists_inside_of_mem_all (hfound : found ∈ module.all) :
    ∃ idents, module.Inside idents found := by
  induction module using Module.induction with
  | node module ih =>
    rw [all_eq, List.mem_cons, List.mem_flatMap] at hfound
    rcases hfound with rfl | ⟨⟨ident, inner⟩, hmember, hfound⟩
    · exact ⟨[], .here _⟩
    · obtain ⟨idents, hinside⟩ := ih _ hmember hfound
      exact ⟨ident :: idents, .member hmember hinside⟩

/-- The labels of a declaration found inside another one go on with those of the modules on the
way. -/
theorem Inside.exists_labels {around : Surroundings} {subjects : List Subject} {package : String}
    {labels : List String} (hnames : around.index.ConsistentNames)
    (hinside : module.Inside idents found)
    (hfits : ∀ other ∈ module.all, other.Fits around subjects)
    (hspells : around.index.Spells module.item.name package labels) :
    ∃ inner, around.index.Spells found.item.name package (labels ++ inner) ∧
      List.Forall₂ (fun label ident => Ident.ofModule label = .ok ident) inner idents := by
  induction hinside generalizing labels with
  | here module => exact ⟨[], by rwa [List.append_nil], .nil⟩
  | @member module inner found ident idents hmember hinside ih =>
    have hfit := hfits module module.mem_all_self
    obtain ⟨name, hname, hident, hitem⟩ := Outcome.exists_left_of_mem hfit.members hmember
    obtain ⟨entry, hget, houter⟩ :=
      Option.bind_eq_some_iff.mp (Index.mem_nestedMembers_iff.mp hname)
    obtain ⟨hentry, hentryName⟩ := Index.get?_eq_some_iff.mp hget
    have hnested := hspells.nested hnames hentry houter
    rw [hentryName, ← hitem] at hnested
    obtain ⟨inner', hfound, hinner⟩ := ih (fun other hother =>
      hfits other (mem_all_of_member hmember hother)) hnested
    refine ⟨entry.decl.label :: inner', by rwa [List.append_cons], .cons ?_ hinner⟩
    rw [hnames.label entry hentry, hentryName]
    exact hident

end Module

/-! ## Placements -/

/-- The segments under which a declaration stands: the modules that directories declare along the
path of the file, the modules inside the file, and the identifier of the declaration itself. -/
def OutputUnit.segments (unit : OutputUnit) (idents : List Ident) (item : Item) : List String :=
  unit.declaredNames ++ idents.map Ident.text ++ [item.ident.text]

theorem Index.Spells.typePath_eq_ok {around : Surroundings} {name package : String}
    {labels : List String} {path : Code} (hspells : around.index.Spells name package labels)
    (hpath : around.typePath name = .ok path) :
    ∃ modules ident, List.Forall₂ (fun part ident => Ident.ofModule part = .ok ident)
        ((if package = "" then [] else dottedParts package) ++ labels) modules ∧
      Ident.ofType (shortName name) = .ok ident ∧
      path = around.root.code ++ ((modules ++ [ident]).map Ident.text).flatMap (["::", ·]) := by
  obtain ⟨⟨modules, ident⟩, hplace, hpath⟩ := Outcome.bind_eq_ok_iff.mp hpath
  rw [Surroundings.place, hspells.split_eq] at hplace
  obtain ⟨parts, hparts, hplace⟩ := Outcome.bind_eq_ok_iff.mp hplace
  cases hparts
  obtain ⟨modules', hmodules, hplace⟩ := Outcome.bind_eq_ok_iff.mp hplace
  obtain ⟨ident', hident, hplace⟩ := Outcome.bind_eq_ok_iff.mp hplace
  cases hplace
  cases hpath
  rw [hspells.last] at hident
  refine ⟨modules, ident, Outcome.mapM_eq_ok_iff.mp hmodules, hident, ?_⟩
  rw [List.flatMap_map]

theorem Index.exists_entry_of_declared {index : Index} {name : String} {declared : Declared}
    (hdeclared : index.declared name = .ok declared) :
    ∃ entry ∈ index.entries, entry.name = name ∧ entry.decl.label = declared.name := by
  have hlabel : ∀ entry, index.get? name = some entry → entry.decl.label = declared.name →
      ∃ entry ∈ index.entries, entry.name = name ∧ entry.decl.label = declared.name := by
    intro entry hget hlabel
    obtain ⟨hentry, hname⟩ := get?_eq_some_iff.mp hget
    exact ⟨entry, hentry, hname, hlabel⟩
  rw [Index.declared, component?, type?] at hdeclared
  cases hget : index.get? name with
  | none =>
    rw [hget] at hdeclared
    cases hdeclared
  | some entry =>
    rw [hget] at hdeclared
    apply hlabel entry hget
    obtain ⟨source, decl⟩ := entry
    cases decl with
    | type decl =>
      cases hdeclared
      rfl
    | component decl =>
      obtain ⟨parts, -, rfl⟩ := Outcome.map_eq_ok_iff.mp hdeclared
      rfl
    | enumeration decl => cases hdeclared

namespace Resolution

variable {resolution : Resolution} {around : Surroundings}

theorem exists_entry_of_subject {subject : Subject} (hsubject : subject ∈ resolution.subjects) :
    ∃ entry ∈ resolution.index.entries, entry.name = subject.name ∧
      entry.decl.label = subject.label := by
  rw [subjects, List.mem_append, List.mem_map, List.mem_map] at hsubject
  rcases hsubject with ⟨tree, htree, rfl⟩ | ⟨enum, henum, rfl⟩
  · obtain ⟨name, -, -, declared, hdeclared, hlabel, -⟩ :=
      Outcome.exists_left_of_mem resolution.forall₂_trees htree
    obtain ⟨entry, hentry, hname, hentryLabel⟩ := Index.exists_entry_of_declared hdeclared
    exact ⟨entry, hentry, hname, hentryLabel.trans hlabel.symm⟩
  · obtain ⟨decl, -, hresolve⟩ := Outcome.exists_left_of_mem resolution.forall₂_enums henum
    obtain ⟨found, hfound, hname, hlabel, -⟩ := Index.values_of_resolveEnum hresolve
    obtain ⟨entry, hget, henum⟩ := Option.bind_eq_some_iff.mp hfound
    obtain ⟨hentry, hentryName⟩ := Index.get?_eq_some_iff.mp hget
    refine ⟨entry, hentry, hentryName.trans hname.symm, .trans ?_ hlabel.symm⟩
    obtain ⟨source, decl⟩ := entry
    cases decl with
    | enumeration decl =>
      cases henum
      rfl
    | type decl => cases henum
    | component decl => cases henum

/-- The path of a declaration goes through the modules it stands in. -/
theorem typePath_eq_of_inside (hindex : around.index = resolution.index)
    (hnames : resolution.index.ConsistentNames) {units : List OutputUnit}
    (hcomplete : around.Complete resolution.subjects units) {unit : OutputUnit}
    (hunit : unit ∈ units)
    {idents : List Ident} {module : Module} (hinside : unit.module.Inside idents module)
    {path : Code} (hpath : around.typePath module.item.name = .ok path) :
    path = around.root.code ++ (unit.segments idents module.item).flatMap (["::", ·]) := by
  rw [← hindex] at hnames
  obtain ⟨hname, hfile⟩ := hcomplete.tops unit hunit
  have hfits : ∀ other ∈ unit.module.all, other.Fits around resolution.subjects := by
    intro other hother
    exact hcomplete.fits other (List.mem_flatMap.mpr ⟨unit, hunit, hother⟩)
  -- The file is that of a declaration without an outer one, so its only label is its own.
  obtain ⟨entry, hentry, houter, hentryName⟩ : ∃ entry ∈ around.index.entries,
      entry.decl.outer? = none ∧ entry.name = unit.name := by
    have hmem : unit.name ∈ units.map (·.name) := List.mem_map_of_mem hunit
    rw [hcomplete.names, List.mem_map] at hmem
    obtain ⟨entry, hentry, hentryName⟩ := hmem
    obtain ⟨hentry, houter⟩ := List.mem_filter.mp hentry
    exact ⟨entry, hentry, by simpa using houter, hentryName⟩
  have htop := Index.Spells.of_top hnames hentry houter
  rw [hentryName] at htop
  obtain ⟨inner, hspells, hinner⟩ := hinside.exists_labels hnames hfits (hname ▸ htop)
  obtain ⟨modules, ident, hmodules, hident, rfl⟩ := hspells.typePath_eq_ok hpath
  obtain ⟨directories, rest, rfl, hpackage, hrest⟩ := Outcome.forall₂_append_left hmodules
  obtain ⟨first, found, rfl, hfirst, hfound⟩ := Outcome.forall₂_append_left hrest
  obtain ⟨top, rfl, hlabel⟩ : ∃ top, first = [top] ∧ Ident.ofModule entry.decl.label = .ok top := by
    cases hfirst with
    | @cons _ top _ _ hlabel hnil =>
      cases hnil
      exact ⟨top, rfl, hlabel⟩
  have hidents : found = idents := by
    have hsame := Outcome.mapM_eq_ok_of_forall₂ hfound
    rw [Outcome.mapM_eq_ok_of_forall₂ hinner, Except.ok.injEq] at hsame
    exact hsame.symm
  have hdeclared := Surroundings.declaredNames_of_filePath htop.split_eq hfile hpackage hlabel
  have hself : ident = module.item.ident := by
    obtain ⟨subject, hsubject, hsubjectName, hitem⟩ := (hfits module hinside.mem_all).item
    obtain ⟨found, hfound, hfoundName, hfoundLabel⟩ := exists_entry_of_subject hsubject
    have hshort := hnames.label found (hindex ▸ hfound)
    rw [hfoundName, hsubjectName, hfoundLabel] at hshort
    have hof := (Item.of_eq_ok hitem).2
    rw [hshort, hident, Except.ok.injEq] at hof
    exact hof
  rw [OutputUnit.segments, unit.declaredNames_eq, hdeclared, hself, hidents]
  simp only [List.map_append, List.map_singleton, List.append_assoc]

theorem exists_of_mem_paths {subject : Subject} {item : Item}
    (hsubject : subject ∈ resolution.subjects) (hitem : Item.of around subject = .ok item)
    {path : Code} (hpath : path ∈ item.paths) :
    ∃ name, (resolution.index.get? name).isSome ∧ around.typePath name = .ok path := by
  rw [subjects, List.mem_append, List.mem_map, List.mem_map] at hsubject
  rcases hsubject with ⟨tree, htree, rfl⟩ | ⟨enum, henum, rfl⟩
  · obtain ⟨code, hcode, rfl⟩ := Outcome.map_eq_ok_iff.mp hitem
    obtain ⟨name, hname, htypePath⟩ := TypeCode.exists_of_mem_paths hcode hpath
    exact ⟨name, resolution.isSome_get?_of_mem_references htree hname, htypePath⟩
  · obtain ⟨code, -, rfl⟩ := Outcome.map_eq_ok_iff.mp hitem
    cases hpath

/-- Paths in generated code lead to generated declarations.  Every declaration stands in the output,
and if it has a path at all, the path goes through the modules it stands in and ends with its
identifier; the directories declare these modules, and the code of a file has the inner ones.  The
types of fields, as they are read in the code, have the paths of the types that the fields refer to,
and all paths of types that an item refers to are read in its file.  Every path that is read there
is the path of a declaration, unless it is one of those that lead to none: into the supporting and
the standard libraries and to the members of types in scope. -/
theorem typePath_eq_placement (resolution : Resolution) (config : GenerateConfig)
    {around : Surroundings} (haround : Surroundings.ofConfig resolution.index config = .ok around)
    (hnames : resolution.index.ConsistentNames) {artifacts : List Artifact}
    (hemit : emit resolution.index config resolution.trees resolution.enums = .ok artifacts) :
    ∃ units : List OutputUnit, artifacts = units.map OutputUnit.artifact ∧
      around.Complete resolution.subjects units ∧
      (∀ name, (resolution.index.get? name).isSome → ∃ unit ∈ units, ∃ idents module,
        unit.module.Inside idents module ∧ module.item.name = name) ∧
      (∀ unit ∈ units, unit.artifact.code.outline = unit.module.code.outline ∧
        ∀ idents module, unit.module.Inside idents module → module.Written ∧
          ∀ path, around.typePath module.item.name = .ok path →
            path = around.root.code ++ (unit.segments idents module.item).flatMap (["::", ·])) ∧
      (∀ tree, ModuleTree.ofPaths (artifacts.map Artifact.path) = .ok tree →
        ∀ unit ∈ units, ∀ link ∈ ModuleTree.links unit.path, ∃ modules,
          (link.1, modules) ∈ tree ∧ ModuleTree.declaredName link.2 ∈ modules) ∧
      ∀ unit ∈ units,
        (∀ idents module, unit.module.Inside idents module →
          (∀ path ∈ module.item.paths, path ∈ unit.artifact.code.paths) ∧
            ∀ code, module.item = .type code → ∀ field ∈ code.fields,
              ∃ type, (field.ident.text, type) ∈ module.code.fields ∧
                ∀ path ∈ field.paths, path ∈ type.paths) ∧
        ∀ path ∈ unit.artifact.code.paths,
          (∃ name, (resolution.index.get? name).isSome ∧ around.typePath name = .ok path) ∨
            ∃ idents module, unit.module.Inside idents module ∧
              Fixed around.runtime.code module.item.ident path := by
  have hindex := index_of_ofConfig haround
  rw [emit_eq resolution.index config haround resolution.trees resolution.enums] at hemit
  obtain ⟨units, hunits, rfl⟩ := Outcome.map_eq_ok_iff.mp hemit
  obtain ⟨hcomplete, -⟩ := complete_of_assembleUnits hindex hunits
  have hitem : ∀ unit ∈ units, ∀ module ∈ unit.module.all, ∃ subject ∈ resolution.subjects,
      Item.of around subject = .ok module.item := by
    intro unit hunit module hmodule
    obtain ⟨subject, hsubject, -, hitem⟩ :=
      (hcomplete.fits module (List.mem_flatMap.mpr ⟨unit, hunit, hmodule⟩)).item
    exact ⟨subject, hsubject, hitem⟩
  have hspelled : ∀ unit ∈ units, ∀ module ∈ unit.module.all, module.Spelled :=
    fun unit hunit module hmodule => spelled_of_complete haround hcomplete module
      (List.mem_flatMap.mpr ⟨unit, hunit, hmodule⟩)
  have hunits : ∀ unit ∈ units, unit.module.Spelled := fun unit hunit =>
    hspelled unit hunit unit.module unit.module.mem_all_self
  refine ⟨units, rfl, hcomplete, fun name hname => ?_, fun unit hunit =>
    ⟨unit.outline_artifact (hunits unit hunit), fun idents module hinside => ⟨?_, ?_⟩⟩,
    fun tree htree unit hunit => ?_, fun unit hunit =>
    ⟨fun idents module hinside => ⟨fun path hpath => ?_, fun code hcode field hfield => ?_⟩,
      fun path hpath => ?_⟩⟩
  · rw [← hindex, Index.isSome_get?_iff, ← hcomplete.once.mem_iff, List.mem_map] at hname
    obtain ⟨module, hmodule, hname⟩ := hname
    obtain ⟨unit, hunit, hmodule⟩ := List.mem_flatMap.mp hmodule
    obtain ⟨idents, hinside⟩ := Module.exists_inside_of_mem_all hmodule
    exact ⟨unit, hunit, idents, module, hinside, hname⟩
  · exact (hspelled unit hunit module hinside.mem_all).written
  · exact fun path hpath => typePath_eq_of_inside hindex hnames hcomplete hunit hinside hpath
  · apply ModuleTree.declares_of_ofPaths htree
    rw [List.map_map]
    exact List.mem_map_of_mem hunit
  · exact unit.mem_paths (hunits unit hunit) hinside.mem_all hpath
  · exact (hspelled unit hunit module hinside.mem_all).exists_field hcode hfield
  · obtain ⟨module, hmodule, hknown⟩ := unit.known_of_mem_paths (hunits unit hunit) path hpath
    obtain ⟨subject, hsubject, hitem⟩ := hitem unit hunit module hmodule
    rcases hknown with hpath | hfixed
    · exact .inl (exists_of_mem_paths hsubject hitem hpath)
    · obtain ⟨idents, hinside⟩ := Module.exists_inside_of_mem_all hmodule
      exact .inr ⟨idents, module, hinside, Item.runtime_of_eq_ok hitem ▸ hfixed⟩

theorem consistentNames_memberIndex : memberIndex.ConsistentNames where
  label := by decide +kernel
  top := by decide +kernel
  nested := by decide +kernel

theorem typePath_members :
    memberSurroundings.typePath "pkg.type.Body.Self.Mode" =
      .ok ["crate", "::", "pkg", "::", "r#type", "::", "body", "::", "self_", "::", "mode", "::",
        "Mode"] := by
  rfl

theorem paths_members : ∀ subject ∈ ofMembers.subjects, subject.name = "pkg.type.Body" →
    (Item.of memberSurroundings subject).toOption.map Item.paths =
      some
        [["crate", "::", "pkg", "::", "r#type", "::", "body", "::", "self_", "::", "Self_"]] := by
  decide +kernel

theorem typePath_eq_placement_members :
    Surroundings.ofConfig memberIndex {} = .ok memberSurroundings ∧ memberIndex.ConsistentNames ∧
      ∃ artifacts, emit memberIndex {} ofMembers.trees ofMembers.enums = .ok artifacts ∧
        ∃ (unit : OutputUnit) (idents : List Ident) (module : Module),
          unit.artifact ∈ artifacts ∧ unit.module.Inside idents module ∧
          module.item.name = "pkg.type.Body.Self.Mode" ∧
          memberSurroundings.root.code ++
              (unit.segments idents module.item).flatMap (["::", ·]) =
            ["crate", "::", "pkg", "::", "r#type", "::", "body", "::", "self_", "::", "mode", "::",
              "Mode"] ∧
          ∃ artifact ∈ artifacts, ["crate", "::", "pkg", "::", "r#type", "::", "body", "::",
            "self_", "::", "Self_"] ∈ artifact.code.paths := by
  refine ⟨memberSurroundings_eq, consistentNames_memberIndex, ?_⟩
  obtain ⟨artifacts, hemit⟩ := exists_emit_members
  obtain ⟨units, rfl, hcomplete, hplaced, hpaths, -, hread⟩ :=
    typePath_eq_placement ofMembers {} memberSurroundings_eq consistentNames_memberIndex hemit
  obtain ⟨unit, hunit, idents, module, hinside, hname⟩ :=
    hplaced "pkg.type.Body.Self.Mode" (by decide)
  refine ⟨_, hemit, unit, idents, module, List.mem_map_of_mem hunit, hinside, hname, ?_, ?_⟩
  · obtain ⟨-, hpath⟩ := (hpaths unit hunit).2 idents module hinside
    exact (hpath _ (hname ▸ typePath_members)).symm
  · obtain ⟨unit, hunit, idents, module, hinside, hname⟩ := hplaced "pkg.type.Body" (by decide)
    refine ⟨unit.artifact, List.mem_map_of_mem hunit, ?_⟩
    have hmodule : module ∈ units.flatMap (·.module.all) :=
      List.mem_flatMap.mpr ⟨unit, hunit, hinside.mem_all⟩
    obtain ⟨subject, hsubject, hsame, hitem⟩ := (hcomplete.fits module hmodule).item
    have hitemPaths := paths_members subject hsubject (hsame.trans hname)
    rw [hitem] at hitemPaths
    apply ((hread unit hunit).1 idents module hinside).1
    rw [Option.some.inj hitemPaths]
    exact List.mem_cons_self

end Resolution

end SchemaLoom
