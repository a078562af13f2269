import SchemaLoom.Proofs.LetterCase
import SchemaLoom.Proofs.Placement

/-!
# The paths of generated files

No name of a module has a dot in it, whatever the names of the schema are: they are split at dots,
and changing the case of letters brings in none.  So the only dot in the path of a generated file is
that of its extension, and the path has no components but names, after the root if the name of a
package begins with a slash.
-/

namespace SchemaLoom

open Storage (Path Component slashPieces)

/-! ## Names without dots -/

theorem Ident.notMem_moduleName {name : String} (hdot : '.' ∉ name.toList) :
    '.' ∉ (moduleName name).toList := by
  have hsnake := Text.notMem_snake (by decide) hdot
  rw [moduleName, escape]
  split
  · simpa using hsnake
  · exact hsnake

/-! ## Texts with one dot -/

namespace Storage.Path

theorem notMem_join {char : Char} (hslash : char ≠ '/') {path other : Path}
    (hpath : char ∉ path.text.toList) (hother : char ∉ other.text.toList) :
    char ∉ (path.join other).text.toList := by
  rw [join]
  split
  · exact hother
  · split
    · exact hother
    · split
      · simpa using ⟨hpath, hother⟩
      · simpa using ⟨hpath, hslash, hother⟩

theorem notMem_ofNames {char : Char} (hslash : char ≠ '/') {names : List String}
    (hnames : ∀ name ∈ names, char ∉ name.toList) : char ∉ (ofNames names).text.toList := by
  suffices hfold : ∀ path : Path, char ∉ path.text.toList →
      char ∉ (names.foldl (fun path name => path.join ⟨name⟩) path).text.toList from
    hfold ⟨""⟩ (by simp)
  induction names with
  | nil => exact fun path hpath => hpath
  | cons name names ih =>
    intro path hpath
    obtain ⟨hname, hnames⟩ := List.forall_mem_cons.mp hnames
    exact ih hnames _ (notMem_join hslash hpath hname)

/-- The extension of a path is all that has a dot. -/
def HasOneDot (path : Path) : Prop :=
  ∃ body, '.' ∉ body ∧ path.text.toList = body ++ ['.', 'r', 's']

theorem hasOneDot_join {path : Path} {name : String} (hpath : '.' ∉ path.text.toList)
    (hname : '.' ∉ name.toList) : (path.join ⟨name ++ ".rs"⟩).HasOneDot := by
  rw [join]
  split
  · exact ⟨name.toList, hname, by simp⟩
  · split
    · exact ⟨name.toList, hname, by simp⟩
    · split
      · exact ⟨path.text.toList ++ name.toList, by simpa using ⟨hpath, hname⟩, by simp⟩
      · exact ⟨path.text.toList ++ '/' :: name.toList, by simpa using ⟨hpath, hname⟩, by simp⟩

/-- A piece of such a path has no dot, or it has the extension. -/
theorem notMem_or_mem_of_mem_slashPieces {body : List Char} (hdot : '.' ∉ body) {piece : List Char}
    (hpiece : piece ∈ slashPieces (body ++ ['.', 'r', 's'])) : '.' ∉ piece ∨ 'r' ∈ piece := by
  induction body generalizing piece with
  | nil =>
    obtain rfl : piece = ['.', 'r', 's'] := by simpa [slashPieces] using hpiece
    exact .inr (by decide)
  | cons char rest ih =>
    obtain ⟨hchar, hrest⟩ := not_or.mp (List.mem_cons.not.mp hdot)
    rw [List.cons_append, slashPieces] at hpiece
    split at hpiece
    · rcases List.mem_cons.mp hpiece with rfl | hpiece
      · exact .inl List.not_mem_nil
      · exact ih hrest hpiece
    · split at hpiece
      · next hnil => exact absurd hnil (Storage.slashPieces_ne_nil _)
      · next first pieces hpieces =>
        rw [hpieces] at ih
        rcases List.mem_cons.mp hpiece with rfl | hpiece
        · apply (ih hrest List.mem_cons_self).imp
          · intro hfirst
            rw [List.mem_cons, not_or]
            exact ⟨hchar, hfirst⟩
          · exact List.mem_cons_of_mem _
        · exact ih hrest (List.mem_cons_of_mem _ hpiece)

/-- The components of names, after the root or not. -/
def spelled (rooted : Bool) (names : List String) : List Component :=
  (if rooted then [.root] else []) ++ names.map .name

theorem spelled_concat (rooted : Bool) (names : List String) (name : String) :
    spelled rooted (names ++ [name]) = spelled rooted names ++ [.name name] := by
  simp [spelled]

/-- A path with one dot has only names as components, and the extension is in one of them. -/
theorem HasOneDot.exists_names {path : Path} (hdot : path.HasOneDot) :
    ∃ names, names ≠ [] ∧ (∀ name ∈ names, IsPlain name) ∧
      path.components = spelled path.isAbsolute names := by
  obtain ⟨body, hbody, htext⟩ := hdot
  have hcomponent : ∀ piece ∈ slashPieces path.text.toList, piece ≠ [] →
      component? piece = some (.name (String.ofList piece)) := by
    intro piece hpiece hne
    rw [htext] at hpiece
    rcases notMem_or_mem_of_mem_slashPieces hbody hpiece with hnone | hmem
    · obtain ⟨char, hchar⟩ := List.exists_mem_of_ne_nil piece hne
      apply component?_of_mem hchar
      rintro rfl
      exact hnone hchar
    · exact component?_of_mem hmem (by decide)
  have hhere : (slashPieces path.text.toList).head? ≠ some ['.'] := by
    intro hhead
    have hdot := hcomponent ['.'] (List.mem_of_head? hhead) (by decide)
    cases hdot
  refine ⟨((slashPieces path.text.toList).filter (· ≠ [])).map String.ofList, ?_, ?_, ?_⟩
  · have hmem : 'r' ∈ path.text.toList := by simp [htext]
    obtain ⟨piece, hpiece, hchar⟩ := exists_slashPiece_of_mem hmem (by decide)
    apply List.ne_nil_of_mem
    apply List.mem_map_of_mem
    exact List.mem_filter.mpr ⟨hpiece, by simpa using List.ne_nil_of_mem hchar⟩
  · rw [List.forall_mem_map]
    intro piece hpiece
    obtain ⟨hpiece, hne⟩ := List.mem_filter.mp hpiece
    constructor
    · simpa using notMem_of_mem_slashPieces hpiece
    · simpa using hcomponent piece hpiece (by simpa using hne)
  · have hnames : (slashPieces path.text.toList).filterMap component? =
        (((slashPieces path.text.toList).filter (· ≠ [])).map String.ofList).map .name := by
      rw [List.map_map, ← List.filterMap_eq_map, List.filterMap_filter]
      apply List.filterMap_congr
      intro piece hpiece
      by_cases hne : piece = []
      · simp [hne, component?]
      · simp [hne, hcomponent piece hpiece hne]
    simp [components, spelled, hhere, hnames]

/-- The beginnings of such a list of components are again of this form. -/
theorem exists_of_prefix_spelled {rooted : Bool} {names : List String} {front : List Component}
    (hfront : front <+: spelled rooted names) :
    ∃ rooted' inner, (rooted' = true → rooted = true) ∧ inner <+: names ∧
      front = spelled rooted' inner := by
  cases rooted with
  | false =>
    obtain ⟨inner, hinner, rfl⟩ := List.prefix_map_iff.mp hfront
    exact ⟨false, inner, id, hinner, rfl⟩
  | true =>
    rcases List.prefix_cons_iff.mp hfront with rfl | ⟨rest, rfl, hrest⟩
    · exact ⟨false, [], fun _ => rfl, List.nil_prefix, rfl⟩
    · obtain ⟨inner, hinner, rfl⟩ := List.prefix_map_iff.mp hrest
      exact ⟨true, inner, id, hinner, rfl⟩

theorem component?_ne_root (piece : List Char) : component? piece ≠ some .root := by
  rw [component?]
  split
  · simp
  · split <;> simp

/-- Such a path starts at the root or adds its components to another path. -/
theorem cases_of_components_eq_spelled {path : Path} {rooted : Bool} {names : List String}
    (hpath : path.components = spelled rooted names) :
    (rooted = true ∧ path.isAbsolute = true) ∨ (rooted = false ∧ path.isInner = true) := by
  by_cases habsolute : path.isAbsolute = true
  · left
    cases rooted with
    | true => exact ⟨rfl, habsolute⟩
    | false => cases names <;> simp [components, habsolute, spelled] at hpath
  · right
    by_cases hhere : (slashPieces path.text.toList).head? = some ['.']
    · cases rooted <;> cases names <;> simp [components, habsolute, hhere, spelled] at hpath
    · have hinner : path.isInner = true := by simp [isInner, habsolute, hhere]
      cases rooted with
      | false => exact ⟨rfl, hinner⟩
      | true =>
        have hroot : Component.root ∈ path.components := by simp [hpath, spelled]
        rw [components_of_isInner hinner, List.mem_filterMap] at hroot
        obtain ⟨piece, -, hpiece⟩ := hroot
        exact absurd hpiece (component?_ne_root piece)

theorem components_join_of_spelled (path : Path) {other : Path} {rooted : Bool}
    {names : List String} (hother : other.components = spelled rooted names) :
    (path.join other).components =
      (if rooted then [] else path.components) ++ other.components := by
  rcases cases_of_components_eq_spelled hother with ⟨rfl, habsolute⟩ | ⟨rfl, hinner⟩
  · simp [join, habsolute]
  · simp [components_join hinner]

end Storage.Path

/-! ## The files of declarations -/

namespace Surroundings

variable {around : Surroundings} {name : String}

theorem notMem_dot_of_split {package parts : List String}
    (hsplit : around.split name = .ok (package, parts)) :
    (∀ part ∈ package, '.' ∉ part.toList) ∧ parts ≠ [] ∧ ∀ part ∈ parts, '.' ∉ part.toList := by
  rw [split] at hsplit
  split at hsplit
  · cases hsplit
  · split at hsplit
    · cases hsplit
      exact ⟨by simp, dottedParts_ne_nil _, fun _ => notMem_of_mem_dottedParts⟩
    · cases hsplit
      exact ⟨fun _ => notMem_of_mem_dottedParts, dottedParts_ne_nil _,
        fun _ => notMem_of_mem_dottedParts⟩

/-- The path of a generated file has no dot but that of its extension. -/
theorem hasOneDot_of_filePath {path : Path} (hpath : around.filePath name = .ok path) :
    path.HasOneDot := by
  obtain ⟨⟨package, parts⟩, hsplit, -⟩ := Outcome.bind_eq_ok_iff.mp hpath
  obtain ⟨hpackage, hne, hparts⟩ := notMem_dot_of_split hsplit
  rw [filePath_eq hsplit, Except.ok.injEq] at hpath
  subst hpath
  apply Path.hasOneDot_join
  · apply Path.notMem_ofNames (by decide)
    rw [List.forall_mem_map]
    exact fun part hpart => Ident.notMem_moduleName (hpackage part hpart)
  · apply Ident.notMem_moduleName
    rw [List.head?_eq_some_head hne]
    exact hparts _ (List.head_mem hne)

end Surroundings

end SchemaLoom
