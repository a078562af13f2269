import SchemaLoom.Code.Location
import SchemaLoom.Proofs.Nesting

/-!
# Dotted names

Qualified names are texts with dots between their parts.  Putting names together with a dot puts
their parts together, and the short name is the last part.
-/

namespace SchemaLoom

theorem takeWhile_ne_append {separator : Char} {chars : List Char} (hnone : separator ∉ chars)
    (rest : List Char) :
    (chars ++ rest).takeWhile (· != separator) = chars ++ rest.takeWhile (· != separator) := by
  apply List.takeWhile_append_of_pos
  intro char hchar
  simpa using fun heq : char = separator => hnone (heq ▸ hchar)

theorem notMem_of_mem_splitOn {separator : Char} {chars piece : List Char}
    (hpiece : piece ∈ chars.splitOn separator) : separator ∉ piece := by
  induction chars generalizing piece with
  | nil =>
    rw [List.splitOn_nil, List.mem_singleton] at hpiece
    simp [hpiece]
  | cons char rest ih =>
    rw [List.splitOn_cons_eq_if_modifyHead] at hpiece
    split at hpiece
    · rcases List.mem_cons.mp hpiece with rfl | hpiece
      · exact List.not_mem_nil
      · exact ih hpiece
    · next hchar =>
      cases hpieces : rest.splitOn separator with
      | nil => exact absurd hpieces (List.splitOn_ne_nil _ _)
      | cons first others =>
        rw [hpieces] at ih hpiece
        rw [List.modifyHead_cons, List.mem_cons] at hpiece
        rcases hpiece with rfl | hpiece
        · rw [List.mem_cons, not_or]
          exact ⟨fun heq => hchar (by simp [heq]), ih List.mem_cons_self⟩
        · exact ih (List.mem_cons_of_mem _ hpiece)

/-! ## Parts -/

theorem dottedParts_eq (name : String) :
    dottedParts name = (name.toList.splitOn '.').map String.ofList := by
  suffices hsplit : ∀ chars : List Char, dottedParts.split chars = chars.splitOn '.' by
    rw [dottedParts, hsplit]
  intro chars
  induction chars with
  | nil => rfl
  | cons char rest ih =>
    rw [dottedParts.split, ih, List.splitOn_cons_eq_if_modifyHead]
    cases hpieces : rest.splitOn '.' with
    | nil => exact absurd hpieces (List.splitOn_ne_nil _ _)
    | cons piece pieces => simp

theorem dottedParts_append (left right : String) :
    dottedParts (left ++ "." ++ right) = dottedParts left ++ dottedParts right := by
  have hchars : (left ++ "." ++ right).toList = left.toList ++ '.' :: right.toList := by simp
  simp only [dottedParts_eq, hchars, List.splitOn_append_cons_self, List.map_append]

theorem dottedParts_of_notMem {name : String} (hdot : '.' ∉ name.toList) :
    dottedParts name = [name] := by
  rw [dottedParts_eq, List.splitOn_eq_singleton hdot]
  simp

theorem dottedParts_ne_nil (name : String) : dottedParts name ≠ [] := by
  rw [dottedParts_eq]
  simp

theorem notMem_of_mem_dottedParts {name part : String} (hpart : part ∈ dottedParts name) :
    '.' ∉ part.toList := by
  rw [dottedParts_eq, List.mem_map] at hpart
  obtain ⟨piece, hpiece, rfl⟩ := hpart
  rw [String.toList_ofList]
  exact notMem_of_mem_splitOn hpiece

/-! ## Short names -/

theorem notMem_shortName (name : String) : '.' ∉ (shortName name).toList := by
  intro hdot
  rw [shortName, String.toList_ofList, List.mem_reverse] at hdot
  simpa using List.all_eq_true.mp List.all_takeWhile '.' hdot

theorem stripStart?_append (start rest : List Char) :
    stripStart? start (start ++ rest) = some rest := by
  simp [stripStart?]

/-! ## Consistent names -/

/-- The name of a declaration without the package and the outer declarations. -/
def Declaration.label : Declaration → String
  | type decl => decl.name
  | enumeration decl => decl.name
  | component decl => decl.name

/-- A name below a package, or as it is if the package has no name. -/
def inPackage (package label : String) : String :=
  if package = "" then label else package ++ "." ++ label

/-- Qualified names say where declarations stand: first the package, then the outer declarations,
and last the label.  A nested declaration has the package of its outer one. -/
structure Index.ConsistentNames (index : Index) : Prop where
  label : ∀ entry ∈ index.entries, entry.decl.label = shortName entry.name
  top : ∀ entry ∈ index.entries, entry.decl.outer? = none →
    entry.name = inPackage entry.source.package entry.decl.label
  nested : ∀ entry ∈ index.entries, ∀ outer ∈ entry.decl.outer?,
    entry.name = outer ++ "." ++ entry.decl.label ∧
      ∀ source ∈ index.source? outer, source.package = entry.source.package

/-- The name stands in the package, and its parts below the package are the labels, of which the
last is its own. -/
structure Index.Spells (index : Index) (name package : String) (labels : List String) : Prop where
  source : (index.source? name).map (·.package) = some package
  inside : ∃ inner, name = inPackage package inner ∧ dottedParts inner = labels
  last : labels.getLast? = some (shortName name)

namespace Index.Spells

variable {index : Index} {name package : String} {labels : List String}

theorem of_top (hnames : index.ConsistentNames) {entry : Entry} (hentry : entry ∈ index.entries)
    (houter : entry.decl.outer? = none) :
    index.Spells entry.name entry.source.package [entry.decl.label] where
  source := by
    have hget : index.get? entry.name = some entry := get?_eq_some_iff.mpr ⟨hentry, rfl⟩
    simp [source?, hget]
  inside := by
    refine ⟨entry.decl.label, hnames.top entry hentry houter, ?_⟩
    rw [hnames.label entry hentry]
    exact dottedParts_of_notMem (notMem_shortName _)
  last := by rw [hnames.label entry hentry, List.getLast?_singleton]

theorem nested (hnames : index.ConsistentNames) {entry : Entry} (hentry : entry ∈ index.entries)
    {outer : String} (houter : entry.decl.outer? = some outer)
    (hspells : index.Spells outer package labels) :
    index.Spells entry.name package (labels ++ [entry.decl.label]) := by
  obtain ⟨hname, hpackage⟩ := hnames.nested entry hentry outer houter
  obtain ⟨source, hsource, rfl⟩ := Option.map_eq_some_iff.mp hspells.source
  obtain ⟨inner, rfl, rfl⟩ := hspells.inside
  have hget : index.get? entry.name = some entry := get?_eq_some_iff.mpr ⟨hentry, rfl⟩
  refine ⟨by simp [source?, hget, hpackage source hsource],
    ⟨inner ++ "." ++ entry.decl.label, ?_, ?_⟩, ?_⟩
  · rw [hname, inPackage, inPackage]
    split
    · rfl
    · simp only [String.append_assoc]
  · rw [dottedParts_append, hnames.label entry hentry,
      dottedParts_of_notMem (notMem_shortName entry.name)]
  · rw [List.getLast?_concat, hnames.label entry hentry]

/-- The parts that a name is split into are those of its package and its labels. -/
theorem split_eq {around : Surroundings} (hspells : around.index.Spells name package labels) :
    around.split name =
      .ok (if package = "" then [] else dottedParts package, labels) := by
  obtain ⟨source, hsource, rfl⟩ := Option.map_eq_some_iff.mp hspells.source
  obtain ⟨inner, rfl, rfl⟩ := hspells.inside
  rw [Surroundings.split, hsource]
  by_cases hempty : source.package = ""
  · simp [hempty, inPackage]
  · have hchars : (inPackage source.package inner).toList =
        (source.package.toList ++ ['.']) ++ inner.toList := by
      simp [inPackage, hempty]
    simp only [hchars, stripStart?_append]
    simp [hempty]

end Index.Spells

end SchemaLoom
