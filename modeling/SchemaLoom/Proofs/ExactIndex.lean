import Mathlib.Algebra.GroupWithZero.Nat
import SchemaLoom.Proofs.DeclarationOrder

/-!
# What an index holds

A bundle is scanned file by file, in each file the types, then the enumerations, then the
components.  The scan ends at the first name that was met before.  If there is none, the index
answers every question about a name from the declaration that stands under it, and about nesting
and commands from all declarations.
-/

namespace SchemaLoom

/-! ## The first repeated name -/

/-- The entry is the first of the list to repeat a name, which is that of an earlier one. -/
structure Repeats (entries : List Entry) (earlier entry : Entry) : Prop where
  name_eq : earlier.name = entry.name
  split : ∃ front back, entries = front ++ entry :: back ∧ earlier ∈ front ∧
    (front.map Entry.name).Nodup

/-- The scan stops at an entry exactly if it is the first to repeat a name.  Entries seen before
stand in front of the list, the last one first. -/
theorem firstClash_eq_some_iff {seen entries : List Entry} {earlier entry : Entry}
    (hseen : (seen.map Entry.name).Nodup) :
    firstClash seen entries = some (earlier, entry) ↔
      earlier.name = entry.name ∧ ∃ front back, entries = front ++ entry :: back ∧
        earlier ∈ front.reverse ++ seen ∧ ((front.reverse ++ seen).map Entry.name).Nodup := by
  induction entries generalizing seen with
  | nil => simp [firstClash]
  | cons first rest ih =>
    rw [firstClash]
    cases hfind : seen.find? (·.name == first.name) with
    | some found =>
      have hname : found.name = first.name := by simpa using List.find?_some hfind
      have hfound := List.mem_of_find?_eq_some hfind
      simp only [Option.some.injEq, Prod.mk.injEq]
      constructor
      · rintro ⟨rfl, rfl⟩
        exact ⟨hname, [], rest, rfl, hfound, hseen⟩
      · rintro ⟨hsame, front, back, hsplit, hearlier, hnodup⟩
        cases front with
        | nil =>
          obtain ⟨rfl, -⟩ := List.cons.inj hsplit
          have hunique := List.inj_on_of_nodup_map hseen hfound hearlier (hname.trans hsame.symm)
          exact ⟨hunique, rfl⟩
        | cons other front =>
          -- The scan cannot have passed the first entry, whose name was seen.
          obtain ⟨rfl, -⟩ := List.cons.inj hsplit
          have hpassed : ((first :: seen).map Entry.name).Nodup := by
            rw [List.reverse_cons, List.append_assoc, List.map_append] at hnodup
            exact hnodup.of_append_right
          exact absurd (List.mem_map.mpr ⟨found, hfound, hname⟩) (List.nodup_cons.mp hpassed).1
    | none =>
      have hnew : ∀ other ∈ seen, other.name ≠ first.name := by simpa using hfind
      have hpassed : ((first :: seen).map Entry.name).Nodup := by
        rw [List.map_cons, List.nodup_cons]
        exact ⟨by simpa using hnew, hseen⟩
      simp only [ih hpassed]
      refine and_congr_right fun hsame => ?_
      constructor
      · rintro ⟨front, back, rfl, hearlier, hnodup⟩
        exact ⟨first :: front, back, rfl, by simpa using hearlier, by simpa using hnodup⟩
      · rintro ⟨front, back, hsplit, hearlier, hnodup⟩
        cases front with
        | nil =>
          obtain ⟨rfl, -⟩ := List.cons.inj hsplit
          exact absurd hsame (hnew earlier (by simpa using hearlier))
        | cons other front =>
          obtain ⟨rfl, rfl⟩ := List.cons.inj hsplit
          exact ⟨front, back, rfl, by simpa using hearlier, by simpa using hnodup⟩

theorem firstClash_nil_eq_some_iff {entries : List Entry} {earlier entry : Entry} :
    firstClash [] entries = some (earlier, entry) ↔ Repeats entries earlier entry := by
  rw [firstClash_eq_some_iff (by simp)]
  have hfront : ∀ front : List Entry, earlier ∈ front.reverse ++ [] ∧
      ((front.reverse ++ []).map Entry.name).Nodup ↔
        earlier ∈ front ∧ (front.map Entry.name).Nodup := by
    intro front
    rw [List.append_nil, List.mem_reverse, List.map_reverse, List.nodup_reverse]
  simp only [hfront]
  exact ⟨fun ⟨hname, hsplit⟩ => ⟨hname, hsplit⟩, fun ⟨hname, hsplit⟩ => ⟨hname, hsplit⟩⟩

/-! ## Declarations of a bundle -/

namespace Declaration

variable {decl : Declaration}

theorem type?_eq_some_iff {value : TypeDecl} : decl.type? = some value ↔ decl = .type value := by
  cases decl <;> simp [type?]

theorem enumeration?_eq_some_iff {value : EnumDecl} :
    decl.enumeration? = some value ↔ decl = .enumeration value := by
  cases decl <;> simp [enumeration?]

theorem component?_eq_some_iff {value : ComponentDecl} :
    decl.component? = some value ↔ decl = .component value := by
  cases decl <;> simp [component?]

end Declaration

/-- The declaration stands in the file, which is one of the bundle. -/
def Bundle.Declares (bundle : Bundle) (file : SchemaFile) (decl : Declaration) : Prop :=
  file ∈ bundle.files ∧
    match decl with
    | .type decl => decl ∈ file.types
    | .enumeration decl => decl ∈ file.enums
    | .component decl => decl ∈ file.components

theorem Bundle.mem_entries_iff {bundle : Bundle} {entry : Entry} :
    entry ∈ bundle.entries ↔
      ∃ file, bundle.Declares file entry.decl ∧ entry.source = file.source := by
  obtain ⟨source, decl⟩ := entry
  simp only [entries, List.mem_flatMap, SchemaFile.entries, List.mem_map, List.mem_append,
    Entry.mk.injEq, Declares]
  refine exists_congr fun file => ?_
  cases decl <;> simp [and_assoc, eq_comm]

theorem Bundle.length_entries (bundle : Bundle) :
    bundle.entries.length =
      (bundle.files.map fun file =>
        file.types.length + file.enums.length + file.components.length).sum := by
  rw [entries, List.length_flatMap]
  congr 2
  funext file
  simp [SchemaFile.entries, Nat.add_assoc]

namespace Index

/-! ## Look-ups -/

/-- What look-ups of the name answer if the declaration stands under it: the one of its sort finds
it, those of the other sorts find nothing. -/
structure Finds (index : Index) (name : String) (file : SchemaFile) (decl : Declaration) :
    Prop where
  type : index.type? name = decl.type?
  enumeration : index.enumeration? name = decl.enumeration?
  component : index.component? name = decl.component?
  kind : index.kind? name = some decl.kind
  source : index.source? name = some file.source

/-- No look-up of the name finds anything. -/
structure FindsNothing (index : Index) (name : String) : Prop where
  type : index.type? name = none
  enumeration : index.enumeration? name = none
  component : index.component? name = none
  kind : index.kind? name = none
  source : index.source? name = none

theorem finds_of_get? {index : Index} {name : String} {entry : Entry} {file : SchemaFile}
    (hget : index.get? name = some entry) (hsource : entry.source = file.source) :
    index.Finds name file entry.decl := by
  constructor <;> simp [type?, enumeration?, component?, kind?, source?, hget, hsource]

theorem findsNothing_of_get? {index : Index} {name : String} (hget : index.get? name = none) :
    index.FindsNothing name := by
  constructor <;> simp [type?, enumeration?, component?, kind?, source?, hget]

/-- How many of the look-ups by sort find a declaration of the name. -/
def findings (index : Index) (name : String) : Nat :=
  (index.type? name).toList.length + (index.enumeration? name).toList.length +
    (index.component? name).toList.length

theorem Finds.findings_eq {index : Index} {name : String} {file : SchemaFile}
    {decl : Declaration} (hfinds : index.Finds name file decl) : index.findings name = 1 := by
  rw [findings, hfinds.type, hfinds.enumeration, hfinds.component]
  cases decl <;> rfl

/-! ## All answers of an index -/

/-- An index answers from the declarations of a bundle, and from nothing else. -/
structure Represents (index : Index) (bundle : Bundle) : Prop where
  finds : ∀ file decl, bundle.Declares file decl → index.Finds decl.name file decl
  findsNothing : ∀ name, (∀ file decl, bundle.Declares file decl → decl.name ≠ name) →
    index.FindsNothing name
  size : index.size =
    (bundle.files.map fun file =>
      file.types.length + file.enums.length + file.components.length).sum
  ascendingTypes : ∀ outer, (index.nestedTypes outer).Pairwise (· < ·)
  nestedTypes : ∀ outer name, name ∈ index.nestedTypes outer ↔
    ∃ decl : TypeDecl, (∃ file ∈ bundle.files, decl ∈ file.types) ∧ decl.outer = some outer ∧
      decl.qualified = name
  ascendingEnumerations : ∀ outer, (index.nestedEnumerations outer).Pairwise (· < ·)
  nestedEnumerations : ∀ outer name, name ∈ index.nestedEnumerations outer ↔
    ∃ decl : EnumDecl, (∃ file ∈ bundle.files, decl ∈ file.enums) ∧ decl.outer = some outer ∧
      decl.qualified = name
  commandTypes : ∀ name, index.isCommandType name ↔
    ∃ component : ComponentDecl, (∃ file ∈ bundle.files, component ∈ file.components) ∧
      ∃ command ∈ component.commands, command.request = name ∨ command.response = name

section Represented

variable {bundle : Bundle} {index : Index}

/-- The declarations of one sort in an index are those in the files of its bundle. -/
theorem mem_filterMap_entries_iff (hperm : index.entries.Perm bundle.entries) {α : Type}
    {view : Declaration → Option α} {sort : α → Declaration}
    (hview : ∀ {decl value}, view decl = some value ↔ decl = sort value) {value : α} :
    value ∈ index.entries.filterMap (fun entry => view entry.decl) ↔
      ∃ file, bundle.Declares file (sort value) := by
  simp only [List.mem_filterMap, hperm.mem_iff, Bundle.mem_entries_iff, hview]
  constructor
  · rintro ⟨entry, ⟨file, hdeclares, -⟩, hsort⟩
    exact ⟨file, hsort ▸ hdeclares⟩
  · rintro ⟨file, hdeclares⟩
    exact ⟨⟨file.source, sort value⟩, ⟨file, hdeclares, rfl⟩, rfl⟩

theorem mem_types_iff_of_perm (hperm : index.entries.Perm bundle.entries) {decl : TypeDecl} :
    decl ∈ index.types ↔ ∃ file ∈ bundle.files, decl ∈ file.types :=
  mem_filterMap_entries_iff hperm Declaration.type?_eq_some_iff

theorem mem_enumerations_iff_of_perm (hperm : index.entries.Perm bundle.entries)
    {decl : EnumDecl} : decl ∈ index.enumerations ↔ ∃ file ∈ bundle.files, decl ∈ file.enums :=
  mem_filterMap_entries_iff hperm Declaration.enumeration?_eq_some_iff

theorem mem_components_iff_of_perm (hperm : index.entries.Perm bundle.entries)
    {decl : ComponentDecl} :
    decl ∈ index.components ↔ ∃ file ∈ bundle.files, decl ∈ file.components :=
  mem_filterMap_entries_iff hperm Declaration.component?_eq_some_iff

theorem represents_of_perm (hperm : index.entries.Perm bundle.entries) :
    index.Represents bundle where
  finds file decl hdeclares := by
    have hentry : (⟨file.source, decl⟩ : Entry) ∈ index.entries :=
      hperm.mem_iff.mpr (Bundle.mem_entries_iff.mpr ⟨file, hdeclares, rfl⟩)
    have hget := get?_eq_some_iff.mpr ⟨hentry, rfl⟩
    exact finds_of_get? hget rfl
  findsNothing name hnone := by
    apply findsNothing_of_get?
    rw [Option.eq_none_iff_forall_ne_some]
    intro entry hget
    obtain ⟨hentry, hname⟩ := get?_eq_some_iff.mp hget
    obtain ⟨file, hdeclares, -⟩ := Bundle.mem_entries_iff.mp (hperm.mem_iff.mp hentry)
    exact hnone file entry.decl hdeclares hname
  size := hperm.length_eq.trans bundle.length_entries
  ascendingTypes := index.ascending_nestedTypes
  nestedTypes outer name := by
    simp only [Index.nestedTypes, List.mem_map, List.mem_filter, mem_types_iff_of_perm hperm,
      beq_iff_eq, and_assoc]
  ascendingEnumerations := index.ascending_nestedEnumerations
  nestedEnumerations outer name := by
    simp only [Index.nestedEnumerations, List.mem_map, List.mem_filter,
      mem_enumerations_iff_of_perm hperm, beq_iff_eq, and_assoc]
  commandTypes name := by
    simp only [isCommandType, List.any_eq_true, mem_components_iff_of_perm hperm, Bool.or_eq_true,
      beq_iff_eq]

end Represented

/-! ## Indexing is exact -/

theorem ofBundle_eq_error_iff {bundle : Bundle} {error : IndexError} :
    ofBundle bundle = .error error ↔
      ∃ earlier entry, Repeats bundle.entries earlier entry ∧
        error = .duplicateName entry.name earlier.source.path entry.source.path := by
  simp only [← firstClash_nil_eq_some_iff]
  rw [ofBundle]
  split
  · next first second hclash =>
    simp [hclash, eq_comm]
  · next hclash => simp [hclash]

/-- A bundle has an index exactly if its declarations, of whatever sort and file, have different
names.  Otherwise the error has the first repeated name of the scan, with the file of its earlier
and of its repeating declaration.  An index answers from the declarations of the bundle: under a
declared name one look-up finds that declaration, its sort and its file, under any other name
nothing is found; nested names are ascending, whether the outer one is declared or not. -/
theorem ofBundle_exact (bundle : Bundle) :
    ((∃ index, ofBundle bundle = .ok index) ↔ (bundle.entries.map Entry.name).Nodup) ∧
      (∀ error, ofBundle bundle = .error error ↔
        ∃ earlier entry, Repeats bundle.entries earlier entry ∧
          error = .duplicateName entry.name earlier.source.path entry.source.path) ∧
      ∀ index, ofBundle bundle = .ok index →
        index.Represents bundle ∧
          ∀ name, index.findings name =
            if name ∈ bundle.entries.map Entry.name then 1 else 0 := by
  refine ⟨exists_ofBundle_iff, fun error => ofBundle_eq_error_iff, fun index hindex => ?_⟩
  have hrepresents := represents_of_perm (entries_perm hindex)
  refine ⟨hrepresents, fun name => ?_⟩
  split
  · next hdeclared =>
    obtain ⟨entry, hentry, rfl⟩ := List.mem_map.mp hdeclared
    obtain ⟨file, hdeclares, -⟩ := Bundle.mem_entries_iff.mp hentry
    exact (hrepresents.finds file entry.decl hdeclares).findings_eq
  · next hundeclared =>
    have hnothing : index.FindsNothing name := by
      apply hrepresents.findsNothing
      rintro file decl hdeclares rfl
      have hentry : (⟨file.source, decl⟩ : Entry) ∈ bundle.entries :=
        Bundle.mem_entries_iff.mpr ⟨file, hdeclares, rfl⟩
      exact hundeclared (List.mem_map.mpr ⟨_, hentry, rfl⟩)
    rw [findings, hnothing.type, hnothing.enumeration, hnothing.component]
    rfl

/-- Two files in which a component repeats the name of an enumeration of the first one. -/
def clashingBundle : Bundle where
  files := [
    { path := "a.schema", package := { name := "a" }, types := [.declare "a.Ping" []],
      enums := [.declare "a.Kind" [("NONE", 0)]] },
    { path := "b.schema", package := { name := "a" }, types := [.declare "a.Pong" []],
      components := [.declare "a.Kind" 7 [], .declare "a.Ping" 8 []] }]

/-- Nested declarations in no order, of a declared and an undeclared outer type, and a command. -/
def nestingBundle : Bundle where
  files := [
    { path := "a.schema", package := { name := "a" },
      types := [(TypeDecl.declare "a.Ping" []).nestedIn "a.Gone",
        (TypeDecl.declare "a.Back" []).nestedIn "a.Gone", .declare "a.Pong" []],
      enums := [(EnumDecl.declare "a.Kind" [("NONE", 0)]).nestedIn "a.Pong"] },
    { path := "b.schema", package := { name := "a" },
      components :=
        [(ComponentDecl.declare "a.Post" 7 []).withCommand "send" 1 "a.Ping" "a.Pong"] }]

theorem ofBundle_exact_clashing_nesting :
    ofBundle clashingBundle = .error (.duplicateName "a.Kind" "a.schema" "b.schema") ∧
      ∃ index, ofBundle nestingBundle = .ok index ∧ index.size = 5 ∧
        index.kind? "a.Post" = some .component ∧ index.findings "a.Gone" = 0 ∧
        "a.Back" ∈ index.nestedTypes "a.Gone" ∧ (index.nestedTypes "a.Gone").Pairwise (· < ·) ∧
        index.isCommandType "a.Pong" := by
  obtain ⟨-, herror, -⟩ := ofBundle_exact clashingBundle
  obtain ⟨hexists, -, hanswers⟩ := ofBundle_exact nestingBundle
  have hrepeats : Repeats clashingBundle.entries
      ⟨⟨"a.schema", "a"⟩, .enumeration (.declare "a.Kind" [("NONE", 0)])⟩
      ⟨⟨"b.schema", "a"⟩, .component (.declare "a.Kind" 7 [])⟩ :=
    ⟨rfl, clashingBundle.entries.take 3, clashingBundle.entries.drop 4, rfl, .tail _ (.head _),
      by decide⟩
  refine ⟨(herror _).mpr ⟨_, _, hrepeats, rfl⟩, ?_⟩
  obtain ⟨index, hindex⟩ := hexists.mpr (by decide)
  obtain ⟨hrepresents, hfindings⟩ := hanswers index hindex
  refine ⟨index, hindex, hrepresents.size, ?_, hfindings "a.Gone", ?_,
    hrepresents.ascendingTypes "a.Gone", ?_⟩
  · have hdeclares : nestingBundle.Declares _ (.component
        ((ComponentDecl.declare "a.Post" 7 []).withCommand "send" 1 "a.Ping" "a.Pong")) :=
      ⟨.tail _ (.head _), .head _⟩
    exact (hrepresents.finds _ _ hdeclares).kind
  · exact (hrepresents.nestedTypes _ _).mpr ⟨_, ⟨_, .head _, .tail _ (.head _)⟩, rfl, rfl⟩
  · exact (hrepresents.commandTypes _).mpr
      ⟨_, ⟨_, .tail _ (.head _), .head _⟩, _, .head _, .inr rfl⟩

end Index

end SchemaLoom
