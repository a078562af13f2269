import SchemaLoom.Generate
import SchemaLoom.Proofs.Nesting
import SchemaLoom.Proofs.SortedNames

/-!
# The order of declarations

A bundle may list its files, and a file its declarations, in any order.  An index keeps nothing of
that order: it is built exactly when no name is declared twice, which is a fact about the
declarations as a multiset, and two bundles with the same declarations have the same index.  Even
the lists of nested declarations, which a scan of the bundle meets in written order, come out the
same, because they are ascending.
-/

namespace SchemaLoom

/-! ## Bundles with an index -/

theorem firstClash_eq_none_iff {seen entries : List Entry} :
    firstClash seen entries = none ↔
      entries.Pairwise (fun left right => left.name ≠ right.name) ∧
        ∀ entry ∈ entries, ∀ earlier ∈ seen, earlier.name ≠ entry.name := by
  constructor
  · exact firstClash_eq_none
  intro hdistinct
  induction entries generalizing seen with
  | nil => rfl
  | cons entry rest ih =>
    have hpairwise := List.pairwise_cons.mp hdistinct.1
    have hnew : seen.find? (·.name == entry.name) = none := by
      simpa using hdistinct.2 entry List.mem_cons_self
    rw [firstClash, hnew]
    apply ih
    refine ⟨hpairwise.2, fun other hother => ?_⟩
    rw [List.forall_mem_cons]
    exact ⟨hpairwise.1 other hother, hdistinct.2 other (List.mem_cons_of_mem _ hother)⟩

/-- No two declarations of the bundle have the same name. -/
def Bundle.HasDistinctNames (bundle : Bundle) : Prop :=
  (bundle.entries.map Entry.name).Nodup

instance (bundle : Bundle) : Decidable bundle.HasDistinctNames :=
  inferInstanceAs (Decidable (bundle.entries.map Entry.name).Nodup)

namespace Index

theorem ofBundle_eq_ok_iff {bundle : Bundle} {index : Index} :
    ofBundle bundle = .ok index ↔
      bundle.HasDistinctNames ∧ index.entries = sortEntries bundle.entries := by
  have hclash : firstClash [] bundle.entries = none ↔ bundle.HasDistinctNames := by
    rw [firstClash_eq_none_iff, Bundle.HasDistinctNames, List.Nodup, List.pairwise_map]
    simp
  rw [← hclash, ofBundle]
  split
  · next hsome => simp [hsome]
  · next hnone =>
    simp only [hnone, Except.ok.injEq, true_and]
    constructor
    · rintro rfl
      rfl
    · intro hentries
      cases index
      simpa using hentries.symm

theorem exists_ofBundle_iff {bundle : Bundle} :
    (∃ index, ofBundle bundle = .ok index) ↔ bundle.HasDistinctNames := by
  constructor
  · rintro ⟨index, hindex⟩
    exact (ofBundle_eq_ok_iff.mp hindex).1
  · intro hdistinct
    have hascending := sortEntries_ascending (List.pairwise_map.mp hdistinct)
    exact ⟨⟨sortEntries bundle.entries, hascending⟩, ofBundle_eq_ok_iff.mpr ⟨hdistinct, rfl⟩⟩

theorem entries_perm {bundle : Bundle} {index : Index} (hindex : ofBundle bundle = .ok index) :
    index.entries.Perm bundle.entries := by
  rw [(ofBundle_eq_ok_iff.mp hindex).2]
  exact List.mergeSort_perm _ _

/-- Indexes of the same declarations are equal, since an ascending list has no other order. -/
theorem eq_of_perm {left right : Index} (hperm : left.entries.Perm right.entries) :
    left = right := by
  have hentries : left.entries = right.entries := by
    apply hperm.eq_of_pairwise _ left.ascending right.ascending
    intro entry other _ _ hless hgreater
    exact absurd hgreater (String.lt_asymm hless)
  cases left
  cases right
  simpa using hentries

/-! ## Nested declarations -/

theorem pairwise_types (index : Index) :
    index.types.Pairwise fun left right => left.qualified < right.qualified := by
  rw [types, List.pairwise_filterMap]
  apply index.ascending.imp
  intro left right hless type htype other hother
  rwa [← name_of_type? htype, ← name_of_type? hother]

theorem pairwise_enumerations (index : Index) :
    index.enumerations.Pairwise fun left right => left.qualified < right.qualified := by
  rw [enumerations, List.pairwise_filterMap]
  apply index.ascending.imp
  intro left right hless enum henum other hother
  rwa [← name_of_enumeration? henum, ← name_of_enumeration? hother]

theorem ascending_nestedTypes (index : Index) (outer : String) :
    (index.nestedTypes outer).Pairwise (· < ·) :=
  List.pairwise_map.mpr (index.pairwise_types.filter _)

theorem ascending_nestedEnumerations (index : Index) (outer : String) :
    (index.nestedEnumerations outer).Pairwise (· < ·) :=
  List.pairwise_map.mpr (index.pairwise_enumerations.filter _)

end Index

namespace Bundle

/-- The names of the types nested in the named declaration, as they are written. -/
def nestedTypes (bundle : Bundle) (outer : String) : List String :=
  ((bundle.entries.filterMap (·.decl.type?)).filter (·.outer == some outer)).map (·.qualified)

/-- The names of the enumerations nested in the named declaration, as they are written. -/
def nestedEnumerations (bundle : Bundle) (outer : String) : List String :=
  ((bundle.entries.filterMap (·.decl.enumeration?)).filter (·.outer == some outer)).map
    (·.qualified)

end Bundle

namespace Index

theorem nestedTypes_of_ofBundle {bundle : Bundle} {index : Index}
    (hindex : ofBundle bundle = .ok index) (outer : String) :
    index.nestedTypes outer = (bundle.nestedTypes outer).mergeSort (· ≤ ·) := by
  apply SortedNames.eq_mergeSort_of_ascending _ (index.ascending_nestedTypes outer)
  exact (((entries_perm hindex).filterMap _).filter _).map _

theorem nestedEnumerations_of_ofBundle {bundle : Bundle} {index : Index}
    (hindex : ofBundle bundle = .ok index) (outer : String) :
    index.nestedEnumerations outer = (bundle.nestedEnumerations outer).mergeSort (· ≤ ·) := by
  apply SortedNames.eq_mergeSort_of_ascending _ (index.ascending_nestedEnumerations outer)
  exact (((entries_perm hindex).filterMap _).filter _).map _

/-! ## Two orders of the same declarations -/

/-- Two bundles with the same declarations, each in a file of the same path and package, either both
have no index or have the same one.  It finds exactly the declarations of the bundle and lists
nested ones in ascending order; what is generated from it, or the failure, is the same too. -/
theorem ofBundle_perm {left right : Bundle} (hsame : left.entries.Perm right.entries) :
    (∃ error error', ofBundle left = .error error ∧ ofBundle right = .error error') ∨
      ∃ index, ofBundle left = .ok index ∧ ofBundle right = .ok index ∧
        (∀ entry, index.get? entry.name = some entry ↔ entry ∈ left.entries) ∧
        (∀ outer, index.nestedTypes outer = (left.nestedTypes outer).mergeSort (· ≤ ·) ∧
          index.nestedEnumerations outer = (left.nestedEnumerations outer).mergeSort (· ≤ ·)) ∧
        ∀ config, (ofBundle left).map (generate · config) =
          (ofBundle right).map (generate · config) := by
  have hnames : left.HasDistinctNames ↔ right.HasDistinctNames :=
    (hsame.map Entry.name).nodup_iff
  cases hleft : ofBundle left with
  | error error =>
    cases hright : ofBundle right with
    | error error' => exact .inl ⟨error, error', rfl, rfl⟩
    | ok index =>
      have hdistinct := hnames.mpr (exists_ofBundle_iff.mp ⟨index, hright⟩)
      obtain ⟨other, hother⟩ := exists_ofBundle_iff.mpr hdistinct
      simp [hleft] at hother
  | ok index =>
    obtain ⟨other, hright⟩ := exists_ofBundle_iff.mpr (hnames.mp (exists_ofBundle_iff.mp ⟨index, hleft⟩))
    have heq : index = other := by
      apply eq_of_perm
      exact ((entries_perm hleft).trans hsame).trans (entries_perm hright).symm
    subst heq
    refine .inr ⟨index, rfl, hright, fun entry => ?_, fun outer => ?_, fun config => ?_⟩
    · rw [get?_eq_some_iff, (entries_perm hleft).mem_iff]
      simp
    · exact ⟨nestedTypes_of_ofBundle hleft outer, nestedEnumerations_of_ofBundle hleft outer⟩
    · rw [hright]

/-- A declaration with two nested types and a nested enumeration, the later name first. -/
def gatheredBundle : Bundle where
  files := [
    { path := "pkg/nest.schema", package := { name := "pkg" },
      types := [.declare "pkg.Outer" [], (TypeDecl.declare "pkg.Outer.Zed" []).nestedIn "pkg.Outer",
        (TypeDecl.declare "pkg.Outer.Alpha" []).nestedIn "pkg.Outer"],
      enums := [(EnumDecl.declare "pkg.Outer.Mode" [("NONE", 0)]).nestedIn "pkg.Outer"] }]

/-- The same declarations in two parts of the file and in the opposite order. -/
def scatteredBundle : Bundle where
  files := [
    { path := "pkg/nest.schema", package := { name := "pkg" },
      enums := [(EnumDecl.declare "pkg.Outer.Mode" [("NONE", 0)]).nestedIn "pkg.Outer"] },
    { path := "pkg/nest.schema", package := { name := "pkg" },
      types := [(TypeDecl.declare "pkg.Outer.Alpha" []).nestedIn "pkg.Outer",
        (TypeDecl.declare "pkg.Outer.Zed" []).nestedIn "pkg.Outer", .declare "pkg.Outer" []] }]

theorem ofBundle_perm_scattered :
    gatheredBundle.entries.Perm scatteredBundle.entries ∧
      ∃ index, ofBundle gatheredBundle = .ok index ∧ ofBundle scatteredBundle = .ok index ∧
        index.nestedTypes "pkg.Outer" = ["pkg.Outer.Alpha", "pkg.Outer.Zed"] := by
  have hperm : gatheredBundle.entries.Perm scatteredBundle.entries :=
    (List.reverse_perm gatheredBundle.entries).symm
  refine ⟨hperm, ?_⟩
  rcases ofBundle_perm hperm with ⟨error, _, hfailed, _⟩ | ⟨index, hleft, hright, _, hnested, _⟩
  · have hdistinct : gatheredBundle.HasDistinctNames := by decide
    obtain ⟨index, hindex⟩ := exists_ofBundle_iff.mpr hdistinct
    simp [hindex] at hfailed
  · refine ⟨index, hleft, hright, ?_⟩
    rw [(hnested "pkg.Outer").1]
    have hscanned : ["pkg.Outer.Alpha", "pkg.Outer.Zed"].Perm
        (gatheredBundle.nestedTypes "pkg.Outer") := by decide
    exact (SortedNames.eq_mergeSort_of_ascending hscanned (by decide)).symm

end Index

end SchemaLoom
