import SchemaLoom.Proofs.ExactIndex
import SchemaLoom.Proofs.FiniteMaps

/-!
# Tables filled in one scan

The questions an index answers can each have a table of their own.  One scan of a bundle fills all
of them: a declaration is claimed for its file, which fails for a name that has a file already, and
then enters the table of its sort and those of nested names and of command types.  A declaration
changes several tables at once, so that they agree is an invariant of the scan.  In the end the
tables answer as the index does, and the scan fails with the same error.
-/

namespace SchemaLoom

/-! ## Tables -/

/-- Values under names. -/
abbrev Table (α : Type) := List (String × α)

namespace Table

variable {α : Type}

def get? (table : Table α) (name : String) : Option α :=
  Keyed.get? (· == ·) name table

def insert (table : Table α) (name : String) (value : α) : Table α :=
  Keyed.insert (· == ·) name value table

theorem get?_insert (table : Table α) (name other : String) (value : α) :
    (table.insert name value).get? other =
      if name = other then some value else table.get? other := by
  have hequiv : Equivalence fun left right : String => (left == right) = true :=
    ⟨fun _ => beq_self_eq_true _, fun hsame => BEq.symm hsame, fun hleft hright =>
      BEq.trans hleft hright⟩
  simp only [get?, insert, Keyed.get?_insert hequiv, beq_iff_eq]

/-- The names listed under a name, none if there is no list. -/
def listed (table : Table (List String)) (outer : String) : List String :=
  (table.get? outer).getD []

/-- Put a name at the end of the list under another one, if there is another one. -/
def push (table : Table (List String)) (outer : Option String) (name : String) :
    Table (List String) :=
  match outer with
  | some outer => table.insert outer (table.listed outer ++ [name])
  | none => table

theorem listed_push (table : Table (List String)) (outer : Option String) (name other : String) :
    (table.push outer name).listed other =
      table.listed other ++ if outer = some other then [name] else [] := by
  cases outer with
  | none => simp [push]
  | some outer =>
    rw [push, listed, get?_insert]
    by_cases hsame : outer = other
    · subst hsame
      simp
    · simp [hsame, listed]

/-- Every list in ascending order. -/
def sorted (table : Table (List String)) : Table (List String) :=
  table.map fun entry => (entry.1, entry.2.mergeSort (· ≤ ·))

theorem listed_sorted (table : Table (List String)) (outer : String) :
    table.sorted.listed outer = (table.listed outer).mergeSort (· ≤ ·) := by
  induction table with
  | nil => simp [sorted, listed, get?, Keyed.get?]
  | cons entry rest ih =>
    simp only [listed, get?, sorted, List.map_cons, Keyed.get?] at ih ⊢
    split
    · rfl
    · exact ih

end Table

/-- What is known of the declarations met so far. -/
structure Tables where
  types : Table TypeDecl := []
  enumerations : Table EnumDecl := []
  components : Table ComponentDecl := []
  files : Table SourceFile := []
  nestedTypes : Table (List String) := []
  nestedEnumerations : Table (List String) := []
  commandTypes : List String := []

namespace Tables

/-- Note the file of a name, which must be new. -/
def claim (tables : Tables) (name : String) (source : SourceFile) : Except IndexError Tables :=
  match tables.files.get? name with
  | some earlier => .error (.duplicateName name earlier.path source.path)
  | none => .ok { tables with files := tables.files.insert name source }

/-- Enter a declaration into the tables of its sort. -/
def enter (tables : Tables) : Declaration → Tables
  | .type decl =>
    { tables with
      types := tables.types.insert decl.qualified decl
      nestedTypes := tables.nestedTypes.push decl.outer decl.qualified }
  | .enumeration decl =>
    { tables with
      enumerations := tables.enumerations.insert decl.qualified decl
      nestedEnumerations := tables.nestedEnumerations.push decl.outer decl.qualified }
  | .component decl =>
    { tables with
      components := tables.components.insert decl.qualified decl
      commandTypes := tables.commandTypes ++
        decl.commands.flatMap fun command => [command.request, command.response] }

def add (tables : Tables) (entry : Entry) : Except IndexError Tables :=
  (tables.claim entry.name entry.source).map (·.enter entry.decl)

/-- Lists of nested names are put in order when all declarations were met. -/
def finish (tables : Tables) : Tables :=
  { tables with
    nestedTypes := tables.nestedTypes.sorted
    nestedEnumerations := tables.nestedEnumerations.sorted }

def ofBundle (bundle : Bundle) : Except IndexError Tables :=
  (bundle.entries.foldlM add {}).map finish

/-! ## What was met -/

/-- What a view shows of the declaration that was met under the name. -/
def met {α : Type} (view : Entry → Option α) (seen : List Entry) (name : String) : Option α :=
  (seen.find? (·.name == name)).bind view

section Met

variable {α : Type} {view : Entry → Option α} {seen : List Entry} {entry : Entry}

theorem met_concat (hnew : entry.name ∉ seen.map Entry.name) (name : String) :
    met view (seen ++ [entry]) name =
      if entry.name = name then view entry else met view seen name := by
  rw [met, List.find?_append]
  by_cases hsame : entry.name = name
  · have hnone : seen.find? (·.name == name) = none := by
      rw [List.find?_eq_none]
      intro other hother hname
      exact hnew (List.mem_map.mpr ⟨other, hother, by simpa [hsame] using hname⟩)
    simp [hnone, hsame]
  · simp [hsame, met]

/-- A declaration that the view does not show adds nothing. -/
theorem met_concat_of_none (hnew : entry.name ∉ seen.map Entry.name) (hview : view entry = none)
    (name : String) : met view (seen ++ [entry]) name = met view seen name := by
  rw [met_concat hnew]
  split
  · next hsame =>
    rw [hview, met, Option.bind_eq_none_iff.mpr]
    intro other hother
    have hname : other.name = name := by simpa using List.find?_some hother
    exact absurd (List.mem_map.mpr ⟨other, List.mem_of_find?_eq_some hother, hname⟩)
      (hsame ▸ hnew)
  · rfl

theorem filterMap_concat_of_none (hview : view entry = none) :
    (seen ++ [entry]).filterMap view = seen.filterMap view := by
  simp [hview]

/-- A table that shows the declarations met so far shows the next one after it is inserted. -/
theorem get?_insert_eq_met {table : Table α} (hnew : entry.name ∉ seen.map Entry.name)
    (hholds : ∀ name, table.get? name = met view seen name) {value : α}
    (hview : view entry = some value) (name : String) :
    (table.insert entry.name value).get? name = met view (seen ++ [entry]) name := by
  rw [Table.get?_insert, met_concat hnew, hview, hholds]

/-- An index of the declarations that were met shows under each name what was met under it. -/
theorem get?_bind_eq_met {index : Index} (hperm : index.entries.Perm seen) (name : String) :
    (index.get? name).bind view = met view seen name := by
  have hfind : index.get? name = seen.find? (·.name == name) := by
    cases hget : index.get? name with
    | none =>
      have hnone : ∀ entry ∈ seen, entry.name ≠ name := by
        intro entry hentry hname
        have hsome := Index.get?_eq_some_iff.mpr ⟨hperm.mem_iff.mpr hentry, hname⟩
        simp [hget] at hsome
      exact (List.find?_eq_none.mpr (by simpa using hnone)).symm
    | some entry =>
      obtain ⟨hentry, rfl⟩ := Index.get?_eq_some_iff.mp hget
      have hnodup : (seen.map Entry.name).Nodup :=
        (hperm.map Entry.name).nodup_iff.mp
          (List.pairwise_map.mpr (index.ascending.imp fun hless => String.ne_of_lt hless))
      cases hother : seen.find? (·.name == entry.name) with
      | none => simpa using List.find?_eq_none.mp hother entry (hperm.mem_iff.mp hentry)
      | some other =>
        have hname : other.name = entry.name := by simpa using List.find?_some hother
        exact congrArg some (List.inj_on_of_nodup_map hnodup (hperm.mem_iff.mp hentry)
          (List.mem_of_find?_eq_some hother) hname.symm)
  rw [hfind, met]

end Met

/-! ## The tables agree -/

/-- The tables hold the declarations met so far, under different names, and nothing else. -/
structure Holds (tables : Tables) (seen : List Entry) : Prop where
  nodup : (seen.map Entry.name).Nodup
  files : ∀ name, tables.files.get? name = met (some ·.source) seen name
  types : ∀ name, tables.types.get? name = met (·.decl.type?) seen name
  enumerations : ∀ name, tables.enumerations.get? name = met (·.decl.enumeration?) seen name
  components : ∀ name, tables.components.get? name = met (·.decl.component?) seen name
  nestedTypes : ∀ outer, tables.nestedTypes.listed outer =
    ((seen.filterMap (·.decl.type?)).filter (·.outer == some outer)).map (·.qualified)
  nestedEnumerations : ∀ outer, tables.nestedEnumerations.listed outer =
    ((seen.filterMap (·.decl.enumeration?)).filter (·.outer == some outer)).map (·.qualified)
  commandTypes : tables.commandTypes =
    (seen.filterMap (·.decl.component?)).flatMap fun component =>
      component.commands.flatMap fun command => [command.request, command.response]

theorem holds_start : Holds {} [] := by
  constructor <;> simp [met, Table.get?, Table.listed, Keyed.get?]

section Step

variable {tables : Tables} {seen : List Entry} {entry : Entry}

/-- A name has a file exactly if it was met. -/
theorem Holds.get?_files_eq_none_iff (hholds : tables.Holds seen) {name : String} :
    tables.files.get? name = none ↔ name ∉ seen.map Entry.name := by
  rw [hholds.files, met, Option.bind_eq_none_iff]
  simp [← Option.eq_none_iff_forall_ne_some]

/-- The file of a new name is noted before its declaration enters the other tables. -/
theorem Holds.claim (hholds : tables.Holds seen) :
    (∀ claimed, tables.claim entry.name entry.source = .ok claimed ↔
      entry.name ∉ seen.map Entry.name ∧
        claimed = { tables with files := tables.files.insert entry.name entry.source }) ∧
      ∀ error, tables.claim entry.name entry.source = .error error →
        ∃ earlier ∈ seen, earlier.name = entry.name ∧
          error = .duplicateName entry.name earlier.source.path entry.source.path := by
  rw [Tables.claim, ← hholds.get?_files_eq_none_iff]
  cases hfile : tables.files.get? entry.name with
  | none => simp [eq_comm]
  | some source =>
    rw [hholds.files, met, Option.bind_eq_some_iff] at hfile
    obtain ⟨earlier, hfind, hsource⟩ := hfile
    have hsource : earlier.source = source := by simpa using hsource
    refine ⟨by simp, fun error herror => ⟨earlier, List.mem_of_find?_eq_some hfind, ?_, ?_⟩⟩
    · simpa using List.find?_some hfind
    · cases herror
      rw [hsource]

/-- One declaration enters the table of its sort, and what the others show stays the same. -/
theorem Holds.add (hholds : tables.Holds seen) {next : Tables}
    (hadd : tables.add entry = .ok next) :
    next.Holds (seen ++ [entry]) := by
  obtain ⟨claimed, hclaim, rfl⟩ := Outcome.map_eq_ok_iff.mp hadd
  obtain ⟨hnew, rfl⟩ := (hholds.claim.1 claimed).mp hclaim
  have hnodup : ((seen ++ [entry]).map Entry.name).Nodup := by
    rw [List.map_append, List.nodup_append]
    refine ⟨hholds.nodup, by simp, ?_⟩
    rintro name hname _ hother rfl
    exact hnew (List.mem_singleton.mp hother ▸ hname)
  have hfiles := get?_insert_eq_met hnew hholds.files rfl
  obtain ⟨source, decl⟩ := entry
  cases decl with
  | type decl =>
    refine ⟨hnodup, hfiles, get?_insert_eq_met hnew hholds.types rfl, fun name => ?_,
      fun name => ?_, fun outer => ?_, fun outer => ?_, ?_⟩
    · exact (hholds.enumerations name).trans (met_concat_of_none hnew rfl name).symm
    · exact (hholds.components name).trans (met_concat_of_none hnew rfl name).symm
    · rw [enter, Table.listed_push, hholds.nestedTypes]
      by_cases houter : decl.outer = some outer <;> simp [Declaration.type?, houter]
    · rw [filterMap_concat_of_none rfl]
      exact hholds.nestedEnumerations outer
    · rw [filterMap_concat_of_none rfl]
      exact hholds.commandTypes
  | enumeration decl =>
    refine ⟨hnodup, hfiles, fun name => ?_, get?_insert_eq_met hnew hholds.enumerations rfl,
      fun name => ?_, fun outer => ?_, fun outer => ?_, ?_⟩
    · exact (hholds.types name).trans (met_concat_of_none hnew rfl name).symm
    · exact (hholds.components name).trans (met_concat_of_none hnew rfl name).symm
    · rw [filterMap_concat_of_none rfl]
      exact hholds.nestedTypes outer
    · rw [enter, Table.listed_push, hholds.nestedEnumerations]
      by_cases houter : decl.outer = some outer <;> simp [Declaration.enumeration?, houter]
    · rw [filterMap_concat_of_none rfl]
      exact hholds.commandTypes
  | component decl =>
    refine ⟨hnodup, hfiles, fun name => ?_, fun name => ?_,
      get?_insert_eq_met hnew hholds.components rfl, fun outer => ?_, fun outer => ?_, ?_⟩
    · exact (hholds.types name).trans (met_concat_of_none hnew rfl name).symm
    · exact (hholds.enumerations name).trans (met_concat_of_none hnew rfl name).symm
    · rw [filterMap_concat_of_none rfl]
      exact hholds.nestedTypes outer
    · rw [filterMap_concat_of_none rfl]
      exact hholds.nestedEnumerations outer
    · rw [enter, hholds.commandTypes]
      simp [Declaration.component?]

/-- What one declaration preserves, a scan preserves. -/
theorem Holds.run (hholds : tables.Holds seen) {entries : List Entry} {last : Tables}
    (hrun : entries.foldlM Tables.add tables = .ok last) : last.Holds (seen ++ entries) := by
  induction entries generalizing tables seen with
  | nil =>
    cases hrun
    simpa using hholds
  | cons entry rest ih =>
    rw [List.foldlM_cons] at hrun
    obtain ⟨next, hadd, hrest⟩ := Outcome.bind_eq_ok_iff.mp hrun
    simpa using ih (hholds.add hadd) hrest

/-- A scan that fails was at the first declaration that repeats a name. -/
theorem repeats_of_run {entries : List Entry} {error : IndexError}
    (hrun : entries.foldlM add {} = .error error) :
    ∃ earlier entry, Repeats entries earlier entry ∧
      error = .duplicateName entry.name earlier.source.path entry.source.path := by
  obtain ⟨done, entry, rest, reached, rfl, hdone, hadd⟩ := Outcome.exists_of_foldlM_eq_error hrun
  have hholds : reached.Holds done := by simpa using holds_start.run hdone
  have hclaim : reached.claim entry.name entry.source = .error error := by
    rw [add] at hadd
    cases hclaim : reached.claim entry.name entry.source with
    | error other => simpa [hclaim, Except.map] using hadd
    | ok claimed => simp [hclaim, Except.map] at hadd
  obtain ⟨earlier, hearlier, hname, rfl⟩ := hholds.claim.2 error hclaim
  exact ⟨earlier, entry, ⟨hname, done, rest, rfl, hearlier, hholds.nodup⟩, rfl⟩

end Step

/-! ## The tables and the index -/

/-- Every question that an index answers has the same answer in the tables. -/
structure Answers (tables : Tables) (index : Index) : Prop where
  types : ∀ name, tables.types.get? name = index.type? name
  enumerations : ∀ name, tables.enumerations.get? name = index.enumeration? name
  components : ∀ name, tables.components.get? name = index.component? name
  files : ∀ name, tables.files.get? name = index.source? name
  nestedTypes : ∀ outer, tables.nestedTypes.listed outer = index.nestedTypes outer
  nestedEnumerations : ∀ outer,
    tables.nestedEnumerations.listed outer = index.nestedEnumerations outer
  commandTypes : ∀ name, name ∈ tables.commandTypes ↔ index.isCommandType name

theorem Holds.answers {tables : Tables} {bundle : Bundle} (hholds : tables.Holds bundle.entries)
    {index : Index} (hindex : Index.ofBundle bundle = .ok index) : tables.finish.Answers index := by
  have hperm := Index.entries_perm hindex
  constructor
  · exact fun name => (hholds.types name).trans (get?_bind_eq_met hperm name).symm
  · exact fun name => (hholds.enumerations name).trans (get?_bind_eq_met hperm name).symm
  · exact fun name => (hholds.components name).trans (get?_bind_eq_met hperm name).symm
  · intro name
    rw [Index.source?, Option.map_eq_bind]
    exact (hholds.files name).trans (get?_bind_eq_met hperm name).symm
  · intro outer
    rw [finish, Table.listed_sorted, hholds.nestedTypes, Index.nestedTypes_of_ofBundle hindex,
      Bundle.nestedTypes]
  · intro outer
    rw [finish, Table.listed_sorted, hholds.nestedEnumerations,
      Index.nestedEnumerations_of_ofBundle hindex, Bundle.nestedEnumerations]
  · intro name
    simp only [finish, hholds.commandTypes, ← (hperm.filterMap _).mem_iff, List.mem_flatMap,
      Index.isCommandType, Index.components, List.any_eq_true, Bool.or_eq_true, beq_iff_eq]
    simp [eq_comm]

/-- The tables of one scan are the index in another form: the scan fails exactly as indexing does,
with the same error, and otherwise every question has the same answer in both. -/
theorem ofBundle_refines (bundle : Bundle) :
    (∀ error, ofBundle bundle = .error error ↔ Index.ofBundle bundle = .error error) ∧
      ∀ tables, ofBundle bundle = .ok tables →
        ∃ index, Index.ofBundle bundle = .ok index ∧ tables.Answers index := by
  have hfails : ∀ error, ofBundle bundle = .error error → Index.ofBundle bundle = .error error := by
    intro error hscan
    rw [ofBundle] at hscan
    cases hrun : bundle.entries.foldlM add {} with
    | error other =>
      obtain rfl : other = error := by simpa [hrun, Except.map] using hscan
      exact Index.ofBundle_eq_error_iff.mpr (repeats_of_run hrun)
    | ok last => simp [hrun, Except.map] at hscan
  have hanswers : ∀ tables, ofBundle bundle = .ok tables →
      ∃ index, Index.ofBundle bundle = .ok index ∧ tables.Answers index := by
    intro tables hscan
    obtain ⟨last, hrun, rfl⟩ := Outcome.map_eq_ok_iff.mp hscan
    have hholds : last.Holds bundle.entries := by simpa using holds_start.run hrun
    obtain ⟨index, hindex⟩ := Index.exists_ofBundle_iff.mpr hholds.nodup
    exact ⟨index, hindex, hholds.answers hindex⟩
  refine ⟨fun error => ⟨hfails error, fun hindex => ?_⟩, hanswers⟩
  cases hscan : ofBundle bundle with
  | error other =>
    have hsame : error = other := Except.error.inj (hindex.symm.trans (hfails other hscan))
    rw [hsame]
  | ok tables =>
    obtain ⟨index, hok, -⟩ := hanswers tables hscan
    simp [hindex] at hok

end Tables

end SchemaLoom
