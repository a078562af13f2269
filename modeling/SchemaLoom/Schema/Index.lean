import SchemaLoom.Schema.Basic

/-!
# The index of a bundle

All declarations of a bundle under their qualified names, in ascending order of the names.  A name
that is declared twice, by declarations of any sort, makes a bundle unfit for an index.
-/

namespace SchemaLoom

inductive Declaration where
  | type (decl : TypeDecl)
  | enumeration (decl : EnumDecl)
  | component (decl : ComponentDecl)
  deriving BEq, Inhabited

/-- The sorts of declaration. -/
inductive DeclKind where
  | component
  | enumeration
  | type
  deriving DecidableEq, Inhabited

namespace Declaration

def name : Declaration → String
  | type decl => decl.qualified
  | enumeration decl => decl.qualified
  | component decl => decl.qualified

def kind : Declaration → DeclKind
  | type _ => .type
  | enumeration _ => .enumeration
  | component _ => .component

def type? : Declaration → Option TypeDecl
  | type decl => some decl
  | _ => none

def enumeration? : Declaration → Option EnumDecl
  | enumeration decl => some decl
  | _ => none

def component? : Declaration → Option ComponentDecl
  | component decl => some decl
  | _ => none

/-- The declaration this one is nested in; components never nest. -/
def outer? : Declaration → Option String
  | type decl => decl.outer
  | enumeration decl => decl.outer
  | component _ => none

end Declaration

/-- A declaration and the file it comes from. -/
structure Entry where
  source : SourceFile
  decl : Declaration
  deriving BEq, Inhabited

def Entry.name (entry : Entry) : String :=
  entry.decl.name

/-- The declarations of a file: types, then enumerations, then components. -/
def SchemaFile.entries (file : SchemaFile) : List Entry :=
  let decls := file.types.map Declaration.type ++ file.enums.map Declaration.enumeration ++
    file.components.map Declaration.component
  decls.map fun decl => ⟨file.source, decl⟩

/-- All declarations in the order in which they are written. -/
def Bundle.entries (bundle : Bundle) : List Entry :=
  bundle.files.flatMap SchemaFile.entries

inductive IndexError where
  /-- A name and the files of its first and its second declaration. -/
  | duplicateName (name first second : String)
  deriving DecidableEq, Inhabited

def IndexError.message : IndexError → String
  | duplicateName name first second =>
    "duplicate qualified name '" ++ name ++ "' declared in '" ++ first ++ "' and '" ++ second ++ "'"

/-- The first entry that repeats the name of an earlier one, after that one. -/
def firstClash (seen : List Entry) : List Entry → Option (Entry × Entry)
  | [] => none
  | entry :: rest =>
    match seen.find? (·.name == entry.name) with
    | some earlier => some (earlier, entry)
    | none => firstClash (entry :: seen) rest

theorem firstClash_eq_none {seen entries : List Entry} (hnone : firstClash seen entries = none) :
    entries.Pairwise (fun left right => left.name ≠ right.name) ∧
      ∀ entry ∈ entries, ∀ earlier ∈ seen, earlier.name ≠ entry.name := by
  induction entries generalizing seen with
  | nil => simp
  | cons entry rest ih =>
    simp only [firstClash] at hnone
    split at hnone
    · simp at hnone
    · next hfind =>
      obtain ⟨hpairwise, hseen⟩ := ih hnone
      simp only [List.find?_eq_none, beq_iff_eq] at hfind
      refine ⟨List.pairwise_cons.mpr ⟨fun other hother => ?_, hpairwise⟩, ?_⟩
      · exact hseen other hother entry List.mem_cons_self
      · intro other hother earlier hearlier
        rcases List.mem_cons.mp hother with rfl | hother
        · exact hfind earlier hearlier
        · exact hseen other hother earlier (List.mem_cons_of_mem _ hearlier)

/-- Entries in ascending order of their names. -/
def sortEntries (entries : List Entry) : List Entry :=
  entries.mergeSort fun left right => left.name ≤ right.name

theorem sortEntries_ascending {entries : List Entry}
    (hdistinct : entries.Pairwise fun left right => left.name ≠ right.name) :
    (sortEntries entries).Pairwise fun left right => left.name < right.name := by
  have hsorted := @List.pairwise_mergeSort _
    (fun (left right : Entry) => decide (left.name ≤ right.name))
    (fun a b c hab hbc => by
      simp only [decide_eq_true_eq] at hab hbc ⊢
      exact String.le_trans hab hbc)
    (fun a b => by simpa using String.le_total a.name b.name) entries
  have hperm := List.mergeSort_perm entries
    (fun (left right : Entry) => decide (left.name ≤ right.name))
  have hnodup : (sortEntries entries).Pairwise fun left right => left.name ≠ right.name :=
    hperm.symm.pairwise hdistinct fun h => h.symm
  refine (hsorted.and hnodup).imp fun {left right} h => ?_
  have hle : left.name ≤ right.name := by simpa using h.1
  rcases Decidable.em (left.name < right.name) with hlt | hnot
  · exact hlt
  · exact absurd (String.le_antisymm hle (String.not_lt.mp hnot)) h.2

/-- The declarations of a bundle, each name once. -/
structure Index where
  entries : List Entry
  ascending : entries.Pairwise fun left right => left.name < right.name

namespace Index

instance : Inhabited Index := ⟨⟨[], .nil⟩⟩

def ofBundle (bundle : Bundle) : Except IndexError Index :=
  match hclash : firstClash [] bundle.entries with
  | some (first, second) =>
    .error (.duplicateName second.name first.source.path second.source.path)
  | none =>
    .ok ⟨sortEntries bundle.entries, sortEntries_ascending (firstClash_eq_none hclash).1⟩

/-- The entry of a name. -/
def get? (index : Index) (name : String) : Option Entry :=
  index.entries.find? (·.name == name)

def type? (index : Index) (name : String) : Option TypeDecl :=
  (index.get? name).bind (·.decl.type?)

def enumeration? (index : Index) (name : String) : Option EnumDecl :=
  (index.get? name).bind (·.decl.enumeration?)

def component? (index : Index) (name : String) : Option ComponentDecl :=
  (index.get? name).bind (·.decl.component?)

def source? (index : Index) (name : String) : Option SourceFile :=
  (index.get? name).map (·.source)

def kind? (index : Index) (name : String) : Option DeclKind :=
  (index.get? name).map (·.decl.kind)

/-- The declaration that the named one is nested in. -/
def outer? (index : Index) (name : String) : Option String :=
  (index.get? name).bind (·.decl.outer?)

def types (index : Index) : List TypeDecl :=
  index.entries.filterMap (·.decl.type?)

def enumerations (index : Index) : List EnumDecl :=
  index.entries.filterMap (·.decl.enumeration?)

def components (index : Index) : List ComponentDecl :=
  index.entries.filterMap (·.decl.component?)

/-- The names of the types nested directly in the named declaration, ascending. -/
def nestedTypes (index : Index) (outer : String) : List String :=
  (index.types.filter (·.outer == some outer)).map (·.qualified)

/-- The names of the enumerations nested directly in the named declaration, ascending. -/
def nestedEnumerations (index : Index) (outer : String) : List String :=
  (index.enumerations.filter (·.outer == some outer)).map (·.qualified)

/-- Whether some command has the named type as its request or its response. -/
def isCommandType (index : Index) (name : String) : Bool :=
  index.components.any fun component =>
    component.commands.any fun command => command.request == name || command.response == name

def size (index : Index) : Nat :=
  index.entries.length

end Index

end SchemaLoom
