import SchemaLoom.Code.Ident
import SchemaLoom.Storage.Path

/-!
# The tree of modules

Every directory of generated code declares the modules in it.  The tree says for each directory
which ones these are.
-/

namespace SchemaLoom

open Storage (Path Component)

/-- What keeps generated code from being written. -/
inductive WriteError where
  | failed (path : Path)
  | duplicatePath (path : Path)
  | moduleConflict (path : Path)
  deriving DecidableEq, Inhabited

def WriteError.message : WriteError → String
  | failed path => "failed to write '" ++ path.text ++ "'"
  | duplicatePath path => "two artifacts map to '" ++ path.text ++ "'"
  | moduleConflict path => "module '" ++ path.text ++ "' is both a generated file and a directory"

/-- A directory by its components. -/
abbrev Directory := List Component

/-- Directories in ascending order, each with the modules it declares. -/
abbrev ModuleTree := List (Directory × List String)

namespace ModuleTree

/-- The directories that a path goes through, each with the component that follows in it. -/
def linksFrom (directory : Directory) : List Component → List (Directory × Component)
  | [] => []
  | component :: rest =>
    (directory, component) :: linksFrom (directory ++ [component]) rest

def links (path : Path) : List (Directory × Component) :=
  linksFrom [] path.components

/-- The first path that repeats an earlier one. -/
def firstRepeated (seen : List Path) : List Path → Option Path
  | [] => none
  | path :: rest => if seen.any (·.same path) then some path else firstRepeated (path :: seen) rest

/-- How a module is declared.  A stem that is no identifier stands as it is. -/
def declaredName (component : Component) : String :=
  let stem := Path.stemOf component
  match Ident.ofName stem with
  | .ok ident => ident.text
  | .error _ => stem

/-- The modules a directory declares, ascending. -/
def modulesIn (links : List (Directory × Component)) (directory : Directory) : List String :=
  let inside := links.filter (·.1 == directory)
  (inside.map fun link => declaredName link.2).eraseDups.mergeSort (· ≤ ·)

/-- The directories of files, ascending. -/
def directories (links : List (Directory × Component)) : List Directory :=
  (links.map (·.1)).eraseDups.mergeSort Path.componentsLe

/-- The tree for files with the given paths.  No path may repeat, and none may be a directory once
its extension is gone. -/
def ofPaths (paths : List Path) : Except WriteError ModuleTree :=
  match firstRepeated [] paths with
  | some path => .error (.duplicatePath path)
  | none =>
    let links := paths.flatMap links
    let conflict := (paths.mergeSort Path.le).find? fun path =>
      links.any (·.1 == path.withoutExtension.components)
    match conflict with
    | some path => .error (.moduleConflict path.withoutExtension)
    | none => .ok ((directories links).map fun directory => (directory, modulesIn links directory))

/-- The path of a directory, relative to the output directory. -/
def directoryPath (directory : Directory) : Path :=
  Path.ofNames (directory.map Component.text)

/-- The text of a file that declares modules. -/
def declarations (header : String) (modules : List String) : String :=
  "// " ++ header ++ "\n\n" ++ String.join (modules.map fun name => "pub mod " ++ name ++ ";\n")

end ModuleTree

end SchemaLoom
