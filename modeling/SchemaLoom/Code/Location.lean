import SchemaLoom.Code.CodePath
import SchemaLoom.Config
import SchemaLoom.Schema.Index

/-!
# Where declarations live in generated code

A declaration `pkg.sub.Outer.Inner` is the item `Inner` of the module `pkg::sub::outer::inner`,
below a root path, and stands in the file `pkg/sub/outer.rs`.
-/

namespace SchemaLoom

open Storage (Path)

/-- The parts of a name between dots. -/
def dottedParts (name : String) : List String :=
  (split name.toList).map String.ofList
where
  /-- The pieces of a text between dots. -/
  split : List Char → List (List Char)
    | [] => [[]]
    | char :: rest =>
      if char = '.' then [] :: split rest
      else
        match split rest with
        | [] => [[char]]
        | piece :: pieces => (char :: piece) :: pieces

/-- What is left of a text after a beginning. -/
def stripStart? (start text : List Char) : Option (List Char) :=
  if start.isPrefixOf text then some (text.drop start.length) else none

/-- The surroundings of generated code: the declarations, the path of the generated root and the
path of the supporting library. -/
structure Surroundings where
  index : Index
  root : CodePath
  runtime : CodePath

namespace Surroundings

def ofConfig (index : Index) (config : GenerateConfig) : Except EmitError Surroundings := do
  let root ← CodePath.parse config.rootPath
  let runtime ← CodePath.parse config.runtimePath
  return ⟨index, root, runtime⟩

/-- The segments of the package of a declaration and of its name inside the package.  A name outside
its package counts by its last part. -/
def split (around : Surroundings) (qualified : String) :
    Except EmitError (List String × List String) :=
  match around.index.source? qualified with
  | none => .error (.unknownDeclaration qualified)
  | some source =>
    if source.package.isEmpty then .ok ([], dottedParts qualified)
    else
      let inside := stripStart? (source.package.toList ++ ['.']) qualified.toList
      let name :=
        match inside with
        | some chars => String.ofList chars
        | none => shortName qualified
      .ok (dottedParts source.package, dottedParts name)

/-- The modules a declaration lives in below the root, and its own identifier. -/
def place (around : Surroundings) (qualified : String) : Except EmitError (List Ident × Ident) := do
  let (package, name) ← around.split qualified
  let modules ← (package ++ name).mapM Ident.ofModule
  let ident ← Ident.ofType (name.getLast?.getD qualified)
  return (modules, ident)

/-- The path of a type or an enumeration. -/
def typePath (around : Surroundings) (qualified : String) : Except EmitError Code := do
  let (modules, ident) ← around.place qualified
  return around.root.code ++ (modules ++ [ident]).flatMap fun segment => ["::", segment.text]

/-- The file of a declaration, relative to the output directory. -/
def filePath (around : Surroundings) (qualified : String) : Except EmitError Path := do
  let (package, name) ← around.split qualified
  let directory := Path.ofNames (package.map Ident.moduleName)
  return directory.join ⟨Ident.moduleName (name.head?.getD qualified) ++ ".rs"⟩

end Surroundings

end SchemaLoom
