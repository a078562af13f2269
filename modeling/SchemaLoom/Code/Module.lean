import SchemaLoom.Code.ComponentText
import SchemaLoom.Code.EnumText
import SchemaLoom.Code.Order

/-!
# Modules

The code of a declaration has a module for each declaration nested in it.  Declarations come deepest
first; a nested one waits until its outer declaration takes it, and one without an outer
declaration becomes a file.
-/

namespace SchemaLoom

open Storage (Path)

/-- A resolved type, component or enumeration. -/
inductive Subject where
  | type (resolved : ResolvedType)
  | enumeration (decl : ResolvedEnum)
  deriving Inhabited

def Subject.name : Subject → String
  | type resolved => resolved.qualified
  | enumeration decl => decl.qualified

/-- A declaration with all its names found. -/
inductive Item where
  | type (code : TypeCode)
  | enumeration (code : EnumCode)
  deriving Inhabited

namespace Item

def of (around : Surroundings) : Subject → Except EmitError Item
  | .type resolved => (TypeCode.of around resolved).map .type
  | .enumeration decl => (EnumCode.of around decl).map .enumeration

/-- The qualified name of the declaration. -/
def name : Item → String
  | type code => code.type.qualified
  | enumeration code => code.decl.qualified

def ident : Item → Ident
  | type code => code.ident
  | enumeration code => code.ident

def text : Item → Code
  | type code => code.text
  | enumeration code => code.text

end Item

/-- A declaration and the modules inside it. -/
inductive Module where
  | node (item : Item) (members : List (Ident × Module))
  deriving Inhabited

namespace Module

def item : Module → Item
  | node item _ => item

def members : Module → List (Ident × Module)
  | node _ members => members

mutual

def code : Module → Code
  | node item members => item.text ++ codeOf members

/-- Members one after the other, each as a module. -/
def codeOf : List (Ident × Module) → Code
  | [] => []
  | (ident, inner) :: rest =>
    ["pub", "mod", ident.text] ++ Code.brace inner.code ++ codeOf rest

end

end Module

/-- A declaration without an outer one, with the file it goes to. -/
structure OutputUnit where
  name : String
  path : Path
  module : Module
  deriving Inhabited

/-- Modules that wait for their outer declaration, by their names. -/
abbrev Waiting := List (String × Module)

/-- Take the named members from those that wait. -/
def takeMembers : (names : List String) → Waiting →
    Except EmitError (List (Ident × Module) × Waiting)
  | [], waiting => .ok ([], waiting)
  | name :: names, waiting =>
    match waiting.find? (·.1 == name) with
    | none => .error (.missingNested name)
    | some (_, inner) => do
      let ident ← Ident.ofModule (shortName name)
      let (members, waiting) ← takeMembers names (waiting.filter (·.1 != name))
      return ((ident, inner) :: members, waiting)

/-- The names of all declarations nested directly in the named one, ascending. -/
def Index.nestedMembers (index : Index) (outer : String) : List String :=
  (index.nestedTypes outer ++ index.nestedEnumerations outer).mergeSort (· ≤ ·)

structure Assembly where
  waiting : Waiting := []
  units : List OutputUnit := []

namespace Assembly

/-- Add the declaration of a name. -/
def add (around : Surroundings) (subjects : List Subject) (assembly : Assembly) (name : String) :
    Except EmitError Assembly := do
  match subjects.find? (·.name == name) with
  | none => .error (.unknownDeclaration name)
  | some subject =>
    let item ← Item.of around subject
    let (members, waiting) ← takeMembers (around.index.nestedMembers name) assembly.waiting
    let module := Module.node item members
    if (around.index.outer? name).isSome then
      return { assembly with waiting := waiting ++ [(name, module)] }
    else
      let path ← around.filePath name
      return { waiting, units := assembly.units ++ [⟨name, path, module⟩] }

/-- The files, ascending by name, if no module waits any more. -/
def finish (assembly : Assembly) : Except EmitError (List OutputUnit) :=
  match (assembly.waiting.map (·.1)).mergeSort (· ≤ ·) with
  | orphan :: _ => .error (.missingNested orphan)
  | [] => .ok (assembly.units.mergeSort fun left right => left.name ≤ right.name)

end Assembly

/-- Put resolved declarations together into files. -/
def assembleUnits (around : Surroundings) (subjects : List Subject) :
    Except EmitError (List OutputUnit) := do
  let order := around.index.emissionOrder (subjects.map Subject.name)
  let assembly ← order.foldlM (Assembly.add around subjects) {}
  assembly.finish

end SchemaLoom
