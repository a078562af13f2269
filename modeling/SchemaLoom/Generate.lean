import SchemaLoom.Code.Module
import SchemaLoom.Resolved.Resolver

/-!
# Generation

From an index to the text of files: resolve everything, name everything, write the code.
-/

namespace SchemaLoom

open Storage (Path)

/-- A file of generated code; its path is relative to the output directory. -/
structure Artifact where
  name : String
  path : Path
  code : Code
  deriving DecidableEq, Inhabited

/-- A comment line, a blank line and the code. -/
def Artifact.render (artifact : Artifact) (header : String) : String :=
  "// " ++ header ++ "\n\n" ++ artifact.code.render ++ "\n"

/-- Generated code is not held to lint rules. -/
def lintMark : Code :=
  Code.ofText "# !" ++
    Code.square ("allow" :: Code.paren
      (Code.ofText "clippy :: all , clippy :: pedantic , clippy :: nursery"))

def OutputUnit.artifact (unit : OutputUnit) : Artifact :=
  ⟨unit.name, unit.path, lintMark ++ unit.module.code⟩

/-- The files for resolved types and enumerations. -/
def emitUnits (index : Index) (config : GenerateConfig) (types : List Resolved)
    (enums : List ResolvedEnum) : Except EmitError (List OutputUnit) := do
  let around ← Surroundings.ofConfig index config
  assembleUnits around (types.map (.type ·.type) ++ enums.map .enumeration)

def emit (index : Index) (config : GenerateConfig) (types : List Resolved)
    (enums : List ResolvedEnum) : Except EmitError (List Artifact) :=
  (emitUnits index config types enums).map fun units => units.map OutputUnit.artifact

inductive GenerateError where
  | resolve (error : ResolveError)
  | emit (error : EmitError)
  deriving DecidableEq, Inhabited

def GenerateError.message : GenerateError → String
  | resolve error => error.message
  | emit error => error.message

structure Generation where
  artifacts : List Artifact
  warnings : List Warning
  deriving DecidableEq, Inhabited

def generate (index : Index) (config : GenerateConfig) : Except GenerateError Generation := do
  let (memo, attempt) := index.resolveAll config []
  let types ← attempt.mapError GenerateError.resolve
  let enums ← index.resolveEnums.mapError GenerateError.resolve
  let artifacts ← (emit index config types enums).mapError GenerateError.emit
  return { artifacts, warnings := memo.warnings }

end SchemaLoom
