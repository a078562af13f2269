import SchemaLoom.Json.Form
import SchemaLoom.Schema.Form
import SchemaLoom.Storage.Path

/-!
# Settings of a run

`GenerateConfig` says how declarations are resolved and how the code refers to its surroundings;
`OutputConfig` says where the code goes.
-/

namespace SchemaLoom

open Storage (Path)

/-- What happens to a field through which a type reaches itself. -/
inductive RecursionPolicy where
  /-- Every such field is dropped. -/
  | strict
  /-- Lists and maps are kept. -/
  | keepCollections
  deriving DecidableEq, Inhabited

def RecursionPolicy.choices : List (String × RecursionPolicy) :=
  [("strict", .strict), ("keep_collections", .keepCollections)]

structure GenerateConfig where
  restrictedPrefix : String := "improbable.restricted"
  recursion : RecursionPolicy := .strict
  runtimePath : String := "::compgen_runtime"
  rootPath : String := "crate"
  header : String := "Generated by compgen. Do not edit."
  deriving DecidableEq, Inhabited

namespace GenerateConfig

def standard : GenerateConfig := {}

/-- Restricted declarations are those of the system; their names start with a fixed text. -/
def isRestricted (config : GenerateConfig) (name : String) : Bool :=
  config.restrictedPrefix.toList.isPrefixOf name.toList

def form : Form GenerateConfig :=
  Form.record "GenerateConfig"
    [.defaulting "restricted_prefix" Form.text standard.restrictedPrefix,
      .defaulting "recursion" (Form.choice RecursionPolicy.choices) standard.recursion,
      .defaulting "runtime_path" Form.text standard.runtimePath,
      .defaulting "root_path" Form.text standard.rootPath,
      .defaulting "header" Form.text standard.header]
    fun (restrictedPrefix, recursion, runtimePath, rootPath, header, ()) =>
      { restrictedPrefix, recursion, runtimePath, rootPath, header }

def parse (text : String) : Except Fault GenerateConfig :=
  form.read text

end GenerateConfig

structure OutputConfig where
  outDir : Path
  /-- The file whose presence says that a run has succeeded. -/
  marker : Path
  deriving DecidableEq, Inhabited

namespace OutputConfig

/-- Output to a directory, with the marker inside it. -/
def inside (outDir : Path) : OutputConfig :=
  ⟨outDir, outDir.join ⟨".compgen-complete"⟩⟩

def form : Form OutputConfig :=
  Form.record "OutputConfig"
    [.required "out_dir" Form.filePath, .required "marker" Form.filePath]
    fun (outDir, marker, ()) => ⟨⟨outDir⟩, ⟨marker⟩⟩

def parse (text : String) : Except Fault OutputConfig :=
  form.read text

end OutputConfig

end SchemaLoom
