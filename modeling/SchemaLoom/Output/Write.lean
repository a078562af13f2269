import SchemaLoom.Generate
import SchemaLoom.Output.ModuleTree
import SchemaLoom.Storage.Disk

/-!
# Writing generated code

Artifacts go to the files their paths name, and every directory gets a file that declares its
modules.  A run begins by removing the marker of an earlier run and ends by writing it, so the
marker stands only beside complete output.
-/

namespace SchemaLoom

open Storage (Path Disk Action)

variable {σ : Type}

/-- Write a file after making its directory. -/
def writeFile (disk : Disk σ) (path : Path) (text : String) : Action σ WriteError Unit := do
  match path.parent? with
  | some parent => Action.attempt (.failed parent) (disk.createDirs · parent)
  | none => pure ()
  Action.attempt (.failed path) (disk.write · path text)

/-- The files of a directory that declare its modules. -/
def ModuleTree.files (tree : ModuleTree) (outDir : Path) (header : String) :
    List (Path × String) :=
  tree.map fun (directory, modules) =>
    ((outDir.join (directoryPath directory)).join ⟨"mod.rs"⟩, declarations header modules)

/-- All files of a list of artifacts, in the order in which they are written. -/
def outputFiles (artifacts : List Artifact) (outDir : Path) (header : String) :
    Except WriteError (List (Path × String)) := do
  let tree ← ModuleTree.ofPaths (artifacts.map Artifact.path)
  return artifacts.map (fun artifact => (outDir.join artifact.path, artifact.render header)) ++
    tree.files outDir header

/-- Write artifacts below a directory; the result lists the written files. -/
def writeArtifacts (disk : Disk σ) (artifacts : List Artifact) (outDir : Path) (header : String) :
    Action σ WriteError (List Path) := do
  let files ← Action.ofOutcome (outputFiles artifacts outDir header)
  files.forM fun (path, text) => writeFile disk path text
  return files.map (·.1)

/-- What can end a run. -/
inductive RunError where
  | read
  | parse (fault : Fault)
  | index (error : IndexError)
  | generate (error : GenerateError)
  | write (error : WriteError)
  deriving Inhabited

/-- The index of the bundle in a file. -/
def loadIndex (disk : Disk σ) (path : Path) (state : σ) : Except RunError Index := do
  match disk.read state path with
  | none => .error .read
  | some text =>
    let bundle ← (Bundle.parse text).mapError RunError.parse
    (Index.ofBundle bundle).mapError RunError.index

/-- Generate code for the bundle in a file and write it. -/
def generateTo (disk : Disk σ) (bundle : Path) (config : GenerateConfig) (output : OutputConfig) :
    Action σ RunError Generation := do
  Action.attempt (.write (.failed output.marker)) (disk.remove · output.marker)
  let index ← Action.ofOutcome (loadIndex disk bundle (← get))
  let generation ← Action.ofOutcome ((generate index config).mapError RunError.generate)
  let _ ← (writeArtifacts disk generation.artifacts output.outDir config.header).mapError .write
  (writeFile disk output.marker "").mapError .write
  return generation

end SchemaLoom
