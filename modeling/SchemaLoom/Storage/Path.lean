/-!
# Paths

A path is a text; what it means is its list of components.  Repeated slashes and inner dots do not
count, so two texts can be the same path, and paths are ordered by their components.
-/

namespace SchemaLoom.Storage

inductive Component where
  | root
  | here
  | parent
  | name (text : String)
  deriving DecidableEq, Inhabited

namespace Component

def text : Component → String
  | root => "/"
  | here => "."
  | parent => ".."
  | name text => text

/-- Whether one component comes before another: the root, the current directory, the parent, then
names by their characters. -/
def before : Component → Component → Bool
  | root, root => false
  | root, _ => true
  | here, root => false
  | here, here => false
  | here, _ => true
  | parent, name _ => true
  | parent, _ => false
  | name left, name right => left < right
  | name _, _ => false

end Component

structure Path where
  text : String
  deriving DecidableEq, Inhabited

/-- The pieces of a text between slashes. -/
def slashPieces : List Char → List (List Char)
  | [] => [[]]
  | char :: rest =>
    if char = '/' then [] :: slashPieces rest
    else
      match slashPieces rest with
      | [] => [[char]]
      | piece :: pieces => (char :: piece) :: pieces

namespace Path

def isAbsolute (path : Path) : Bool :=
  path.text.toList.head? == some '/'

/-- The component of a piece of the text; empty pieces and dots are none. -/
def component? (piece : List Char) : Option Component :=
  if piece = [] ∨ piece = ['.'] then none
  else if piece = ['.', '.'] then some .parent
  else some (.name (String.ofList piece))

def components (path : Path) : List Component :=
  let pieces := slashPieces path.text.toList
  let start :=
    if path.isAbsolute then [Component.root]
    else if pieces.head? == some ['.'] then [Component.here]
    else []
  start ++ pieces.filterMap component?

/-- Whether two texts name the same components. -/
def same (left right : Path) : Bool :=
  left.components == right.components

/-- The order of lists of components. -/
def componentsLe : List Component → List Component → Bool
  | [], _ => true
  | _ :: _, [] => false
  | left :: lefts, right :: rights =>
    left.before right || (left == right && componentsLe lefts rights)

def le (left right : Path) : Bool :=
  componentsLe left.components right.components

/-- The second path taken from the first one; an absolute second path stands alone. -/
def join (path other : Path) : Path :=
  if other.isAbsolute then other
  else
    match path.text.toList.getLast? with
    | none => other
    | some last =>
      if last = '/' then ⟨path.text ++ other.text⟩ else ⟨path.text ++ "/" ++ other.text⟩

def ofNames (names : List String) : Path :=
  names.foldl (fun path name => path.join ⟨name⟩) ⟨""⟩

/-- Drop pieces without a component from the end of a path, given its pieces last first.  The first
piece of a relative path stays, since a dot counts there. -/
def trimPieces (absolute : Bool) : List (List Char) → List (List Char)
  | [] => []
  | piece :: pieces =>
    if (piece = [] ∨ piece = ['.']) ∧ (absolute ∨ pieces ≠ []) then trimPieces absolute pieces
    else piece :: pieces

/-- The path without its last component, if it has one beside the root. -/
def parent? (path : Path) : Option Path :=
  let body := if path.isAbsolute then path.text.toList.drop 1 else path.text.toList
  match trimPieces path.isAbsolute (slashPieces body).reverse with
  | [] => none
  | [[]] => none
  | _ :: pieces =>
    let rest := ['/'].intercalate (trimPieces path.isAbsolute pieces).reverse
    some ⟨String.ofList (if path.isAbsolute then '/' :: rest else rest)⟩

/-- Split a file name at its last dot; a name that starts with its only dot has no extension. -/
def splitExtension (fileName : List Char) : List Char × Option (List Char) :=
  let extension := (fileName.reverse.takeWhile (· != '.')).reverse
  let stem := fileName.take (fileName.length - extension.length - 1)
  if stem.isEmpty then (fileName, none) else (stem, some extension)

/-- The file name of a component; only names have one. -/
def Component.fileName? : Component → Option (List Char)
  | .name text => some text.toList
  | _ => none

def fileName? (path : Path) : Option (List Char) :=
  path.components.getLast?.bind Component.fileName?

/-- The stem of a component as a module name; other components than names have the empty one. -/
def stemOf (component : Component) : String :=
  match Component.fileName? component with
  | some fileName => String.ofList (splitExtension fileName).1
  | none => ""

/-- The text up to the end of the last component. -/
def trimmed (path : Path) : List Char :=
  let body := if path.isAbsolute then path.text.toList.drop 1 else path.text.toList
  let rest := ['/'].intercalate (trimPieces path.isAbsolute (slashPieces body).reverse).reverse
  if path.isAbsolute then '/' :: rest else rest

/-- The path without the extension of its file name. -/
def withoutExtension (path : Path) : Path :=
  match path.fileName? with
  | none => path
  | some fileName =>
    match splitExtension fileName with
    | (_, none) => path
    | (_, some extension) =>
      let chars := path.trimmed
      ⟨String.ofList (chars.take (chars.length - extension.length - 1))⟩

end Path

end SchemaLoom.Storage
