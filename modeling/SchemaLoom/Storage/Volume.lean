import SchemaLoom.Storage.Disk

/-!
# Volumes

A volume is a tree of files and directories in memory, kept as a map from places to what stands
there.  A place is the list of names that leads to it from the root.
-/

namespace SchemaLoom.Storage

abbrev Place := List String

inductive Stored where
  | file (text : String)
  | directory
  deriving DecidableEq, Inhabited

structure Volume where
  entries : List (Place × Stored) := []
  deriving DecidableEq, Inhabited

namespace Volume

/-- What stands at a place; the root is always a directory. -/
def get? (volume : Volume) (place : Place) : Option Stored :=
  if place.isEmpty then some .directory
  else (volume.entries.find? (·.1 == place)).map (·.2)

def insert (volume : Volume) (place : Place) (stored : Stored) : Volume :=
  ⟨volume.entries.filter (·.1 != place) ++ [(place, stored)]⟩

def erase (volume : Volume) (place : Place) : Volume :=
  ⟨volume.entries.filter (·.1 != place)⟩

def isDirectory (volume : Volume) (place : Place) : Bool :=
  volume.get? place == some .directory

/-- The greatest length of a name in bytes. -/
def greatestName : Nat := 255

def isName (text : String) : Bool :=
  text.utf8ByteSize ≤ greatestName && !text.toList.contains '\x00'

/-- Follow components through directories; the last name need not be there. -/
def follow? (volume : Volume) : Place → List Component → Option Place
  | place, [] => some place
  | _, .root :: rest => volume.follow? [] rest
  | place, .here :: rest => volume.follow? place rest
  | place, .parent :: rest =>
    if volume.isDirectory place then volume.follow? place.dropLast rest else none
  | place, .name text :: rest =>
    if volume.isDirectory place && isName text then volume.follow? (place ++ [text]) rest else none

/-- Whether the text of a path says that it is a directory. -/
def endsOpen (path : Path) : Bool :=
  match (slashPieces path.text.toList).getLast? with
  | some piece => piece == [] || piece == ['.'] || piece == ['.', '.']
  | none => true

/-- The place a path leads to; an empty path leads nowhere. -/
def place? (volume : Volume) (path : Path) : Option Place :=
  if path.text = "" then none else volume.follow? [] path.components

/-- The place a path leads to, if it can be a file. -/
def filePlace? (volume : Volume) (path : Path) : Option Place :=
  if endsOpen path then none else volume.place? path

def read (volume : Volume) (path : Path) : Option String :=
  match (volume.filePlace? path).bind volume.get? with
  | some (.file text) => some text
  | _ => none

/-- A file takes a new text; a directory cannot. -/
def write (volume : Volume) (path : Path) (text : String) : Volume × Bool :=
  match volume.filePlace? path with
  | none => (volume, false)
  | some place =>
    if volume.isDirectory place then (volume, false) else (volume.insert place (.file text), true)

/-- Whether a path leads to nothing because some name on it is not there. -/
def isMissing (volume : Volume) : Place → List Component → Bool
  | place, [] => (volume.get? place).isNone
  | _, .root :: rest => volume.isMissing [] rest
  | place, .here :: rest => volume.isMissing place rest
  | place, .parent :: rest =>
    match volume.get? place with
    | none => true
    | some .directory => volume.isMissing place.dropLast rest
    | some (.file _) => false
  | place, .name text :: rest =>
    match volume.get? place with
    | none => true
    | some .directory => isName text && volume.isMissing (place ++ [text]) rest
    | some (.file _) => false

/-- Whether there is nothing to remove at a path, as at an empty one. -/
def lacks (volume : Volume) (path : Path) : Bool :=
  path.text = "" || (volume.isMissing [] path.components && !path.text.toList.contains '\x00')

/-- Remove a file.  A file that is not there counts as removed; a directory stays. -/
def remove (volume : Volume) (path : Path) : Volume × Bool :=
  if volume.lacks path then (volume, true)
  else
    match volume.filePlace? path with
    | none => (volume, false)
    | some place =>
      match volume.get? place with
      | some (.file _) => (volume.erase place, true)
      | _ => (volume, false)

/-- Make the directories along components; those made before a failure stay. -/
def createAlong (volume : Volume) : Place → List Component → Volume × Bool
  | place, [] => (volume, volume.isDirectory place)
  | _, .root :: rest => volume.createAlong [] rest
  | place, .here :: rest => volume.createAlong place rest
  | place, .parent :: rest => volume.createAlong place.dropLast rest
  | place, .name text :: rest =>
    let next := place ++ [text]
    if !isName text then (volume, false)
    else
      match volume.get? next with
      | some .directory => volume.createAlong next rest
      | some (.file _) => (volume, false)
      | none => (volume.insert next .directory).createAlong next rest

def createDirs (volume : Volume) (path : Path) : Volume × Bool :=
  if path.text.toList.contains '\x00' then (volume, false)
  else volume.createAlong [] path.components

def disk : Disk Volume :=
  { read, createDirs, write, remove }

/-- The text of a place in a listing: names with slashes between them, and one more after a
directory. -/
def listed (entry : Place × Stored) : String :=
  String.intercalate "/" entry.1 ++
    match entry.2 with
    | .file _ => ""
    | .directory => "/"

/-- All files and directories, ascending. -/
def listing (volume : Volume) : List String :=
  (volume.entries.map listed).mergeSort (· ≤ ·)

end Volume

end SchemaLoom.Storage
