/-!
# Keyed lists

A finite map as a list of entries in the order in which their keys first came, with keys compared
by a given equivalence.  Inserting under a known key replaces the value and keeps the entry's place
and its key.
-/

namespace SchemaLoom.Keyed

variable {κ ν : Type} (alike : κ → κ → Bool)

/-- The value under the first key alike to the given one. -/
def get? (key : κ) : List (κ × ν) → Option ν
  | [] => none
  | (other, value) :: rest => if alike other key then some value else get? key rest

/-- Replace the value under a key or append a new entry. -/
def insert (key : κ) (value : ν) : List (κ × ν) → List (κ × ν)
  | [] => [(key, value)]
  | (other, old) :: rest =>
    if alike other key then (other, value) :: rest else (other, old) :: insert key value rest

/-- Insertion together with the value that it replaced. -/
def put (key : κ) (value : ν) : List (κ × ν) → Option ν × List (κ × ν)
  | [] => (none, [(key, value)])
  | (other, old) :: rest =>
    if alike other key then (some old, (other, value) :: rest)
    else
      let (replaced, entries) := put key value rest
      (replaced, (other, old) :: entries)

/-- Remove the first entry under a key, and give the value that was there. -/
def take (key : κ) : List (κ × ν) → Option ν × List (κ × ν)
  | [] => (none, [])
  | (other, value) :: rest =>
    if alike other key then (some value, rest)
    else
      let (removed, entries) := take key rest
      (removed, (other, value) :: entries)

/-- Insert entries one after the other. -/
def insertAll (entries more : List (κ × ν)) : List (κ × ν) :=
  more.foldl (fun entries entry => insert alike entry.1 entry.2 entries) entries

def ofList (entries : List (κ × ν)) : List (κ × ν) :=
  insertAll alike [] entries

/-- The entries of a map, and one more; the map itself is left as it is. -/
def inserted (entries : List (κ × ν)) (key : κ) (value : ν) : List (κ × ν) :=
  insert alike key value (ofList alike entries)

/-- As many entries, and each of the first map is alike to some entry of the second. -/
def sameEntries (valueAlike : ν → ν → Bool) (left right : List (κ × ν)) : Bool :=
  left.length == right.length &&
    left.all fun entry =>
      right.any fun other => alike entry.1 other.1 && valueAlike entry.2 other.2

end SchemaLoom.Keyed
