import SchemaLoom.Wire.Scalar

/-!
# Records

A record is a decoded value of a named type: a value for each of its field numbers, in ascending
order of the numbers.
-/

namespace SchemaLoom

open Wire (Atom)

mutual

/-- One element: an atom or a nested record. -/
inductive Value where
  | atom (value : Atom)
  | record (fields : List (UInt32 × FieldValue))

/-- The value of a field, by its shape. -/
inductive FieldValue where
  | singular (value : Value)
  | option (value : Option Value)
  | list (values : List Value)
  | map (entries : List (Value × Value))

end

instance : Inhabited Value := ⟨.record []⟩

instance : Inhabited FieldValue := ⟨.list []⟩

abbrev Record := List (UInt32 × FieldValue)

namespace Record

def get? (record : Record) (id : UInt32) : Option FieldValue :=
  List.lookup id record

/-- Set the value of a field, keeping the numbers ascending. -/
def insert (id : UInt32) (value : FieldValue) : Record → Record
  | [] => [(id, value)]
  | (other, old) :: rest =>
    if id = other then (id, value) :: rest
    else if id < other then (id, value) :: (other, old) :: rest
    else (other, old) :: insert id value rest

/-- Of several values for one number the last counts. -/
def ofList (fields : List (UInt32 × FieldValue)) : Record :=
  fields.foldl (fun record field => insert field.1 field.2 record) []

end Record

/-- Whether a value counts as nothing in an update. -/
def FieldValue.isAbsent : FieldValue → Bool
  | .singular _ => false
  | .option value => value.isNone
  | .list values => values.isEmpty
  | .map entries => entries.isEmpty

mutual

/-- The greatest number of records inside one another. -/
def Value.depth : Value → Nat
  | .atom _ => 0
  | .record fields => Record.depth fields + 1

def FieldValue.depth : FieldValue → Nat
  | .singular value => value.depth
  | .option none => 0
  | .option (some value) => value.depth
  | .list values => Value.depthOf values
  | .map entries => Value.depthOfEntries entries

def Record.depth : List (UInt32 × FieldValue) → Nat
  | [] => 0
  | (_, value) :: rest => max value.depth (Record.depth rest)

def Value.depthOf : List Value → Nat
  | [] => 0
  | value :: rest => max value.depth (Value.depthOf rest)

def Value.depthOfEntries : List (Value × Value) → Nat
  | [] => 0
  | (key, value) :: rest => max (max key.depth value.depth) (Value.depthOfEntries rest)

end

mutual

/-- Equality with floating-point numbers compared arithmetically and entries in order. -/
def Value.same : Value → Value → Bool
  | .atom left, .atom right => left.same right
  | .record left, .record right => Record.same left right
  | _, _ => false

def FieldValue.same : FieldValue → FieldValue → Bool
  | .singular left, .singular right => left.same right
  | .option none, .option none => true
  | .option (some left), .option (some right) => left.same right
  | .list left, .list right => Value.sameList left right
  | .map left, .map right => Value.sameEntryList left right
  | _, _ => false

def Record.same : List (UInt32 × FieldValue) → List (UInt32 × FieldValue) → Bool
  | [], [] => true
  | (leftId, left) :: lefts, (rightId, right) :: rights =>
    leftId == rightId && left.same right && Record.same lefts rights
  | _, _ => false

def Value.sameList : List Value → List Value → Bool
  | [], [] => true
  | left :: lefts, right :: rights => left.same right && Value.sameList lefts rights
  | _, _ => false

def Value.sameEntryList : List (Value × Value) → List (Value × Value) → Bool
  | [], [] => true
  | (leftKey, left) :: lefts, (rightKey, right) :: rights =>
    leftKey.same rightKey && left.same right && Value.sameEntryList lefts rights
  | _, _ => false

end

end SchemaLoom
