import SchemaLoom.Wire.Scalar

/-!
# Objects and updates on the wire

An object is a log of values under field numbers.  Reading a field with a kind sees the values of
that number and kind, in the order in which they were written; the last one counts where one value
is wanted, and where there is none the kind's zero or the empty object stands in.
-/

namespace SchemaLoom.Wire

/-- The greatest number of values of one field that a reader is told of. -/
def greatestCount : Nat := 0xFFFFFFFF

inductive Object where
  | mk (atoms : List (UInt32 × Atom)) (objects : List (UInt32 × Object))
  deriving Inhabited

namespace Object

def atoms : Object → List (UInt32 × Atom)
  | mk atoms _ => atoms

def objects : Object → List (UInt32 × Object)
  | mk _ objects => objects

def empty : Object := mk [] []

def isEmpty (object : Object) : Bool :=
  object.atoms.isEmpty && object.objects.isEmpty

def addAtom (object : Object) (field : UInt32) (atom : Atom) : Object :=
  mk (object.atoms ++ [(field, atom)]) object.objects

def addScalar (object : Object) (field : UInt32) (value : Scalar) : Object :=
  object.addAtom field (.scalar value)

def addEnumeration (object : Object) (field : UInt32) (value : UInt32) : Object :=
  object.addAtom field (.enumeration value)

def addObject (object : Object) (field : UInt32) (value : Object) : Object :=
  mk object.atoms (object.objects ++ [(field, value)])

/-- The values of a field in a list of numbered values. -/
def valuesOf {α : Type} (field : UInt32) (values : List (UInt32 × α)) : List α :=
  (values.filter (·.1 == field)).map (·.2)

/-- The scalars of one kind written to a field. -/
def scalars (object : Object) (kind : ScalarKind) (field : UInt32) : List Scalar :=
  (valuesOf field object.atoms).filterMap fun atom => atom.scalar?.filter (·.kind == kind)

/-- The enumeration values written to a field. -/
def enumerations (object : Object) (field : UInt32) : List UInt32 :=
  (valuesOf field object.atoms).filterMap Atom.enumeration?

/-- The objects written to a field. -/
def nested (object : Object) (field : UInt32) : List Object :=
  valuesOf field object.objects

/-- How many values of a kind were written to a field. -/
def written (object : Object) (kind : Kind) (field : UInt32) : Nat :=
  match kind with
  | .scalar kind => (object.scalars kind field).length
  | .enumeration => (object.enumerations field).length
  | .object => (object.nested field).length

/-- The number of values of a kind at a field, as far as it is told. -/
def count (object : Object) (kind : Kind) (field : UInt32) : Nat :=
  min (object.written kind field) greatestCount

def lastScalar (object : Object) (kind : ScalarKind) (field : UInt32) : Scalar :=
  (object.scalars kind field).getLast?.getD (.zero kind)

def lastEnumeration (object : Object) (field : UInt32) : UInt32 :=
  (object.enumerations field).getLast?.getD 0

def lastObject (object : Object) (field : UInt32) : Object :=
  (object.nested field).getLast?.getD empty

def scalarAt (object : Object) (kind : ScalarKind) (field : UInt32) (position : Nat) : Scalar :=
  (object.scalars kind field)[position]?.getD (.zero kind)

def enumerationAt (object : Object) (field : UInt32) (position : Nat) : UInt32 :=
  (object.enumerations field)[position]?.getD 0

def objectAt (object : Object) (field : UInt32) (position : Nat) : Object :=
  (object.nested field)[position]?.getD empty

/-- Put a number at its place in an ascending list without repetitions. -/
def insertId (id : UInt32) : List UInt32 → List UInt32
  | [] => [id]
  | other :: rest =>
    if id = other then other :: rest
    else if id < other then id :: other :: rest
    else other :: insertId id rest

/-- The fields that hold some value, ascending. -/
def fieldIds (object : Object) : List UInt32 :=
  (object.atoms.map (·.1) ++ object.objects.map (·.1)).foldl (fun ids id => insertId id ids) []

mutual

/-- The greatest number of objects inside one another. -/
def depth : Object → Nat
  | mk _ objects => depthOf objects + 1

def depthOf : List (UInt32 × Object) → Nat
  | [] => 0
  | (_, object) :: rest => max object.depth (depthOf rest)

end

def sameAtoms : List (UInt32 × Atom) → List (UInt32 × Atom) → Bool
  | [], [] => true
  | (leftField, left) :: lefts, (rightField, right) :: rights =>
    leftField == rightField && left.same right && sameAtoms lefts rights
  | _, _ => false

mutual

/-- The same values in the same order, nested objects apart from the others. -/
def same : Object → Object → Bool
  | mk leftAtoms lefts, mk rightAtoms rights =>
    sameAtoms leftAtoms rightAtoms && sameObjects lefts rights

def sameObjects : List (UInt32 × Object) → List (UInt32 × Object) → Bool
  | [], [] => true
  | (leftField, left) :: lefts, (rightField, right) :: rights =>
    leftField == rightField && left.same right && sameObjects lefts rights
  | _, _ => false

end

end Object

/-- A change to a component: values for fields, events, and fields to be reset. -/
structure Update where
  fields : Object
  events : Object
  cleared : List UInt32
  deriving Inhabited

namespace Update

def empty : Update := ⟨.empty, .empty, []⟩

/-- Mark a field as cleared, once. -/
def clear (update : Update) (field : UInt32) : Update :=
  if update.cleared.contains field then update
  else { update with cleared := update.cleared ++ [field] }

def isCleared (update : Update) (field : UInt32) : Bool :=
  update.cleared.contains field

def same (left right : Update) : Bool :=
  left.fields.same right.fields && left.events.same right.events && left.cleared == right.cleared

end Update

end SchemaLoom.Wire
