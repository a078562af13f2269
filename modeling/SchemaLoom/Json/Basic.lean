import SchemaLoom.Number.Binary

/-!
# JSON documents

`Json` is a document as it is written: the members of an object keep their order, and a name may
occur twice.  `Json.settled` is the value such a document stands for where the last of several
members of one name counts and order does not.
-/

namespace SchemaLoom

open Number (Binary64)

/-- A number of a document: an integer that fits in 64 bits, or a binary number. -/
inductive Numeral where
  | integer (value : Int)
  | binary (value : Binary64)
  deriving DecidableEq, Inhabited

/-- Numbers of different sort always differ; binary numbers compare arithmetically. -/
def Numeral.same : Numeral → Numeral → Bool
  | .integer left, .integer right => left == right
  | .binary left, .binary right => left.arithmeticEq right
  | _, _ => false

inductive Json where
  | null
  | bool (value : Bool)
  | number (value : Numeral)
  | string (value : String)
  | array (items : List Json)
  | object (members : List (String × Json))
  deriving Inhabited

namespace Json

/-- Put a member at its place in an ascending list of members, replacing one of the same name. -/
def insertMember (key : String) (value : Json) :
    List (String × Json) → List (String × Json)
  | [] => [(key, value)]
  | (otherKey, other) :: rest =>
    if key = otherKey then (key, value) :: rest
    else if key < otherKey then (key, value) :: (otherKey, other) :: rest
    else (otherKey, other) :: insertMember key value rest

mutual

/-- Members in ascending order of their names, the last of each name only, at every depth. -/
def settled : Json → Json
  | .array items => .array (settledItems items)
  | .object members => .object (settledMembers members [])
  | other => other

def settledItems : List Json → List Json
  | [] => []
  | item :: rest => item.settled :: settledItems rest

def settledMembers : List (String × Json) → List (String × Json) → List (String × Json)
  | [], done => done
  | (key, value) :: rest, done => settledMembers rest (insertMember key value.settled done)

end

mutual

/-- Equality of settled documents. -/
def same : Json → Json → Bool
  | .null, .null => true
  | .bool left, .bool right => left == right
  | .number left, .number right => left.same right
  | .string left, .string right => left == right
  | .array left, .array right => sameItems left right
  | .object left, .object right => sameMembers left right
  | _, _ => false

def sameItems : List Json → List Json → Bool
  | [], [] => true
  | left :: lefts, right :: rights => left.same right && sameItems lefts rights
  | _, _ => false

def sameMembers : List (String × Json) → List (String × Json) → Bool
  | [], [] => true
  | (leftKey, left) :: lefts, (rightKey, right) :: rights =>
    leftKey == rightKey && left.same right && sameMembers lefts rights
  | _, _ => false

end

end Json

end SchemaLoom
