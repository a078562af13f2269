import SchemaLoom.Record.Basic

/-!
# Structural equality

Two values are alike when they have the same shape and alike parts.  Floating-point numbers are
taken canonically, and the order of the entries of a map does not count.
-/

namespace SchemaLoom

mutual

def Value.alike : Value → Value → Bool
  | .atom left, .atom right => left.alike right
  | .record left, .record right => left.length == right.length && Record.covered left right
  | _, _ => false

def FieldValue.alike : FieldValue → FieldValue → Bool
  | .singular left, .singular right => left.alike right
  | .option none, .option none => true
  | .option (some left), .option (some right) => left.alike right
  | .list left, .list right => Value.alikeList left right
  | .map left, .map right => left.length == right.length && Value.coveredEntries left right
  | _, _ => false

/-- Every field of the first record has an alike field of the same number in the second. -/
def Record.covered : List (UInt32 × FieldValue) → List (UInt32 × FieldValue) → Bool
  | [], _ => true
  | (id, value) :: rest, other =>
    (match List.lookup id other with
      | some otherValue => value.alike otherValue
      | none => false) && Record.covered rest other

/-- Lists of the same length, alike place by place. -/
def Value.alikeList : List Value → List Value → Bool
  | [], [] => true
  | left :: lefts, right :: rights => left.alike right && Value.alikeList lefts rights
  | _, _ => false

/-- Every entry of the first map has an alike entry in the second. -/
def Value.coveredEntries : List (Value × Value) → List (Value × Value) → Bool
  | [], _ => true
  | (key, value) :: rest, others =>
    (others.any fun other => key.alike other.1 && value.alike other.2) &&
      Value.coveredEntries rest others

end

/-- Records with the same numbers and alike values. -/
def Record.alike (left right : Record) : Bool :=
  Value.alike (.record left) (.record right)

end SchemaLoom
