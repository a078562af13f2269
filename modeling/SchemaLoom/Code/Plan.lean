import SchemaLoom.Record.Codec

/-!
# Plans for fields

How generated code holds a field and which operations of wire objects it uses for it.
-/

namespace SchemaLoom

/-! ## Operations of wire objects -/

namespace Wire.Kind

def countOp (kind : Kind) : String := kind.stem ++ "_count"

def getOp (kind : Kind) : String := "get_" ++ kind.stem

def indexOp (kind : Kind) : String := "index_" ++ kind.stem

def addOp (kind : Kind) : String := "add_" ++ kind.stem

end Wire.Kind

/-! ## Forms of fields -/

/-- What a field holds when nothing was written for it. -/
inductive EmptyForm where
  | zero
  | absent
  | emptyCollection
  deriving DecidableEq, Inhabited

def Shape.emptyForm {α : Type} : Shape α → EmptyForm
  | .singular _ => .zero
  | .option _ => .absent
  | .list _ => .emptyCollection
  | .map _ _ => .emptyCollection

/-- How a collection is held: shared and immutable, or growable where a type recurses through it. -/
inductive Materialization where
  | persistent
  | growable
  deriving DecidableEq, Inhabited

def ResolvedField.materialization (field : ResolvedField) : Materialization :=
  if field.recursive then .growable else .persistent

/-- How an optional element is held: texts and byte strings by a reference that may be null, others
with a mark of presence. -/
inductive OptionForm where
  | nullReference
  | presence
  deriving DecidableEq, Inhabited

namespace Element

def optionForm : Element → OptionForm
  | scalar kind => if kind.canBeNull then .nullReference else .presence
  | _ => .presence

/-- Texts, byte strings and values of named types are passed by reference. -/
def isBorrowed : Element → Bool
  | scalar kind => !kind.isCopy
  | enumeration _ => false
  | named _ => true

end Element

end SchemaLoom
