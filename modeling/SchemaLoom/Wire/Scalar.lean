import SchemaLoom.Number.Binary
import SchemaLoom.Schema.Kind

/-!
# Scalars on the wire

A scalar is a value of one of the scalar kinds.  Kinds with the same range stay apart: a field read
as another kind than it was written with has no values.
-/

namespace SchemaLoom.Wire

open Number

inductive Scalar where
  | bool (value : Bool)
  | bytes (value : List UInt8)
  | double (value : Binary64)
  | entityId (value : Int64)
  | fixed32 (value : UInt32)
  | fixed64 (value : UInt64)
  | float (value : Binary32)
  | int32 (value : Int32)
  | int64 (value : Int64)
  | sfixed32 (value : Int32)
  | sfixed64 (value : Int64)
  | sint32 (value : Int32)
  | sint64 (value : Int64)
  | string (value : String)
  | uint32 (value : UInt32)
  | uint64 (value : UInt64)
  deriving DecidableEq, Inhabited

namespace Scalar

def kind : Scalar → ScalarKind
  | bool _ => .bool
  | bytes _ => .bytes
  | double _ => .double
  | entityId _ => .entityId
  | fixed32 _ => .fixed32
  | fixed64 _ => .fixed64
  | float _ => .float
  | int32 _ => .int32
  | int64 _ => .int64
  | sfixed32 _ => .sfixed32
  | sfixed64 _ => .sfixed64
  | sint32 _ => .sint32
  | sint64 _ => .sint64
  | string _ => .string
  | uint32 _ => .uint32
  | uint64 _ => .uint64

/-- The value a scalar of the kind has when nothing was written. -/
def zero : ScalarKind → Scalar
  | .bool => bool false
  | .bytes => bytes []
  | .double => double .zero
  | .entityId => entityId 0
  | .fixed32 => fixed32 0
  | .fixed64 => fixed64 0
  | .float => float .zero
  | .int32 => int32 0
  | .int64 => int64 0
  | .sfixed32 => sfixed32 0
  | .sfixed64 => sfixed64 0
  | .sint32 => sint32 0
  | .sint64 => sint64 0
  | .string => string ""
  | .uint32 => uint32 0
  | .uint64 => uint64 0

@[simp]
theorem kind_zero (kind : ScalarKind) : (zero kind).kind = kind := by
  cases kind <;> rfl

/-- Equality that compares floating-point numbers arithmetically. -/
def same : Scalar → Scalar → Bool
  | double left, double right => left.arithmeticEq right
  | float left, float right => left.arithmeticEq right
  | left, right => left == right

/-- Equality that takes all NaNs as one value and both zeros as one. -/
def alike : Scalar → Scalar → Bool
  | double left, double right => left.canonical == right.canonical
  | float left, float right => left.canonical == right.canonical
  | left, right => left == right

end Scalar

/-- The kinds of value an object can hold. -/
inductive Kind where
  | scalar (kind : ScalarKind)
  | enumeration
  | object
  deriving DecidableEq, Inhabited

namespace Kind

/-- Every kind, scalars first. -/
def all : List Kind :=
  ScalarKind.all.map scalar ++ [enumeration, object]

/-- The stem of the names of the operations on the kind. -/
def stem : Kind → String
  | scalar kind => kind.stem
  | enumeration => "enum"
  | object => "object"

end Kind

/-- A value that holds no others: a scalar or the number of an enumeration value. -/
inductive Atom where
  | scalar (value : Scalar)
  | enumeration (value : UInt32)
  deriving DecidableEq, Inhabited

namespace Atom

def kind : Atom → Kind
  | scalar value => .scalar value.kind
  | enumeration _ => .enumeration

def scalar? : Atom → Option Scalar
  | scalar value => some value
  | enumeration _ => none

def enumeration? : Atom → Option UInt32
  | scalar _ => none
  | enumeration value => some value

def same : Atom → Atom → Bool
  | scalar left, scalar right => left.same right
  | enumeration left, enumeration right => left == right
  | _, _ => false

def alike : Atom → Atom → Bool
  | scalar left, scalar right => left.alike right
  | enumeration left, enumeration right => left == right
  | _, _ => false

end Atom

end SchemaLoom.Wire
