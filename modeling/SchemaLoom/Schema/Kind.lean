/-!
# Primitive and scalar kinds

A schema declares fields of primitive kinds.  All of them but the reserved entity kind travel on
the wire; those are the scalar kinds.
-/

namespace SchemaLoom

/-- The kinds of scalar that travel on the wire. -/
inductive ScalarKind where
  | bool
  | bytes
  | double
  | entityId
  | fixed32
  | fixed64
  | float
  | int32
  | int64
  | sfixed32
  | sfixed64
  | sint32
  | sint64
  | string
  | uint32
  | uint64
  deriving DecidableEq, Inhabited

namespace ScalarKind

def all : List ScalarKind :=
  [bool, bytes, double, entityId, fixed32, fixed64, float, int32, int64, sfixed32, sfixed64,
    sint32, sint64, string, uint32, uint64]

theorem mem_all (kind : ScalarKind) : kind ∈ all := by
  cases kind <;> decide

/-- The name a schema gives the kind. -/
def name : ScalarKind → String
  | bool => "Bool"
  | bytes => "Bytes"
  | double => "Double"
  | entityId => "EntityId"
  | fixed32 => "Fixed32"
  | fixed64 => "Fixed64"
  | float => "Float"
  | int32 => "Int32"
  | int64 => "Int64"
  | sfixed32 => "Sfixed32"
  | sfixed64 => "Sfixed64"
  | sint32 => "Sint32"
  | sint64 => "Sint64"
  | string => "String"
  | uint32 => "Uint32"
  | uint64 => "Uint64"

/-- The stem of the names of the wire operations on the kind. -/
def stem : ScalarKind → String
  | bool => "bool"
  | bytes => "bytes"
  | double => "double"
  | entityId => "entity_id"
  | fixed32 => "fixed32"
  | fixed64 => "fixed64"
  | float => "float"
  | int32 => "int32"
  | int64 => "int64"
  | sfixed32 => "sfixed32"
  | sfixed64 => "sfixed64"
  | sint32 => "sint32"
  | sint64 => "sint64"
  | string => "string"
  | uint32 => "uint32"
  | uint64 => "uint64"

/-- Texts and byte strings have a representation that can itself be absent. -/
def canBeNull : ScalarKind → Bool
  | string => true
  | bytes => true
  | _ => false

/-- Values of the other kinds are passed by copy. -/
def isCopy (kind : ScalarKind) : Bool :=
  !kind.canBeNull

end ScalarKind

/-- The primitive kinds of a schema. -/
inductive Primitive where
  | scalar (kind : ScalarKind)
  | entity
  deriving DecidableEq, Inhabited

namespace Primitive

def name : Primitive → String
  | scalar kind => kind.name
  | entity => "Entity"

/-- The scalar kind of a primitive that travels on the wire. -/
def scalar? : Primitive → Option ScalarKind
  | scalar kind => some kind
  | entity => none

/-- Every primitive, in the order in which a schema lists them. -/
def all : List Primitive :=
  [scalar .int32, scalar .int64, scalar .uint32, scalar .uint64, scalar .sint32, scalar .sint64,
    scalar .fixed32, scalar .fixed64, scalar .sfixed32, scalar .sfixed64, scalar .bool,
    scalar .float, scalar .double, scalar .string, scalar .entityId, scalar .bytes, entity]

theorem mem_all (primitive : Primitive) : primitive ∈ all := by
  cases primitive with
  | entity => decide
  | scalar kind => cases kind <;> decide

/-- Every primitive with its name. -/
def choices : List (String × Primitive) :=
  all.map fun primitive => (primitive.name, primitive)

end Primitive

end SchemaLoom
