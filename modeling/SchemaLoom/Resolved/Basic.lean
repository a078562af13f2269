import SchemaLoom.Schema.Basic

/-!
# Resolved declarations

A resolved type has the fields that are kept, each with a shape over elements that travel on the
wire, and knows what was dropped and why.  `Resolved` is a resolved type together with the resolved
types nested in it.
-/

namespace SchemaLoom

/-- What a kept field holds: a scalar, a value of an enumeration or a value of a named type. -/
inductive Element where
  | scalar (kind : ScalarKind)
  | enumeration (name : String)
  | named (name : String)
  deriving DecidableEq, Inhabited

namespace Element

def text : Element → String
  | scalar kind => kind.name
  | enumeration name => "enum " ++ name
  | named name => name

def named? : Element → Option String
  | named name => some name
  | _ => none

/-- The element of a reference; the entity kind has none. -/
def ofReference? : Reference → Option Element
  | .primitive kind => kind.scalar?.map scalar
  | .enumeration name => some (enumeration name)
  | .named name => some (named name)

end Element

structure ResolvedField where
  name : String
  id : UInt32
  shape : Shape Element
  /-- Kept although its type can be reached from it. -/
  recursive : Bool
  transient : Bool
  annotations : List Annotation
  deriving BEq, Inhabited

structure ResolvedEnum where
  qualified : String
  name : String
  outer : Option String
  source : SourceFile
  position : Position
  values : List EnumValue
  annotations : List Annotation
  deriving BEq, Inhabited

def ResolvedEnum.default? (decl : ResolvedEnum) : Option EnumValue :=
  EnumValue.default? decl.values

/-- A field that resolution has dropped. -/
inductive Warning where
  | entityField (typeName field : String)
  | recursiveField (typeName field : String)
  deriving DecidableEq, Inhabited

namespace Warning

def typeName : Warning → String
  | entityField typeName _ => typeName
  | recursiveField typeName _ => typeName

def field : Warning → String
  | entityField _ field => field
  | recursiveField _ field => field

def message : Warning → String
  | entityField typeName field =>
    "field '" ++ typeName ++ "." ++ field ++ "' is the Entity type, which is currently unsupported."
  | recursiveField typeName field =>
    "field '" ++ typeName ++ "." ++ field ++ "' is recursive and was omitted."

end Warning

/-- A type or component with its fields filtered. -/
structure ResolvedType where
  qualified : String
  name : String
  outer : Option String
  componentId : Option UInt32
  restricted : Bool
  /-- Whether some command carries it. -/
  commandPayload : Bool
  source : SourceFile
  position : Position
  fields : List ResolvedField
  /-- The names of the recursive fields that were dropped. -/
  omitted : List String
  nestedEnums : List ResolvedEnum
  annotations : List Annotation
  events : List Event
  commands : List Command
  warnings : List Warning
  deriving BEq, Inhabited

namespace ResolvedType

def isComponent (type : ResolvedType) : Bool :=
  type.componentId.isSome

/-- Components outside the system can be updated. -/
def supportsUpdates (type : ResolvedType) : Bool :=
  type.isComponent && !type.restricted

def field? (type : ResolvedType) (name : String) : Option ResolvedField :=
  type.fields.find? (·.name == name)

def fieldById? (type : ResolvedType) (id : UInt32) : Option ResolvedField :=
  type.fields.find? (·.id == id)

def event? (type : ResolvedType) (name : String) : Option Event :=
  type.events.find? (·.name == name)

end ResolvedType

/-- A resolved type and the resolved types nested in it. -/
inductive Resolved where
  | node (type : ResolvedType) (nested : List Resolved)
  deriving Inhabited

namespace Resolved

def type : Resolved → ResolvedType
  | node type _ => type

def nested : Resolved → List Resolved
  | node _ nested => nested

mutual

/-- The type itself and all nested ones. -/
def all : Resolved → List ResolvedType
  | node type nested => type :: allOf nested

def allOf : List Resolved → List ResolvedType
  | [] => []
  | tree :: rest => tree.all ++ allOf rest

end

mutual

def same : Resolved → Resolved → Bool
  | node left lefts, node right rights => left == right && sameList lefts rights

def sameList : List Resolved → List Resolved → Bool
  | [], [] => true
  | left :: lefts, right :: rights => left.same right && sameList lefts rights
  | _, _ => false

end

end Resolved

/-- What keeps a declaration from being resolved. -/
inductive ResolveError where
  | unknownDeclaration (name : String)
  | unknownType (referrer name : String)
  | unknownEnum (referrer name : String)
  | duplicateFieldId (typeName : String) (id : UInt32) (first second : String)
  | nestingCycle (name : String)
  | emptyEnum (name : String)
  | duplicateEnumValue (name : String) (value : UInt32)
  deriving DecidableEq, Inhabited

def ResolveError.message : ResolveError → String
  | unknownDeclaration name => "unknown declaration '" ++ name ++ "'"
  | unknownType referrer name => "'" ++ referrer ++ "' references unknown type '" ++ name ++ "'"
  | unknownEnum referrer name => "'" ++ referrer ++ "' references unknown enum '" ++ name ++ "'"
  | duplicateFieldId typeName id first second =>
    "fields '" ++ first ++ "' and '" ++ second ++ "' of '" ++ typeName ++ "' share field id " ++
      Nat.repr id.toNat
  | nestingCycle name => "declaration nesting cycle through '" ++ name ++ "'"
  | emptyEnum name => "enum '" ++ name ++ "' declares no values"
  | duplicateEnumValue name value =>
    "enum '" ++ name ++ "' declares value " ++ Nat.repr value.toNat ++ " more than once"

end SchemaLoom
