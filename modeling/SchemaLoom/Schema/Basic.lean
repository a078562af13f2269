import SchemaLoom.Json.Basic
import SchemaLoom.Schema.Kind

/-!
# Declarations

A bundle is a list of schema files, and a file declares types, enumerations and components under
qualified names.  References between declarations are by name; nothing here is resolved.
-/

namespace SchemaLoom

/-- The part of a dotted name after its last dot. -/
def shortName (qualified : String) : String :=
  String.ofList (qualified.toList.reverse.takeWhile (· != '.')).reverse

/-- A place in a schema file; line and column zero when it is not known. -/
structure Position where
  line : UInt32
  column : UInt32
  deriving DecidableEq, Inhabited

def Position.unknown : Position := ⟨0, 0⟩

/-! ## Annotations -/

instance : BEq Json := ⟨Json.same⟩

structure AnnotationField where
  name : String
  position : Position
  value : Json
  deriving BEq, Inhabited

/-- An annotation is carried along and looked up by the name of its type. -/
structure Annotation where
  position : Position
  typeName : String
  fields : List AnnotationField
  deriving BEq, Inhabited

/-- The value of the first field of the given name. -/
def Annotation.value? (note : Annotation) (field : String) : Option Json :=
  (note.fields.find? (·.name == field)).map (·.value)

/-- The first annotation of the given type. -/
def findAnnotation? (annotations : List Annotation) (typeName : String) : Option Annotation :=
  annotations.find? (·.typeName == typeName)

def hasAnnotation (annotations : List Annotation) (typeName : String) : Bool :=
  annotations.any (·.typeName == typeName)

/-! ## Shapes and references -/

/-- How many elements a field holds: exactly one, at most one, any number, or keyed pairs. -/
inductive Shape (α : Type) where
  | singular (element : α)
  | option (element : α)
  | list (element : α)
  | map (key value : α)
  deriving DecidableEq, Inhabited

namespace Shape

variable {α β : Type}

/-- The elements a shape is built from, a key before its value. -/
def elements : Shape α → List α
  | singular element => [element]
  | option element => [element]
  | list element => [element]
  | map key value => [key, value]

def isCollection : Shape α → Bool
  | singular _ => false
  | option _ => false
  | list _ => true
  | map _ _ => true

/-- Replace every element, if each has a replacement. -/
def traverse? (replace : α → Option β) : Shape α → Option (Shape β)
  | singular element => (replace element).map singular
  | option element => (replace element).map option
  | list element => (replace element).map list
  | map key value =>
    match replace key, replace value with
    | some key, some value => some (map key value)
    | _, _ => none

/-- The text of a shape, given the text of its elements. -/
def text (element : α → String) : Shape α → String
  | singular one => "singular<" ++ element one ++ ">"
  | option one => "option<" ++ element one ++ ">"
  | list one => "list<" ++ element one ++ ">"
  | map key value => "map<" ++ element key ++ ", " ++ element value ++ ">"

end Shape

/-- What an element of a field refers to. -/
inductive Reference where
  | primitive (kind : Primitive)
  | enumeration (name : String)
  | named (name : String)
  deriving DecidableEq, Inhabited

namespace Reference

def scalar (kind : ScalarKind) : Reference :=
  primitive (.scalar kind)

def text : Reference → String
  | primitive kind => kind.name
  | enumeration name => "enum " ++ name
  | named name => name

/-- The type that is referred to by name. -/
def named? : Reference → Option String
  | named name => some name
  | _ => none

def isEntity : Reference → Bool
  | primitive .entity => true
  | _ => false

end Reference

/-! ## Fields -/

structure Field where
  name : String
  id : UInt32
  shape : Shape Reference
  transient : Bool := false
  annotations : List Annotation := []
  position : Position := .unknown
  deriving BEq, Inhabited

namespace Field

def singular (name : String) (id : UInt32) (element : Reference) : Field :=
  { name, id, shape := .singular element }

def option (name : String) (id : UInt32) (element : Reference) : Field :=
  { name, id, shape := .option element }

def list (name : String) (id : UInt32) (element : Reference) : Field :=
  { name, id, shape := .list element }

def map (name : String) (id : UInt32) (key value : Reference) : Field :=
  { name, id, shape := .map key value }

def references (field : Field) : List Reference :=
  field.shape.elements

end Field

/-! ## Types, enumerations and components -/

structure TypeDecl where
  name : String
  qualified : String
  outer : Option String := none
  fields : List Field := []
  annotations : List Annotation := []
  position : Position := .unknown
  deriving BEq, Inhabited

structure EnumValue where
  name : String
  value : UInt32
  annotations : List Annotation := []
  position : Position := .unknown
  deriving BEq, Inhabited

/-- The value that stands for an enumeration nothing was written for: the one numbered zero if
there is one, else the first. -/
def EnumValue.default? (values : List EnumValue) : Option EnumValue :=
  (values.find? (·.value == 0)).or values.head?

structure EnumDecl where
  name : String
  qualified : String
  outer : Option String := none
  values : List EnumValue := []
  annotations : List Annotation := []
  position : Position := .unknown
  deriving BEq, Inhabited

structure Command where
  name : String
  index : UInt32
  request : String
  response : String
  annotations : List Annotation := []
  position : Position := .unknown
  deriving BEq, Inhabited

structure Event where
  name : String
  index : UInt32
  payload : String
  annotations : List Annotation := []
  position : Position := .unknown
  deriving BEq, Inhabited

/-- A component has fields of its own, or those of the type that is its data definition. -/
structure ComponentDecl where
  name : String
  qualified : String
  componentId : UInt32
  dataDefinition : Option String := none
  fields : List Field := []
  commands : List Command := []
  events : List Event := []
  annotations : List Annotation := []
  position : Position := .unknown
  deriving BEq, Inhabited

/-- A type named by its qualified name, with no outer type. -/
def TypeDecl.declare (qualified : String) (fields : List Field) : TypeDecl :=
  { name := shortName qualified, qualified, fields }

def TypeDecl.nestedIn (decl : TypeDecl) (outer : String) : TypeDecl :=
  { decl with outer := some outer }

def EnumDecl.declare (qualified : String) (values : List (String × UInt32)) : EnumDecl :=
  { name := shortName qualified, qualified,
    values := values.map fun (name, value) => { name, value } }

def EnumDecl.nestedIn (decl : EnumDecl) (outer : String) : EnumDecl :=
  { decl with outer := some outer }

def EnumDecl.default? (decl : EnumDecl) : Option EnumValue :=
  EnumValue.default? decl.values

/-- A component with fields of its own. -/
def ComponentDecl.declare (qualified : String) (componentId : UInt32) (fields : List Field) :
    ComponentDecl :=
  { name := shortName qualified, qualified, componentId, fields }

def ComponentDecl.withData (decl : ComponentDecl) (typeName : String) : ComponentDecl :=
  { decl with dataDefinition := some typeName }

def ComponentDecl.withCommand (decl : ComponentDecl) (name : String) (index : UInt32)
    (request response : String) : ComponentDecl :=
  { decl with commands := decl.commands ++ [{ name, index, request, response }] }

def ComponentDecl.withEvent (decl : ComponentDecl) (name : String) (index : UInt32)
    (payload : String) : ComponentDecl :=
  { decl with events := decl.events ++ [{ name, index, payload }] }

/-! ## Files and bundles -/

structure Package where
  name : String
  position : Position := .unknown
  deriving DecidableEq, Inhabited

structure Import where
  path : String
  position : Position := .unknown
  deriving DecidableEq, Inhabited

structure SchemaFile where
  path : String
  package : Package
  imports : List Import := []
  types : List TypeDecl := []
  enums : List EnumDecl := []
  components : List ComponentDecl := []
  deriving Inhabited

structure Bundle where
  files : List SchemaFile := []
  deriving Inhabited

/-- Where a declaration comes from. -/
structure SourceFile where
  path : String
  package : String
  deriving DecidableEq, Inhabited

def SchemaFile.source (file : SchemaFile) : SourceFile :=
  ⟨file.path, file.package.name⟩

end SchemaLoom
