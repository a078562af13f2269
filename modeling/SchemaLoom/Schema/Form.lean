import SchemaLoom.Json.Form
import SchemaLoom.Json.Reader
import SchemaLoom.Schema.Basic

/-!
# Reading a bundle

The forms of all parts of a bundle.  A field must say exactly one shape and a reference exactly one
target; both are checked once the object that holds them has been read.
-/

namespace SchemaLoom

open Form

namespace Form

def position : Form Position :=
  record "SourceReference" [.required "line" word, .required "column" word]
    fun (line, column, ()) => ⟨line, column⟩

/-- The optional place of a part. -/
def positionMember : Member :=
  .defaulting "sourceReference" position .unknown

/-- A list that may be left out. -/
def listMember {α : Type} (key : String) (item : Form α) : Member :=
  .defaulting key (listOf item) []

def annotationField : Form AnnotationField :=
  record "AnnotationField" [.required "name" text, positionMember, .required "value" anything]
    fun (name, position, value, ()) => { name, position, value }

def annotationContent : Form (String × List AnnotationField) :=
  record "AnnotationValue" [.required "type" text, listMember "fields" annotationField]
    fun (typeName, fields, ()) => (typeName, fields)

def annotation : Form Annotation :=
  record "Annotation" [positionMember, .required "typeValue" annotationContent]
    fun (position, (typeName, fields), ()) => { position, typeName, fields }

def annotationsMember : Member :=
  listMember "annotations" annotation

/-- The one target that is set. -/
def referenceOf : Option Primitive → Option String → Option String → Except Fault Reference
  | some kind, none, none => .ok (.primitive kind)
  | none, some name, none => .ok (.enumeration name)
  | none, none, some name => .ok (.named name)
  | none, none, none => .error .noReference
  | _, _, _ => .error .severalReferences

def reference : Form Reference :=
  checked "RawTypeReference"
    [.defaulting "primitive" (optional (choice Primitive.choices)) none,
      .defaulting "enum" (optional text) none, .defaulting "type" (optional text) none]
    fun (primitive, enumeration, named, ()) => referenceOf primitive enumeration named

def singularShape : Form Reference :=
  record "RawSingular" [.required "type" reference] fun (element, ()) => element

def innerShape : Form Reference :=
  record "RawInner" [.required "innerType" reference] fun (element, ()) => element

def mapShape : Form (Reference × Reference) :=
  record "RawMap" [.required "keyType" reference, .required "valueType" reference]
    fun (key, value, ()) => (key, value)

/-- The one shape that is set. -/
def shapeOf (field : String) : Option Reference → Option Reference → Option Reference →
    Option (Reference × Reference) → Except Fault (Shape Reference)
  | some element, none, none, none => .ok (.singular element)
  | none, some element, none, none => .ok (.option element)
  | none, none, some element, none => .ok (.list element)
  | none, none, none, some (key, value) => .ok (.map key value)
  | none, none, none, none => .error (.noShape field)
  | _, _, _, _ => .error (.severalShapes field)

def field : Form Field :=
  checked "RawFieldDefinition"
    [.required "name" text, .required "fieldId" word,
      .defaulting "singularType" (optional singularShape) none,
      .defaulting "optionType" (optional innerShape) none,
      .defaulting "listType" (optional innerShape) none,
      .defaulting "mapType" (optional mapShape) none,
      .defaulting "transient" flag false, annotationsMember, positionMember]
    fun (name, id, singular, option, list, map, transient, annotations, position, ()) =>
      (shapeOf name singular option list map).map fun shape =>
        { name, id, shape, transient, annotations, position }

def typeDecl : Form TypeDecl :=
  record "TypeDefinition"
    [.required "name" text, .required "qualifiedName" text,
      .defaulting "outerType" nonemptyText none, listMember "fields" field, annotationsMember,
      positionMember]
    fun (name, qualified, outer, fields, annotations, position, ()) =>
      { name, qualified, outer, fields, annotations, position }

def enumValue : Form EnumValue :=
  record "EnumValueDefinition"
    [.required "name" text, .required "value" word, annotationsMember, positionMember]
    fun (name, value, annotations, position, ()) => { name, value, annotations, position }

def enumDecl : Form EnumDecl :=
  record "EnumDefinition"
    [.required "name" text, .required "qualifiedName" text,
      .defaulting "outerType" nonemptyText none, listMember "values" enumValue, annotationsMember,
      positionMember]
    fun (name, qualified, outer, values, annotations, position, ()) =>
      { name, qualified, outer, values, annotations, position }

def command : Form Command :=
  record "CommandDefinition"
    [.required "name" text, .required "commandIndex" word, .required "requestType" text,
      .required "responseType" text, annotationsMember, positionMember]
    fun (name, index, request, response, annotations, position, ()) =>
      { name, index, request, response, annotations, position }

def event : Form Event :=
  record "EventDefinition"
    [.required "name" text, .required "eventIndex" word, .required "type" text, annotationsMember,
      positionMember]
    fun (name, index, payload, annotations, position, ()) =>
      { name, index, payload, annotations, position }

def componentDecl : Form ComponentDecl :=
  record "ComponentDefinition"
    [.required "name" text, .required "qualifiedName" text, .required "componentId" word,
      .defaulting "dataDefinition" nonemptyText none, listMember "fields" field,
      listMember "commands" command, listMember "events" event, annotationsMember, positionMember]
    fun (name, qualified, componentId, dataDefinition, fields, commands, events, annotations,
        position, ()) =>
      { name, qualified, componentId, dataDefinition, fields, commands, events, annotations,
        position }

def package : Form Package :=
  record "Package" [.required "name" text, positionMember]
    fun (name, position, ()) => { name, position }

def importedFile : Form Import :=
  record "Import" [.required "path" text, positionMember]
    fun (path, position, ()) => { path, position }

def schemaFile : Form SchemaFile :=
  record "SchemaFile"
    [.required "canonicalPath" text, .required "package" package,
      listMember "imports" importedFile, listMember "types" typeDecl, listMember "enums" enumDecl,
      listMember "components" componentDecl]
    fun (path, package, imports, types, enums, components, ()) =>
      { path, package, imports, types, enums, components }

def bundle : Form Bundle :=
  record "SchemaBundle" [listMember "schemaFiles" schemaFile] fun (files, ()) => { files }

end Form

/-- The value a text holds under a form; text that is no document is malformed. -/
def Form.read {α : Type} (form : Form α) (text : String) : Except Fault α :=
  match Json.parse? text with
  | some json => form json
  | none => .error .malformed

/-- The bundle a text holds. -/
def Bundle.parse (text : String) : Except Fault Bundle :=
  Form.bundle.read text

end SchemaLoom
