import SchemaLoom.Json.Access
import SchemaLoom.Schema.Basic

/-!
# Declarations as documents

A view of a bundle in which every member is shown, also those that were left out when it was
written.
-/

namespace SchemaLoom

def Position.toJson (position : Position) : Json :=
  .array [.word position.line, .word position.column]

/-- The annotations of a declaration. -/
def notesJson (annotations : List Annotation) : Json :=
  .array (annotations.map fun note =>
    .object
      [("type", .string note.typeName), ("position", note.position.toJson),
        ("fields", .array (note.fields.map fun field =>
          .array [.string field.name, field.position.toJson, field.value]))])

def Reference.toJson (reference : Reference) : Json :=
  .array [.string reference.text, .orNull .string reference.named?, .bool reference.isEntity]

def Field.toJson (field : Field) : Json :=
  .object
    [("name", .string field.name), ("id", .word field.id),
      ("shape", .string (field.shape.text Reference.text)),
      ("references", .array (field.references.map Reference.toJson)),
      ("transient", .bool field.transient), ("annotations", notesJson field.annotations),
      ("position", field.position.toJson)]

def EnumValue.toJson (value : EnumValue) : Json :=
  .array [.string value.name, .word value.value, value.position.toJson,
    notesJson value.annotations]

def Command.toJson (command : Command) : Json :=
  .array [.string command.name, .word command.index, .string command.request,
    .string command.response, command.position.toJson, notesJson command.annotations]

def Event.toJson (event : Event) : Json :=
  .array [.string event.name, .word event.index, .string event.payload, event.position.toJson,
    notesJson event.annotations]

def TypeDecl.toJson (decl : TypeDecl) : Json :=
  .object
    [("name", .string decl.name), ("qualified", .string decl.qualified),
      ("outer", .orNull .string decl.outer), ("fields", .array (decl.fields.map Field.toJson)),
      ("annotations", notesJson decl.annotations), ("position", decl.position.toJson)]

def EnumDecl.toJson (decl : EnumDecl) : Json :=
  .object
    [("name", .string decl.name), ("qualified", .string decl.qualified),
      ("outer", .orNull .string decl.outer),
      ("values", .array (decl.values.map EnumValue.toJson)),
      ("default", .orNull (fun value => .string value.name) decl.default?),
      ("annotations", notesJson decl.annotations), ("position", decl.position.toJson)]

def ComponentDecl.toJson (decl : ComponentDecl) : Json :=
  .object
    [("name", .string decl.name), ("qualified", .string decl.qualified),
      ("component_id", .word decl.componentId),
      ("data_definition", .orNull .string decl.dataDefinition),
      ("fields", .array (decl.fields.map Field.toJson)),
      ("commands", .array (decl.commands.map Command.toJson)),
      ("events", .array (decl.events.map Event.toJson)),
      ("annotations", notesJson decl.annotations), ("position", decl.position.toJson)]

def SchemaFile.toJson (file : SchemaFile) : Json :=
  .object
    [("path", .string file.path),
      ("package", .array [.string file.package.name, file.package.position.toJson]),
      ("imports", .array (file.imports.map fun entry =>
        .array [.string entry.path, entry.position.toJson])),
      ("types", .array (file.types.map TypeDecl.toJson)),
      ("enums", .array (file.enums.map EnumDecl.toJson)),
      ("components", .array (file.components.map ComponentDecl.toJson))]

def Bundle.toJson (bundle : Bundle) : Json :=
  .array (bundle.files.map SchemaFile.toJson)

def SourceFile.toJson (source : SourceFile) : Json :=
  .texts [source.path, source.package]

end SchemaLoom
