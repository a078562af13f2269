import SchemaLoom.Code.Plan
import SchemaLoom.Exchange.Schema

/-!
# Resolved declarations and plans as documents
-/

namespace SchemaLoom

open Wire (Kind)

/-! ## Resolved declarations -/

def ResolvedEnum.toJson (decl : ResolvedEnum) : Json :=
  .object
    [("qualified", .string decl.qualified), ("name", .string decl.name),
      ("outer", .orNull .string decl.outer), ("source", decl.source.toJson),
      ("position", decl.position.toJson),
      ("values", .array (decl.values.map EnumValue.toJson)),
      ("default", .orNull (fun value => .string value.name) decl.default?),
      ("annotations", notesJson decl.annotations)]

def Element.toJson (element : Element) : Json :=
  .array [.string element.text, .orNull .string element.named?]

def ResolvedField.toJson (field : ResolvedField) : Json :=
  .object
    [("name", .string field.name), ("id", .word field.id),
      ("shape", .string (field.shape.text Element.text)),
      ("kinds", .array (field.shape.elements.map Element.toJson)),
      ("collection", .bool field.shape.isCollection), ("recursive", .bool field.recursive),
      ("transient", .bool field.transient), ("annotations", notesJson field.annotations)]

def Warning.toJson (warning : Warning) : Json :=
  .texts [warning.typeName, warning.field, warning.message]

/-- A resolved type, given the documents of the types nested in it. -/
def ResolvedType.toJson (type : ResolvedType) (nested : List Json) : Json :=
  .object
    [("qualified", .string type.qualified), ("name", .string type.name),
      ("outer", .orNull .string type.outer), ("component_id", .orNull .word type.componentId),
      ("is_component", .bool type.isComponent), ("restricted", .bool type.restricted),
      ("command_payload", .bool type.commandPayload), ("source", type.source.toJson),
      ("position", type.position.toJson),
      ("fields", .array (type.fields.map ResolvedField.toJson)), ("omitted", .texts type.omitted),
      ("nested_types", .array nested),
      ("nested_enums", .array (type.nestedEnums.map ResolvedEnum.toJson)),
      ("annotations", notesJson type.annotations),
      ("events", .array (type.events.map Event.toJson)),
      ("commands", .array (type.commands.map Command.toJson)),
      ("warnings", .array (type.warnings.map Warning.toJson))]

mutual

def Resolved.toJson : Resolved → Json
  | .node type nested => type.toJson (Resolved.listToJson nested)

def Resolved.listToJson : List Resolved → List Json
  | [] => []
  | tree :: rest => tree.toJson :: Resolved.listToJson rest

end

/-! ## Plans -/

/-- The names of the operations on a kind. -/
def Wire.Kind.opsJson (kind : Kind) : Json :=
  .texts [kind.countOp, kind.getOp, kind.indexOp, kind.addOp]

def Wire.Kind.text : Kind → String
  | .scalar kind => "Scalar(" ++ kind.name ++ ")"
  | .enumeration => "Enum"
  | .object => "Object"

def Element.kindJson : Element → Json
  | .scalar kind =>
    .array [.string "scalar", .string kind.name, .string kind.stem, .bool kind.canBeNull,
      .bool kind.isCopy]
  | .enumeration name => .texts ["enum", name]
  | .named name => .texts ["named", name]

def Element.planJson (element : Element) : Json :=
  .object
    [("kind", element.kindJson), ("wire", .string element.wire.text),
      ("ops", element.wire.opsJson), ("borrowed", .bool element.isBorrowed)]

def Materialization.text : Materialization → String
  | .persistent => "Persistent"
  | .growable => "Growable"

def OptionForm.text : OptionForm → String
  | .nullReference => "NullReference"
  | .presence => "Presence"

def EmptyForm.text : EmptyForm → String
  | .zero => "Zero"
  | .absent => "Absent"
  | .emptyCollection => "EmptyCollection"

/-- The shape of a field and how it is held. -/
def ResolvedField.classJson (field : ResolvedField) : Json :=
  let held := Json.string field.materialization.text
  match field.shape with
  | .singular element => .array [.string "singular", element.planJson]
  | .option element =>
    .array [.string "option", element.planJson, .string element.optionForm.text]
  | .list element => .array [.string "list", element.planJson, held]
  | .map key value => .array [.string "map", key.planJson, value.planJson, held]

def ResolvedField.planJson (field : ResolvedField) : Json :=
  .object
    [("name", .string field.name), ("id", .word field.id), ("class", field.classJson),
      ("empty", .string field.shape.emptyForm.text), ("field_ops", field.wire.opsJson)]

def ResolvedType.planJson (type : ResolvedType) : Json :=
  .object
    [("qualified", .string type.qualified), ("component_id", .orNull .word type.componentId),
      ("supports_updates", .bool type.supportsUpdates),
      ("fields", .array (type.fields.map ResolvedField.planJson))]

end SchemaLoom
