import SchemaLoom.Code.Phrase

/-!
# The code of a type

A structure with its field numbers, its wire codec, and structural equality and hashing.
-/

namespace SchemaLoom

open Code Phrase

/-- The comment that names the origin of an item. -/
def originDoc (source : SourceFile) (position : Position) : String :=
  " Generated from " ++ source.path ++ "(" ++ Nat.repr position.line.toNat ++ "," ++
    Nat.repr position.column.toNat ++ ")"

def docComment (text : String) : Code :=
  marker (ofText "doc =" ++ literal text)

/-- The public fields of a structure, with their types. -/
def publicFields (members : List (Ident × Code)) : Code :=
  terminated (members.map fun member => ["pub", member.1.text, ":"] ++ member.2)

/-- The variants of an enumeration, with their numbers. -/
def numberedVariants (variants : List (Ident × UInt32)) : Code :=
  terminated (variants.map fun variant => [variant.1.text, "="] ++ number variant.2)

namespace FieldCode

/-- The constant of the field's number, inside its type. -/
def id (field : FieldCode) : Code :=
  ["Self", "::", field.idConst.text]

/-- The field of a value. -/
def ofValue (field : FieldCode) (value : String) : Code :=
  [value, ".", field.ident.text]

end FieldCode

namespace TypeCode

/-- An item of the supporting library. -/
def lib (code : TypeCode) (name : String) : Code :=
  item code.runtime name

def useLine (code : TypeCode) : Code :=
  marker ("allow" :: paren ["unused_imports"]) ++ ["use"] ++ code.runtime ++ ["::"] ++
    brace (ofText "SchemaObject as _ , SchemaUpdate as _") ++ [";"]

def docs (code : TypeCode) : List String :=
  originDoc code.type.source code.type.position ::
    if code.type.omitted.isEmpty then []
    else "" :: code.type.omitted.map fun name => " Recursive field `" ++ name ++ "` omitted."

/-- The fields of the structure, with their types. -/
def members (code : TypeCode) : List (Ident × Code) :=
  code.fields.map fun field => (field.ident, fieldType code.runtime field)

def declaration (code : TypeCode) : Code :=
  code.docs.flatMap docComment ++ marker ("derive" :: paren (ofText "Clone , Debug , Default")) ++
    ["pub", "struct", code.ident.text] ++ brace (publicFields code.members)

/-! ## Inherent items -/

def idConstants (code : TypeCode) : Code :=
  code.fields.flatMap fun field =>
    ["pub", "const", field.idConst.text, ":"] ++ code.lib "FieldId" ++ ["="] ++
      number field.field.id ++ [";"]

def constructor (code : TypeCode) : Code :=
  marker ("allow" :: paren (ofText "clippy :: too_many_arguments")) ++ mustUse ++
    ofText "pub fn new" ++
    paren (listed (code.fields.map fun field =>
      [field.ident.text, ":"] ++ fieldType code.runtime field)) ++
    ofText "-> Self" ++
    brace ("Self" :: brace (listed (code.fields.map fun field => [field.ident.text])))

/-- A reference to the parameter `value` of an updater. -/
def parameterRef (element : Element) : Code :=
  if element.isBorrowed then ["value"] else ofText "& value"

/-- The parameter and the body of an updater. -/
def updaterParts (code : TypeCode) (field : FieldCode) : Code × Code :=
  let target := ofText "let fields =" ++ call ["update"] "fields_mut" [] ++ [";"]
  let write := fun (element : Element) =>
    writeElement code.runtime element ["fields"] field.id (parameterRef element)
  let clear := call ["update"] "add_cleared_field" [field.id]
  match field.shape with
  | .singular element =>
    (parameterType code.runtime element, target ++ write element.element)
  | .option element =>
    (optionType (parameterType code.runtime element),
      ofText "match value" ++
        brace (present ["value"] ++ ["=>"] ++ brace (target ++ write element.element) ++
          absent ++ ["=>"] ++ clear ++ [","]))
  | shape =>
    ("&" :: fieldType code.runtime field,
      ["if"] ++ call ["value"] "is_empty" [] ++ brace (clear ++ [";"]) ++ ["else"] ++
        brace (target ++
          writeField code.runtime shape ["fields"] field.id (paren (ofText "* value"))))

def updater (code : TypeCode) (field : FieldCode) : Code :=
  let (parameter, body) := code.updaterParts field
  ["pub", "fn", field.updater.text] ++ angle (ofText "U :" ++ code.lib "SchemaUpdate") ++
    paren (ofText "update : & mut U , value :" ++ parameter) ++ brace body

def eventAccessor (code : TypeCode) (event : EventCode) : Code :=
  let index := number event.event.index
  ["pub", "fn", event.accessor.text] ++ angle (ofText "U :" ++ code.lib "SchemaUpdate") ++
    paren (ofText "update : & U ,") ++ ["->"] ++
    resultType (vecType event.payload) (code.lib "DecodeError") ++
    brace (ofText "let events =" ++ call ["update"] "events" [] ++ [";"] ++
      ofText "let count =" ++ call ["events"] "object_count" [index] ++ [";"] ++
      ofText "let mut out = :: std :: vec :: Vec :: with_capacity" ++
        paren (ofText "count as usize") ++ [";"] ++
      ofText "for i in 0 .. count" ++
        brace (ofText "out . push" ++
          paren (namedFailure
            (angle (event.payload ++ ["as"] ++ code.lib "SchemaType") ++ ofText ":: from_schema" ++
              paren (call ["events"] "index_object" [index, ["i"]]))
            event.event.name ++ [","]) ++ [";"]) ++
      ok ["out"])

/-- The identity of the component a value of the type belongs to. -/
def ownComponentId (code : TypeCode) : Code :=
  angle (ofText "Self as" ++ code.lib "Component") ++ ofText ":: COMPONENT_ID"

def commandKind (code : TypeCode) : Code :=
  mustUse ++ ofText "pub const fn command_kind" ++
    paren (ofText "component_id :" ++ code.lib "ComponentId" ++ [","] ++
      ofText "command_index :" ++ code.lib "CommandIndex" ++ [","]) ++
    ["->"] ++ optionType ["Commands"] ++
    brace (ofText "if component_id ==" ++ code.ownComponentId ++
      brace (ofText "Commands :: from_index" ++ paren ["command_index"]) ++ ["else"] ++
      brace absent)

def requestSender (code : TypeCode) (command : CommandCode) : Code :=
  ["pub", "fn", command.sender.text] ++ angle (ofText "T :" ++ code.lib "CommandTransport") ++
    paren (ofText "transport : & mut T , entity_id :" ++ code.lib "EntityId" ++ [","] ++
      ofText "request : &" ++ command.request ++ [","]) ++
    ["->"] ++ code.lib "RequestId" ++
    brace (ofText "transport . send_command_request" ++
      paren (ofText "entity_id ," ++ code.ownComponentId ++ [","] ++
        ["Commands", "::", command.variant.text] ++ ofText ". index" ++ paren [] ++ [","] ++
        code.lib "SchemaType :: to_schema" ++ paren ["request"] ++ [","]))

def responseSender (code : TypeCode) (command : CommandCode) (response : ResponseCode) : Code :=
  ["pub", "fn", response.sender.text] ++ angle (ofText "T :" ++ code.lib "CommandTransport") ++
    paren (ofText "transport : & mut T , request_id :" ++ code.lib "RequestId" ++ [","] ++
      ofText "response : &" ++ response.path ++ [","]) ++
    brace (ofText "transport . send_command_response" ++
      paren (ofText "request_id ," ++ code.ownComponentId ++ [","] ++
        ["Commands", "::", command.variant.text] ++ ofText ". index" ++ paren [] ++ [","] ++
        code.lib "SchemaType :: to_schema" ++ paren ["response"] ++ [","]) ++ [";"])

def commandFunctions (code : TypeCode) : Code :=
  if code.commands.isEmpty then []
  else
    code.commandKind ++ code.commands.flatMap fun command =>
      code.requestSender command ++
        match command.response with
        | .some response => code.responseSender command response
        | .none => []

/-- The constants and functions of the type itself. -/
def inherentItems (code : TypeCode) : Code :=
  code.idConstants ++ code.constructor ++
    (if code.type.supportsUpdates then code.fields.flatMap code.updater else []) ++
    (if code.type.isComponent then
      code.events.flatMap code.eventAccessor ++ code.commandFunctions
    else [])

def inherent (code : TypeCode) : Code :=
  ["impl", code.ident.text] ++ brace code.inherentItems

/-! ## Codec -/

def missingFieldCheck (code : TypeCode) (field : FieldCode) : Code :=
  ["if"] ++ call ["fields"] field.field.wire.countOp [field.id] ++ ofText "== 0" ++
    brace (["return"] ++
      err (code.lib "DecodeError :: MissingField" ++
        brace (ofText "type_name :" ++ call (literal code.type.qualified) "to_string" [] ++ [","] ++
          ofText "field :" ++ call (literal field.field.name) "to_string" [] ++ [","] ++
          ofText "field_id :" ++ field.id ++ [","])) ++ [";"])

def fieldReading (code : TypeCode) (field : FieldCode) : Code :=
  let value := readField code.runtime field ["fields"] field.id
  [field.ident.text, ":"] ++
    match field.shape with
    | .singular _ => brace (code.missingFieldCheck field ++ value)
    | _ => value

def decodeBody (code : TypeCode) : Code :=
  if code.fields.isEmpty then ofText "let _ = fields ;" ++ ok ("Self" :: brace [])
  else ok ("Self" :: brace (terminated (code.fields.map code.fieldReading)))

def encodeBody (code : TypeCode) : Code :=
  if code.fields.isEmpty then ofText "let _ = fields ;"
  else
    code.fields.flatMap fun field =>
      writeField code.runtime field.shape ["fields"] field.id (field.ofValue "self")

def schemaType (code : TypeCode) : Code :=
  ["impl"] ++ code.lib "SchemaType" ++ ["for", code.ident.text] ++
    brace (ofText "const SCHEMA_NAME : & 'static str =" ++ literal code.type.qualified ++ [";"] ++
      ofText "fn from_schema" ++ angle (ofText "O :" ++ code.lib "SchemaObject") ++
        paren (ofText "fields : & O ,") ++ ["->"] ++
        resultType ["Self"] (code.lib "DecodeError") ++ brace code.decodeBody ++
      ofText "fn apply_to_schema" ++ angle (ofText "O :" ++ code.lib "SchemaObject") ++
        paren (ofText "& self , fields : & mut O") ++ brace code.encodeBody) ++
    if code.type.commandPayload then
      ["impl"] ++ code.lib "CommandPayload" ++ ["for", code.ident.text] ++ brace []
    else []

/-! ## Equality and hashing -/

def equalityBody (code : TypeCode) : Code :=
  if code.fields.isEmpty then ofText "let _ = other ; true"
  else
    separated "&&" (code.fields.map fun field =>
      code.lib "SchemaEq :: schema_eq" ++
        paren (["&"] ++ field.ofValue "self" ++ [",", "&"] ++ field.ofValue "other"))

def hashBody (code : TypeCode) : Code :=
  if code.fields.isEmpty then ofText "let _ = state ;"
  else
    code.fields.flatMap fun field =>
      code.lib "SchemaHash :: schema_hash" ++
        paren (["&"] ++ field.ofValue "self" ++ [",", "state"]) ++ [";"]

def structuralTraits (code : TypeCode) : Code :=
  ["impl"] ++ code.lib "SchemaEq" ++ ["for", code.ident.text] ++
    brace (ofText "fn schema_eq" ++ paren (ofText "& self , other : & Self") ++ ofText "-> bool" ++
      brace code.equalityBody) ++
  ["impl"] ++ code.lib "SchemaHash" ++ ["for", code.ident.text] ++
    brace (ofText "fn schema_hash" ++ angle (ofText "H :" ++ hasher) ++
      paren (ofText "& self , state : & mut H") ++ brace code.hashBody)

/-- The standard traits follow the structural ones. -/
def standardTraits (code : TypeCode) : Code :=
  ofText "impl :: core :: cmp :: PartialEq for" ++ [code.ident.text] ++
    brace (ofText "fn eq" ++ paren (ofText "& self , other : & Self") ++ ofText "-> bool" ++
      brace (code.lib "SchemaEq :: schema_eq" ++ paren (ofText "self , other"))) ++
  ofText "impl :: core :: cmp :: Eq for" ++ [code.ident.text] ++ brace [] ++
  ofText "impl :: core :: hash :: Hash for" ++ [code.ident.text] ++
    brace (ofText "fn hash" ++ angle (ofText "H :" ++ hasher) ++
      paren (ofText "& self , state : & mut H") ++
      brace (code.lib "SchemaHash :: schema_hash" ++ paren (ofText "self , state") ++ [";"]))

def equalityAndHash (code : TypeCode) : Code :=
  code.structuralTraits ++ code.standardTraits

end TypeCode

end SchemaLoom
