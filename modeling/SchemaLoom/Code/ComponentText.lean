import SchemaLoom.Code.TypeText

/-!
# The code of a component

Beside its type a component has partial updates, commands with a binding to one entity, and a
builder that gathers an update.
-/

namespace SchemaLoom

open Code Phrase

namespace TypeCode

/-! ## Updates -/

def fieldMerge (code : TypeCode) (field : FieldCode) : Code :=
  ["if"] ++ call ["fields"] field.field.wire.countOp [field.id] ++ ofText "> 0" ++
    brace (field.ofValue "next" ++ ["="] ++ readField code.runtime field ["fields"] field.id ++
      [";"]) ++
    ofText "else if" ++ call ["update"] "is_cleared" [field.id] ++
    brace (field.ofValue "next" ++ ["="] ++ emptyValue field.shape.emptyForm ++ [";"])

def mergeBody (code : TypeCode) : Code :=
  if code.fields.isEmpty then ofText "let _ = update ;" ++ ok cloneSelf
  else
    ofText "let fields =" ++ call ["update"] "fields" [] ++ [";"] ++
      ofText "let mut next =" ++ cloneSelf ++ [";"] ++
      code.fields.flatMap code.fieldMerge ++ ok ["next"]

def component (code : TypeCode) : Code :=
  ["impl"] ++ code.lib "Component" ++ ["for", code.ident.text] ++
    brace (ofText "const COMPONENT_ID :" ++ code.lib "ComponentId" ++ ["="] ++
        number (code.type.componentId.getD 0) ++ [";"] ++
      ofText "fn apply_update" ++ angle (ofText "U :" ++ code.lib "SchemaUpdate") ++
        paren (ofText "& self , update : & U ,") ++ ["->"] ++
        resultType ["Self"] (code.lib "DecodeError") ++ brace code.mergeBody)

/-! ## Commands -/

/-- The variants of the enumeration of commands, with their numbers. -/
def commandVariants (code : TypeCode) : List (Ident × UInt32) :=
  code.commands.map fun command => (command.variant, command.command.index)

/-- The list of all commands and the conversions from and to numbers. -/
def commandItems (code : TypeCode) : Code :=
  ofText "pub const ALL : & 'static" ++ square ["Self"] ++ ofText "= &" ++
      square (listed (code.commands.map fun command => ["Self", "::", command.variant.text])) ++
      [";"] ++
    mustUse ++ ofText "pub const fn index" ++ paren ["self"] ++ ["->"] ++
      code.lib "CommandIndex" ++ brace (ofText "self as" ++ code.lib "CommandIndex") ++
    mustUse ++ ofText "pub const fn from_index" ++
      paren (ofText "index :" ++ code.lib "CommandIndex") ++ ["->"] ++ optionType ["Self"] ++
      brace (ofText "match index" ++
        brace ((code.commands.flatMap fun command =>
            number command.command.index ++ ["=>"] ++
              present ["Self", "::", command.variant.text] ++ [","]) ++
          ofText "_ =>" ++ absent ++ [","]))

def commandEnum (code : TypeCode) : Code :=
  marker ("derive" :: paren (ofText "Clone , Copy , Debug , Eq , Hash , PartialEq")) ++
    marker ("repr" :: paren ["u32"]) ++ ofText "pub enum Commands" ++
    brace (numberedVariants code.commandVariants) ++
  ofText "impl Commands" ++ brace code.commandItems

def boundMethod (code : TypeCode) (command : CommandCode) : Code :=
  ["pub", "fn", command.method.text] ++
    paren (ofText "& mut self , request : &" ++ command.request) ++ ["->"] ++
    code.lib "RequestId" ++
    brace ([code.ident.text, "::", command.sender.text] ++
      paren (ofText "& mut * self . transport , self . entity_id , request"))

def commandBinding (code : TypeCode) : Code :=
  let parameters := angle (ofText "'a , T :" ++ code.lib "CommandTransport")
  ofText "pub struct CommandBinding" ++ parameters ++
    brace (ofText "transport : & 'a mut T , entity_id :" ++ code.lib "EntityId" ++ [","]) ++
  ["impl"] ++ parameters ++ ofText "CommandBinding < 'a , T >" ++
    brace (ofText "pub fn new" ++
        paren (ofText "transport : & 'a mut T , entity_id :" ++ code.lib "EntityId") ++
        ofText "-> Self" ++ brace ("Self" :: brace (ofText "transport , entity_id")) ++
      mustUse ++ ofText "pub const fn entity_id" ++ paren (ofText "& self") ++ ["->"] ++
        code.lib "EntityId" ++ brace (ofText "self . entity_id") ++
      code.commands.flatMap code.boundMethod)

def commandCode (code : TypeCode) : Code :=
  if code.commands.isEmpty then [] else code.commandEnum ++ code.commandBinding

/-! ## Builder of updates -/

/-- What the builder passes to an updater for a value held by reference. -/
def updaterArgument (shape : Shape ElementCode) : Code :=
  match shape with
  | .singular code => if code.element.isBorrowed then ["value"] else ofText "* value"
  | .option code =>
    match code.element.optionForm with
    | .nullReference => call ["value"] "as_deref" []
    | .presence =>
      if code.element.isBorrowed then call ["value"] "as_ref" [] else ofText "* value"
  | _ => ["value"]

/-- The members of the builder with their types: fields first, then events. -/
def builderMembers (code : TypeCode) : List (Ident × Code) :=
  code.fields.map (fun field => (field.ident, optionType (fieldType code.runtime field))) ++
    code.events.map fun event => (event.accessor, vecType event.payload)

def builderStruct (code : TypeCode) : Code :=
  marker ("derive" :: paren (ofText "Clone , Debug , Default")) ++
    ["pub", "struct", code.builder.text] ++ brace (publicFields code.builderMembers)

def builderSetters (code : TypeCode) : Code :=
  (code.fields.flatMap fun field =>
    ["pub", "fn", field.setter.text] ++
      paren (ofText "& mut self , value :" ++ fieldType code.runtime field) ++
      ofText "-> & mut Self" ++
      brace (field.ofValue "self" ++ ["="] ++ present ["value"] ++ ofText "; self")) ++
  code.events.flatMap fun event =>
    ["pub", "fn", event.adder.text] ++ paren (ofText "& mut self , event :" ++ event.payload) ++
      ofText "-> & mut Self" ++
      brace (call ["self", ".", event.accessor.text] "push" [["event"]] ++ ofText "; self")

def builderIsEmpty (code : TypeCode) : Code :=
  let checks :=
    code.fields.map (fun field => call (field.ofValue "self") "is_none" []) ++
      code.events.map fun event => call ["self", ".", event.accessor.text] "is_empty" []
  if checks.isEmpty then ["true"] else separated "&&" checks

def builderApply (code : TypeCode) : Code :=
  let steps :=
    code.fields.map (fun field =>
      ofText "if let" ++ present ["value"] ++ ofText "= &" ++ field.ofValue "self" ++
        brace ([code.ident.text, "::", field.updater.text] ++
          paren (ofText "update ," ++ updaterArgument field.shape) ++ [";"])) ++
    code.events.map fun event =>
      ofText "for event in &" ++ ["self", ".", event.accessor.text] ++
        brace (code.lib "SchemaType :: apply_to_schema" ++
          paren (ofText "event ," ++
            call (call ["update"] "events_mut" []) "add_object" [number event.event.index]) ++
          [";"])
  if steps.isEmpty then ofText "let _ = update ;" else steps.flatten

/-- The functions that write the members into an update. -/
def builderUpdates (code : TypeCode) : Code :=
  ofText "pub fn apply_to" ++ angle (ofText "U :" ++ code.lib "SchemaUpdate") ++
    paren (ofText "& self , update : & mut U") ++ brace code.builderApply ++
  mustUse ++ ofText "pub fn to_update" ++
    angle (ofText "U :" ++ code.lib "SchemaUpdate" ++ ofText "+ :: core :: default :: Default") ++
    paren (ofText "& self") ++ ofText "-> U" ++
    brace (ofText "let mut update = U :: default" ++ paren [] ++ [";"] ++
      call ["self"] "apply_to" [ofText "& mut update"] ++ ofText "; update")

def builderItems (code : TypeCode) : Code :=
  mustUse ++ ofText "pub fn new" ++ paren [] ++ ofText "-> Self" ++
      brace (ofText "Self :: default" ++ paren []) ++
    code.builderSetters ++
    mustUse ++ ofText "pub fn is_empty" ++ paren (ofText "& self") ++ ofText "-> bool" ++
      brace code.builderIsEmpty ++
    code.builderUpdates

def updateBuilder (code : TypeCode) : Code :=
  code.builderStruct ++ ["impl", code.builder.text] ++ brace code.builderItems

/-! ## The whole item -/

/-- All code of a type or component, nested declarations apart. -/
def text (code : TypeCode) : Code :=
  code.useLine ++ code.declaration ++ code.inherent ++ code.schemaType ++ code.equalityAndHash ++
    if code.type.isComponent then
      code.component ++ code.commandCode ++
        if code.type.supportsUpdates then code.updateBuilder else []
    else []

end TypeCode

end SchemaLoom
