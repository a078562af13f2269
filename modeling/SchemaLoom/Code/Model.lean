import SchemaLoom.Code.Location
import SchemaLoom.Code.Plan
import SchemaLoom.Resolved.Basic

/-!
# Named code

Everything about generated code that can fail is a matter of names: identifiers may be invalid and
paths may lead nowhere.  The structures here hold a resolved declaration with all names found, so
that writing out the code cannot fail any more.
-/

namespace SchemaLoom

/-- Replace the elements of a shape one after the other, a key before its value. -/
def Shape.traverse {α β ε : Type} (replace : α → Except ε β) : Shape α → Except ε (Shape β)
  | .singular element => (replace element).map .singular
  | .option element => (replace element).map .option
  | .list element => (replace element).map .list
  | .map key value => do
    let key ← replace key
    let value ← replace value
    return .map key value

/-- An element and the path of the type it names; scalars have none. -/
structure ElementCode where
  element : Element
  path : Code
  deriving Inhabited

def ElementCode.of (around : Surroundings) (element : Element) : Except EmitError ElementCode :=
  match element with
  | .scalar _ => .ok ⟨element, []⟩
  | .enumeration name => (around.typePath name).map (⟨element, ·⟩)
  | .named name => (around.typePath name).map (⟨element, ·⟩)

structure FieldCode where
  field : ResolvedField
  ident : Ident
  idConst : Ident
  shape : Shape ElementCode
  updater : Ident
  setter : Ident
  deriving Inhabited

def FieldCode.of (around : Surroundings) (field : ResolvedField) : Except EmitError FieldCode := do
  let ident ← Ident.ofField field.name
  let idConst ← Ident.ofFieldId field.name
  let shape ← field.shape.traverse (ElementCode.of around)
  let updater ← Ident.before "update_" field.name
  let setter ← Ident.before "set_" field.name
  return { field, ident, idConst, shape, updater, setter }

structure EventCode where
  event : Event
  accessor : Ident
  adder : Ident
  payload : Code
  deriving Inhabited

def EventCode.of (around : Surroundings) (event : Event) : Except EmitError EventCode := do
  let accessor ← Ident.after event.name "_events"
  let payload ← around.typePath event.payload
  let adder ← Ident.before "add_" event.name
  return { event, accessor, adder, payload }

/-- The function that answers a command and the path of the answer's type. -/
structure ResponseCode where
  sender : Ident
  path : Code
  deriving Inhabited

structure CommandCode where
  command : Command
  variant : Ident
  sender : Ident
  request : Code
  /-- Only components that can be updated answer commands. -/
  response : Option ResponseCode
  method : Ident
  deriving Inhabited

def CommandCode.of (around : Surroundings) (answers : Bool) (command : Command) :
    Except EmitError CommandCode := do
  let variant ← Ident.ofVariant command.name
  let sender ← Ident.ofName ("send_" ++ Text.snake command.name ++ "_request")
  let request ← around.typePath command.request
  let response ←
    if answers then do
      let sender ← Ident.ofName ("send_" ++ Text.snake command.name ++ "_response")
      let path ← around.typePath command.response
      pure (some { sender, path })
    else pure none
  let method ← Ident.ofField command.name
  return { command, variant, sender, request, response, method }

/-- A type or component with all its names. -/
structure TypeCode where
  type : ResolvedType
  runtime : Code
  ident : Ident
  builder : Ident
  fields : List FieldCode
  events : List EventCode
  commands : List CommandCode
  deriving Inhabited

def TypeCode.of (around : Surroundings) (type : ResolvedType) : Except EmitError TypeCode := do
  let fields ← type.fields.mapM (FieldCode.of around)
  let ident ← Ident.ofType type.name
  let events ← type.events.mapM (EventCode.of around)
  let commands ← type.commands.mapM (CommandCode.of around type.supportsUpdates)
  let builder ← Ident.ofType (type.name ++ "Update")
  return { type, runtime := around.runtime.code, ident, builder, fields, events, commands }

/-- An enumeration with all its names. -/
structure EnumCode where
  decl : ResolvedEnum
  runtime : Code
  ident : Ident
  variants : List Ident
  default : Ident
  deriving Inhabited

def EnumCode.of (around : Surroundings) (decl : ResolvedEnum) : Except EmitError EnumCode := do
  let ident ← Ident.ofType decl.name
  let variants ← decl.values.mapM fun value => Ident.ofVariant value.name
  match decl.default? with
  | none => .error (.emptyEnum decl.qualified)
  | some value =>
    let default ← Ident.ofVariant value.name
    return { decl, runtime := around.runtime.code, ident, variants, default }

end SchemaLoom
