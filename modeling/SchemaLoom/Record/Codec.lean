import SchemaLoom.Collection.Keyed
import SchemaLoom.Record.Alike
import SchemaLoom.Resolved.Basic
import SchemaLoom.Wire.DecodeError
import SchemaLoom.Wire.Object

/-!
# Records against wire objects

A codec knows resolved types and enumerations by name.  It reads a record off an object and writes
one into an object by following the fields of a type, and it does the same for updates and events.
-/

namespace SchemaLoom

open Wire

/-- What a codec can fail with. -/
inductive CodecError where
  | unknownType (name : String)
  | unknownEnum (name : String)
  | unknownField (typeName : String) (id : UInt32)
  | unknownEvent (typeName event : String)
  | missingValue (typeName field : String)
  | shapeMismatch (field : String)
  | decode (error : DecodeError)
  deriving DecidableEq, Inhabited

namespace CodecError

def message : CodecError → String
  | unknownType name => "no codec for type '" ++ name ++ "'"
  | unknownEnum name => "no definition for enum '" ++ name ++ "'"
  | unknownField typeName id =>
    "'" ++ typeName ++ "' has no field with id " ++ Nat.repr id.toNat
  | unknownEvent typeName event => "'" ++ typeName ++ "' has no event '" ++ event ++ "'"
  | missingValue typeName field =>
    "record for '" ++ typeName ++ "' has no value for field '" ++ field ++ "'"
  | shapeMismatch field => "value for field '" ++ field ++ "' does not match its declared kind"
  | decode error => error.message

/-- A failure of decoding, seen from one field further out; other failures stay as they are. -/
def inside (field : String) : CodecError → CodecError
  | decode error => decode (error.inside field)
  | other => other

end CodecError

/-- The kind of value that carries an element. -/
def Element.wire : Element → Kind
  | scalar kind => .scalar kind
  | enumeration _ => .enumeration
  | named _ => .object

/-- The kind of value that carries a field; the entries of a map are objects. -/
def ResolvedField.wire (field : ResolvedField) : Kind :=
  match field.shape with
  | .singular element => element.wire
  | .option element => element.wire
  | .list element => element.wire
  | .map _ _ => .object

/-- The field numbers of an entry of a map. -/
def mapKeyId : UInt32 := 1

def mapValueId : UInt32 := 2

structure Codec where
  types : List ResolvedType
  enums : List ResolvedEnum
  deriving Inhabited

namespace Codec

/-- The codec of some resolved types with all that is nested in them, and some enumerations. -/
def ofResolved (trees : List Resolved) (enums : List ResolvedEnum) : Codec :=
  let types := Resolved.allOf trees
  ⟨types, enums ++ types.flatMap (·.nestedEnums)⟩

def type (codec : Codec) (name : String) : Except CodecError ResolvedType :=
  match codec.types.find? (·.qualified == name) with
  | some type => .ok type
  | none => .error (.unknownType name)

def enum? (codec : Codec) (name : String) : Option ResolvedEnum :=
  codec.enums.find? (·.qualified == name)

/-! ## Decoding -/

/-- An enumeration value must be declared. -/
def checkValue (codec : Codec) (name : String) (value : UInt32) : Except CodecError Unit :=
  match codec.enum? name with
  | none => .error (.unknownEnum name)
  | some decl =>
    if decl.values.any (·.value == value) then .ok ()
    else .error (.decode (.ofCause (.unknownEnumValue name value)))

/-- A reader of nested objects. -/
abbrev Decoder := String → Object → Except CodecError Record

def acceptEnum (codec : Codec) (name : String) (value : UInt32) : Except CodecError Value :=
  (codec.checkValue name value).map fun _ => .atom (.enumeration value)

/-- The last value of an element at a field. -/
def readLast (codec : Codec) (nested : Decoder) (element : Element) (object : Object)
    (id : UInt32) : Except CodecError Value :=
  match element with
  | .scalar kind => .ok (.atom (.scalar (object.lastScalar kind id)))
  | .enumeration name => codec.acceptEnum name (object.lastEnumeration id)
  | .named name => (nested name (object.lastObject id)).map .record

/-- All values of an element at a field, in order. -/
def readAll (codec : Codec) (nested : Decoder) (element : Element) (object : Object)
    (id : UInt32) : Except CodecError (List Value) :=
  match element with
  | .scalar kind =>
    .ok (((object.scalars kind id).take greatestCount).map fun value => .atom (.scalar value))
  | .enumeration name =>
    ((object.enumerations id).take greatestCount).mapM (codec.acceptEnum name)
  | .named name =>
    ((object.nested id).take greatestCount).mapM fun value => (nested name value).map .record

/-- One entry of a map; a part that was not written reads as zero or as the empty object. -/
def readEntry (codec : Codec) (nested : Decoder) (key value : Element) (pair : Object) :
    Except CodecError (Value × Value) := do
  let keyRead ← codec.readLast nested key pair mapKeyId
  let valueRead ← codec.readLast nested value pair mapValueId
  return (keyRead, valueRead)

/-- The value of a field, its presence apart. -/
def readField (codec : Codec) (nested : Decoder) (field : ResolvedField) (object : Object) :
    Except CodecError FieldValue :=
  match field.shape with
  | .singular element => (codec.readLast nested element object field.id).map .singular
  | .option element =>
    if object.count field.wire field.id = 0 then .ok (.option none)
    else (codec.readLast nested element object field.id).map fun value => .option (some value)
  | .list element => (codec.readAll nested element object field.id).map .list
  | .map key value => do
    let entries ← ((object.nested field.id).take greatestCount).mapM
      (codec.readEntry nested key value)
    return .map (Keyed.ofList Value.alike entries)

/-- The value of a field of the type; a singular field must have been written. -/
def decodeField (codec : Codec) (nested : Decoder) (typeName : String) (field : ResolvedField)
    (object : Object) : Except CodecError FieldValue :=
  match field.shape, object.count field.wire field.id with
  | .singular _, 0 => .error (.decode (.ofCause (.missingField typeName field.name field.id)))
  | _, _ => (codec.readField nested field object).mapError (.inside field.name)

/-- Decode the fields of a type in order. -/
def decodeFields (codec : Codec) (nested : Decoder) : Decoder := fun typeName object => do
  let type ← codec.type typeName
  let fields ← type.fields.mapM fun field => do
    let value ← codec.decodeField nested type.qualified field object
    return (field.id, value)
  return Record.ofList fields

/-- Decode to a given depth of nesting. -/
def decodeTo (codec : Codec) : (depth : Nat) → Decoder
  | 0 => fun typeName _ => .error (.unknownType typeName)
  | depth + 1 => codec.decodeFields (codec.decodeTo depth)

/-- The record of the named type that an object holds.  Every object read inside it is nested less
deeply or empty, so one level beyond its depth is never passed. -/
def decode (codec : Codec) (typeName : String) (object : Object) : Except CodecError Record :=
  codec.decodeTo (object.depth + 1) typeName object

/-! ## Encoding -/

/-- The object after an attempt to write to it, and how the attempt ended.  What was written before
a failure stays. -/
abbrev Written := Object × Except CodecError Unit

/-- A writer of nested records into an object. -/
abbrev Encoder := String → Record → Object → Written

/-- Write items in turn and stop at the first failure. -/
def writeAll {α : Type} (write : α → Object → Written) : List α → Object → Written
  | [], object => (object, .ok ())
  | item :: items, object =>
    match write item object with
    | (object, .ok ()) => writeAll write items object
    | (object, .error error) => (object, .error error)

/-- Write one element. -/
def writeElement (nested : Encoder) (fieldName : String) (element : Element) (id : UInt32)
    (value : Value) (object : Object) : Written :=
  match element, value with
  | .scalar kind, .atom (.scalar scalar) =>
    if scalar.kind = kind then (object.addScalar id scalar, .ok ())
    else (object, .error (.shapeMismatch fieldName))
  | .enumeration _, .atom (.enumeration number) => (object.addEnumeration id number, .ok ())
  | .named name, .record record =>
    let (inner, outcome) := nested name record .empty
    (object.addObject id inner, outcome)
  | _, _ => (object, .error (.shapeMismatch fieldName))

/-- Write one entry of a map as an object of its own. -/
def writeEntry (nested : Encoder) (fieldName : String) (key value : Element) (id : UInt32)
    (entry : Value × Value) (object : Object) : Written :=
  let (pair, outcome) :=
    match writeElement nested fieldName key mapKeyId entry.1 .empty with
    | (pair, .ok ()) => writeElement nested fieldName value mapValueId entry.2 pair
    | failed => failed
  (object.addObject id pair, outcome)

/-- Write the value of a field. -/
def encodeField (nested : Encoder) (field : ResolvedField) (value : FieldValue) (object : Object) :
    Written :=
  match field.shape, value with
  | .singular element, .singular value =>
    writeElement nested field.name element field.id value object
  | .option _, .option none => (object, .ok ())
  | .option element, .option (some value) =>
    writeElement nested field.name element field.id value object
  | .list element, .list values =>
    writeAll (writeElement nested field.name element field.id) values object
  | .map key value, .map entries =>
    writeAll (writeEntry nested field.name key value field.id) entries object
  | _, _ => (object, .error (.shapeMismatch field.name))

/-- Write the fields of a type in order. -/
def encodeFields (codec : Codec) (nested : Encoder) : Encoder := fun typeName record object =>
  match codec.type typeName with
  | .error error => (object, .error error)
  | .ok type =>
    writeAll
      (fun (field : ResolvedField) object =>
        match record.get? field.id with
        | none => (object, .error (.missingValue typeName field.name))
        | some value => encodeField nested field value object)
      type.fields object

/-- Encode to a given depth of nesting. -/
def encodeTo (codec : Codec) : (depth : Nat) → Encoder
  | 0 => fun typeName _ object => (object, .error (.unknownType typeName))
  | depth + 1 => codec.encodeFields (codec.encodeTo depth)

/-- Append a record of the named type to an object. -/
def encode (codec : Codec) (typeName : String) (record : Record) (object : Object) : Written :=
  codec.encodeTo (Record.depth record + 1) typeName record object

/-! ## Defaults -/

/-- The element nothing was written for, given the defaults of named types. -/
def emptyElement (codec : Codec) (nested : String → Except CodecError Record) :
    Element → Except CodecError Value
  | .scalar kind => .ok (.atom (.scalar (.zero kind)))
  | .enumeration name =>
    match (codec.enum? name).bind ResolvedEnum.default? with
    | some value => .ok (.atom (.enumeration value.value))
    | none => .error (.unknownEnum name)
  | .named name => (nested name).map .record

/-- What a field holds by default and after it was cleared. -/
def emptyField (codec : Codec) (nested : String → Except CodecError Record) :
    Shape Element → Except CodecError FieldValue
  | .singular element => (codec.emptyElement nested element).map .singular
  | .option _ => .ok (.option none)
  | .list _ => .ok (.list [])
  | .map _ _ => .ok (.map [])

/-- The default record to a given depth of nesting. -/
def defaultTo (codec : Codec) : (depth : Nat) → String → Except CodecError Record
  | 0, typeName => .error (.unknownType typeName)
  | depth + 1, typeName => do
    let type ← codec.type typeName
    let fields ← type.fields.mapM fun field => do
      let value ← codec.emptyField (codec.defaultTo depth) field.shape
      return (field.id, value)
    return Record.ofList fields

/-- The record of a type nothing was written for.  Singular fields of resolved types never lead
back to their type, so no chain of them is longer than the list of types. -/
def defaultRecord (codec : Codec) (typeName : String) : Except CodecError Record :=
  codec.defaultTo (codec.types.length + 1) typeName

/-! ## Updates -/

/-- Whether a value has the shape of a field. -/
def fits (shape : Shape Element) (value : FieldValue) : Bool :=
  match shape, value with
  | .singular _, .singular _ => true
  | .option _, .option _ => true
  | .list _, .list _ => true
  | .map _ _, .map _ => true
  | _, _ => false

/-- Write the value of a field into an update, or mark the field as cleared if the value counts as
nothing. -/
def updateField (codec : Codec) (typeName : String) (update : Update) (id : UInt32)
    (value : FieldValue) : Update × Except CodecError Unit :=
  match codec.type typeName with
  | .error error => (update, .error error)
  | .ok type =>
    match type.fieldById? id with
    | none => (update, .error (.unknownField typeName id))
    | some field =>
      if !fits field.shape value then (update, .error (.shapeMismatch field.name))
      else if value.isAbsent then (update.clear id, .ok ())
      else
        let (fields, outcome) :=
          encodeField (codec.encodeTo (value.depth + 1)) field value update.fields
        ({ update with fields }, outcome)

/-- The value an update gives a field, if it writes or clears it. -/
def updatedField (codec : Codec) (typeName : String) (update : Update) (field : ResolvedField) :
    Except CodecError (Option FieldValue) :=
  if update.fields.count field.wire field.id = 0 then
    if update.isCleared field.id then
      (codec.emptyField codec.defaultRecord field.shape).map some
    else .ok none
  else
    (codec.decodeField (codec.decodeTo update.fields.depth) typeName field update.fields).map some

/-- A record with the fields of an update: written fields take the written value, cleared ones
their default, and all others stay. -/
def merge (codec : Codec) (typeName : String) (record : Record) (update : Update) :
    Except CodecError Record := do
  let type ← codec.type typeName
  type.fields.foldlM
    (fun record field => do
      match ← codec.updatedField type.qualified update field with
      | some value => return Record.insert field.id value record
      | none => return record)
    record

/-! ## Events -/

/-- An event of a type by its name. -/
def event (codec : Codec) (typeName name : String) : Except CodecError Event := do
  let type ← codec.type typeName
  match type.event? name with
  | some event => return event
  | none => .error (.unknownEvent typeName name)

/-- The payloads of one event in an update, in order. -/
def events (codec : Codec) (typeName name : String) (update : Update) :
    Except CodecError (List Record) := do
  let event ← codec.event typeName name
  ((update.events.nested event.index).take greatestCount).mapM fun object =>
    (codec.decode event.payload object).mapError (.inside name)

/-- Append the payload of an event to an update. -/
def addEvent (codec : Codec) (typeName name : String) (update : Update) (payload : Record) :
    Update × Except CodecError Unit :=
  match codec.event typeName name with
  | .error error => (update, .error error)
  | .ok event =>
    let (object, outcome) := codec.encode event.payload payload .empty
    ({ update with events := update.events.addObject event.index object }, outcome)

end Codec

end SchemaLoom
