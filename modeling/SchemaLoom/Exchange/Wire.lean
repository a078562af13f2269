import SchemaLoom.Json.Access
import SchemaLoom.Json.Printer
import SchemaLoom.Wire.Object

/-!
# Wire values as documents

An object is written as the list of its entries, each with its field, its kind and its payload, and
shown with the values of a field and kind gathered.  Integers of 64 bits are decimal texts and
binary numbers are texts of their bits, so that no reader of documents can round them.
-/

namespace SchemaLoom.Wire

open Number (Binary32 Binary64)

/-! ## Scalars -/

def hexDigit? (char : Char) : Option Nat :=
  if char.isDigit then some (char.toNat - 48)
  else if 'a' ≤ char ∧ char ≤ 'f' then some (char.toNat - 87)
  else if 'A' ≤ char ∧ char ≤ 'F' then some (char.toNat - 55)
  else none

def hexNat? (chars : List Char) : Option Nat :=
  chars.foldlM (fun total char => (hexDigit? char).map (total * 16 + ·)) 0

def bytes? : List Char → Option (List UInt8)
  | [] => some []
  | [_] => none
  | high :: low :: rest => do
    let byte ← hexNat? [high, low]
    let others ← bytes? rest
    return UInt8.ofNat byte :: others

/-- The bits of a binary number after the mark of hexadecimal digits. -/
def bits? (payload : Json) : Option Nat :=
  payload.text?.bind fun text => hexNat? (text.toList.drop 2)

def bits (count number : Nat) : Json :=
  .string (String.ofList ('0' :: 'x' :: hexDigits count number))

/-- An integer of 64 bits. -/
def long? (payload : Json) : Option Int :=
  payload.text?.bind String.toInt?

def long (value : Int) : Json :=
  .string (Int.repr value)

namespace Scalar

def ofJson? (kind : ScalarKind) (payload : Json) : Option Scalar :=
  match kind with
  | .bool => payload.flag?.map bool
  | .bytes => (payload.text?.bind fun text => bytes? text.toList).map bytes
  | .double => (bits? payload).map fun bits => double ⟨UInt64.ofNat bits⟩
  | .entityId => (long? payload).map fun value => entityId (Int64.ofInt value)
  | .fixed32 => payload.word?.map fixed32
  | .fixed64 => (long? payload).map fun value => fixed64 (UInt64.ofNat value.toNat)
  | .float => (bits? payload).map fun bits => float ⟨UInt32.ofNat bits⟩
  | .int32 => payload.int?.map fun value => int32 (Int32.ofInt value)
  | .int64 => (long? payload).map fun value => int64 (Int64.ofInt value)
  | .sfixed32 => payload.int?.map fun value => sfixed32 (Int32.ofInt value)
  | .sfixed64 => (long? payload).map fun value => sfixed64 (Int64.ofInt value)
  | .sint32 => payload.int?.map fun value => sint32 (Int32.ofInt value)
  | .sint64 => (long? payload).map fun value => sint64 (Int64.ofInt value)
  | .string => payload.text?.map string
  | .uint32 => payload.word?.map uint32
  | .uint64 => (long? payload).map fun value => uint64 (UInt64.ofNat value.toNat)

def toJson : Scalar → Json
  | bool value => .bool value
  | bytes value => .string (String.ofList (value.flatMap fun byte => hexDigits 2 byte.toNat))
  | double value => bits 16 value.bits.toNat
  | entityId value => long value.toInt
  | fixed32 value => .word value
  | fixed64 value => long value.toNat
  | float value => bits 8 value.bits.toNat
  | int32 value => .int value.toInt
  | int64 value => long value.toInt
  | sfixed32 value => .int value.toInt
  | sfixed64 value => long value.toInt
  | sint32 value => .int value.toInt
  | sint64 value => long value.toInt
  | string value => .string value
  | uint32 value => .word value
  | uint64 value => long value.toNat

end Scalar

def Kind.ofStem? (stem : String) : Option Kind :=
  Kind.all.find? (·.stem == stem)

/-! ## Objects -/

namespace Object

mutual

def ofJson? : Json → Option Object
  | .array entries => addItems? entries empty
  | _ => none

/-- Write entries one after the other. -/
def addItems? : List Json → Object → Option Object
  | [], object => some object
  | entry :: rest, object => (addItem? entry object).bind (addItems? rest)

/-- Write one entry. -/
def addItem? : Json → Object → Option Object
  | .array [field, .string stem, payload], object =>
    match field.word?, Kind.ofStem? stem with
    | some field, some (.scalar kind) => (Scalar.ofJson? kind payload).map (object.addScalar field)
    | some field, some .enumeration => payload.word?.map (object.addEnumeration field)
    | some field, some .object => (ofJson? payload).map (object.addObject field)
    | _, _ => none
  | _, _ => none

end

/-- The values of a field and kind, given how nested objects are shown. -/
def valuesJson (nestedJson : Object → Json) (object : Object) (kind : Kind) (field : UInt32) :
    List Json :=
  match kind with
  | .scalar kind => (object.scalars kind field).map Scalar.toJson
  | .enumeration => (object.enumerations field).map .word
  | .object => (object.nested field).map nestedJson

/-- Show an object to a given depth of nesting. -/
def toJsonTo : (depth : Nat) → Object → Json
  | 0, _ => .null
  | depth + 1, object =>
    .array (object.fieldIds.flatMap fun field => Kind.all.filterMap fun kind =>
      match object.valuesJson (toJsonTo depth) kind field with
      | [] => none
      | values => some (.array [.word field, .string kind.stem, .array values]))

def toJson (object : Object) : Json :=
  toJsonTo (object.depth + 1) object

end Object

/-! ## Updates -/

namespace Update

def ofJson? (document : Json) : Option Update := do
  let fields ← (document.given? "fields").elim (some .empty) Object.ofJson?
  let events ← (document.given? "events").elim (some .empty) Object.ofJson?
  let cleared := (document.itemsAt "cleared").filterMap Json.word?
  return cleared.foldl clear ⟨fields, events, []⟩

def toJson (update : Update) : Json :=
  .object
    [("fields", update.fields.toJson), ("events", update.events.toJson),
      ("cleared", .array (update.cleared.map .word))]

end Update

end SchemaLoom.Wire
