import SchemaLoom.Exchange.Wire
import SchemaLoom.Record.Basic

/-!
# Records as documents

A value carries its kind, a field its shape, and a record is the list of its fields.
-/

namespace SchemaLoom

open Wire

mutual

def Value.ofJson? : Json → Option Value
  | .array [.string stem, payload] =>
    match Kind.ofStem? stem with
    | some (.scalar kind) => (Scalar.ofJson? kind payload).map fun value => .atom (.scalar value)
    | some .enumeration => payload.word?.map fun value => .atom (.enumeration value)
    | some .object => (Record.ofJson? payload).map .record
    | none => none
  | _ => none

def FieldValue.ofJson? : Json → Option FieldValue
  | .array [.string "singular", value] => (Value.ofJson? value).map .singular
  | .array [.string "option", .null] => some (.option none)
  | .array [.string "option", value] => (Value.ofJson? value).map fun value => .option (some value)
  | .array [.string "list", .array values] => (Value.listOfJson? values).map .list
  | .array [.string "map", .array entries] => (Value.entriesOfJson? entries).map .map
  | _ => none

def Value.listOfJson? : List Json → Option (List Value)
  | [] => some []
  | value :: rest =>
    match Value.ofJson? value, Value.listOfJson? rest with
    | some value, some values => some (value :: values)
    | _, _ => none

def Value.entriesOfJson? : List Json → Option (List (Value × Value))
  | [] => some []
  | .array [key, value] :: rest =>
    match Value.ofJson? key, Value.ofJson? value, Value.entriesOfJson? rest with
    | some key, some value, some entries => some ((key, value) :: entries)
    | _, _, _ => none
  | _ :: _ => none

def Record.fieldsOfJson? : List Json → Option (List (UInt32 × FieldValue))
  | [] => some []
  | .array [id, value] :: rest =>
    match id.word?, FieldValue.ofJson? value, Record.fieldsOfJson? rest with
    | some id, some value, some fields => some ((id, value) :: fields)
    | _, _, _ => none
  | _ :: _ => none

def Record.ofJson? : Json → Option Record
  | .array fields => (Record.fieldsOfJson? fields).map Record.ofList
  | _ => none

end

mutual

def Value.toJson : Value → Json
  | .atom (.scalar value) => .array [.string value.kind.stem, value.toJson]
  | .atom (.enumeration value) => .array [.string Kind.enumeration.stem, .word value]
  | .record fields => .array [.string Kind.object.stem, .array (Record.fieldsToJson fields)]

def FieldValue.toJson : FieldValue → Json
  | .singular value => .array [.string "singular", value.toJson]
  | .option none => .array [.string "option", .null]
  | .option (some value) => .array [.string "option", value.toJson]
  | .list values => .array [.string "list", .array (Value.listToJson values)]
  | .map entries => .array [.string "map", .array (Value.entriesToJson entries)]

def Value.listToJson : List Value → List Json
  | [] => []
  | value :: rest => value.toJson :: Value.listToJson rest

def Value.entriesToJson : List (Value × Value) → List Json
  | [] => []
  | (key, value) :: rest => .array [key.toJson, value.toJson] :: Value.entriesToJson rest

def Record.fieldsToJson : List (UInt32 × FieldValue) → List Json
  | [] => []
  | (id, value) :: rest => .array [.word id, value.toJson] :: Record.fieldsToJson rest

end

def Record.toJson (record : Record) : Json :=
  .array (Record.fieldsToJson record)

end SchemaLoom
