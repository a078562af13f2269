import SchemaLoom.Code.Model

/-!
# Phrases for elements and fields

The expressions that read and write one element or one field of a wire object, and the types they
have.  An object, a field number and a value are themselves given as code.
-/

namespace SchemaLoom

open Code

namespace Phrase

/-! ## Standard items -/

def optionType (inner : Code) : Code :=
  ofText ":: core :: option :: Option" ++ angle inner

def present (value : Code) : Code :=
  ofText ":: core :: option :: Option :: Some" ++ paren value

def absent : Code :=
  ofText ":: core :: option :: Option :: None"

def resultType (value error : Code) : Code :=
  ofText ":: core :: result :: Result" ++ angle (value ++ [","] ++ error)

def ok (value : Code) : Code :=
  ofText ":: core :: result :: Result :: Ok" ++ paren value

def err (value : Code) : Code :=
  ofText ":: core :: result :: Result :: Err" ++ paren value

def vecType (inner : Code) : Code :=
  ofText ":: std :: vec :: Vec" ++ angle inner

def hasher : Code :=
  ofText ":: core :: hash :: Hasher"

def cloneSelf : Code :=
  ofText ":: core :: clone :: Clone :: clone" ++ paren ["self"]

def defaultValue : Code :=
  ofText ":: core :: default :: Default :: default" ++ paren []

/-- An item of the supporting library. -/
def item (runtime : Code) (name : String) : Code :=
  runtime ++ ["::"] ++ ofText name

/-- A call of a method. -/
def call (receiver : Code) (method : String) (arguments : List Code) : Code :=
  receiver ++ [".", method] ++ paren (listed arguments)

def mustUse : Code :=
  marker ["must_use"]

/-! ## Types -/

def scalarType (runtime : Code) : ScalarKind → Code
  | .bool => ["bool"]
  | .bytes => vecType ["u8"]
  | .double => ["f64"]
  | .entityId => item runtime "EntityId"
  | .float => ["f32"]
  | .int32 | .sint32 | .sfixed32 => ["i32"]
  | .int64 | .sint64 | .sfixed64 => ["i64"]
  | .string => ofText ":: std :: string :: String"
  | .uint32 | .fixed32 => ["u32"]
  | .uint64 | .fixed64 => ["u64"]

def elementType (runtime : Code) (code : ElementCode) : Code :=
  match code.element with
  | .scalar kind => scalarType runtime kind
  | _ => code.path

/-- The type of a field. -/
def fieldType (runtime : Code) (field : FieldCode) : Code :=
  match field.shape, field.field.materialization with
  | .singular element, _ => elementType runtime element
  | .option element, _ => optionType (elementType runtime element)
  | .list element, .persistent => item runtime "List" ++ angle (elementType runtime element)
  | .list element, .growable => vecType (elementType runtime element)
  | .map key value, form =>
    item runtime (match form with | .persistent => "Map" | .growable => "MapBuf") ++
      angle (elementType runtime key ++ [","] ++ elementType runtime value)

/-- The type of an element as a parameter of an updater. -/
def parameterType (runtime : Code) (code : ElementCode) : Code :=
  match code.element with
  | .scalar .string => ofText "& str"
  | .scalar .bytes => "&" :: square ["u8"]
  | .named _ => "&" :: code.path
  | _ => elementType runtime code

def emptyValue : EmptyForm → Code
  | .zero => defaultValue
  | .absent => absent
  | .emptyCollection => defaultValue

/-! ## Writing -/

/-- Write one element, given a reference to it. -/
def writeElement (runtime : Code) (element : Element) (object id value : Code) : Code :=
  match element with
  | .scalar kind =>
    call object element.wire.addOp [id, if kind.isCopy then "*" :: value else value] ++ [";"]
  | .enumeration _ =>
    call object element.wire.addOp
      [id, item runtime "WireEnum :: to_wire" ++ paren ("*" :: value)] ++ [";"]
  | .named _ =>
    item runtime "SchemaType :: apply_to_schema" ++
      paren (value ++ [","] ++ call object element.wire.addOp [id]) ++ [";"]

/-- Write a field, given the place that holds its value. -/
def writeField (runtime : Code) (shape : Shape ElementCode) (object id place : Code) : Code :=
  match shape with
  | .singular code => writeElement runtime code.element object id ("&" :: place)
  | .option code =>
    ofText "if let" ++ present ["value"] ++ ofText "= &" ++ place ++
      brace (writeElement runtime code.element object id ["value"])
  | .list code =>
    ofText "for value in" ++ call place "iter" [] ++
      brace (writeElement runtime code.element object id ["value"])
  | .map key value =>
    ["for"] ++ paren (ofText "key , value") ++ ["in"] ++ call place "iter" [] ++
      brace (ofText "let pair =" ++ call object "add_object" [id] ++ [";"] ++
        writeElement runtime key.element ["pair"] (item runtime "MAP_KEY_FIELD_ID") ["key"] ++
        writeElement runtime value.element ["pair"] (item runtime "MAP_VALUE_FIELD_ID") ["value"])

/-! ## Reading -/

/-- A fallible reading, with the field named in its failure. -/
def namedFailure (reading : Code) (fieldName : String) : Code :=
  call reading "map_err"
    [ofText "| err |" ++ call ["err"] "with_field" [literal fieldName]] ++ ["?"]

/-- An element from the code that reads its wire value. -/
def readRaw (runtime : Code) (code : ElementCode) (raw : Code) (fieldName : String) : Code :=
  match code.element with
  | .scalar .string => call raw "to_owned" []
  | .scalar .bytes => call raw "to_vec" []
  | .scalar _ => raw
  | .enumeration _ =>
    namedFailure
      (angle (code.path ++ ["as"] ++ item runtime "WireEnum") ++ ofText ":: from_wire" ++ paren raw)
      fieldName
  | .named _ =>
    namedFailure
      (angle (code.path ++ ["as"] ++ item runtime "SchemaType") ++ ofText ":: from_schema" ++
        paren raw)
      fieldName

/-- The last value of an element. -/
def readLast (runtime : Code) (code : ElementCode) (object id : Code) (fieldName : String) :
    Code :=
  readRaw runtime code (call object code.element.wire.getOp [id]) fieldName

/-- The value of an element at the position `i`. -/
def readAt (runtime : Code) (code : ElementCode) (object id : Code) (fieldName : String) : Code :=
  readRaw runtime code (call object code.element.wire.indexOp [id, ["i"]]) fieldName

/-- A collection read element by element: its fresh buffer, the step, and its final form. -/
def readCollection (object id : Code) (kind : Wire.Kind) (buffer : String) (fresh step final : Code) :
    Code :=
  brace (ofText "let count =" ++ call object kind.countOp [id] ++ [";"] ++
    ["let", "mut", buffer, "="] ++ fresh ++ ofText ":: with_capacity" ++
      paren (ofText "count as usize") ++ [";"] ++
    ofText "for i in 0 .. count" ++ brace step ++ final)

/-- The value of a field; the presence of a singular one is checked elsewhere. -/
def readField (runtime : Code) (field : FieldCode) (object id : Code) : Code :=
  let name := field.field.name
  let kind := field.field.wire
  let growable := field.field.materialization == .growable
  match field.shape with
  | .singular code => readLast runtime code object id name
  | .option code =>
    ["if"] ++ call object kind.countOp [id] ++ ofText "> 0" ++
      brace (present (readLast runtime code object id name)) ++ ["else"] ++ brace absent
  | .list code =>
    readCollection object id kind "items" (ofText ":: std :: vec :: Vec")
      (call ["items"] "push" [readAt runtime code object id name] ++ [";"])
      (if growable then ["items"] else item runtime "List :: from" ++ paren ["items"])
  | .map key value =>
    readCollection object id kind "entries" (item runtime "MapBuf")
      (ofText "let pair =" ++ call object "index_object" [id, ["i"]] ++ [";"] ++
        call ["entries"] "insert"
          [readLast runtime key ["pair"] (item runtime "MAP_KEY_FIELD_ID") name,
            readLast runtime value ["pair"] (item runtime "MAP_VALUE_FIELD_ID") name] ++ [";"])
      (if growable then ["entries"] else call ["entries"] "freeze" [])

end Phrase

end SchemaLoom
