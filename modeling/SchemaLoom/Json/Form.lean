import SchemaLoom.Json.Basic
import SchemaLoom.Number.Shortest
import SchemaLoom.Text.Quoted

/-!
# Forms: strict readers of documents

A form turns a document into a value or says what is wrong with it.  The central form is the
record: its members are declared once, in order; a document gives them as an object in any order
or as an array in the declared order.  A name that is not declared or is given twice is refused at
the place where it stands, and a missing one when the object ends.
-/

namespace SchemaLoom

/-- What a document can have wrong. -/
inductive Fault where
  /-- The document has no place for such a value at all. -/
  | malformed
  | wrongSort (found : Json) (expected : String)
  | outOfRange (found : Int) (expected : String)
  | unknownMember (key : String) (known : List String)
  | repeatedMember (key : String)
  | missingMember (key : String)
  | tooShort (length : Nat) (title : String) (count : Nat)
  | unknownChoice (name : String) (choices : List String)
  | noShape (field : String)
  | severalShapes (field : String)
  | noReference
  | severalReferences

namespace Fault

/-- A name between backquotes. -/
def ticked (name : String) : String :=
  "`" ++ name ++ "`"

/-- The sort of value a document is, as named in messages. -/
def sortName : Json → String
  | .null => "null"
  | .bool true => "boolean `true`"
  | .bool false => "boolean `false`"
  | .number (.integer value) => "integer " ++ ticked (Int.repr value)
  | .number (.binary value) => "floating point " ++ ticked value.text
  | .string value => "string " ++ Text.shown value
  | .array _ => "sequence"
  | .object _ => "map"

/-- The names that would have been right. -/
def alternatives : List String → String
  | [] => "nothing"
  | [only] => ticked only
  | [first, second] => ticked first ++ " or " ++ ticked second
  | many => "one of " ++ ", ".intercalate (many.map ticked)

/-- The text of a fault; a malformed document has none. -/
def message : Fault → Option String
  | malformed => none
  | wrongSort found expected =>
    some ("invalid type: " ++ sortName found ++ ", expected " ++ expected)
  | outOfRange found expected =>
    some ("invalid value: integer " ++ ticked (Int.repr found) ++ ", expected " ++ expected)
  | unknownMember key known =>
    some ("unknown field " ++ ticked key ++ ", expected " ++ alternatives known)
  | repeatedMember key => some ("duplicate field " ++ ticked key)
  | missingMember key => some ("missing field " ++ ticked key)
  | tooShort length title count =>
    some ("invalid length " ++ Nat.repr length ++ ", expected struct " ++ title ++ " with " ++
      Nat.repr count ++ if count = 1 then " element" else " elements")
  | unknownChoice name choices =>
    some ("unknown variant " ++ ticked name ++ ", expected " ++ alternatives choices)
  | noShape field => some ("field '" ++ field ++ "' has no shape set")
  | severalShapes field => some ("field '" ++ field ++ "' has more than one shape set")
  | noReference => some "type reference has no variant set"
  | severalReferences => some "type reference has more than one variant set"

end Fault

/-- A reader of documents. -/
abbrev Form (α : Type) := Json → Except Fault α

namespace Form

def text : Form String
  | .string value => .ok value
  | other => .error (.wrongSort other "a string")

/-- A text that names a file. -/
def filePath : Form String
  | .string value => .ok value
  | other => .error (.wrongSort other "path string")

def flag : Form Bool
  | .bool value => .ok value
  | other => .error (.wrongSort other "a boolean")

/-- An integer that fits in 32 bits without a sign. -/
def word : Form UInt32
  | .number (.integer value) =>
    if 0 ≤ value ∧ value ≤ 0xFFFFFFFF then .ok (UInt32.ofNat value.toNat)
    else .error (.outOfRange value "u32")
  | other => .error (.wrongSort other "u32")

/-- Any document; of members of one name the last counts. -/
def anything : Form Json :=
  fun json => .ok json.settled

def listOf {α : Type} (item : Form α) : Form (List α)
  | .array items => items.mapM item
  | other => .error (.wrongSort other "a sequence")

/-- `null` stands for no value. -/
def optional {α : Type} (form : Form α) : Form (Option α)
  | .null => .ok none
  | other => (form other).map some

/-- A text or `null`; the empty text stands for no value too. -/
def nonemptyText : Form (Option String) :=
  fun json => (optional text json).map fun value => value.filter (! ·.isEmpty)

def nothing : Form Unit
  | .null => .ok ()
  | other => .error (.wrongSort other "unit")

/-- The choice of a given name. -/
def pick {α : Type} (choices : List (String × α)) (name : String) : Except Fault α :=
  match choices.lookup name with
  | some value => .ok value
  | none => .error (.unknownChoice name (choices.map Prod.fst))

/-- One of several named choices: its name, or an object of that single name with `null`. -/
def choice {α : Type} (choices : List (String × α)) : Form α
  | .string name => pick choices name
  | .object ((name, content) :: others) => do
    let value ← pick choices name
    nothing content
    if others.isEmpty then .ok value else .error .malformed
  | _ => .error .malformed

/-! ## Records -/

/-- A declared member: its name, its form and the value it has when it is left out. -/
structure Member where
  Value : Type
  key : String
  form : Form Value
  absent : Option Value

def Member.required {α : Type} (key : String) (form : Form α) : Member :=
  ⟨α, key, form, none⟩

def Member.defaulting {α : Type} (key : String) (form : Form α) (absent : α) : Member :=
  ⟨α, key, form, some absent⟩

/-- The members read so far. -/
@[reducible]
def Slots : List Member → Type
  | [] => Unit
  | member :: members => Option member.Value × Slots members

/-- A value for every member. -/
@[reducible]
def Row : List Member → Type
  | [] => Unit
  | member :: members => member.Value × Row members

def Slots.empty : (members : List Member) → Slots members
  | [] => ()
  | _ :: members => (none, Slots.empty members)

/-- Read one member of an object into its slot. -/
def Slots.put (known : List String) (key : String) (json : Json) :
    (members : List Member) → Slots members → Except Fault (Slots members)
  | [], _ => .error (.unknownMember key known)
  | member :: members, (slot, slots) =>
    if member.key = key then
      match slot with
      | some _ => .error (.repeatedMember key)
      | none =>
        match member.form json with
        | .ok value => .ok (some value, slots)
        | .error fault => .error fault
    else
      match Slots.put known key json members slots with
      | .ok slots => .ok (slot, slots)
      | .error fault => .error fault

/-- The row of an object that has ended; the first member without a value is the fault. -/
def Slots.complete : (members : List Member) → Slots members → Except Fault (Row members)
  | [], _ => .ok ()
  | member :: members, (slot, slots) =>
    match slot.or member.absent with
    | none => .error (.missingMember member.key)
    | some value =>
      match Slots.complete members slots with
      | .ok row => .ok (value, row)
      | .error fault => .error fault

/-- The row of an array that gives the members in their declared order. -/
def Row.ofItems (short : Nat → Fault) :
    (members : List Member) → Nat → List Json → Except Fault (Row members)
  | [], _, [] => .ok ()
  | [], _, _ :: _ => .error .malformed
  | member :: members, index, [] =>
    match member.absent with
    | none => .error (short index)
    | some value =>
      match Row.ofItems short members (index + 1) [] with
      | .ok row => .ok (value, row)
      | .error fault => .error fault
  | member :: members, index, item :: items =>
    match member.form item with
    | .error fault => .error fault
    | .ok value =>
      match Row.ofItems short members (index + 1) items with
      | .ok row => .ok (value, row)
      | .error fault => .error fault

/-- The row of a document, an object or an array. -/
def row (title : String) (members : List Member) : Form (Row members)
  | .object pairs => do
    let known := members.map Member.key
    let slots ← pairs.foldlM
      (fun slots pair => Slots.put known pair.1 pair.2 members slots) (Slots.empty members)
    Slots.complete members slots
  | .array items =>
    Row.ofItems (fun index => .tooShort index title members.length) members 0 items
  | other => .error (.wrongSort other ("struct " ++ title))

/-- A record whose row may still be refused as a whole. -/
def checked {α : Type} (title : String) (members : List Member)
    (build : Row members → Except Fault α) : Form α :=
  fun json => (row title members json).bind build

def record {α : Type} (title : String) (members : List Member) (build : Row members → α) :
    Form α :=
  fun json => (row title members json).map build

end Form

end SchemaLoom
