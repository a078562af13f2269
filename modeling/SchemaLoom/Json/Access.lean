import SchemaLoom.Json.Basic

/-!
# Building documents and taking them apart
-/

namespace SchemaLoom.Json

/-! ## Building -/

def int (value : Int) : Json := .number (.integer value)

def nat (value : Nat) : Json := int value

def word (value : UInt32) : Json := nat value.toNat

def texts (values : List String) : Json := .array (values.map .string)

def orNull {α : Type} (encode : α → Json) : Option α → Json
  | some value => encode value
  | none => .null

/-! ## Taking apart -/

/-- The last member of the given name. -/
def member? (key : String) : Json → Option Json
  | .object members => (members.reverse.find? (·.1 == key)).map (·.2)
  | _ => none

/-- A member that is there and not null. -/
def given? (key : String) (document : Json) : Option Json :=
  match document.member? key with
  | some .null => none
  | other => other

def text? : Json → Option String
  | .string value => some value
  | _ => none

def items? : Json → Option (List Json)
  | .array items => some items
  | _ => none

def int? : Json → Option Int
  | .number (.integer value) => some value
  | _ => none

def nat? (document : Json) : Option Nat :=
  document.int?.map Int.toNat

def word? (document : Json) : Option UInt32 :=
  document.nat?.map UInt32.ofNat

def flag? : Json → Option Bool
  | .bool value => some value
  | _ => none

def textAt (key : String) (document : Json) : Option String :=
  (document.member? key).bind text?

def wordAt (key : String) (document : Json) : Option UInt32 :=
  (document.member? key).bind word?

/-- The items of a member; none if there is no such list. -/
def itemsAt (key : String) (document : Json) : List Json :=
  ((document.member? key).bind items?).getD []

def textsAt (key : String) (document : Json) : List String :=
  (document.itemsAt key).filterMap text?

end SchemaLoom.Json
