/-!
# Failures of decoding

A failure names its cause and the fields that lead to it from the value being decoded.
-/

namespace SchemaLoom.Wire

/-- What was wrong. -/
inductive DecodeCause where
  | missingField (typeName field : String) (id : UInt32)
  | unknownEnumValue (enumName : String) (value : UInt32)
  deriving DecidableEq, Inhabited

def DecodeCause.message : DecodeCause → String
  | missingField typeName field id =>
    "missing required field '" ++ typeName ++ "." ++ field ++ "' (id " ++ Nat.repr id.toNat ++ ")"
  | unknownEnumValue enumName value =>
    "unknown value " ++ Nat.repr value.toNat ++ " for enum '" ++ enumName ++ "'"

/-- A cause and the fields that lead to it, outermost first. -/
structure DecodeError where
  trail : List String
  cause : DecodeCause
  deriving DecidableEq, Inhabited

namespace DecodeError

def ofCause (cause : DecodeCause) : DecodeError := ⟨[], cause⟩

/-- The failure as seen from one field further out. -/
def inside (field : String) (error : DecodeError) : DecodeError :=
  { error with trail := field :: error.trail }

/-- The fields joined by dots, if there are any. -/
def path? (error : DecodeError) : Option String :=
  if error.trail.isEmpty then none else some (".".intercalate error.trail)

def message (error : DecodeError) : String :=
  match error.path? with
  | none => error.cause.message
  | some path => "at '" ++ path ++ "': " ++ error.cause.message

end DecodeError

end SchemaLoom.Wire
