import SchemaLoom.Json.Basic
import SchemaLoom.Number.Shortest

/-!
# The text of documents

A document on one line without blanks.  In a text only quotes, backslashes and control characters
are escaped.
-/

namespace SchemaLoom

/-- At least that many hexadecimal digits. -/
def hexDigits (count number : Nat) : List Char :=
  let digits := Nat.toDigits 16 number
  List.replicate (count - digits.length) '0' ++ digits

namespace Json

def escapedChar (char : Char) : List Char :=
  if char = '"' then ['\\', '"']
  else if char = '\\' then ['\\', '\\']
  else if char.toNat < 32 then '\\' :: 'u' :: hexDigits 4 char.toNat
  else [char]

def quoted (text : String) : String :=
  String.ofList ('"' :: text.toList.flatMap escapedChar ++ ['"'])

mutual

def print : Json → String
  | .null => "null"
  | .bool true => "true"
  | .bool false => "false"
  | .number (.integer value) => Int.repr value
  | .number (.binary value) => value.text
  | .string value => quoted value
  | .array items => "[" ++ ",".intercalate (printItems items) ++ "]"
  | .object members => "\x7b" ++ ",".intercalate (printMembers members) ++ "\x7d"

def printItems : List Json → List String
  | [] => []
  | item :: rest => item.print :: printItems rest

def printMembers : List (String × Json) → List String
  | [] => []
  | (key, value) :: rest => (quoted key ++ ":" ++ value.print) :: printMembers rest

end

end Json

end SchemaLoom
