import SchemaLoom.Text.Quoted

/-!
# Token text

Code is a sequence of tokens.  Its text has one blank between tokens, and none just inside round
and square brackets.
-/

namespace SchemaLoom

/-- A sequence of tokens. -/
abbrev Code := List String

namespace Code

/-- Whether a blank stands between two neighbouring tokens. -/
def spaced (left right : String) : Bool :=
  left != "(" && left != "[" && right != ")" && right != "]"

/-- The text of the tokens after a given one. -/
def renderAfter (text last : String) : Code → String
  | [] => text
  | token :: rest =>
    renderAfter (text ++ (if spaced last token then " " else "") ++ token) token rest

def render : Code → String
  | [] => ""
  | token :: rest => renderAfter token token rest

/-- The pieces of a text between blanks. -/
def pieces : List Char → List (List Char)
  | [] => [[]]
  | char :: rest =>
    if char = ' ' then [] :: pieces rest
    else
      match pieces rest with
      | [] => [[char]]
      | piece :: others => (char :: piece) :: others

/-- The tokens of a text in which blanks stand between them. -/
def ofText (text : String) : Code :=
  (pieces text.toList).map String.ofList

def paren (body : Code) : Code := "(" :: (body ++ [")"])

def square (body : Code) : Code := "[" :: (body ++ ["]"])

def brace (body : Code) : Code := "\x7b" :: (body ++ ["\x7d"])

def angle (body : Code) : Code := "<" :: (body ++ [">"])

/-- Parts with a separator between them. -/
def separated (separator : String) (parts : List Code) : Code :=
  [separator].intercalate parts

/-- Parts with a comma between them. -/
def listed (parts : List Code) : Code :=
  separated "," parts

/-- Parts with a comma after each. -/
def terminated (parts : List Code) : Code :=
  parts.flatMap (· ++ [","])

/-- An attribute of the following item. -/
def marker (body : Code) : Code :=
  "#" :: square body

/-- A text as a literal. -/
def literal (text : String) : Code :=
  [Text.literal text]

/-- A number as a literal without a suffix. -/
def number (value : UInt32) : Code :=
  [Nat.repr value.toNat]

end Code

end SchemaLoom
