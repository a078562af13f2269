import SchemaLoom.Code.Ident
import SchemaLoom.Code.Token
import SchemaLoom.Text.WordChar

/-!
# Paths of code

The settings give paths as text of Rust code: words with double colons between them, blanks and
comments anywhere.  Arguments of segments, such as `rt<u8>`, are left out: a path that leads to a
module or a library has none.
-/

namespace SchemaLoom

structure CodePath where
  /-- Whether it starts with a double colon. -/
  leading : Bool
  segments : List String
  deriving DecidableEq, Inhabited

namespace CodePath

/-- Keywords that a segment may be. -/
def keywordSegments : List String :=
  ["super", "self", "Self", "crate", "try"]

/-- Every keyword but `gen`, which is an ordinary name in a path. -/
def reserved : List String :=
  Ident.keywords.filter (· != "gen")

/-- The lexical parts of a path: double colons and words. -/
inductive Part where
  | colons
  | word (text : String)
  deriving DecidableEq, Inhabited

/-- A word, given its characters and whether it has the raw mark. -/
def wordPart? (raw : Bool) (chars : List Char) : Option Part :=
  let text := String.ofList chars
  if chars.isEmpty then none
  else if !raw then some (.word text)
  else if Ident.neverRaw.contains text || text == "_" then none
  else some (.word ("r#" ++ text))

/-- The rest after a block comment that is open to the given depth. -/
def afterBlock? : (depth : Nat) → List Char → Option (List Char)
  | depth, '/' :: '*' :: rest => afterBlock? (depth + 1) rest
  | depth, '*' :: '/' :: rest => if depth ≤ 1 then some rest else afterBlock? (depth - 1) rest
  | depth, _ :: rest => afterBlock? depth rest
  | _, [] => none

/-- The rest after a comment, given what follows its first slash.  Comments that document an item
are no mere comments. -/
def afterComment? : List Char → Option (List Char)
  | '/' :: '!' :: _ => none
  | '/' :: '/' :: '/' :: rest => some (rest.dropWhile (· != '\n'))
  | '/' :: '/' :: _ => none
  | '/' :: rest => some (rest.dropWhile (· != '\n'))
  | '*' :: '!' :: _ => none
  | '*' :: '*' :: '/' :: rest => some rest
  | '*' :: '*' :: '*' :: rest => afterBlock? 1 ('*' :: '*' :: rest)
  | '*' :: '*' :: _ => none
  | '*' :: rest => afterBlock? 1 rest
  | _ => none

/-- Whether a text starts with the raw mark, and the text after it. -/
def rawMark : List Char → Bool × List Char
  | 'r' :: '#' :: rest => (true, rest)
  | chars => (false, chars)

/-- The word that a text starts with, and the rest of the text. -/
def word? (chars : List Char) : Option (Part × List Char) :=
  let (raw, chars) := rawMark chars
  if chars.head?.any Text.isWordStart then
    let (word, rest) := chars.span Text.isWordPart
    (wordPart? raw word).map (·, rest)
  else none

/-- Split a text into parts; `none` where something else stands.  Every step reads a character. -/
def parts? : (fuel : Nat) → List Char → Option (List Part)
  | _, [] => some []
  | 0, _ :: _ => none
  | fuel + 1, char :: rest =>
    if Text.isSpace char then parts? fuel rest
    else
      match char, rest with
      | ':', ':' :: rest => (parts? fuel rest).map (.colons :: ·)
      | '/', rest => (afterComment? rest).bind fun rest => parts? fuel rest
      | _, _ => (word? (char :: rest)).bind fun (part, rest) => (parts? fuel rest).map (part :: ·)

/-- Whether a word may be a segment. -/
def isSegment (text : String) : Bool :=
  text != "_" && (keywordSegments.contains text || !reserved.contains text)

/-- Segments with double colons between them. -/
def segments? : List Part → Option (List String)
  | [.word text] => if isSegment text then some [text] else none
  | .word text :: .colons :: rest =>
    if isSegment text then (segments? rest).map (text :: ·) else none
  | _ => none

def ofParts? : List Part → Option CodePath
  | .colons :: rest => (segments? rest).map (⟨true, ·⟩)
  | parts => (segments? parts).map (⟨false, ·⟩)

/-- The characters of a text after the mark of byte order, if it has one. -/
def contents (text : String) : List Char :=
  match text.toList with
  | '\uFEFF' :: rest => rest
  | chars => chars

/-- The path that a text is.  Rust code also has paths whose segments take arguments in angle or
round brackets; those are refused here like any other text. -/
def parse (text : String) : Except EmitError CodePath :=
  let chars := contents text
  match (parts? chars.length chars).bind ofParts? with
  | some path => .ok path
  | none => .error (.invalidPath text)

def code (path : CodePath) : Code :=
  (if path.leading then ["::"] else []) ++ Code.separated "::" (path.segments.map ([·]))

end CodePath

end SchemaLoom
