import SchemaLoom.Text.Printable

/-!
# Quoted text

A text between double quotes, with escapes for the quote, the backslash, the common controls and
every character that shows no glyph of its own or joins the character before it.
-/

namespace SchemaLoom.Text

/-- Lower-case hexadecimal digits without leading zeros. -/
def hexDigits (number : Nat) : List Char :=
  Nat.toDigits 16 number

/-- The escaped form of a character other than NUL. -/
def escapeChar (char : Char) : List Char :=
  if char = '\t' then ['\\', 't']
  else if char = '\r' then ['\\', 'r']
  else if char = '\n' then ['\\', 'n']
  else if char = '\\' then ['\\', '\\']
  else if char = '"' then ['\\', '"']
  else if isCombining char || !isPrintable char then
    ['\\', 'u', '\x7b'] ++ hexDigits char.toNat ++ ['\x7d']
  else [char]

/-- How NUL is written, given the text that follows it. -/
structure NulStyle where
  escape : List Char → List Char

/-- NUL is always written `\0`. -/
def NulStyle.short : NulStyle where
  escape _ := ['\\', '0']

/-- NUL is written `\0`, and `\x00` where an octal digit follows, so that the two do not read as
one octal escape. -/
def NulStyle.octalSafe : NulStyle where
  escape
    | [] => ['\\', '0']
    | next :: _ => if '0' ≤ next ∧ next ≤ '7' then ['\\', 'x', '0', '0'] else ['\\', '0']

def escapeChars (style : NulStyle) : List Char → List Char
  | [] => []
  | char :: rest =>
    (if char = Char.ofNat 0 then style.escape rest else escapeChar char) ++
      escapeChars style rest

/-- The text between quotes. -/
def quoted (style : NulStyle) (text : String) : String :=
  String.ofList ('"' :: (escapeChars style text.toList ++ ['"']))

/-- A text as it stands in a message. -/
def shown (text : String) : String :=
  quoted .short text

/-- A text as a string literal of source code. -/
def literal (text : String) : String :=
  quoted .octalSafe text

end SchemaLoom.Text
