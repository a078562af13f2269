import SchemaLoom.Json.Basic
import SchemaLoom.Number.Nearest

/-!
# Reading JSON text

`Json.parse?` reads one document and refuses everything that is not one, a nesting of more than
127 brackets and a number beyond the range of 64-bit binary numbers included.
-/

namespace SchemaLoom

open Number

namespace Json.Reader

/-- The characters still to be read. -/
abbrev Rest := List Char

def isBlank (char : Char) : Bool :=
  char = ' ' || char = '\n' || char = '\t' || char = '\r'

def skipBlank (rest : Rest) : Rest :=
  rest.dropWhile isBlank

/-! ## Strings -/

def hexValue (char : Char) : Option Nat :=
  if '0' ≤ char ∧ char ≤ '9' then some (char.toNat - '0'.toNat)
  else if 'a' ≤ char ∧ char ≤ 'f' then some (char.toNat - 'a'.toNat + 10)
  else if 'A' ≤ char ∧ char ≤ 'F' then some (char.toNat - 'A'.toNat + 10)
  else none

/-- The value of four hexadecimal digits. -/
def hexUnit (first second third fourth : Char) : Option Nat := do
  let a ← hexValue first
  let b ← hexValue second
  let c ← hexValue third
  let d ← hexValue fourth
  return ((a * 16 + b) * 16 + c) * 16 + d

def isLeading (unit : Nat) : Bool :=
  0xD800 ≤ unit && unit < 0xDC00

def isTrailing (unit : Nat) : Bool :=
  0xDC00 ≤ unit && unit < 0xE000

def simpleEscape : Char → Option Char
  | '"' => some '"'
  | '\\' => some '\\'
  | '/' => some '/'
  | 'b' => some '\x08'
  | 'f' => some '\x0c'
  | 'n' => some '\n'
  | 'r' => some '\r'
  | 't' => some '\t'
  | _ => none

/-- The characters of a string whose opening quote has been read; `done` holds those already read,
last first.  Halves of a surrogate pair are accepted only together. -/
def readChars (done : List Char) : Rest → Option (String × Rest)
  | [] => none
  | '"' :: rest => some (String.ofList done.reverse, rest)
  | '\\' :: 'u' :: a :: b :: c :: d :: rest =>
    match hexUnit a b c d with
    | none => none
    | some unit =>
      if isTrailing unit then none
      else if isLeading unit then
        match rest with
        | '\\' :: 'u' :: e :: f :: g :: h :: rest =>
          match hexUnit e f g h with
          | none => none
          | some second =>
            if isTrailing second then
              let code := 0x10000 + (unit - 0xD800) * 0x400 + (second - 0xDC00)
              readChars (Char.ofNat code :: done) rest
            else none
        | _ => none
      else readChars (Char.ofNat unit :: done) rest
  | '\\' :: char :: rest =>
    match simpleEscape char with
    | none => none
    | some plain => readChars (plain :: done) rest
  | char :: rest => if char.toNat < 0x20 then none else readChars (char :: done) rest

/-! ## Numbers -/

/-- The greatest significand that is kept exactly. -/
def greatestSignificand : Nat := 0xFFFFFFFFFFFFFFFF

def digitValue (char : Char) : Nat :=
  char.toNat - '0'.toNat

/-- Append digits to a significand for as long as it stays in bounds.  Gives the significand, how
many digits were appended and how many were left over. -/
def absorb (significand appended : Nat) : List Char → Nat × Nat × Nat
  | [] => (significand, appended, 0)
  | digit :: digits =>
    let next := significand * 10 + digitValue digit
    if next ≤ greatestSignificand then absorb next (appended + 1) digits
    else (significand, appended, digits.length + 1)

def readDigits (rest : Rest) : List Char × Rest :=
  rest.span Char.isDigit

/-- At least one digit. -/
def readDigits1 (rest : Rest) : Option (List Char × Rest) :=
  match readDigits rest with
  | ([], _) => none
  | result => some result

/-- Digits without a leading zero, or the single digit zero. -/
def readWhole (rest : Rest) : Option (List Char × Rest) :=
  match readDigits1 rest with
  | some ('0' :: _ :: _, _) => none
  | result => result

def readFraction : Rest → Option (Option (List Char) × Rest)
  | '.' :: rest => (readDigits1 rest).map fun (digits, rest) => (some digits, rest)
  | rest => some (none, rest)

/-- The value of an exponent; `none` inside stands for no exponent at all. -/
def readExponent : Rest → Option (Option Int × Rest)
  | [] => some (none, [])
  | mark :: rest =>
    if mark = 'e' ∨ mark = 'E' then
      let (negative, rest) :=
        match rest with
        | '+' :: rest => (false, rest)
        | '-' :: rest => (true, rest)
        | rest => (false, rest)
      (readDigits1 rest).map fun (digits, rest) =>
        let value : Nat := digits.foldl (fun value digit => value * 10 + digitValue digit) 0
        (some (if negative then -(value : Int) else value), rest)
    else some (none, mark :: rest)

/-- A numeral from its parts.  Without fraction and exponent it is an integer if it fits and is not
a negative zero. -/
def numeralOf (negative : Bool) (whole : List Char) (fraction : Option (List Char))
    (exponent : Option Int) : Option Numeral :=
  let (significand, _, beyond) := absorb 0 0 whole
  let binary := fun (significand : Nat) (exponent : Int) =>
    (scale significand exponent).map fun magnitude =>
      Numeral.binary (Binary64.ofMagnitude negative magnitude)
  match fraction, exponent with
  | none, none =>
    if beyond ≠ 0 then binary significand beyond
    else if negative then
      if 0 < significand ∧ significand ≤ 0x8000000000000000 then
        some (.integer (-(significand : Int)))
      else binary significand 0
    else some (.integer significand)
  | none, some exponent => binary significand (beyond + exponent)
  | some digits, exponent =>
    let (longer, appended, _) := absorb significand 0 digits
    binary longer (beyond - appended + exponent.getD 0)

def readNumeral (negative : Bool) (rest : Rest) : Option (Numeral × Rest) := do
  let (whole, rest) ← readWhole rest
  let (fraction, rest) ← readFraction rest
  let (exponent, rest) ← readExponent rest
  let numeral ← numeralOf negative whole fraction exponent
  return (numeral, rest)

/-! ## Values -/

/-- A value that is no array and no object, at its first character. -/
def readLeaf : Rest → Option (Json × Rest)
  | 'n' :: 'u' :: 'l' :: 'l' :: rest => some (.null, rest)
  | 't' :: 'r' :: 'u' :: 'e' :: rest => some (.bool true, rest)
  | 'f' :: 'a' :: 'l' :: 's' :: 'e' :: rest => some (.bool false, rest)
  | '"' :: rest => (readChars [] rest).map fun (text, rest) => (.string text, rest)
  | '-' :: rest => (readNumeral true rest).map fun (numeral, rest) => (.number numeral, rest)
  | rest => (readNumeral false rest).map fun (numeral, rest) => (.number numeral, rest)

/-- The name of a member and the colon after it. -/
def readKey : Rest → Option (String × Rest)
  | '"' :: rest => do
    let (key, rest) ← readChars [] rest
    match skipBlank rest with
    | ':' :: rest => some (key, rest)
    | _ => none
  | _ => none

mutual

/-- A value after blanks.  `depth` brackets may still be opened.  Of two nested calls at least one
reads a character, so twice the length of the text is fuel enough. -/
def readValue : (fuel depth : Nat) → Rest → Option (Json × Rest)
  | 0, _, _ => none
  | fuel + 1, depth, rest =>
    match skipBlank rest with
    | '[' :: rest =>
      match depth with
      | 0 => none
      | depth + 1 =>
        match skipBlank rest with
        | ']' :: rest => some (.array [], rest)
        | rest => (readItems fuel depth rest).map fun (items, rest) => (.array items, rest)
    | '\x7b' :: rest =>
      match depth with
      | 0 => none
      | depth + 1 =>
        match skipBlank rest with
        | '\x7d' :: rest => some (.object [], rest)
        | rest => (readMembers fuel depth rest).map fun (members, rest) => (.object members, rest)
    | rest => readLeaf rest

/-- The items of an array up to its closing bracket. -/
def readItems : (fuel depth : Nat) → Rest → Option (List Json × Rest)
  | 0, _, _ => none
  | fuel + 1, depth, rest =>
    match readValue fuel depth rest with
    | none => none
    | some (item, rest) =>
      match skipBlank rest with
      | ']' :: rest => some ([item], rest)
      | ',' :: rest => (readItems fuel depth rest).map fun (items, rest) => (item :: items, rest)
      | _ => none

/-- The members of an object up to its closing brace. -/
def readMembers : (fuel depth : Nat) → Rest → Option (List (String × Json) × Rest)
  | 0, _, _ => none
  | fuel + 1, depth, rest =>
    match readKey (skipBlank rest) with
    | none => none
    | some (key, rest) =>
      match readValue fuel depth rest with
      | none => none
      | some (value, rest) =>
        match skipBlank rest with
        | '\x7d' :: rest => some ([(key, value)], rest)
        | ',' :: rest =>
          (readMembers fuel depth rest).map fun (members, rest) => ((key, value) :: members, rest)
        | _ => none

end

end Json.Reader

/-- How many brackets may be open at once. -/
def Json.greatestDepth : Nat := 127

/-- The document a text holds, blanks around it apart. -/
def Json.parse? (text : String) : Option Json :=
  let chars := text.toList
  match Reader.readValue (2 * chars.length + 2) greatestDepth chars with
  | some (json, rest) => if (Reader.skipBlank rest).isEmpty then some json else none
  | none => none

end SchemaLoom
