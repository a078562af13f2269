import SchemaLoom.Text.Case

/-!
# Identifiers of generated code

Names of a schema become identifiers of Rust code.  A keyword is written as a raw identifier, and
the few keywords that cannot be raw take an underscore; anything else that is no identifier is
refused.
-/

namespace SchemaLoom

/-- What keeps code from being generated. -/
inductive EmitError where
  | invalidIdentifier (name : String)
  | invalidPath (path : String)
  | unknownDeclaration (name : String)
  | missingNested (name : String)
  | emptyEnum (name : String)
  deriving DecidableEq, Inhabited

def EmitError.message : EmitError → String
  | invalidIdentifier name => "'" ++ name ++ "' is not a valid Rust identifier"
  | invalidPath path => "'" ++ path ++ "' is not a valid Rust path"
  | unknownDeclaration name => "unknown declaration '" ++ name ++ "'"
  | missingNested name => "nested declaration '" ++ name ++ "' has no assembled outer type"
  | emptyEnum name => "enum '" ++ name ++ "' declares no values"

namespace Ident

def keywords : List String :=
  ["abstract", "as", "async", "await", "become", "box", "break", "const", "continue", "crate",
    "do", "dyn", "else", "enum", "extern", "false", "final", "fn", "for", "gen", "if", "impl",
    "in", "let", "loop", "macro", "match", "mod", "move", "mut", "override", "priv", "pub", "ref",
    "return", "self", "Self", "static", "struct", "super", "trait", "true", "try", "type",
    "typeof", "unsafe", "unsized", "use", "virtual", "where", "while", "yield"]

/-- The keywords that have no raw form. -/
def neverRaw : List String :=
  ["crate", "self", "Self", "super"]

def isKeyword (name : String) : Bool :=
  keywords.contains name

def isStartChar (char : Char) : Bool :=
  char.isAlpha || char = '_'

def isPartChar (char : Char) : Bool :=
  char.isAlphanum || char = '_'

/-- Letters, digits and underscores of ASCII, not a digit first and not a lone underscore. -/
def isValid (name : String) : Bool :=
  match name.toList with
  | [] => false
  | first :: rest => isStartChar first && rest.all isPartChar && !(first = '_' && rest.isEmpty)

/-- A keyword is written with the raw mark. -/
def written (name : String) : String :=
  if isKeyword name then "r#" ++ name else name

/-- A keyword without a raw form takes an underscore. -/
def escape (name : String) : String :=
  if neverRaw.contains name then name ++ "_" else name

theorem notMem_neverRaw_escape (name : String) : escape name ∉ neverRaw := by
  rw [escape]
  split
  · next hraw =>
    simp only [neverRaw, List.contains_cons, List.contains_nil, Bool.or_false, Bool.or_eq_true,
      beq_iff_eq] at hraw
    rcases hraw with rfl | rfl | rfl | rfl <;> decide
  · next hraw => simpa using hraw

end Ident

/-- An identifier as it is written. -/
structure Ident where
  text : String
  spelled : ∃ name, Ident.isValid name = true ∧ name ∉ Ident.neverRaw ∧ text = Ident.written name
  deriving DecidableEq

instance : Inhabited Ident := ⟨⟨"x", "x", rfl, by decide, rfl⟩⟩

namespace Ident

def ofName (name : String) : Except EmitError Ident :=
  let escaped := escape name
  if hvalid : isValid escaped then
    .ok ⟨written escaped, escaped, hvalid, notMem_neverRaw_escape name, rfl⟩
  else .error (.invalidIdentifier escaped)

/-- The name of the module, and the stem of the file, of a package segment or a declaration. -/
def moduleName (name : String) : String :=
  escape (Text.snake name)

def ofModule (name : String) : Except EmitError Ident :=
  ofName (moduleName name)

def ofField (name : String) : Except EmitError Ident :=
  ofName (Text.snake name)

def ofType (name : String) : Except EmitError Ident :=
  ofName name

def ofVariant (name : String) : Except EmitError Ident :=
  ofName (Text.pascal name)

/-- The constant that holds the number of a field. -/
def ofFieldId (name : String) : Except EmitError Ident :=
  ofName (Text.upper (Text.snake name) ++ "_FIELD_ID")

/-- A text before the name of a member. -/
def before (text name : String) : Except EmitError Ident :=
  ofName (text ++ Text.snake name)

/-- A text after the name of a member. -/
def after (name text : String) : Except EmitError Ident :=
  ofName (Text.snake name ++ text)

end Ident

end SchemaLoom
