import SchemaLoom.Schema.Index

/-!
# Reaching a type through fields

A type leads to every type that one of its fields names, in whatever shape.  `Index.reaches` asks
whether a shape leads to a target in any number of such steps; `Leads` is the relation it decides.
-/

namespace SchemaLoom

/-- The types a shape names. -/
def Shape.namedTypes (shape : Shape Reference) : List String :=
  shape.elements.filterMap Reference.named?

namespace Index

/-- The types that the fields of the named type name. -/
def successors (index : Index) (name : String) : List String :=
  match index.type? name with
  | some decl => decl.fields.flatMap fun field => field.shape.namedTypes
  | none => []

/-- One type leads to another in any number of steps, none included. -/
inductive Leads (index : Index) : String → String → Prop where
  | here (name : String) : Leads index name name
  | step {first second last : String} :
      second ∈ index.successors first → Leads index second last → Leads index first last

/-- The names that were not passed yet, once each. -/
def fresh (passed names : List String) : List String :=
  (names.filter fun name => !passed.contains name).eraseDups

/-- Pass the waiting names, then what they lead to and was not passed, at most `fuel` times.  What
a passed name leads to in one step is always passed or waiting. -/
def widen (index : Index) : (fuel : Nat) → (passed waiting : List String) → List String
  | 0, passed, waiting => passed ++ waiting
  | _ + 1, passed, [] => passed
  | fuel + 1, passed, waiting =>
    let passed := passed ++ waiting
    index.widen fuel passed (fresh passed (waiting.flatMap index.successors))

/-- Everything the names lead to.  Each round but the last passes a declared type that was not
passed before, so the number of declarations bounds them. -/
def reachable (index : Index) (names : List String) : List String :=
  index.widen (index.size + 1) [] names.eraseDups

/-- Whether a shape leads to the target. -/
def reaches (index : Index) (shape : Shape Reference) (target : String) : Bool :=
  (index.reachable shape.namedTypes).contains target

end Index

end SchemaLoom
