import SchemaLoom.Schema.Index

/-!
# The order of emission

A declaration is emitted before the one it is nested in: the deepest declarations come first, and
of equally deep ones the one with the lesser name.
-/

namespace SchemaLoom

namespace Index

/-- The length of a chain of outer declarations, with at most `fuel` steps after the first. -/
def depthWithin (index : Index) : (fuel : Nat) → (name : String) → Nat
  | fuel, name =>
    match index.outer? name, fuel with
    | none, _ => 0
    | some _, 0 => 1
    | some outer, fuel + 1 => index.depthWithin fuel outer + 1

/-- How deep a declaration is nested.  A chain that runs into a cycle counts one more than there are
declarations. -/
def nestingDepth (index : Index) (name : String) : Nat :=
  index.depthWithin index.size name

/-- Whether a name with its depth may stand before another one. -/
def emittedBefore (left right : Nat × String) : Bool :=
  right.1 < left.1 || (left.1 == right.1 && left.2 ≤ right.2)

/-- Each name once, deepest first, then ascending. -/
def emissionOrder (index : Index) (names : List String) : List String :=
  let graded := names.eraseDups.map fun name => (index.nestingDepth name, name)
  (graded.mergeSort emittedBefore).map (·.2)

end Index

end SchemaLoom
