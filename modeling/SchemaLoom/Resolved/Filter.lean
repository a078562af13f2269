import SchemaLoom.Config
import SchemaLoom.Resolved.Basic
import SchemaLoom.Resolved.Reach

/-!
# Filtering fields

Every field of a declaration is checked, and then kept or dropped on its own: a field that refers
to the entity kind is dropped, and so is one that leads back to its type, unless it is a collection
and collections may recurse.
-/

namespace SchemaLoom

/-- What becomes of a field. -/
inductive Verdict where
  | keep (field : ResolvedField)
  | dropEntity (name : String)
  | dropRecursive (name : String)
  deriving BEq, Inhabited

namespace Verdict

def kept? : Verdict → Option ResolvedField
  | keep field => some field
  | _ => none

def omitted? : Verdict → Option String
  | dropRecursive name => some name
  | _ => none

def warning? (target : String) : Verdict → Option Warning
  | keep _ => none
  | dropEntity name => some (.entityField target name)
  | dropRecursive name => some (.recursiveField target name)

end Verdict

namespace Index

def checkType (index : Index) (referrer name : String) : Except ResolveError Unit :=
  if (index.type? name).isSome then .ok () else .error (.unknownType referrer name)

def checkEnum (index : Index) (referrer name : String) : Except ResolveError Unit :=
  if (index.enumeration? name).isSome then .ok () else .error (.unknownEnum referrer name)

def checkReference (index : Index) (referrer : String) : Reference → Except ResolveError Unit
  | .primitive _ => .ok ()
  | .enumeration name => index.checkEnum referrer name
  | .named name => index.checkType referrer name

/-- The id of a field must be new and everything it refers to must be declared. -/
def checkField (index : Index) (target : String) (earlier : List Field) (field : Field) :
    Except ResolveError Unit :=
  match earlier.find? (·.id == field.id) with
  | some first => .error (.duplicateFieldId target field.id first.name field.name)
  | none => field.references.forM (index.checkReference target)

/-- Check fields in order, given those already checked. -/
def checkFields (index : Index) (target : String) :
    (earlier fields : List Field) → Except ResolveError Unit
  | _, [] => .ok ()
  | earlier, field :: fields =>
    match index.checkField target earlier field with
    | .error error => .error error
    | .ok () => index.checkFields target (earlier ++ [field]) fields

/-- What becomes of a field of the target. -/
def judge (index : Index) (policy : RecursionPolicy) (target : String) (field : Field) : Verdict :=
  match field.shape.traverse? Element.ofReference? with
  | none => .dropEntity field.name
  | some shape =>
    let recursive := index.reaches field.shape target
    if !recursive || (shape.isCollection && policy == .keepCollections) then
      .keep
        { name := field.name, id := field.id, shape, recursive, transient := field.transient,
          annotations := field.annotations }
    else .dropRecursive field.name

end Index

/-- The outcome of filtering the fields of a declaration. -/
structure Filtered where
  fields : List ResolvedField
  omitted : List String
  warnings : List Warning
  deriving BEq, Inhabited

def Filtered.ofVerdicts (target : String) (verdicts : List Verdict) : Filtered where
  fields := verdicts.filterMap Verdict.kept?
  omitted := verdicts.filterMap Verdict.omitted?
  warnings := verdicts.filterMap (Verdict.warning? target)

/-- Filter the fields of the target. -/
def Index.filterFields (index : Index) (policy : RecursionPolicy) (target : String)
    (fields : List Field) : Except ResolveError Filtered :=
  match index.checkFields target [] fields with
  | .error error => .error error
  | .ok () => .ok (.ofVerdicts target (fields.map (index.judge policy target)))

end SchemaLoom
