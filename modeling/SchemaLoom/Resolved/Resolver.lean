import SchemaLoom.Resolved.Filter

/-!
# The resolver

A declaration is resolved after the types nested in it, innermost first.  What has been resolved is
remembered under its name, also when a later step of the same call fails; the memo never changes an
answer, only the work.
-/

namespace SchemaLoom

/-! ## Enumerations -/

/-- The first value that repeats an earlier one. -/
def firstRepeatedValue (seen : List UInt32) : List EnumValue → Option UInt32
  | [] => none
  | value :: rest =>
    if seen.contains value.value then some value.value
    else firstRepeatedValue (value.value :: seen) rest

def Index.resolveEnum (index : Index) (name : String) : Except ResolveError ResolvedEnum :=
  match index.enumeration? name, index.source? name with
  | some decl, some source =>
    if decl.values.isEmpty then .error (.emptyEnum name)
    else
      match firstRepeatedValue [] decl.values with
      | some value => .error (.duplicateEnumValue name value)
      | none =>
        .ok
          { qualified := decl.qualified, name := decl.name, outer := decl.outer, source,
            position := decl.position, values := decl.values, annotations := decl.annotations }
  | _, _ => .error (.unknownDeclaration name)

/-- All enumerations in the order of their names. -/
def Index.resolveEnums (index : Index) : Except ResolveError (List ResolvedEnum) :=
  index.enumerations.mapM fun decl => index.resolveEnum decl.qualified

/-! ## Types and components -/

/-- The part of a declaration that a resolved type is built from. -/
structure Declared where
  name : String
  outer : Option String
  componentId : Option UInt32
  fields : List Field
  /-- The type whose fields these are. -/
  target : String
  annotations : List Annotation
  position : Position
  events : List Event
  commands : List Command

/-- The fields of a component and the type they belong to. -/
def Index.componentFields (index : Index) (component : ComponentDecl) :
    Except ResolveError (List Field × String) :=
  match component.dataDefinition with
  | none => .ok (component.fields, component.qualified)
  | some data =>
    match index.type? data with
    | some decl => .ok (decl.fields, data)
    | none => .error (.unknownType component.qualified data)

def Index.declared (index : Index) (name : String) : Except ResolveError Declared :=
  match index.component? name, index.type? name with
  | some component, _ =>
    (index.componentFields component).map fun (fields, target) =>
      { name := component.name, outer := none, componentId := some component.componentId, fields,
        target, annotations := component.annotations, position := component.position,
        events := component.events, commands := component.commands }
  | none, some decl =>
    .ok
      { name := decl.name, outer := decl.outer, componentId := none, fields := decl.fields,
        target := name, annotations := decl.annotations, position := decl.position, events := [],
        commands := [] }
  | none, none => .error (.unknownDeclaration name)

/-- Every payload must be a type. -/
def Index.checkPayloads (index : Index) (name : String) (declared : Declared) :
    Except ResolveError Unit := do
  declared.events.forM fun event => index.checkType name event.payload
  declared.commands.forM fun command => do
    index.checkType name command.request
    index.checkType name command.response

/-- The resolved types known so far, in ascending order of their names. -/
abbrev Memo := List (String × Resolved)

namespace Memo

def get? (memo : Memo) (name : String) : Option Resolved :=
  (memo.find? (·.1 == name)).map (·.2)

def insert (memo : Memo) (name : String) (resolved : Resolved) : Memo :=
  match memo with
  | [] => [(name, resolved)]
  | (other, known) :: rest =>
    if name = other then (name, resolved) :: rest
    else if name < other then (name, resolved) :: (other, known) :: rest
    else (other, known) :: Memo.insert rest name resolved

end Memo

/-- Resolve a declaration whose nested types are all in the memo. -/
def Index.assemble (index : Index) (config : GenerateConfig) (memo : Memo) (name : String) :
    Except ResolveError Resolved := do
  let declared ← index.declared name
  index.checkPayloads name declared
  let filtered ← index.filterFields config.recursion declared.target declared.fields
  let nested ← (index.nestedTypes name).mapM fun child =>
    match memo.get? child with
    | some resolved => .ok resolved
    | none => .error (.unknownDeclaration child)
  let nestedEnums ← (index.nestedEnumerations name).mapM index.resolveEnum
  match index.source? name with
  | none => .error (.unknownDeclaration name)
  | some source =>
    .ok (.node
      { qualified := name, name := declared.name, outer := declared.outer,
        componentId := declared.componentId, restricted := config.isRestricted name,
        commandPayload := index.isCommandType name, source, position := declared.position,
        fields := filtered.fields, omitted := filtered.omitted, nestedEnums,
        annotations := declared.annotations, events := declared.events,
        commands := declared.commands, warnings := filtered.warnings }
      nested)

/-- The memo after an attempt, and how the attempt ended. -/
abbrev Attempt (α : Type) := Memo × Except ResolveError α

/-- Attempt a step on each name in turn and stop at the first failure. -/
def attemptAll (step : String → Memo → Attempt Unit) : List String → Memo → Attempt Unit
  | [], memo => (memo, .ok ())
  | name :: names, memo =>
    match step name memo with
    | (memo, .ok ()) => attemptAll step names memo
    | (memo, .error error) => (memo, .error error)

/-- Bring a declaration and all types nested in it into the memo.  `path` holds the declarations
that are being worked on; meeting one of them again is a cycle.  Nested types are taken in
descending order of their names.  Each level of nesting uses one unit of fuel, and a chain of
nested types without a cycle is no longer than the index. -/
def Index.settle (index : Index) (config : GenerateConfig) :
    (fuel : Nat) → (path : List String) → String → Memo → Attempt Unit
  | 0, _, name, memo => (memo, .error (.nestingCycle name))
  | fuel + 1, path, name, memo =>
    match memo.get? name with
    | some _ => (memo, .ok ())
    | none =>
      let children := index.nestedTypes name
      match children.find? fun child => (name :: path).contains child with
      | some child => (memo, .error (.nestingCycle child))
      | none =>
        match attemptAll (index.settle config fuel (name :: path)) children.reverse memo with
        | (memo, .error error) => (memo, .error error)
        | (memo, .ok ()) =>
          match index.assemble config memo name with
          | .error error => (memo, .error error)
          | .ok resolved => (memo.insert name resolved, .ok ())

/-- Resolve a type or component by its name. -/
def Index.resolve (index : Index) (config : GenerateConfig) (name : String) (memo : Memo) :
    Attempt Resolved :=
  match index.settle config (index.size + 2) [] name memo with
  | (memo, .error error) => (memo, .error error)
  | (memo, .ok ()) =>
    match memo.get? name with
    | some resolved => (memo, .ok resolved)
    | none => (memo, .error (.unknownDeclaration name))

/-- Resolve names in turn and stop at the first failure. -/
def Index.resolveEach (index : Index) (config : GenerateConfig) :
    List String → Memo → Attempt (List Resolved)
  | [], memo => (memo, .ok [])
  | name :: names, memo =>
    match index.resolve config name memo with
    | (memo, .error error) => (memo, .error error)
    | (memo, .ok resolved) =>
      match index.resolveEach config names memo with
      | (memo, .ok others) => (memo, .ok (resolved :: others))
      | (memo, .error error) => (memo, .error error)

/-- The names of all types and components, ascending. -/
def Index.resolvableNames (index : Index) : List String :=
  (index.entries.filter fun entry => entry.decl.kind != .enumeration).map Entry.name

/-- Resolve every type and component in the order of their names. -/
def Index.resolveAll (index : Index) (config : GenerateConfig) (memo : Memo) :
    Attempt (List Resolved) :=
  index.resolveEach config index.resolvableNames memo

/-- Of warnings about the same field of the same type only the first. -/
def distinctWarnings (seen : List (String × String)) : List Warning → List Warning
  | [] => []
  | warning :: rest =>
    let key := (warning.typeName, warning.field)
    if seen.contains key then distinctWarnings seen rest
    else warning :: distinctWarnings (key :: seen) rest

/-- The warnings of everything resolved so far, in the order of the names.  A component and its data
definition share theirs. -/
def Memo.warnings (memo : Memo) : List Warning :=
  distinctWarnings [] (memo.flatMap fun entry => entry.2.type.warnings)

end SchemaLoom
