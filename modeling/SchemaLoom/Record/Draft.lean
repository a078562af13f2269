import SchemaLoom.Record.Codec

/-!
# Drafts of updates

A draft gathers new values and events of a component before they are written into an update.
Fields are written in the order of their declarations, then events likewise.
-/

namespace SchemaLoom

open Wire

structure Draft where
  values : Record := []
  /-- Events by name, in the order in which they were added. -/
  events : List (String × Record) := []
  deriving Inhabited

namespace Draft

def setField (draft : Draft) (id : UInt32) (value : FieldValue) : Draft :=
  { draft with values := Record.insert id value draft.values }

def addEvent (draft : Draft) (name : String) (payload : Record) : Draft :=
  { draft with events := draft.events ++ [(name, payload)] }

def isEmpty (draft : Draft) : Bool :=
  draft.values.isEmpty && draft.events.isEmpty

/-- A draft of the named fields of a record. -/
def ofFields (type : ResolvedType) (record : Record) (names : List String) : Draft :=
  type.fields.foldl
    (fun draft field =>
      match names.contains field.name, Record.get? record field.id with
      | true, some value => draft.setField field.id value
      | _, _ => draft)
    {}

/-- The steps that write a draft: one for each field and one for each event. -/
def steps (draft : Draft) (codec : Codec) (type : ResolvedType) :
    List (Update → Update × Except CodecError Unit) :=
  let fields := type.fields.filterMap fun field =>
    (Record.get? draft.values field.id).map fun value update =>
      codec.updateField type.qualified update field.id value
  let events := type.events.flatMap fun event =>
    (draft.events.filter (·.1 == event.name)).map fun (name, payload) update =>
      codec.addEvent type.qualified name update payload
  fields ++ events

/-- Do steps in turn and stop at the first failure. -/
def performAll : List (Update → Update × Except CodecError Unit) → Update →
    Update × Except CodecError Unit
  | [], update => (update, .ok ())
  | step :: steps, update =>
    match step update with
    | (update, .ok ()) => performAll steps update
    | (update, .error error) => (update, .error error)

/-- Write a draft into an update. -/
def write (draft : Draft) (codec : Codec) (type : ResolvedType) (update : Update) :
    Update × Except CodecError Unit :=
  performAll (draft.steps codec type) update

end Draft

end SchemaLoom
