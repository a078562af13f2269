import SchemaLoom.Record.Codec

/-!
# Commands

A component's commands are sent to entities through a mailbox, which numbers the requests from one.
A response names the request it answers.
-/

namespace SchemaLoom

open Wire

/-- A payload on its way. -/
inductive Message where
  | request (entity : Int64) (component command : UInt32) (payload : Object)
  | response (request : Nat) (component command : UInt32) (payload : Object)
  deriving Inhabited

structure Mailbox where
  /-- How many requests were sent. -/
  requests : Nat := 0
  sent : List Message := []
  deriving Inhabited

namespace Mailbox

/-- Send a request; the result is its number. -/
def sendRequest (mailbox : Mailbox) (entity : Int64) (component command : UInt32)
    (payload : Object) : Mailbox × Nat :=
  let number := mailbox.requests + 1
  (⟨number, mailbox.sent ++ [.request entity component command payload]⟩, number)

def sendResponse (mailbox : Mailbox) (request : Nat) (component command : UInt32)
    (payload : Object) : Mailbox :=
  { mailbox with sent := mailbox.sent ++ [.response request component command payload] }

end Mailbox

/-- The command with the given index, if the component is meant. -/
def ResolvedType.command? (type : ResolvedType) (component index : UInt32) : Option Command :=
  if type.componentId = some component then type.commands.find? (·.index == index) else none

/-- The payload of a command; without an object it is the default record. -/
def Codec.payload (codec : Codec) (typeName : String) (object : Option Object) :
    Except CodecError Record :=
  match object with
  | some object => codec.decode typeName object
  | none => codec.defaultRecord typeName

/-- A component of one entity, to which commands can be sent. -/
structure CommandBinding where
  entity : Int64
  component : UInt32
  deriving DecidableEq, Inhabited

/-- Send a request through a binding. -/
def CommandBinding.send (binding : CommandBinding) (mailbox : Mailbox) (command : Command)
    (payload : Object) : Mailbox × Nat :=
  mailbox.sendRequest binding.entity binding.component command.index payload

end SchemaLoom
