import SchemaLoom.Schema.Basic

/-!
# The standard library

Positions of entities, and a restricted component of the system with one command.
-/

namespace SchemaLoom.Sample

namespace StandardLibrary

def coordinates : TypeDecl :=
  .declare "improbable.Coordinates"
    [.singular "x" 1 (.scalar .double),
      .singular "y" 2 (.scalar .double),
      .singular "z" 3 (.scalar .double)]

def position : ComponentDecl :=
  .declare "improbable.Position" 54
    [.singular "coords" 1 (.named "improbable.Coordinates"),
      .option "visible" 2 (.scalar .bool)]

def disconnectRequest : TypeDecl :=
  .declare "improbable.restricted.DisconnectRequest" []

def disconnectResponse : TypeDecl :=
  .declare "improbable.restricted.DisconnectResponse" []

def worker : ComponentDecl :=
  ComponentDecl.declare "improbable.restricted.Worker" 60
    [.singular "worker_id" 1 (.scalar .string),
      .singular "worker_type" 2 (.scalar .string)]
    |>.withCommand "disconnect" 1 "improbable.restricted.DisconnectRequest"
      "improbable.restricted.DisconnectResponse"

def bundle : Bundle where
  files :=
    [{ path := "improbable/standard_library.schema",
        package := { name := "improbable" },
        types := [coordinates],
        components := [position] },
      { path := "improbable/restricted/system_components.schema",
        package := { name := "improbable.restricted" },
        types := [disconnectRequest, disconnectResponse],
        components := [worker] }]

end StandardLibrary

end SchemaLoom.Sample
