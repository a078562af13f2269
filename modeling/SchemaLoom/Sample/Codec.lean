import SchemaLoom.Record.Codec
import SchemaLoom.Resolved.Resolver
import SchemaLoom.Sample.Game
import SchemaLoom.Sample.Shapes
import SchemaLoom.Sample.StandardLibrary

/-!
# The codec of the sample schemas

The samples are resolved each under its own policy and share one codec.
-/

namespace SchemaLoom.Sample

/-- The resolved types and enumerations of a bundle; none if it cannot be resolved. -/
def resolved (bundle : Bundle) (recursion : RecursionPolicy) :
    List Resolved × List ResolvedEnum :=
  match Index.ofBundle bundle with
  | .error _ => ([], [])
  | .ok index =>
    let config := { GenerateConfig.standard with recursion }
    match (index.resolveAll config []).2, index.resolveEnums with
    | .ok types, .ok enums => (types, enums)
    | _, _ => ([], [])

def codec : Codec :=
  let standard := resolved StandardLibrary.bundle .strict
  let game := resolved Game.bundle .strict
  let shapes := resolved Shapes.bundle .keepCollections
  Codec.ofResolved (standard.1 ++ game.1 ++ shapes.1) (standard.2 ++ game.2 ++ shapes.2)

end SchemaLoom.Sample
