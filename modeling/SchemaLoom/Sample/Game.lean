import SchemaLoom.Schema.Basic

/-!
# A small game

Players with data of their own, a command and an event; a type that contains itself, and nested
declarations.
-/

namespace SchemaLoom.Sample

namespace Game

def empty : TypeDecl :=
  .declare "game.Empty" []

def selfType : TypeDecl :=
  .declare "game.SelfType"
    [.singular "label" 1 (.scalar .string),
      .list "children" 2 (.named "game.SelfType")]

def tree : TypeDecl :=
  .declare "game.Tree"
    [.option "root" 1 (.named "game.Tree.Node"),
      .singular "kind" 2 (.enumeration "game.Tree.Kind")]

def treeNode : TypeDecl :=
  TypeDecl.nestedIn (.declare "game.Tree.Node"
    [.list "leaves" 1 (.named "game.Tree.Node.Leaf")]) "game.Tree"

def treeNodeLeaf : TypeDecl :=
  TypeDecl.nestedIn (.declare "game.Tree.Node.Leaf"
    [.singular "weight" 1 (.scalar .float)]) "game.Tree.Node"

def loadout : TypeDecl :=
  .declare "game.Loadout"
    [.map "ammo" 1 (.scalar .string) (.scalar .int32),
      .list "perks" 2 (.scalar .string),
      .option "nickname" 3 (.scalar .string),
      .option "badge" 4 (.scalar .bytes),
      .option "team" 5 (.enumeration "game.Team"),
      .singular "owner" 6 (.primitive .entity),
      .singular "type" 7 (.scalar .uint32),
      .singular "target" 8 (.scalar .entityId)]

def levelUp : TypeDecl :=
  .declare "game.LevelUp" [.singular "level" 1 (.scalar .uint32)]

def healRequest : TypeDecl :=
  .declare "game.HealRequest" [.singular "amount" 1 (.scalar .sint32)]

def healResponse : TypeDecl :=
  .declare "game.HealResponse" [.singular "health" 1 (.scalar .sint32)]

def playerData : TypeDecl :=
  .declare "game.PlayerData"
    [.singular "name" 1 (.scalar .string),
      .singular "health" 2 (.scalar .sint32),
      .singular "loadout" 3 (.named "game.Loadout"),
      .option "speed" 4 (.scalar .float)]

def team : EnumDecl :=
  .declare "game.Team" [("RED", 1), ("BLUE", 2)]

def treeKind : EnumDecl :=
  EnumDecl.nestedIn (.declare "game.Tree.Kind" [("OAK", 0), ("PINE", 1)]) "game.Tree"

def player : ComponentDecl :=
  ComponentDecl.declare "game.Player" 1000 []
    |>.withData "game.PlayerData"
    |>.withCommand "heal" 1 "game.HealRequest" "game.HealResponse"
    |>.withEvent "levelled_up" 1 "game.LevelUp"

def bundle : Bundle where
  files :=
    [{ path := "game/player.schema",
        package := { name := "game" },
        imports := [{ path := "improbable/standard_library.schema" }],
        types := [empty, selfType, tree, treeNode, treeNodeLeaf, loadout, levelUp, healRequest,
          healResponse, playerData],
        enums := [team, treeKind],
        components := [player] }]

end Game

end SchemaLoom.Sample
