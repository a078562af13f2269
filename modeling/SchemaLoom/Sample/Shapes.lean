import SchemaLoom.Schema.Basic

/-!
# All shapes

Every scalar kind, every shape over scalars, enumerations and named types, and a type that reaches
itself through lists, maps and options.
-/

namespace SchemaLoom.Sample

namespace Shapes

def point : TypeDecl :=
  .declare "shapes.Point"
    [.singular "x" 1 (.scalar .float),
      .singular "y" 2 (.scalar .sint64)]

def scalars : TypeDecl :=
  .declare "shapes.Scalars"
    [.singular "bool_value" 1 (.scalar .bool),
      .singular "int32_value" 2 (.scalar .int32),
      .singular "int64_value" 3 (.scalar .int64),
      .singular "uint32_value" 4 (.scalar .uint32),
      .singular "uint64_value" 5 (.scalar .uint64),
      .singular "sint32_value" 6 (.scalar .sint32),
      .singular "sint64_value" 7 (.scalar .sint64),
      .singular "fixed32_value" 8 (.scalar .fixed32),
      .singular "fixed64_value" 9 (.scalar .fixed64),
      .singular "sfixed32_value" 10 (.scalar .sfixed32),
      .singular "sfixed64_value" 11 (.scalar .sfixed64),
      .singular "float_value" 12 (.scalar .float),
      .singular "double_value" 13 (.scalar .double),
      .singular "string_value" 14 (.scalar .string),
      .singular "bytes_value" 15 (.scalar .bytes),
      .singular "entity_id_value" 16 (.scalar .entityId)]

def node : TypeDecl :=
  .declare "shapes.Node"
    [.singular "label" 1 (.scalar .string),
      .list "children" 2 (.named "shapes.Node"),
      .map "by_name" 3 (.scalar .string) (.named "shapes.Node"),
      .option "parent" 4 (.named "shapes.Node"),
      .singular "weight" 5 (.scalar .double),
      .map "by_mode" 6 (.enumeration "shapes.Mode") (.scalar .float)]

def okType : TypeDecl :=
  .declare "shapes.Ok" [.option "value" 1 (.scalar .int32)]

def errType : TypeDecl :=
  .declare "shapes.Err" [.singular "mode" 1 (.enumeration "shapes.Mode")]

def someType : TypeDecl :=
  .declare "shapes.Some"
    [.option "label" 1 (.scalar .string),
      .option "point" 2 (.named "shapes.Point")]

def noneType : TypeDecl :=
  .declare "shapes.None"
    [.list "items" 1 (.scalar .string),
      .option "flag" 2 (.scalar .bool)]

def mode : EnumDecl :=
  .declare "shapes.Mode" [("IDLE", 0), ("RUN", 1), ("JUMP", 5)]

def sample : ComponentDecl :=
  .declare "shapes.Sample" 2000
    [.singular "mode" 1 (.enumeration "shapes.Mode"),
      .singular "origin" 2 (.named "shapes.Point"),
      .option "label" 3 (.scalar .string),
      .option "blob" 4 (.scalar .bytes),
      .option "count" 5 (.scalar .int32),
      .option "fallback" 6 (.enumeration "shapes.Mode"),
      .option "target" 7 (.named "shapes.Point"),
      .list "tags" 8 (.scalar .string),
      .list "modes" 9 (.enumeration "shapes.Mode"),
      .list "path" 10 (.named "shapes.Point"),
      .list "samples" 11 (.scalar .double),
      .map "scores" 12 (.scalar .string) (.scalar .int32),
      .map "anchors" 13 (.enumeration "shapes.Mode") (.named "shapes.Point"),
      .map "chunks" 14 (.scalar .int64) (.scalar .bytes),
      .map "states" 15 (.scalar .uint32) (.enumeration "shapes.Mode")]

def bundle : Bundle where
  files :=
    [{ path := "shapes/shapes.schema",
        package := { name := "shapes" },
        types := [point, scalars, node, okType, errType, someType, noneType],
        enums := [mode],
        components := [sample] }]

end Shapes

end SchemaLoom.Sample
