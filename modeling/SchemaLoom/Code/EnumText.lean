import SchemaLoom.Code.TypeText

/-!
# The code of an enumeration

An enumeration over 32-bit numbers with a checked conversion from the wire.
-/

namespace SchemaLoom

open Code Phrase

namespace EnumCode

/-- An item of the supporting library. -/
def lib (code : EnumCode) (name : String) : Code :=
  item code.runtime name

/-- The variants with their numbers. -/
def numbered (code : EnumCode) : List (Ident × UInt32) :=
  code.variants.zip (code.decl.values.map (·.value))

def declaration (code : EnumCode) : Code :=
  docComment (originDoc code.decl.source code.decl.position) ++
    marker ("derive" :: paren (ofText "Clone , Copy , Debug , Eq , Hash , PartialEq")) ++
    marker ("repr" :: paren ["u32"]) ++ ["pub", "enum", code.ident.text] ++
    brace (numberedVariants code.numbered)

def conversions (code : EnumCode) : Code :=
  let name := code.ident.text
  ofText "impl :: core :: default :: Default for" ++ [name] ++
    brace (ofText "fn default" ++ paren [] ++ ofText "-> Self" ++
      brace ["Self", "::", code.default.text]) ++
  ofText "impl :: core :: convert :: TryFrom < u32 > for" ++ [name] ++
    brace (ofText "type Error =" ++ code.lib "DecodeError" ++ [";"] ++
      ofText "fn try_from" ++ paren (ofText "value : u32") ++ ["->"] ++
        resultType ["Self"] (ofText "Self :: Error") ++
        brace (ofText "match value" ++
          brace ((code.numbered.flatMap fun variant =>
              number variant.2 ++ ["=>"] ++ ok ["Self", "::", variant.1.text] ++ [","]) ++
            ofText "_ =>" ++
            err (code.lib "DecodeError :: UnknownEnumValue" ++
              brace (ofText "enum_name :" ++ call (literal code.decl.qualified) "to_string" [] ++
                ofText ", value ,")) ++ [","]))) ++
  ofText "impl :: core :: convert :: From" ++ angle [name] ++ ofText "for u32" ++
    brace (ofText "fn from" ++ paren (ofText "value :" ++ [name]) ++ ofText "-> Self" ++
      brace (ofText "value as Self"))

def wireEnum (code : EnumCode) : Code :=
  ["impl"] ++ code.lib "WireEnum" ++ ["for", code.ident.text] ++
    brace (ofText "const SCHEMA_NAME : & 'static str =" ++ literal code.decl.qualified ++ [";"] ++
      ofText "fn from_wire" ++ paren (ofText "value : u32") ++ ["->"] ++
        resultType ["Self"] (code.lib "DecodeError") ++
        brace (ofText "< Self as :: core :: convert :: TryFrom < u32 >> :: try_from" ++
          paren ["value"]) ++
      ofText "fn to_wire" ++ paren ["self"] ++ ofText "-> u32" ++ brace (ofText "self as u32"))

def equalityAndHash (code : EnumCode) : Code :=
  ["impl"] ++ code.lib "SchemaEq" ++ ["for", code.ident.text] ++
    brace (ofText "fn schema_eq" ++ paren (ofText "& self , other : & Self") ++ ofText "-> bool" ++
      brace (ofText "self == other")) ++
  ["impl"] ++ code.lib "SchemaHash" ++ ["for", code.ident.text] ++
    brace (ofText "fn schema_hash" ++ angle (ofText "H :" ++ hasher) ++
      paren (ofText "& self , state : & mut H") ++
      brace (ofText ":: core :: hash :: Hash :: hash" ++ paren (ofText "self , state") ++ [";"]))

/-- All code of an enumeration, nested declarations apart. -/
def text (code : EnumCode) : Code :=
  code.declaration ++ code.conversions ++ code.wireEnum ++ code.equalityAndHash

end EnumCode

end SchemaLoom
