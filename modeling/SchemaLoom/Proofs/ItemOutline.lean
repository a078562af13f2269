import SchemaLoom.Proofs.NeatItems

/-!
# The outline of an item

The code of a declaration is a sequence of blocks.  The named ones are read back in order: the
structure and what belongs to it, the enumeration of commands, and the builder of updates, or the
enumeration alone.  Beside them stand implementations of traits, which name no block.  Along the
way every path is seen to be one that the item refers to or one that leads to no declaration.
-/

namespace SchemaLoom

open Code

namespace Code

/-! ## Blocks after a head -/

/-- After the head, the code is neat and goes on with whole blocks, and these are the named ones. -/
structure Laid (known : Code → Prop) (head : Code) (left : Border) (code : Code)
    (blocks : List Block) : Prop where
  neat : Neat known left code .hard
  lists : Lists head code blocks

namespace Laid

variable {known : Code → Prop} {head code rest body : Code} {left middle right : Border}
  {blocks : List Block}

theorem nil : Laid known [] .hard [] [] :=
  ⟨.nil, .nil⟩

theorem lead (hcode : Neat known left code middle) (hflat : Flat code)
    (hrest : Laid known (head ++ code) middle rest blocks) :
    Laid known head left (code ++ rest) blocks :=
  ⟨hcode.append hrest.neat, hrest.lists.lead hflat⟩

/-- An attribute belongs to the head. -/
theorem leadAttribute {name : List Char} (hname : isPlainChars name = true)
    (hcode : Neat known .hard code right) (hflat : Flat code)
    (hrest : Laid known (head ++ marker (String.ofList name :: paren code)) .hard rest blocks) :
    Laid known head left (marker (String.ofList name :: paren code) ++ rest) blocks :=
  .lead (.marker (.cons (.word hname) (.paren hcode)))
    (.marker ((Flat.word hname).append hflat.paren)) hrest

theorem named {block : Block} (hhead : block? head body = some block)
    (hbody : Neat known .hard body right) (hrest : Laid known [] .hard rest blocks) :
    Laid known head left (brace body ++ rest) (block :: blocks) :=
  ⟨hbody.brace.append hrest.neat, .named hhead hbody.balanced hrest.lists⟩

theorem unnamed (hhead : block? head body = none) (hbody : Neat known .hard body right)
    (hrest : Laid known [] .hard rest blocks) : Laid known head left (brace body ++ rest) blocks :=
  ⟨hbody.brace.append hrest.neat, .unnamed hhead hbody.balanced hrest.lists⟩

/-- An implementation of what is the type's own. -/
theorem impl (name : Ident) (hbody : Neat known .hard body right)
    (hrest : Laid known [] .hard rest blocks) :
    Laid known [] .hard (["impl", name.text] ++ (brace body ++ rest))
      (⟨"impl", name.text, body⟩ :: blocks) :=
  .lead (.cons (.mark (by decide)) (.ident name)) ((Flat.word (by decide)).append (.ident name)) <|
  .named (block?_impl (isSegment_ident name)) hbody hrest

/-- A public type or module. -/
theorem visible {keyword : List Char} (name : Ident) (hplain : isPlainChars keyword = true)
    (hkeyword : String.ofList keyword ∈ ["struct", "enum", "mod"])
    (hbody : Neat known .hard body right) (hrest : Laid known [] .hard rest blocks) :
    Laid known head left (["pub", String.ofList keyword, name.text] ++ (brace body ++ rest))
      (⟨String.ofList keyword, name.text, body⟩ :: blocks) :=
  .lead (.cons (.word (by decide)) (.cons (.word hplain) (.ident name)))
    ((Flat.word (by decide)).append ((Flat.word hplain).append (.ident name))) <|
  .named (block?_public (isSegment_ident name) hkeyword) hbody hrest

theorem append {others : List Block} (hcode : Laid known head left code blocks)
    (hrest : Laid known [] .hard rest others) :
    Laid known head left (code ++ rest) (blocks ++ others) :=
  ⟨hcode.neat.append hrest.neat, hcode.lists.append hrest.lists⟩

/-- More paths may be known. -/
theorem mono {known' : Code → Prop} (hcode : Laid known head left code blocks)
    (hknown : ∀ path, known path → known' path) : Laid known' head left code blocks :=
  ⟨hcode.neat.mono hknown, hcode.lists⟩

end Laid

end Code

namespace Vocabulary

variable {runtime : Code} {own : Ident} {known : Code → Prop}
  (hwords : Vocabulary runtime own known)
  {chars : List Char} {body rest : Code} {right : Border} {blocks : List Block}
include hwords

theorem flat_item (hchars : isSupportChars (pieces chars) = true) :
    Flat (Phrase.item runtime (String.ofList chars)) :=
  .path (hwords.isPath_item (Bool.and_eq_true_iff.mp hchars).1)

/-- An implementation of a trait of the supporting library names no block. -/
theorem laid_support (hchars : isSupportChars (pieces chars) = true)
    (hbody : Neat known .hard body right) (hrest : Laid known [] .hard rest blocks) :
    Laid known [] .hard (["impl"] ++ (Phrase.item runtime (String.ofList chars) ++
      (["for", own.text] ++ (brace body ++ rest)))) blocks :=
  .lead (.mark (by decide)) (.word (by decide)) <|
  .lead (hwords.item hchars) (hwords.flat_item hchars) <|
  .lead (.cons (.mark (by decide)) (.ident own)) ((Flat.word (by decide)).append (.ident own)) <|
  .unnamed block?_for hbody hrest

/-- Nor does one of a standard trait. -/
theorem laid_standard (hchars : isFixedText (pieces chars) = true)
    (hlast : (pieces chars).getLast? = some ['f', 'o', 'r'])
    (hbody : Neat known .hard body right) (hrest : Laid known [] .hard rest blocks) :
    Laid known [] .hard (ofText (String.ofList chars) ++ ([own.text] ++ (brace body ++ rest)))
      blocks := by
  have hflat := (Bool.and_eq_true_iff.mp (Bool.and_eq_true_iff.mp hchars).1).1
  refine .lead (hwords.fixed_text hchars) (.words hflat) <|
    .lead (.ident own) (.ident own) <| .unnamed ?_ hbody hrest
  obtain ⟨init, hinit⟩ := List.getLast?_eq_some_iff.mp hlast
  rw [ofText_ofList, hinit, List.map_append, List.nil_append, List.append_assoc]
  exact block?_for

end Vocabulary

/-! ## The blocks of a type -/

/-- Attributes and the comments before them have no braces. -/
theorem flat_docComment (text : String) : Flat (docComment text) :=
  .marker ((Flat.words (by decide)).append (.plain (Neat.isPlain_literal text)))

namespace TypeCode

/-- The named blocks of the commands of a component. -/
def commandBlocks (code : TypeCode) : List Block :=
  if code.commands.isEmpty then []
  else [⟨"enum", "Commands", numberedVariants code.commandVariants⟩,
    ⟨"impl", "Commands", code.commandItems⟩]

/-- The named blocks of the builder of updates. -/
def builderBlocks (code : TypeCode) : List Block :=
  if code.type.supportsUpdates then
    [⟨"struct", code.builder.text, publicFields code.builderMembers⟩,
      ⟨"impl", code.builder.text, code.builderItems⟩]
  else []

def blocks (code : TypeCode) : List Block :=
  ⟨"struct", code.ident.text, publicFields code.members⟩ ::
    ⟨"impl", code.ident.text, code.inherentItems⟩ ::
      if code.type.isComponent then code.commandBlocks ++ code.builderBlocks else []

variable {code : TypeCode} {known : Code → Prop} {head rest : Code} {found : List Block}
variable (hwords : Vocabulary code.runtime code.ident known) (hrefers : code.Refers known)
variable (hrest : Laid known [] .hard rest found)

section Own

include hwords

theorem laid_useLine (hrest : Laid known [";"] .hard rest found) :
    Laid known head .hard (code.useLine ++ rest) found := by
  have hallow : Neat known .hard (marker ("allow" :: paren ["unused_imports"])) .hard :=
    .marker (.cons (.word (by decide)) (.paren (.word (by decide))))
  have hflat : Flat (marker ("allow" :: paren ["unused_imports"])) :=
    .marker ((Flat.word (by decide)).append (.paren (.word (by decide))))
  have hnames : Neat known .hard (ofText "SchemaObject as _ , SchemaUpdate as _") .soft :=
    .words (by decide)
  constructor
  · simp only [useLine, List.append_assoc]
    rw [← List.append_assoc ["::"], ← List.append_assoc code.runtime]
    exact .append hallow <| .append (.mark (by decide)) <| .append (hwords.imports hnames) <|
      .append (.mark (by decide)) hrest.neat
  · simp only [useLine, List.append_assoc]
    exact .lead hflat <| .lead (.word (by decide)) <| .lead (.path hwords.library) <|
      .lead .colons <| .unnamed (block?_of_getLast? rfl isSegment_colons) hnames.balanced <|
      .lead (.word (by decide)) hrest.lists

include hrefers hrest

theorem laid_declaration :
    Laid known head .hard (code.declaration ++ rest)
      (⟨"struct", code.ident.text, publicFields code.members⟩ :: found) := by
  simp only [declaration, List.append_assoc]
  exact .lead (.flatMap fun text _ => neat_docComment text)
      (.flatMap fun text _ => flat_docComment text) <|
    .leadAttribute (by decide) (.words (by decide)) (.words (by decide)) <|
    .visible code.ident (by decide) (by decide)
      (neat_publicFields (neat_members hwords hrefers)) hrest

theorem laid_inherent :
    Laid known [] .hard (code.inherent ++ rest)
      (⟨"impl", code.ident.text, code.inherentItems⟩ :: found) := by
  rw [inherent, List.append_assoc]
  exact .impl code.ident (neat_inherentItems hwords hrefers) hrest

theorem laid_schemaType : Laid known [] .hard (code.schemaType ++ rest) found := by
  have hpayload : Laid known [] .hard ((if code.type.commandPayload then
      ["impl"] ++ (code.lib "CommandPayload" ++ (["for", code.ident.text] ++ brace []))
      else []) ++ rest) found := by
    split
    · simp only [List.append_assoc]
      exact hwords.laid_support (by decide) .nil hrest
    · exact hrest
  simp only [schemaType, List.append_assoc] at hpayload ⊢
  refine hwords.laid_support (by decide) (?_ : Neat known .hard _ .hard) hpayload
  exact .append (.marks (by decide)) <| .append (.literal _) <|
    .append (.mark (by decide)) <| .append (.words (by decide)) <|
    .append (hwords.bound (by decide) (by decide)) <|
    .append (.paren (.marks (by decide))) <| .append (.mark (by decide)) <|
    .append (hwords.resultType (.word (by decide)) (hwords.item (by decide))) <|
    .append (.brace (neat_decodeBody hwords hrefers)) <| .append (.words (by decide)) <|
    .append (hwords.bound (by decide) (by decide)) <|
    .append (.paren (.words (by decide))) (.brace (neat_encodeBody hwords))

theorem laid_component : Laid known [] .hard (code.component ++ rest) found := by
  simp only [component, List.append_assoc]
  refine hwords.laid_support (by decide) (?_ : Neat known .hard _ .hard) hrest
  exact .append (.marks (by decide)) <| .append (hwords.item (by decide)) <|
    .append (.mark (by decide)) <| .append (.number _) <| .append (.mark (by decide)) <|
    .append (.words (by decide)) <|
    .append (hwords.bound (by decide) (by decide)) <|
    .append (.paren (.marks (by decide))) <| .append (.mark (by decide)) <|
    .append (hwords.resultType (.word (by decide)) (hwords.item (by decide)))
      (.brace (neat_mergeBody hwords hrefers))

omit hrefers

theorem laid_structuralTraits : Laid known [] .hard (code.structuralTraits ++ rest) found := by
  simp only [structuralTraits, List.append_assoc]
  refine hwords.laid_support (by decide) (?_ : Neat known .hard _ .hard) <|
    hwords.laid_support (by decide) (?_ : Neat known .hard _ .hard) hrest
  · exact .append (.words (by decide)) <| .append (.paren (.words (by decide))) <|
      .append (.words (by decide)) (.brace (neat_equalityBody hwords))
  · exact .append (.words (by decide)) <|
      .append (.angle ((Neat.marks (by decide)).append hwords.hasher)) <|
      .append (.paren (.words (by decide))) (.brace (neat_hashBody hwords))

theorem laid_standardTraits : Laid known [] .hard (code.standardTraits ++ rest) found := by
  simp only [standardTraits, List.append_assoc]
  refine hwords.laid_standard (by decide) (by decide) (?_ : Neat known .hard _ .hard) <|
    hwords.laid_standard (by decide) (by decide) .nil <|
    hwords.laid_standard (by decide) (by decide) (?_ : Neat known .hard _ .hard) hrest
  · exact .append (.words (by decide)) <| .append (.paren (.words (by decide))) <|
      .append (.words (by decide)) <| .brace <| .append (hwords.item (by decide))
        (.paren (.words (by decide)))
  · exact .append (.words (by decide)) <|
      .append (.angle ((Neat.marks (by decide)).append hwords.hasher)) <|
      .append (.paren (.words (by decide))) <| .brace <| .append (hwords.item (by decide)) <|
      .append (.paren (.words (by decide))) (.mark (by decide))

end Own

section Commands

include hwords hrest

theorem laid_commandEnum :
    Laid known [] .hard (code.commandEnum ++ rest)
      (⟨"enum", "Commands", numberedVariants code.commandVariants⟩ ::
        ⟨"impl", "Commands", code.commandItems⟩ :: found) := by
  have hname : isSegment "Commands" = true :=
    isSegment_ofList ['C', 'o', 'm', 'm', 'a', 'n', 'd', 's']
  have henum : ∀ {head body : Code}, block? (head ++ ofText "pub enum Commands") body =
      some ⟨"enum", "Commands", body⟩ := by
    intro head body
    rw [show ofText "pub enum Commands" = ["pub", "enum", "Commands"] from rfl]
    exact block?_public hname (by decide)
  have himpl : ∀ {head body : Code}, block? (head ++ ofText "impl Commands") body =
      some ⟨"impl", "Commands", body⟩ := by
    intro head body
    rw [show ofText "impl Commands" = ["impl", "Commands"] from rfl]
    exact block?_impl hname
  simp only [commandEnum, List.append_assoc]
  exact .leadAttribute (by decide) (.words (by decide)) (.words (by decide)) <|
    .leadAttribute (by decide) (.word (by decide)) (.word (by decide)) <|
    .lead (.words (by decide)) (.words (by decide)) <|
    .named henum (neat_numberedVariants _) <|
    .lead (.words (by decide)) (.words (by decide)) <|
    .named himpl (neat_commandItems hwords) hrest

theorem laid_commandBinding
    (hrequests : ∀ command ∈ code.commands, Neat.KnownPath known command.request) :
    Laid known [] .hard (code.commandBinding ++ rest) found := by
  have hparameters : ∀ {left : Border}, Neat known left
      (angle (ofText "'a , T :" ++ code.lib "CommandTransport")) .hard :=
    hwords.bound (by decide) (by decide)
  have hflat : Flat (angle (ofText "'a , T :" ++ code.lib "CommandTransport")) :=
    .angle ((Flat.words (by decide)).append (hwords.flat_item (by decide)))
  have hmethods : Neat known .hard (code.commands.flatMap code.boundMethod) .hard :=
    .flatMap fun command hcommand => neat_boundMethod hwords (hrequests command hcommand)
  simp only [commandBinding, List.append_assoc]
  refine .lead (.words (by decide)) (.words (by decide)) <| .lead hparameters hflat <|
    .unnamed (block?_angle _) (?_ : Neat known .hard _ .hard) <|
    .lead (.mark (by decide)) (.word (by decide)) <| .lead hparameters hflat <|
    .lead (.marks (by decide)) (.words (by decide)) <|
    .unnamed (block?_words (by decide)) (?_ : Neat known .hard _ .hard) hrest
  · exact .append (.marks (by decide)) <| .append (hwords.item (by decide)) (.mark (by decide))
  · exact .append (.words (by decide)) <|
      .append (.paren ((Neat.marks (by decide)).append (hwords.item (by decide)))) <|
      .append (.words (by decide)) <|
      .append (.brace (.cons (.word (by decide)) (.brace (.words (by decide))))) <|
      .append Vocabulary.mustUse <| .append (.words (by decide)) <|
      .append (.paren (.words (by decide))) <| .append (.mark (by decide)) <|
      .append (hwords.item (by decide)) <| .append (.brace (.words (by decide))) hmethods

include hrefers

variable (hcomponent : code.type.isComponent = true)
include hcomponent

theorem laid_commandCode :
    Laid known [] .hard (code.commandCode ++ rest) (code.commandBlocks ++ found) := by
  rw [commandCode, commandBlocks]
  split
  · exact hrest
  · rw [List.append_assoc]
    exact laid_commandEnum hwords (laid_commandBinding hwords hrest (hrefers.requests hcomponent))

theorem laid_updateBuilder :
    Laid known [] .hard (code.updateBuilder ++ rest)
      (⟨"struct", code.builder.text, publicFields code.builderMembers⟩ ::
        ⟨"impl", code.builder.text, code.builderItems⟩ :: found) := by
  simp only [updateBuilder, builderStruct, List.append_assoc]
  exact .leadAttribute (by decide) (.words (by decide)) (.words (by decide)) <|
    .visible code.builder (by decide) (by decide)
      (neat_publicFields (neat_builderMembers hwords hrefers hcomponent)) <|
    .impl code.builder (neat_builderItems hwords hrefers hcomponent) hrest

end Commands

include hwords hrefers

/-- The code of a type or component is read back as its named blocks. -/
theorem laid_text : Laid known head .hard code.text code.blocks := by
  have hcomponent : Laid known [] .hard (if code.type.isComponent then
      code.component ++ (code.commandCode ++
        if code.type.supportsUpdates then code.updateBuilder else []) else [])
      (if code.type.isComponent then code.commandBlocks ++ code.builderBlocks else []) := by
    split
    · next hcomponent =>
      refine laid_component hwords hrefers <| laid_commandCode hwords hrefers ?_ hcomponent
      rw [builderBlocks]
      split
      · rw [← List.append_nil code.updateBuilder]
        exact laid_updateBuilder hwords hrefers .nil hcomponent
      · exact .nil
    · exact .nil
  simp only [text, List.append_assoc]
  rw [equalityAndHash, List.append_assoc]
  exact laid_useLine hwords <| laid_declaration hwords hrefers <| laid_inherent hwords hrefers <|
    laid_schemaType hwords hrefers <| laid_structuralTraits hwords <|
    laid_standardTraits hwords hcomponent

end TypeCode

/-! ## The blocks of an enumeration -/

namespace EnumCode

def blocks (code : EnumCode) : List Block :=
  [⟨"enum", code.ident.text, numberedVariants code.numbered⟩]

variable {code : EnumCode} {known : Code → Prop} {head rest : Code} {found : List Block}
  (hwords : Vocabulary code.runtime code.ident known) (hrest : Laid known [] .hard rest found)
include hrest

theorem laid_declaration :
    Laid known head .hard (code.declaration ++ rest)
      (⟨"enum", code.ident.text, numberedVariants code.numbered⟩ :: found) := by
  simp only [declaration, List.append_assoc]
  exact .lead (neat_docComment _) (flat_docComment _) <|
    .leadAttribute (by decide) (.words (by decide)) (.words (by decide)) <|
    .leadAttribute (by decide) (.word (by decide)) (.word (by decide)) <|
    .visible code.ident (by decide) (by decide) (neat_numberedVariants _) hrest

include hwords

theorem laid_conversions : Laid known [] .hard (code.conversions ++ rest) found := by
  have hcases : Neat known .hard (code.numbered.flatMap fun variant =>
      number variant.2 ++ (["=>"] ++ (Phrase.ok ["Self", "::", variant.1.text] ++ [","]))) .hard :=
    .flatMap fun variant _ => .append (.number _) <| .append (.mark (by decide)) <|
      .append (hwords.ok (hwords.selfMember variant.1)) (.mark (by decide))
  have hunknown : Neat known .hard (Phrase.err (code.lib "DecodeError :: UnknownEnumValue" ++
      brace (ofText "enum_name :" ++ (Phrase.call (literal code.decl.qualified) "to_string" [] ++
        ofText ", value ,")))) .hard :=
    hwords.err <| .append (hwords.item (by decide)) <| .brace <| .append (.marks (by decide)) <|
      .append (Vocabulary.call_nil (.literal _) (.word (by decide))) (.marks (by decide))
  have hfor : ∀ {head body : Code}, block? (head ++ ofText "for u32") body = none := by
    intro head body
    rw [show ofText "for u32" = ["for", "u32"] from rfl]
    exact block?_for
  simp only [conversions, List.append_assoc]
  refine hwords.laid_standard (by decide) (by decide) (?_ : Neat known .hard _ .hard) <|
    hwords.laid_standard (by decide) (by decide) (?_ : Neat known .hard _ .hard) <|
    .lead (hwords.fixed_text (by decide)) (.words (by decide)) <|
    .lead (.angle (.ident _)) (.angle (.ident _)) <|
    .lead (.words (by decide)) (.words (by decide)) <|
    .unnamed hfor (?_ : Neat known .hard _ .hard) hrest
  · exact .append (.words (by decide)) <| .append (.paren .nil) <|
      .append (.words (by decide)) (.brace (hwords.selfMember code.default))
  · exact .append (.marks (by decide)) <| .append (hwords.item (by decide)) <|
      .append (.mark (by decide)) <| .append (.words (by decide)) <|
      .append (.paren (.words (by decide))) <| .append (.mark (by decide)) <|
      .append (hwords.resultType (.word (by decide)) (hwords.fixed_text (by decide))) <| .brace <|
      .append (.words (by decide)) <| .brace <| .append hcases <| .append (.marks (by decide)) <|
      .append hunknown (.mark (by decide))
  · exact .append (.words (by decide)) <|
      .append (.paren ((Neat.marks (by decide)).append (.ident _))) <|
      .append (.words (by decide)) (.brace (.words (by decide)))

theorem laid_wireEnum : Laid known [] .hard (code.wireEnum ++ rest) found := by
  simp only [wireEnum, List.append_assoc]
  refine hwords.laid_support (by decide) (?_ : Neat known .hard _ .hard) hrest
  exact .append (.marks (by decide)) <| .append (.literal _) <| .append (.mark (by decide)) <|
    .append (.words (by decide)) <| .append (.paren (.words (by decide))) <|
    .append (.mark (by decide)) <|
    .append (hwords.resultType (.word (by decide)) (hwords.item (by decide))) <|
    .append (.brace ((hwords.fixed_text (by decide)).append (.paren (.word (by decide))))) <|
    .append (.words (by decide)) <| .append (.paren (.word (by decide))) <|
    .append (.words (by decide)) (.brace (.words (by decide)))

theorem laid_equalityAndHash : Laid known [] .hard (code.equalityAndHash ++ rest) found := by
  simp only [equalityAndHash, List.append_assoc]
  refine hwords.laid_support (by decide) (?_ : Neat known .hard _ .hard) <|
    hwords.laid_support (by decide) (?_ : Neat known .hard _ .hard) hrest
  · exact .append (.words (by decide)) <| .append (.paren (.words (by decide))) <|
      .append (.words (by decide)) (.brace (.words (by decide)))
  · exact .append (.words (by decide)) <|
      .append (.angle ((Neat.marks (by decide)).append hwords.hasher)) <|
      .append (.paren (.words (by decide))) <| .brace <| .append (hwords.fixed_text (by decide)) <|
      .append (.paren (.words (by decide))) (.mark (by decide))

omit hrest

/-- The code of an enumeration is read back as one named block. -/
theorem laid_text : Laid known head .hard code.text code.blocks := by
  rw [← List.append_nil code.text]
  simp only [text, List.append_assoc]
  exact laid_declaration <| laid_conversions hwords <| laid_wireEnum hwords <|
    laid_equalityAndHash hwords .nil

end EnumCode

/-! ## Paths in the code of an item -/

/-- The paths of the types that the elements of a field are named after. -/
def FieldCode.paths (field : FieldCode) : List Code :=
  (field.shape.elements.filter (·.element.target?.isSome)).map (·.path)

def CommandCode.paths (command : CommandCode) : List Code :=
  command.request :: (command.response.map (·.path)).toList

namespace Item

/-- The paths of the types that the code of an item refers to. -/
def paths : Item → List Code
  | type code =>
    code.fields.flatMap (·.paths) ++
      if code.type.isComponent then
        code.events.map (·.payload) ++ code.commands.flatMap (·.paths)
      else []
  | enumeration _ => []

/-- The path of the supporting library. -/
def runtime : Item → Code
  | type code => code.runtime
  | enumeration code => code.runtime

/-- The paths that may stand in the code of an item. -/
def Known (item : Item) (path : Code) : Prop :=
  path ∈ item.paths ∨ Fixed item.runtime item.ident path

/-- The paths that an item is given are paths in its code, not mere names. -/
structure Spelled (item : Item) : Prop where
  runtime : IsPath item.runtime
  paths : ∀ path ∈ item.paths, IsPath path ∧ "::" ∈ path

variable {item : Item}

theorem Spelled.vocabulary (hspelled : item.Spelled) :
    Vocabulary item.runtime item.ident item.Known :=
  ⟨hspelled.runtime, fun _ hfixed => .inr hfixed⟩

theorem Spelled.knownPath (hspelled : item.Spelled) {path : Code} (hpath : path ∈ item.paths) :
    Neat.KnownPath item.Known path :=
  ⟨(hspelled.paths path hpath).1, (hspelled.paths path hpath).2, .inl hpath⟩

theorem Spelled.refers {code : TypeCode} (hspelled : (type code).Spelled) :
    code.Refers (type code).Known where
  fields field hfield element helement htarget := by
    refine hspelled.knownPath (List.mem_append_left _ (List.mem_flatMap.mpr ⟨field, hfield, ?_⟩))
    exact List.mem_map_of_mem (List.mem_filter.mpr ⟨helement, htarget⟩)
  events hcomponent event hevent := by
    refine hspelled.knownPath (List.mem_append_right _ ?_)
    rw [if_pos hcomponent]
    exact List.mem_append_left _ (List.mem_map_of_mem hevent)
  requests hcomponent command hcommand := by
    refine hspelled.knownPath (List.mem_append_right _ ?_)
    rw [if_pos hcomponent]
    exact List.mem_append_right _ (List.mem_flatMap.mpr ⟨command, hcommand, List.mem_cons_self⟩)
  responses hcomponent command hcommand response hresponse := by
    refine hspelled.knownPath (List.mem_append_right _ ?_)
    rw [if_pos hcomponent]
    refine List.mem_append_right _ (List.mem_flatMap.mpr ⟨command, hcommand, ?_⟩)
    exact List.mem_cons_of_mem _ (by simp [Option.mem_def.mp hresponse])

/-- The named blocks of the code of an item. -/
def blocks : Item → List Block
  | type code => code.blocks
  | enumeration code => code.blocks

/-- The code of an item is read back as its named blocks, and all paths in it are known. -/
theorem Spelled.laid_text (hspelled : item.Spelled) (head : Code) :
    Laid item.Known head .hard item.text item.blocks := by
  cases item with
  | type code => exact TypeCode.laid_text hspelled.vocabulary hspelled.refers
  | enumeration code => exact EnumCode.laid_text hspelled.vocabulary

end Item

end SchemaLoom
