import SchemaLoom.Proofs.NeatText

/-!
# Blocks that read well

What stands inside the blocks of a declaration is neat: its braces are balanced, and every path in
it either is the path of a type that the declaration refers to or leads to no declaration.  The
lemmas follow the functions that write the code of a type, one by one.
-/

namespace SchemaLoom

open Code

/-! ## Paths of members -/

namespace Vocabulary

variable {runtime : Code} {own : Ident} {known : Code → Prop}
  (hwords : Vocabulary runtime own known)
include hwords

theorem member {owner name : String} (howner : owner ∈ ["Self", "Commands", "U", "clippy"])
    (hsegment : isSegment owner = true) (hname : isSegment name = true) :
    Neat known .hard [owner, "::", name] .soft :=
  .path ⟨(IsPath.singleton hsegment).snoc hname, by simp, hwords.fixed _ (.member howner name)⟩

theorem selfMember (ident : Ident) : Neat known .hard ["Self", "::", ident.text] .soft :=
  hwords.member (.head _) (isSegment_ofList ['S', 'e', 'l', 'f']) (isSegment_ident ident)

theorem commandsMember (ident : Ident) : Neat known .hard ["Commands", "::", ident.text] .soft :=
  hwords.member (.tail _ (.head _)) (isSegment_ofList ['C', 'o', 'm', 'm', 'a', 'n', 'd', 's'])
    (isSegment_ident ident)

theorem ownMember (ident : Ident) : Neat known .hard [own.text, "::", ident.text] .soft :=
  .path ⟨(IsPath.singleton (isSegment_ident own)).snoc (isSegment_ident ident), by simp,
    hwords.fixed _ (.ownMember ident.text)⟩

end Vocabulary

/-! ## Parts of items -/

section Parts

variable {known : Code → Prop} {left : Border}

theorem neat_docComment (text : String) : Neat known left (docComment text) .hard :=
  .marker ((Neat.marks (by decide)).append (.literal text))

theorem neat_publicFields {members : List (Ident × Code)}
    (hmembers : ∀ member ∈ members, Neat known .hard member.2 .soft) :
    Neat known .hard (publicFields members) .hard := by
  refine .terminated ?_
  rw [List.forall_mem_map]
  intro member hmember
  exact (Neat.cons (.word (by decide)) (.cons (.ident _) (.mark (by decide)))).append
    (hmembers member hmember)

theorem neat_numberedVariants (variants : List (Ident × UInt32)) :
    Neat known .hard (numberedVariants variants) .hard := by
  refine .terminated ?_
  rw [List.forall_mem_map]
  intro variant _
  exact (Neat.cons (.ident _) (.mark (by decide))).append (.number _)

theorem FieldCode.neat_ofValue (field : FieldCode) {value : String}
    (hvalue : Neat known left [value] .soft) : Neat known left (field.ofValue value) .soft :=
  .cons hvalue (.cons (.mark (by decide)) (.ident _))

theorem neat_ownField (name : Ident) : Neat known left ["self", ".", name.text] .soft :=
  .cons (.word (by decide)) (.cons (.mark (by decide)) (.ident name))

end Parts

/-! ## The code of a type -/

/-- The types that a type refers to have known paths.  Only components refer to those of events and
commands. -/
structure TypeCode.Refers (code : TypeCode) (known : Code → Prop) : Prop where
  fields : ∀ field ∈ code.fields, ∀ element ∈ field.shape.elements, element.Known known
  events : code.type.isComponent = true → ∀ event ∈ code.events, Neat.KnownPath known event.payload
  requests : code.type.isComponent = true →
    ∀ command ∈ code.commands, Neat.KnownPath known command.request
  responses : code.type.isComponent = true →
    ∀ command ∈ code.commands, ∀ response ∈ command.response, Neat.KnownPath known response.path

namespace TypeCode

variable {code : TypeCode} {known : Code → Prop} {left : Border}
variable (hwords : Vocabulary code.runtime code.ident known)

section Fields

variable {field : FieldCode} (hshape : ∀ element ∈ field.shape.elements, element.Known known)
include hwords

theorem neat_id (field : FieldCode) : Neat known .hard field.id .soft :=
  hwords.selfMember field.idConst

omit hwords in
theorem neat_parameterRef (element : Element) : Neat known .hard (parameterRef element) .soft := by
  rw [parameterRef]
  split
  · exact .word (by decide)
  · exact .words (by decide)

include hshape

theorem neat_updaterParts : Neat known .hard (code.updaterParts field).1 .soft ∧
    Neat known .hard (code.updaterParts field).2 .soft := by
  have hid := neat_id hwords field
  have hclear : Neat known .hard (Phrase.call ["update"] "add_cleared_field" [field.id]) .hard :=
    Vocabulary.call_singleton (.word (by decide)) (.word (by decide)) hid
  have htarget : ∀ {write : Code}, Neat known .hard write .hard →
      Neat known .hard (ofText "let fields =" ++
        (Phrase.call ["update"] "fields_mut" [] ++ ([";"] ++ write))) .hard :=
    fun hwrite => .append (.marks (by decide)) <|
      .append (Vocabulary.call_nil (.word (by decide)) (.word (by decide))) <|
      .append (.mark (by decide)) hwrite
  have hwrite : ∀ element : Element, Neat known .hard
      (Phrase.writeElement code.runtime element ["fields"] field.id (parameterRef element)) .hard :=
    fun element => hwords.writeElement element (.word (by decide)) hid (neat_parameterRef element)
  have htype := hwords.fieldType hshape
  simp only [updaterParts, List.append_assoc]
  cases hfield : field.shape with
  | singular element =>
    rw [hfield] at hshape
    exact ⟨hwords.parameterType (hshape element (.head _)), (htarget (hwrite _)).soften⟩
  | option element =>
    rw [hfield] at hshape
    refine ⟨(hwords.optionType (hwords.parameterType (hshape element (.head _)))).soften, ?_⟩
    exact .soften <| .append (.words (by decide)) <| .brace <|
      .append (hwords.present (.word (by decide))) <| .append (.mark (by decide)) <|
      .append (.brace (htarget (hwrite _))) <| .append hwords.absent <|
      .append (.mark (by decide)) <| .append hclear (.mark (by decide))
  | _ =>
    refine ⟨.cons (.mark (by decide)) htype, ?_⟩
    exact .soften <| .append (.mark (by decide)) <|
      .append (Vocabulary.call_nil (.word (by decide)) (.word (by decide))) <|
      .append (.brace (hclear.append (.mark (by decide)))) <| .append (.word (by decide)) <|
      .brace (htarget (hwords.writeField _ (.word (by decide)) hid
        (Neat.paren (.words (by decide))).soften))

theorem neat_updater : Neat known left (code.updater field) .hard := by
  obtain ⟨hparameter, hbody⟩ := neat_updaterParts hwords hshape
  simp only [updater, List.append_assoc]
  exact .append (.introduced (by decide) _) <|
    .append (hwords.bound (by decide) (by decide)) <|
    .append (.paren ((Neat.marks (by decide)).append hparameter)) (.brace hbody)

omit hshape in
theorem neat_missingFieldCheck (field : FieldCode) :
    Neat known .hard (code.missingFieldCheck field) .hard := by
  have hid := neat_id hwords field
  have htext : ∀ text, Neat known .hard (Phrase.call (literal text) "to_string" []) .hard :=
    fun text => Vocabulary.call_nil (.literal text) (.word (by decide))
  simp only [missingFieldCheck, List.append_assoc]
  exact .append (.mark (by decide)) <| .append (Vocabulary.callCount (.word (by decide)) _ hid) <|
    .append (.words (by decide)) <| .brace <| .append (.mark (by decide)) <|
    .append (hwords.err <| .append (hwords.item (by decide)) <| .brace <|
      .append (.marks (by decide)) <| .append (htext _) <| .append (.mark (by decide)) <|
      .append (.marks (by decide)) <| .append (htext _) <| .append (.mark (by decide)) <|
      .append (.marks (by decide)) <| .append hid (.mark (by decide)))
    (.mark (by decide))

theorem neat_fieldReading : Neat known left (code.fieldReading field) .soft := by
  have hvalue : Neat known .hard (Phrase.readField code.runtime field ["fields"] field.id) .soft :=
    hwords.readField hshape (.word (by decide)) (neat_id hwords field)
  refine (Neat.cons (.ident _) (.mark (by decide))).append ?_
  cases hfield : field.shape with
  | singular element =>
    exact (Neat.brace ((neat_missingFieldCheck hwords field).append hvalue)).soften
  | _ => exact hvalue

theorem neat_fieldMerge : Neat known .hard (code.fieldMerge field) .hard := by
  have hid := neat_id hwords field
  have hnext : Neat known .hard (field.ofValue "next") .soft :=
    field.neat_ofValue (.word (by decide))
  have hcleared : Neat known .hard (Phrase.call ["update"] "is_cleared" [field.id]) .hard :=
    Vocabulary.call_singleton (.word (by decide)) (.word (by decide)) hid
  have hassign : ∀ {left : Border} {value : Code}, Neat known .hard value .soft →
      Neat known left (brace (field.ofValue "next" ++ (["="] ++ (value ++ [";"])))) .hard :=
    fun hvalue => .brace <| .append hnext <| .append (.mark (by decide)) <|
      .append hvalue (.mark (by decide))
  simp only [fieldMerge, List.append_assoc]
  exact .append (.mark (by decide)) <| .append (Vocabulary.callCount (.word (by decide)) _ hid) <|
    .append (.words (by decide)) <|
    .append (hassign (hwords.readField hshape (.word (by decide)) hid)) <|
    .append (.marks (by decide)) <| .append hcleared (hassign (hwords.emptyValue _))

end Fields

section Events

variable {event : EventCode} (hpayload : Neat.KnownPath known event.payload)
include hwords hpayload

theorem neat_eventAccessor : Neat known left (code.eventAccessor event) .hard := by
  have hindex : Neat known .hard (number event.event.index) .soft := .number _
  have hobject : Neat known .hard
      (Phrase.call ["events"] "index_object" [number event.event.index, ["i"]]) .hard :=
    Vocabulary.call_pair (.word (by decide)) (.word (by decide)) hindex (.word (by decide))
  have hcount : Neat known .hard
      (Phrase.call ["events"] "object_count" [number event.event.index]) .hard :=
    Vocabulary.call_singleton (.word (by decide)) (.word (by decide)) hindex
  have htype : Neat known .hard
      (angle (event.payload ++ (["as"] ++ code.lib "SchemaType"))) .hard :=
    .angle <| .append (.path hpayload) <| .append (.mark (by decide)) (hwords.item (by decide))
  simp only [eventAccessor, List.append_assoc]
  exact .append (.introduced (by decide) _) <|
    .append (hwords.bound (by decide) (by decide)) <|
    .append (.paren (.marks (by decide))) <| .append (.mark (by decide)) <|
    .append (hwords.resultType (hwords.vecType (.path hpayload)) (hwords.item (by decide))) <|
    .brace <| .append (.marks (by decide)) <|
    .append (Vocabulary.call_nil (.word (by decide)) (.word (by decide))) <|
    .append (.mark (by decide)) <| .append (.marks (by decide)) <| .append hcount <|
    .append (.mark (by decide)) <| .append (hwords.fixed_text (by decide)) <|
    .append (.paren (.words (by decide))) <| .append (.mark (by decide)) <|
    .append (.words (by decide)) <|
    .append (.brace <| .append (.words (by decide)) <|
      .append (.paren <| .append (Vocabulary.namedFailure (.append htype <|
        .append (hwords.fixed_text (by decide)) (.paren hobject)) _) (.mark (by decide)))
      (.mark (by decide)))
    (hwords.ok (.word (by decide)))

end Events

section Commands

variable {command : CommandCode}
include hwords

theorem neat_ownComponentId : Neat known .hard code.ownComponentId .soft :=
  (hwords.bound (by decide) (by decide)).append
    (hwords.fixed_text (by decide))

theorem neat_commandKind : Neat known left code.commandKind .hard := by
  simp only [commandKind, List.append_assoc]
  exact .append Vocabulary.mustUse <| .append (.words (by decide)) <|
    .append (.paren <| .append (.marks (by decide)) <| .append (hwords.item (by decide)) <|
      .append (.mark (by decide)) <| .append (.marks (by decide)) <|
      .append (hwords.item (by decide)) (.mark (by decide))) <|
    .append (.mark (by decide)) <| .append (hwords.optionType (.word (by decide))) <| .brace <|
    .append (.marks (by decide)) <| .append (neat_ownComponentId hwords) <|
    .append (.brace ((hwords.fixed_text (by decide)).append (.paren (.word (by decide))))) <|
    .append (.word (by decide)) (.brace hwords.absent)

theorem neat_requestSender (hrequest : Neat.KnownPath known command.request) :
    Neat known left (code.requestSender command) .hard := by
  simp only [requestSender, List.append_assoc]
  exact .append (.introduced (by decide) _) <|
    .append (hwords.bound (by decide) (by decide)) <|
    .append (.paren <| .append (.marks (by decide)) <| .append (hwords.item (by decide)) <|
      .append (.mark (by decide)) <| .append (.marks (by decide)) <|
      .append (.path hrequest) (.mark (by decide))) <|
    .append (.mark (by decide)) <| .append (hwords.item (by decide)) <| .brace <|
    .append (.words (by decide)) <| .paren <| .append (.marks (by decide)) <|
    .append (neat_ownComponentId hwords) <| .append (.mark (by decide)) <|
    .append (hwords.commandsMember command.variant) <| .append (.words (by decide)) <|
    .append (.paren .nil) <| .append (.mark (by decide)) <| .append (hwords.item (by decide)) <|
    .append (.paren (.word (by decide))) (.mark (by decide))

theorem neat_responseSender {response : ResponseCode}
    (hresponse : Neat.KnownPath known response.path) :
    Neat known left (code.responseSender command response) .hard := by
  simp only [responseSender, List.append_assoc]
  exact .append (.introduced (by decide) _) <|
    .append (hwords.bound (by decide) (by decide)) <|
    .append (.paren <| .append (.marks (by decide)) <| .append (hwords.item (by decide)) <|
      .append (.mark (by decide)) <| .append (.marks (by decide)) <|
      .append (.path hresponse) (.mark (by decide))) <|
    .brace <| .append (.words (by decide)) <|
    .append (.paren <| .append (.marks (by decide)) <|
      .append (neat_ownComponentId hwords) <| .append (.mark (by decide)) <|
      .append (hwords.commandsMember command.variant) <| .append (.words (by decide)) <|
      .append (.paren .nil) <| .append (.mark (by decide)) <| .append (hwords.item (by decide)) <|
      .append (.paren (.word (by decide))) (.mark (by decide))) (.mark (by decide))

theorem neat_boundMethod (hrequest : Neat.KnownPath known command.request) :
    Neat known left (code.boundMethod command) .hard := by
  simp only [boundMethod, List.append_assoc]
  exact .append (.introduced (by decide) _) <|
    .append (.paren ((Neat.marks (by decide)).append (.path hrequest))) <|
    .append (.mark (by decide)) <| .append (hwords.item (by decide)) <| .brace <|
    .append (hwords.ownMember command.sender) (.paren (.words (by decide)))

theorem neat_commandItems : Neat known .hard code.commandItems .hard := by
  have hvariants : ∀ variant ∈ code.commands.map (fun command =>
      ["Self", "::", command.variant.text]), Neat known .hard variant .soft := by
    rw [List.forall_mem_map]
    exact fun command _ => hwords.selfMember command.variant
  have hcases : Neat known .hard (code.commands.flatMap fun command =>
      number command.command.index ++ (["=>"] ++
        (Phrase.present ["Self", "::", command.variant.text] ++ [","]))) .hard :=
    .flatMap fun command _ => .append (.number _) <| .append (.mark (by decide)) <|
      .append (hwords.present (hwords.selfMember command.variant)) (.mark (by decide))
  simp only [commandItems, List.append_assoc]
  -- All variants, the number of one, and the one of a number.
  exact .append (.words (by decide)) <| .append (.square (.word (by decide))) <|
    .append (.marks (by decide)) <| .append (.square (.listed hvariants)) <|
    .append (.mark (by decide)) <|
    .append Vocabulary.mustUse <| .append (.words (by decide)) <|
    .append (.paren (.word (by decide))) <| .append (.mark (by decide)) <|
    .append (hwords.item (by decide)) <|
    .append (.brace ((Neat.marks (by decide)).append (hwords.item (by decide)))) <|
    .append Vocabulary.mustUse <| .append (.words (by decide)) <|
    .append (.paren ((Neat.marks (by decide)).append (hwords.item (by decide)))) <|
    .append (.mark (by decide)) <| .append (hwords.optionType (.word (by decide))) <| .brace <|
    .append (.words (by decide)) <| .brace <| .append hcases <| .append (.marks (by decide)) <|
    .append hwords.absent (.mark (by decide))

end Commands

/-! ### What blocks hold -/

section Bodies

include hwords

theorem neat_idConstants : Neat known .hard code.idConstants .hard := by
  simp only [idConstants, List.append_assoc]
  exact .flatMap fun field _ =>
    .append (.cons (.word (by decide)) (.cons (.word (by decide)) (.cons (.ident _)
      (.mark (by decide))))) <|
    .append (hwords.item (by decide)) <| .append (.mark (by decide)) <|
    .append (.number _) (.mark (by decide))

theorem neat_equalityBody : Neat known .hard code.equalityBody .soft := by
  rw [equalityBody]
  split
  · exact .words (by decide)
  · refine .separated ((isHard_ofList ['&', '&']).trans (by decide)) ?_
    rw [List.forall_mem_map]
    intro field _
    simp only [List.append_assoc]
    exact .soften <| .append (hwords.item (by decide)) <| .paren <| .append (.mark (by decide)) <|
      .append (field.neat_ofValue (.word (by decide))) <|
      .append (.cons (.mark (by decide)) (.mark (by decide)))
        (field.neat_ofValue (.word (by decide)))

theorem neat_hashBody : Neat known .hard code.hashBody .hard := by
  rw [hashBody]
  split
  · exact .marks (by decide)
  · simp only [List.append_assoc]
    exact .flatMap fun field _ => .append (hwords.item (by decide)) <|
      .append (.paren <| .append (.mark (by decide)) <|
        .append (field.neat_ofValue (.word (by decide)))
          (.cons (.mark (by decide)) (.word (by decide)))) (.mark (by decide))

theorem neat_encodeBody : Neat known .hard code.encodeBody .hard := by
  rw [encodeBody]
  split
  · exact .marks (by decide)
  · exact .flatMap fun field hfield => hwords.writeField _ (.word (by decide))
      (neat_id hwords field) (field.neat_ofValue (.word (by decide)))

theorem neat_constructor (hmembers : ∀ member ∈ code.members, Neat known .hard member.2 .soft) :
    Neat known left code.constructor .hard := by
  have hparameters : ∀ parameter ∈ code.fields.map (fun field =>
      [field.ident.text, ":"] ++ Phrase.fieldType code.runtime field),
      Neat known .hard parameter .soft := by
    rw [List.forall_mem_map]
    intro field hfield
    exact (Neat.cons (.ident _) (.mark (by decide))).append
      (hmembers _ (List.mem_map_of_mem hfield))
  have hnames : ∀ name ∈ code.fields.map (fun field => [field.ident.text]),
      Neat known .hard name .soft := by
    rw [List.forall_mem_map]
    exact fun field _ => .ident _
  simp only [constructor, List.append_assoc]
  exact .append (.marker (.cons (.word (by decide)) (.paren (hwords.fixed_text (by decide))))) <|
    .append Vocabulary.mustUse <| .append (.words (by decide)) <|
    .append (.paren (.listed hparameters)) <| .append (.words (by decide)) <|
    .brace (.cons (.word (by decide)) (.brace (.listed hnames)))

variable (hrefers : code.Refers known)
include hrefers

theorem neat_members : ∀ member ∈ code.members, Neat known .hard member.2 .soft := by
  rw [members, List.forall_mem_map]
  exact fun field hfield => hwords.fieldType (hrefers.fields field hfield)

theorem neat_commandFunctions (hcomponent : code.type.isComponent = true) :
    Neat known .hard code.commandFunctions .hard := by
  rw [commandFunctions]
  split
  · exact .nil
  · refine (neat_commandKind hwords).append (.flatMap fun command hcommand => ?_)
    refine (neat_requestSender hwords (hrefers.requests hcomponent command hcommand)).append ?_
    cases hresponse : command.response with
    | none => exact .nil
    | some response =>
      exact neat_responseSender hwords (hrefers.responses hcomponent command hcommand _ hresponse)

theorem neat_inherentItems : Neat known .hard code.inherentItems .hard := by
  have hupdaters : Neat known .hard
      (if code.type.supportsUpdates then code.fields.flatMap code.updater else []) .hard := by
    split
    · exact .flatMap fun field hfield => neat_updater hwords (hrefers.fields field hfield)
    · exact .nil
  have hcomponent : Neat known .hard (if code.type.isComponent then
      code.events.flatMap code.eventAccessor ++ code.commandFunctions else []) .hard := by
    split
    · next hcomponent =>
      exact (Neat.flatMap fun event hevent =>
        neat_eventAccessor hwords (hrefers.events hcomponent event hevent)).append
          (neat_commandFunctions hwords hrefers hcomponent)
    · exact .nil
  simp only [inherentItems, List.append_assoc]
  exact .append (neat_idConstants hwords) <|
    .append (neat_constructor hwords (neat_members hwords hrefers)) <|
    .append hupdaters hcomponent

theorem neat_decodeBody : Neat known .hard code.decodeBody .hard := by
  rw [decodeBody]
  split
  · exact (Neat.marks (by decide)).append (hwords.ok (.cons (.word (by decide)) (.brace .nil)))
  · refine hwords.ok (.cons (.word (by decide)) (.brace (.terminated ?_)))
    rw [List.forall_mem_map]
    exact fun field hfield => neat_fieldReading hwords (hrefers.fields field hfield)

theorem neat_mergeBody : Neat known .hard code.mergeBody .hard := by
  rw [mergeBody]
  split
  · exact (Neat.marks (by decide)).append (hwords.ok hwords.cloneSelf)
  · simp only [List.append_assoc]
    exact .append (.marks (by decide)) <|
      .append (Vocabulary.call_nil (.word (by decide)) (.word (by decide))) <|
      .append (.mark (by decide)) <| .append (.marks (by decide)) <|
      .append hwords.cloneSelf <| .append (.mark (by decide)) <|
      .append (.flatMap fun field hfield => neat_fieldMerge hwords (hrefers.fields field hfield))
        (hwords.ok (.word (by decide)))

/-! ### The builder of updates -/

omit hwords hrefers in
theorem neat_updaterArgument (shape : Shape ElementCode) :
    Neat known .hard (updaterArgument shape) .soft := by
  have hcall : ∀ {chars : List Char}, isPlainChars chars = true →
      Neat known .hard (Phrase.call ["value"] (String.ofList chars) []) .soft :=
    fun hchars => (Vocabulary.call_nil (.word (by decide)) (.word hchars)).soften
  cases shape with
  | singular element =>
    rw [updaterArgument]
    split
    · exact .word (by decide)
    · exact .words (by decide)
  | option element =>
    rw [updaterArgument]
    split
    · exact hcall (by decide)
    · split
      · exact hcall (by decide)
      · exact .words (by decide)
  | _ => exact .word (by decide)

variable (hcomponent : code.type.isComponent = true)
include hcomponent

theorem neat_builderMembers : ∀ member ∈ code.builderMembers, Neat known .hard member.2 .soft := by
  rw [builderMembers, List.forall_mem_append, List.forall_mem_map, List.forall_mem_map]
  refine ⟨fun field hfield => ?_, fun event hevent => ?_⟩
  · exact (hwords.optionType (hwords.fieldType (hrefers.fields field hfield))).soften
  · exact (hwords.vecType (.path (hrefers.events hcomponent event hevent))).soften

theorem neat_builderSetters : Neat known .hard code.builderSetters .hard := by
  simp only [builderSetters, List.append_assoc]
  refine .append (.flatMap fun field hfield => ?_) (.flatMap fun event hevent => ?_)
  · exact .append (.introduced (by decide) _) <|
      .append (.paren ((Neat.marks (by decide)).append
        (hwords.fieldType (hrefers.fields field hfield)))) <|
      .append (.words (by decide)) <| .brace <| .append (field.neat_ofValue (.word (by decide))) <|
      .append (.mark (by decide)) <| .append (hwords.present (.word (by decide)))
        (.words (by decide))
  · exact .append (.introduced (by decide) _) <|
      .append (.paren ((Neat.marks (by decide)).append
        (.path (hrefers.events hcomponent event hevent)))) <|
      .append (.words (by decide)) <| .brace <|
      .append (Vocabulary.call_singleton (neat_ownField _) (.word (by decide)) (.word (by decide)))
        (.words (by decide))

omit hrefers hcomponent in
theorem neat_builderApply : Neat known .hard code.builderApply .hard := by
  have hsteps : ∀ step ∈ code.fields.map (fun field =>
      ofText "if let" ++ (Phrase.present ["value"] ++ (ofText "= &" ++ (field.ofValue "self" ++
        brace ([code.ident.text, "::", field.updater.text] ++
          (paren (ofText "update ," ++ updaterArgument field.shape) ++ [";"])))))) ++
      code.events.map (fun event =>
        ofText "for event in &" ++ (["self", ".", event.accessor.text] ++
          brace (code.lib "SchemaType :: apply_to_schema" ++
            (paren (ofText "event ," ++
              Phrase.call (Phrase.call ["update"] "events_mut" []) "add_object"
                [number event.event.index]) ++ [";"])))), Neat known .hard step .hard := by
    rw [List.forall_mem_append, List.forall_mem_map, List.forall_mem_map]
    refine ⟨fun field _ => ?_, fun event _ => ?_⟩
    · exact .append (.marks (by decide)) <| .append (hwords.present (.word (by decide))) <|
        .append (.marks (by decide)) <| .append (field.neat_ofValue (.word (by decide))) <|
        .brace <| .append (hwords.ownMember field.updater) <|
        .append (.paren ((Neat.marks (by decide)).append (neat_updaterArgument _)))
          (.mark (by decide))
    · exact .append (.marks (by decide)) <|
        .append (neat_ownField _) <| .brace <| .append (hwords.item (by decide)) <|
        .append (.paren <| .append (.marks (by decide)) <| Vocabulary.call_singleton
          (Vocabulary.call_nil (.word (by decide)) (.word (by decide))) (.word (by decide))
            (.number _)) (.mark (by decide))
  simp only [builderApply, List.append_assoc]
  split
  · exact .marks (by decide)
  · exact .flatten hsteps

omit hwords hrefers hcomponent in
theorem neat_builderIsEmpty : Neat known .hard code.builderIsEmpty .soft := by
  simp only [builderIsEmpty]
  split
  · exact .word (by decide)
  · refine .separated ((isHard_ofList ['&', '&']).trans (by decide)) ?_
    rw [List.forall_mem_append, List.forall_mem_map, List.forall_mem_map]
    refine ⟨fun field _ => ?_, fun event _ => ?_⟩
    · exact (Vocabulary.call_nil (field.neat_ofValue (.word (by decide)))
        (.word (by decide))).soften
    · exact (Vocabulary.call_nil (neat_ownField _) (.word (by decide))).soften

omit hrefers hcomponent in
theorem neat_builderUpdates : Neat known .hard code.builderUpdates .hard := by
  simp only [builderUpdates, List.append_assoc]
  exact .append (.words (by decide)) <|
    .append (hwords.bound (by decide) (by decide)) <|
    .append (.paren (.words (by decide))) <| .append (.brace (neat_builderApply hwords)) <|
    .append Vocabulary.mustUse <| .append (.words (by decide)) <|
    .append (.angle <| .append (.marks (by decide)) <| .append (hwords.item (by decide)) <|
      hwords.phrase (by decide) (by decide)) <|
    .append (.paren (.words (by decide))) <| .append (.words (by decide)) <| .brace <|
    .append (hwords.phrase (by decide) (by decide)) <| .append (.paren .nil) <|
    .append (.mark (by decide)) <|
    .append (Vocabulary.call_singleton (.word (by decide)) (.word (by decide))
      (.words (by decide))) (.words (by decide))

theorem neat_builderItems : Neat known .hard code.builderItems .hard := by
  simp only [builderItems, List.append_assoc]
  exact .append Vocabulary.mustUse <| .append (.words (by decide)) <| .append (.paren .nil) <|
    .append (.words (by decide)) <|
    .append (.brace ((hwords.fixed_text (by decide)).append (.paren .nil))) <|
    .append (neat_builderSetters hwords hrefers hcomponent) <|
    .append Vocabulary.mustUse <| .append (.words (by decide)) <|
    .append (.paren (.words (by decide))) <| .append (.words (by decide)) <|
    .append (.brace neat_builderIsEmpty) (neat_builderUpdates hwords)

end Bodies

end TypeCode

end SchemaLoom
