import SchemaLoom.Proofs.ItemOutline

/-!
# The paths in the code of a declaration

A declaration refers to other declarations by their paths.  All of these paths stand in its code as
they were found, and no others that lead to declarations do.
-/

namespace SchemaLoom

open Code

/-! ## Paths that are written -/

/-- The path stands in the code between two tokens that do not go on with it. -/
def Code.Writes (code path : Code) : Prop :=
  ∃ before after, isHard before = true ∧ after ≠ "::" ∧ before :: (path ++ [after]) <:+: code

namespace Code.Writes

variable {code rest path : Code}

theorem left (hwrites : Writes code path) : Writes (code ++ rest) path := by
  obtain ⟨before, after, hbefore, hafter, hinfix⟩ := hwrites
  exact ⟨before, after, hbefore, hafter, hinfix.trans (List.prefix_append _ _).isInfix⟩

theorem right (hwrites : Writes rest path) : Writes (code ++ rest) path := by
  obtain ⟨before, after, hbefore, hafter, hinfix⟩ := hwrites
  exact ⟨before, after, hbefore, hafter, hinfix.trans (List.suffix_append _ _).isInfix⟩

theorem cons {token : String} (hwrites : Writes code path) : Writes (token :: code) path := by
  rw [← List.singleton_append]
  exact hwrites.right

theorem brace (hwrites : Writes code path) : Writes (brace code) path :=
  hwrites.left.cons

theorem paren (hwrites : Writes code path) : Writes (paren code) path :=
  hwrites.left.cons

theorem flatMap {α : Type} {items : List α} {item : α} (hitem : item ∈ items) {text : α → Code}
    (hwrites : Writes (text item) path) : Writes (items.flatMap text) path := by
  obtain ⟨before, after, hbefore, hafter, hinfix⟩ := hwrites
  refine ⟨before, after, hbefore, hafter, hinfix.trans ?_⟩
  exact List.infix_of_mem_flatten (List.mem_map_of_mem hitem)

/-- A path between two tokens. -/
theorem between {before after : String} (hbefore : isHard before = true) (hafter : after ≠ "::") :
    Writes (before :: (path ++ [after])) path :=
  ⟨before, after, hbefore, hafter, List.infix_rfl⟩

theorem angle : Writes (angle path) path :=
  between ((isHard_ofList ['<']).trans (by decide)) (by decide)

/-- A path that is written is read. -/
theorem mem_paths (hwrites : Writes code path) (hpath : IsPath path) (hcolons : "::" ∈ path) :
    path ∈ code.paths := by
  obtain ⟨before, after, hbefore, hafter, front, back, rfl⟩ := hwrites
  simp only [isHard, isPlain, Bool.and_eq_true, bne_iff_ne, Bool.not_eq_true'] at hbefore
  obtain ⟨segment, hsegment, hisSegment⟩ := hpath.last
  have hfirst : ∀ last ∈ (front ++ [before]).getLast?, ∀ next ∈ (path ++ after :: back).head?,
      joined last next = false := by
    intro last hlast next _
    obtain rfl : before = last := by simpa using hlast
    exact joined_eq_false hbefore.1.1.1 (.inl hbefore.2)
  have hsecond : ∀ last ∈ path.getLast?, ∀ next ∈ (after :: back).head?,
      joined last next = false := by
    intro last hlast next hnext
    obtain rfl : segment = last := by simpa [hsegment] using hlast
    obtain rfl : after = next := by simpa using hnext
    refine joined_eq_false ?_ (.inr hafter)
    rintro rfl
    cases isSegment_colons.symm.trans hisSegment
  have hcode : front ++ before :: (path ++ [after]) ++ back =
      (front ++ [before]) ++ (path ++ after :: back) := by
    simp
  rw [hcode, paths_append hfirst, paths_append hsecond, paths_of_isRun hpath.run hcolons]
  simp

end Code.Writes

/-! ## Paths in the code of a type -/

theorem Phrase.elementType_of_target? {runtime : Code} {element : ElementCode}
    (htarget : element.element.target?.isSome = true) :
    elementType runtime element = element.path := by
  obtain ⟨_ | _ | _, path⟩ := element
  · cases htarget
  · rfl
  · rfl

/-- The type of a field has the paths of the types it is named after. -/
theorem FieldCode.writes_fieldType {runtime : Code} {field : FieldCode} {path : Code}
    (hpath : path ∈ field.paths) :
    Writes (":" :: (Phrase.fieldType runtime field ++ [","])) path := by
  obtain ⟨element, helement, rfl⟩ := List.mem_map.mp hpath
  obtain ⟨helement, htarget⟩ := List.mem_filter.mp helement
  have htype : Phrase.elementType runtime element = element.path :=
    Phrase.elementType_of_target? htarget
  obtain ⟨resolved, ident, idConst, shape, updater, setter⟩ := field
  cases shape with
  | singular other =>
    obtain rfl := List.mem_singleton.mp helement
    simp only [Phrase.fieldType, htype]
    exact .between ((isHard_ofList [':']).trans (by decide)) (by decide)
  | option other =>
    obtain rfl := List.mem_singleton.mp helement
    simp only [Phrase.fieldType, Phrase.optionType, htype]
    exact .cons (.left (.right .angle))
  | list other =>
    obtain rfl := List.mem_singleton.mp helement
    simp only [Phrase.fieldType, Phrase.vecType]
    cases resolved.materialization with
    | persistent => exact .cons (.left (.right (htype ▸ .angle)))
    | growable => exact .cons (.left (.right (htype ▸ .angle)))
  | map key value =>
    simp only [Phrase.fieldType]
    refine .cons (.left (.right ?_))
    rcases List.mem_cons.mp helement with rfl | helement
    · have hsplit : angle (Phrase.elementType runtime element ++ [","] ++
          Phrase.elementType runtime value) =
            ("<" :: (element.path ++ [","])) ++ (Phrase.elementType runtime value ++ [">"]) := by
        simp [angle, htype]
      rw [hsplit]
      exact .left (.between ((isHard_ofList ['<']).trans (by decide)) (by decide))
    · obtain rfl := List.mem_singleton.mp helement
      have hsplit : angle (Phrase.elementType runtime key ++ [","] ++
          Phrase.elementType runtime element) =
            ("<" :: Phrase.elementType runtime key) ++ ("," :: (element.path ++ [">"])) := by
        simp [angle, htype]
      rw [hsplit]
      exact .right (.between ((isHard_ofList [',']).trans (by decide)) (by decide))

/-- Tokens that belong to no path do not change what is read between them. -/
theorem Code.paths_between {before after : String} (hbefore : isHard before = true)
    (hafter : isHard after = true) (code : Code) :
    Code.paths (before :: (code ++ [after])) = code.paths := by
  simp only [isHard, isPlain, Bool.and_eq_true, bne_iff_ne, Bool.not_eq_true'] at hbefore hafter
  rw [← List.singleton_append, paths_append, paths_append, paths_singleton hbefore.1.1.1,
    paths_singleton hafter.1.1.1, List.nil_append, List.append_nil]
  · intro last _ next hnext
    obtain rfl : after = next := by simpa using hnext
    simp [joined, hafter]
  · intro last hlast next _
    obtain rfl : before = last := by simpa using hlast
    exact joined_eq_false hbefore.1.1.1 (.inl hbefore.2)

theorem FieldCode.mem_paths_fieldType {runtime : Code} {field : FieldCode} {path : Code}
    (hpath : path ∈ field.paths) (hisPath : IsPath path) (hcolons : "::" ∈ path) :
    path ∈ (Phrase.fieldType runtime field).paths := by
  rw [← Code.paths_between ((isHard_ofList [':']).trans (by decide))
    ((isHard_ofList [',']).trans (by decide))]
  exact (field.writes_fieldType hpath).mem_paths hisPath hcolons

theorem writes_publicFields {members : List (Ident × Code)} {member : Ident × Code}
    (hmember : member ∈ members) {path : Code}
    (hwrites : Writes (":" :: (member.2 ++ [","])) path) : Writes (publicFields members) path := by
  refine .flatMap (List.mem_map_of_mem hmember) ?_
  exact .cons (.cons hwrites)

namespace TypeCode

variable {code : TypeCode} {path : Code}

theorem writes_declaration {field : FieldCode} (hfield : field ∈ code.fields)
    (hpath : path ∈ field.paths) : Writes code.declaration path :=
  .right (.brace (writes_publicFields (List.mem_map_of_mem hfield) (field.writes_fieldType hpath)))

theorem writes_eventAccessor (event : EventCode) :
    Writes (code.eventAccessor event) event.payload := by
  have htype : Writes (Phrase.resultType (Phrase.vecType event.payload) (code.lib "DecodeError"))
      event.payload :=
    .right (.cons (.left (.left (.left (.right .angle)))))
  exact .left (.right htype)

/-- A parameter that is a reference to a type. -/
theorem writes_reference {chars : List Char} (hlast : (pieces chars).getLast? = some ['&'])
    (path : Code) : Writes (ofText (String.ofList chars) ++ (path ++ [","])) path := by
  obtain ⟨front, hfront⟩ := List.getLast?_eq_some_iff.mp hlast
  rw [ofText_ofList, hfront, List.map_append, List.append_assoc]
  exact .right (.between ((isHard_ofList ['&']).trans (by decide)) (by decide))

theorem writes_requestSender (command : CommandCode) :
    Writes (code.requestSender command) command.request := by
  simp only [requestSender, List.append_assoc]
  exact .right (.right (.left (.paren (.right (.right (.right
    (writes_reference (by decide) command.request)))))))

theorem writes_responseSender (command : CommandCode) (response : ResponseCode) :
    Writes (code.responseSender command response) response.path := by
  simp only [responseSender, List.append_assoc]
  exact .right (.right (.left (.paren (.right (.right (.right
    (writes_reference (by decide) response.path)))))))

/-- All paths of types that a type refers to are in its code. -/
theorem writes_text (hpath : path ∈ (Item.type code).paths) : Writes code.text path := by
  rw [Item.paths, List.mem_append] at hpath
  rcases hpath with hpath | hpath
  · obtain ⟨field, hfield, hpath⟩ := List.mem_flatMap.mp hpath
    exact .left (.left (.left (.left (.right (writes_declaration hfield hpath)))))
  · refine .left (.left (.left (.right (.right (.brace (.right ?_))))))
    split at hpath
    · next hcomponent =>
      rw [if_pos hcomponent]
      rcases List.mem_append.mp hpath with hpath | hpath
      · obtain ⟨event, hevent, rfl⟩ := List.mem_map.mp hpath
        exact .left (.flatMap hevent (writes_eventAccessor event))
      · obtain ⟨command, hcommand, hpath⟩ := List.mem_flatMap.mp hpath
        have hsome : code.commands.isEmpty = false := by
          simpa using List.ne_nil_of_mem hcommand
        rw [commandFunctions, hsome]
        refine .right (.right (.flatMap hcommand ?_))
        rcases List.mem_cons.mp hpath with rfl | hpath
        · exact .left (writes_requestSender command)
        · obtain ⟨response, hresponse, rfl⟩ : ∃ response, command.response = some response ∧
              response.path = path := by
            simpa using hpath
          rw [hresponse]
          exact .right (writes_responseSender command response)
    · cases hpath

end TypeCode

/-! ## Paths that are found -/

section Found

variable {around : Surroundings}

theorem ElementCode.typePath_of_eq_ok {element : Element} {code : ElementCode}
    (hcode : ElementCode.of around element = .ok code) :
    code.element = element ∧
      ∀ name, element.target? = some name → around.typePath name = .ok code.path := by
  cases element with
  | scalar kind =>
    cases hcode
    exact ⟨rfl, fun name htarget => by cases htarget⟩
  | enumeration target =>
    obtain ⟨path, hpath, rfl⟩ := Outcome.map_eq_ok_iff.mp hcode
    exact ⟨rfl, fun name htarget => by cases htarget; exact hpath⟩
  | named target =>
    obtain ⟨path, hpath, rfl⟩ := Outcome.map_eq_ok_iff.mp hcode
    exact ⟨rfl, fun name htarget => by cases htarget; exact hpath⟩

theorem Shape.forall₂_of_traverse {α β ε : Type} {step : α → Except ε β} {shape : Shape α}
    {result : Shape β} (htraverse : shape.traverse step = .ok result) :
    List.Forall₂ (fun element found => step element = .ok found) shape.elements
      result.elements := by
  cases shape with
  | singular element =>
    obtain ⟨found, hfound, rfl⟩ := Outcome.map_eq_ok_iff.mp htraverse
    exact .cons hfound .nil
  | option element =>
    obtain ⟨found, hfound, rfl⟩ := Outcome.map_eq_ok_iff.mp htraverse
    exact .cons hfound .nil
  | list element =>
    obtain ⟨found, hfound, rfl⟩ := Outcome.map_eq_ok_iff.mp htraverse
    exact .cons hfound .nil
  | map key value =>
    obtain ⟨key', hkey, htraverse⟩ := Outcome.bind_eq_ok_iff.mp htraverse
    obtain ⟨value', hvalue, htraverse⟩ := Outcome.bind_eq_ok_iff.mp htraverse
    cases htraverse
    exact .cons hkey (.cons hvalue .nil)

theorem FieldCode.exists_of_mem_paths {field : ResolvedField} {code : FieldCode}
    (hcode : FieldCode.of around field = .ok code) {path : Code} (hpath : path ∈ code.paths) :
    ∃ name ∈ field.references, around.typePath name = .ok path := by
  obtain ⟨ident, -, hcode⟩ := Outcome.bind_eq_ok_iff.mp hcode
  obtain ⟨idConst, -, hcode⟩ := Outcome.bind_eq_ok_iff.mp hcode
  obtain ⟨shape, hshape, hcode⟩ := Outcome.bind_eq_ok_iff.mp hcode
  obtain ⟨updater, -, hcode⟩ := Outcome.bind_eq_ok_iff.mp hcode
  obtain ⟨setter, -, hcode⟩ := Outcome.bind_eq_ok_iff.mp hcode
  cases hcode
  obtain ⟨found, hfound, rfl⟩ := List.mem_map.mp hpath
  obtain ⟨hfound, htarget⟩ := List.mem_filter.mp hfound
  obtain ⟨element, helement, helementCode⟩ :=
    Outcome.exists_left_of_mem (Shape.forall₂_of_traverse hshape) hfound
  obtain ⟨hself, htypePath⟩ := ElementCode.typePath_of_eq_ok helementCode
  obtain ⟨name, hname⟩ := Option.isSome_iff_exists.mp htarget
  rw [hself] at hname
  exact ⟨name, List.mem_filterMap.mpr ⟨element, helement, hname⟩, htypePath name hname⟩

theorem EventCode.typePath_of_eq_ok {event : Event} {code : EventCode}
    (hcode : EventCode.of around event = .ok code) :
    around.typePath event.payload = .ok code.payload := by
  obtain ⟨accessor, -, hcode⟩ := Outcome.bind_eq_ok_iff.mp hcode
  obtain ⟨payload, hpayload, hcode⟩ := Outcome.bind_eq_ok_iff.mp hcode
  obtain ⟨adder, -, hcode⟩ := Outcome.bind_eq_ok_iff.mp hcode
  cases hcode
  exact hpayload

theorem CommandCode.exists_of_mem_paths {command : Command} {answers : Bool} {code : CommandCode}
    (hcode : CommandCode.of around answers command = .ok code) {path : Code}
    (hpath : path ∈ code.paths) :
    ∃ name ∈ command.references answers, around.typePath name = .ok path := by
  obtain ⟨variant, -, hcode⟩ := Outcome.bind_eq_ok_iff.mp hcode
  obtain ⟨sender, -, hcode⟩ := Outcome.bind_eq_ok_iff.mp hcode
  obtain ⟨request, hrequest, hcode⟩ := Outcome.bind_eq_ok_iff.mp hcode
  cases answers with
  | false =>
    obtain ⟨response, hresponse, hcode⟩ := Outcome.bind_eq_ok_iff.mp hcode
    cases hresponse
    obtain ⟨method, -, hcode⟩ := Outcome.bind_eq_ok_iff.mp hcode
    cases hcode
    obtain rfl : path = request := by simpa [paths] using hpath
    exact ⟨command.request, List.mem_cons_self, hrequest⟩
  | true =>
    obtain ⟨responder, -, hcode⟩ := Outcome.bind_eq_ok_iff.mp hcode
    obtain ⟨answer, hanswer, hcode⟩ := Outcome.bind_eq_ok_iff.mp hcode
    obtain ⟨response, hresponse, hcode⟩ := Outcome.bind_eq_ok_iff.mp hcode
    cases hresponse
    obtain ⟨method, -, hcode⟩ := Outcome.bind_eq_ok_iff.mp hcode
    cases hcode
    have hcases : path = request ∨ path = answer := by simpa [paths] using hpath
    rcases hcases with rfl | rfl
    · exact ⟨command.request, List.mem_cons_self, hrequest⟩
    · exact ⟨command.response, by simp [Command.references], hanswer⟩

/-- Every path in the code of a type is the path of something the type refers to. -/
theorem TypeCode.exists_of_mem_paths {type : ResolvedType} {code : TypeCode}
    (hcode : TypeCode.of around type = .ok code) {path : Code}
    (hpath : path ∈ (Item.type code).paths) :
    ∃ name ∈ type.references, around.typePath name = .ok path := by
  obtain ⟨-, -, hfields, hevents, hcommands⟩ := TypeCode.of_eq_ok hcode
  have hcases : (∃ field ∈ code.fields, path ∈ field.paths) ∨
      (∃ event ∈ code.events, event.payload = path) ∨ ∃ command ∈ code.commands,
        path ∈ command.paths := by
    rw [Item.paths, List.mem_append, List.mem_flatMap] at hpath
    refine hpath.imp_right fun hpath => ?_
    split at hpath
    · simpa [List.mem_append, List.mem_flatMap] using hpath
    · cases hpath
  simp only [ResolvedType.references, List.mem_append, List.mem_flatMap, List.mem_map]
  rcases hcases with ⟨fieldCode, hmem, hpath⟩ | ⟨eventCode, hmem, rfl⟩ | ⟨commandCode, hmem, hpath⟩
  · obtain ⟨field, hfield, hfieldCode⟩ := Outcome.exists_left_of_mem hfields hmem
    obtain ⟨name, hname, htypePath⟩ := FieldCode.exists_of_mem_paths hfieldCode hpath
    exact ⟨name, .inl (.inl ⟨field, hfield, hname⟩), htypePath⟩
  · obtain ⟨event, hevent, heventCode⟩ := Outcome.exists_left_of_mem hevents hmem
    exact ⟨event.payload, .inl (.inr ⟨event, hevent, rfl⟩),
      EventCode.typePath_of_eq_ok heventCode⟩
  · obtain ⟨command, hcommand, hcommandCode⟩ := Outcome.exists_left_of_mem hcommands hmem
    obtain ⟨name, hname, htypePath⟩ := CommandCode.exists_of_mem_paths hcommandCode hpath
    exact ⟨name, .inr ⟨command, hcommand, hname⟩, htypePath⟩

end Found

/-! ## Items that were found -/

section Given

variable {around : Surroundings}

/-- The path of a declaration goes on from the root with identifiers. -/
theorem Surroundings.isPath_of_typePath (hroot : IsPath around.root.code) {name : String}
    {path : Code} (hpath : around.typePath name = .ok path) : IsPath path ∧ "::" ∈ path := by
  obtain ⟨⟨modules, ident⟩, -, hpath⟩ := Outcome.bind_eq_ok_iff.mp hpath
  cases hpath
  have hsegments : ∀ segment ∈ (modules ++ [ident]).map Ident.text, isSegment segment = true := by
    rw [List.forall_mem_map]
    exact fun segment _ => isSegment_ident segment
  refine ⟨?_, by simp⟩
  simpa [List.flatMap_map] using hroot.append_segments hsegments

theorem Item.runtime_of_eq_ok {subject : Subject} {item : Item}
    (hitem : Item.of around subject = .ok item) : item.runtime = around.runtime.code := by
  cases subject with
  | type resolved =>
    obtain ⟨code, hcode, rfl⟩ := Outcome.map_eq_ok_iff.mp hitem
    obtain ⟨fields, -, hcode⟩ := Outcome.bind_eq_ok_iff.mp hcode
    obtain ⟨ident, -, hcode⟩ := Outcome.bind_eq_ok_iff.mp hcode
    obtain ⟨events, -, hcode⟩ := Outcome.bind_eq_ok_iff.mp hcode
    obtain ⟨commands, -, hcode⟩ := Outcome.bind_eq_ok_iff.mp hcode
    obtain ⟨builder, -, hcode⟩ := Outcome.bind_eq_ok_iff.mp hcode
    cases hcode
    rfl
  | enumeration decl =>
    obtain ⟨code, hcode, rfl⟩ := Outcome.map_eq_ok_iff.mp hitem
    obtain ⟨ident, -, hcode⟩ := Outcome.bind_eq_ok_iff.mp hcode
    obtain ⟨variants, -, hcode⟩ := Outcome.bind_eq_ok_iff.mp hcode
    cases hdefault : decl.default? with
    | none =>
      rw [hdefault] at hcode
      cases hcode
    | some value =>
      rw [hdefault] at hcode
      obtain ⟨default, -, hcode⟩ := Outcome.bind_eq_ok_iff.mp hcode
      cases hcode
      rfl

/-- Every path that an item refers to is the path of something its declaration refers to. -/
theorem Item.exists_of_mem_paths {subject : Subject} {item : Item}
    (hitem : Item.of around subject = .ok item) {path : Code} (hpath : path ∈ item.paths) :
    ∃ name, around.typePath name = .ok path := by
  cases subject with
  | type resolved =>
    obtain ⟨code, hcode, rfl⟩ := Outcome.map_eq_ok_iff.mp hitem
    obtain ⟨name, -, htypePath⟩ := TypeCode.exists_of_mem_paths hcode hpath
    exact ⟨name, htypePath⟩
  | enumeration decl =>
    obtain ⟨code, -, rfl⟩ := Outcome.map_eq_ok_iff.mp hitem
    cases hpath

/-- With the paths of a configuration, all items that are found read well. -/
theorem Item.spelled_of_eq_ok {index : Index} {config : GenerateConfig}
    (haround : Surroundings.ofConfig index config = .ok around) {subject : Subject} {item : Item}
    (hitem : Item.of around subject = .ok item) : item.Spelled := by
  obtain ⟨root, hroot, haround⟩ := Outcome.bind_eq_ok_iff.mp haround
  obtain ⟨runtime, hruntime, haround⟩ := Outcome.bind_eq_ok_iff.mp haround
  cases haround
  constructor
  · rw [Item.runtime_of_eq_ok hitem]
    exact CodePath.isPath_code hruntime
  · intro path hpath
    obtain ⟨name, hname⟩ := Item.exists_of_mem_paths hitem hpath
    exact Surroundings.isPath_of_typePath (CodePath.isPath_code hroot) hname

end Given

/-- All paths that an item refers to are in its code. -/
theorem Item.writes_text {item : Item} {path : Code} (hpath : path ∈ item.paths) :
    Writes item.text path := by
  cases item with
  | type code => exact TypeCode.writes_text hpath
  | enumeration code => cases hpath

end SchemaLoom
