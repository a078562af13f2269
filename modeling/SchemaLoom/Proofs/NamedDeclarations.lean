import SchemaLoom.Code.Module
import SchemaLoom.Proofs.KnownNames

/-!
# Naming what was resolved

Emission starts from resolved declarations and finds all their names.  What a resolved declaration
refers to is declared, and a resolved enumeration has values, so nothing but an invalid identifier
can keep a resolved declaration from being named.
-/

namespace SchemaLoom

/-! ## Failures of naming -/

theorem Ident.ofName_eq_error_iff {text : String} {error : EmitError} :
    ofName text = .error error ↔
      isValid (escape text) = false ∧ error = .invalidIdentifier (escape text) := by
  by_cases hvalid : isValid (escape text) = true
  · simp [ofName, hvalid]
  · simp [ofName, hvalid, eq_comm]

/-- If the outcome is a failure, it is the refusal of one of the texts as an identifier. -/
def FailsByIdentifier {α : Type} (texts : List String) (outcome : Except EmitError α) : Prop :=
  ∀ error, outcome = .error error → ∃ text ∈ texts, Ident.ofName text = .error error

namespace FailsByIdentifier

variable {α β : Type} {texts : List String}

theorem ok (value : α) : FailsByIdentifier texts (.ok value) := by
  intro error hfailed
  cases hfailed

theorem ofName {text : String} (htext : text ∈ texts) :
    FailsByIdentifier texts (Ident.ofName text) :=
  fun _ hfailed => ⟨text, htext, hfailed⟩

theorem bind {first : Except EmitError α} {next : α → Except EmitError β}
    (hfirst : FailsByIdentifier texts first)
    (hnext : ∀ value, FailsByIdentifier texts (next value)) :
    FailsByIdentifier texts (first >>= next) := by
  intro error hfailed
  rcases Outcome.bind_eq_error_iff.mp hfailed with hfailed | ⟨value, -, hfailed⟩
  · exact hfirst error hfailed
  · exact hnext value error hfailed

theorem map {outcome : Except EmitError α} (houtcome : FailsByIdentifier texts outcome)
    (change : α → β) : FailsByIdentifier texts (outcome.map change) := by
  intro error hfailed
  cases outcome with
  | error cause =>
    cases hfailed
    exact houtcome error rfl
  | ok value => cases hfailed

theorem mapM {step : α → Except EmitError β} {items : List α}
    (hstep : ∀ item ∈ items, FailsByIdentifier texts (step item)) :
    FailsByIdentifier texts (items.mapM step) := by
  intro error hfailed
  obtain ⟨item, hitem, hfailed⟩ := Outcome.exists_mem_of_mapM_eq_error hfailed
  exact hstep item hitem error hfailed

theorem traverse {step : α → Except EmitError β} {shape : Shape α}
    (hstep : ∀ element ∈ shape.elements, FailsByIdentifier texts (step element)) :
    FailsByIdentifier texts (shape.traverse step) := by
  cases shape with
  | singular element => exact (hstep element (by simp [Shape.elements])).map _
  | option element => exact (hstep element (by simp [Shape.elements])).map _
  | list element => exact (hstep element (by simp [Shape.elements])).map _
  | map key value =>
    apply bind (hstep key (by simp [Shape.elements]))
    intro key'
    apply bind (hstep value (by simp [Shape.elements]))
    intro value'
    exact ok _

end FailsByIdentifier

/-! ## The identifiers in the code of a declaration -/

theorem Surroundings.exists_split {around : Surroundings} {name : String}
    (hdeclared : (around.index.get? name).isSome) : ∃ parts, around.split name = .ok parts := by
  obtain ⟨entry, hget⟩ := Option.isSome_iff_exists.mp hdeclared
  rw [split, Index.source?, hget]
  simp only [Option.map_some]
  split
  · exact ⟨_, rfl⟩
  · exact ⟨_, rfl⟩

/-- The segments of the path of a declaration below the root, before they become identifiers. -/
def Surroundings.segments (around : Surroundings) (name : String) : List String :=
  match around.split name with
  | .error _ => []
  | .ok (package, parts) =>
    (package ++ parts).map Ident.moduleName ++ [parts.getLast?.getD name]

/-- The declaration an element is named after. -/
def Element.target? : Element → Option String
  | scalar _ => none
  | enumeration name => some name
  | named name => some name

/-- The declarations that the elements of a field are named after. -/
def ResolvedField.references (field : ResolvedField) : List String :=
  field.shape.elements.filterMap Element.target?

/-- The payloads of a command, the second only if the command is answered. -/
def Command.references (command : Command) (answers : Bool) : List String :=
  command.request :: if answers then [command.response] else []

/-- The declarations that the code of a type refers to: those of its fields, and the payloads of its
events and commands. -/
def ResolvedType.references (type : ResolvedType) : List String :=
  type.fields.flatMap (·.references) ++ type.events.map (·.payload) ++
    type.commands.flatMap (·.references type.supportsUpdates)

def ResolvedField.identifiers (field : ResolvedField) : List String :=
  [Text.snake field.name, Text.upper (Text.snake field.name) ++ "_FIELD_ID",
    "update_" ++ Text.snake field.name, "set_" ++ Text.snake field.name]

def Event.identifiers (event : Event) : List String :=
  [Text.snake event.name ++ "_events", "add_" ++ Text.snake event.name]

def Command.identifiers (command : Command) (answers : Bool) : List String :=
  [Text.pascal command.name, "send_" ++ Text.snake command.name ++ "_request",
      Text.snake command.name] ++
    if answers then ["send_" ++ Text.snake command.name ++ "_response"] else []

/-- All identifiers of the code of a declaration, as texts that may turn out not to be identifiers:
its own, those of its members, and the segments of the paths it refers to. -/
def Subject.identifiers (around : Surroundings) : Subject → List String
  | type resolved =>
    [resolved.name, resolved.name ++ "Update"] ++ resolved.fields.flatMap (·.identifiers) ++
      resolved.events.flatMap (·.identifiers) ++
        resolved.commands.flatMap (·.identifiers resolved.supportsUpdates) ++
          resolved.references.flatMap around.segments
  | enumeration decl => decl.name :: decl.values.map (Text.pascal ·.name)

/-- The named declaration exists, and its path is made of the texts. -/
def Surroundings.Reaches (around : Surroundings) (texts : List String) (name : String) : Prop :=
  (around.index.get? name).isSome ∧ around.segments name ⊆ texts

namespace FailsByIdentifier

variable {around : Surroundings} {texts : List String}

theorem typePath {name : String} (hreach : around.Reaches texts name) :
    FailsByIdentifier texts (around.typePath name) := by
  obtain ⟨hdeclared, hsegments⟩ := hreach
  obtain ⟨⟨package, parts⟩, hsplit⟩ := Surroundings.exists_split hdeclared
  rw [Surroundings.segments, hsplit] at hsegments
  obtain ⟨hmodules, hident⟩ := List.append_subset.mp hsegments
  rw [Surroundings.typePath, Surroundings.place, hsplit]
  apply bind _ fun located => ok _
  change FailsByIdentifier texts ((package ++ parts).mapM Ident.ofModule >>= _)
  apply bind (mapM fun part hpart => ofName (hmodules (List.mem_map_of_mem hpart)))
  intro modules
  exact bind (ofName (hident (List.mem_singleton_self _))) fun ident => ok _

theorem elementCode {element : Element}
    (hreach : ∀ name, element.target? = some name → around.Reaches texts name) :
    FailsByIdentifier texts (ElementCode.of around element) := by
  cases element with
  | scalar kind => exact ok _
  | enumeration name => exact (typePath (hreach name rfl)).map _
  | named name => exact (typePath (hreach name rfl)).map _

theorem fieldCode {field : ResolvedField} (htexts : field.identifiers ⊆ texts)
    (hreach : ∀ name ∈ field.references, around.Reaches texts name) :
    FailsByIdentifier texts (FieldCode.of around field) := by
  have htext := fun text (hmem : text ∈ field.identifiers) => ofName (htexts hmem)
  simp only [ResolvedField.identifiers, List.forall_mem_cons] at htext
  apply bind htext.1
  intro ident
  apply bind htext.2.1
  intro idConst
  apply bind
  · apply traverse
    intro element helement
    apply elementCode
    intro name htarget
    exact hreach name (List.mem_filterMap.mpr ⟨element, helement, htarget⟩)
  intro shape
  apply bind htext.2.2.1
  intro updater
  exact bind htext.2.2.2.1 fun setter => ok _

theorem eventCode {event : Event} (htexts : event.identifiers ⊆ texts)
    (hreach : around.Reaches texts event.payload) :
    FailsByIdentifier texts (EventCode.of around event) := by
  have htext := fun text (hmem : text ∈ event.identifiers) => ofName (htexts hmem)
  simp only [Event.identifiers, List.forall_mem_cons] at htext
  apply bind htext.1
  intro accessor
  apply bind (typePath hreach)
  intro payload
  exact bind htext.2.1 fun adder => ok _

theorem commandCode {command : Command} {answers : Bool}
    (htexts : command.identifiers answers ⊆ texts)
    (hreach : ∀ name ∈ command.references answers, around.Reaches texts name) :
    FailsByIdentifier texts (CommandCode.of around answers command) := by
  have htext := fun text (hmem : text ∈ command.identifiers answers) => ofName (htexts hmem)
  simp only [Command.identifiers, List.forall_mem_append, List.forall_mem_cons] at htext
  obtain ⟨⟨hvariant, hsender, hmethod, -⟩, hresponder⟩ := htext
  rw [Command.references, List.forall_mem_cons] at hreach
  apply bind hvariant
  intro variant
  apply bind hsender
  intro sender
  apply bind (typePath hreach.1)
  intro request
  cases answers with
  | false => exact bind (ok none) fun response => bind hmethod fun method => ok _
  | true =>
    apply bind (hresponder _ (List.mem_singleton_self _))
    intro responder
    apply bind (typePath (hreach.2 _ (List.mem_singleton_self _)))
    intro path
    exact bind (ok _) fun response => bind hmethod fun method => ok _

theorem typeCode {type : ResolvedType}
    (hdeclared : ∀ name ∈ type.references, (around.index.get? name).isSome) :
    FailsByIdentifier (Subject.identifiers around (.type type)) (TypeCode.of around type) := by
  have hreach : ∀ name ∈ type.references,
      around.Reaches (Subject.identifiers around (.type type)) name := by
    intro name hname
    refine ⟨hdeclared name hname, fun text htext => ?_⟩
    exact List.mem_append_right _ (List.mem_flatMap.mpr ⟨name, hname, htext⟩)
  simp only [ResolvedType.references, List.forall_mem_append, List.forall_mem_map] at hreach
  obtain ⟨⟨hfields, hevents⟩, hcommands⟩ := hreach
  have hmember : ∀ text, text ∈ type.fields.flatMap (·.identifiers) ∨
      text ∈ type.events.flatMap (·.identifiers) ∨
        text ∈ type.commands.flatMap (·.identifiers type.supportsUpdates) →
      text ∈ Subject.identifiers around (.type type) := by
    intro text htext
    simp only [Subject.identifiers, List.mem_append]
    tauto
  apply bind
  · apply mapM
    intro field hfield
    apply fieldCode
    · intro text htext
      exact hmember text (.inl (List.mem_flatMap.mpr ⟨field, hfield, htext⟩))
    · intro name hname
      exact hfields name (List.mem_flatMap.mpr ⟨field, hfield, hname⟩)
  intro fields
  apply bind (ofName (by simp [Subject.identifiers]))
  intro ident
  apply bind
  · apply mapM
    intro event hevent
    apply eventCode _ (hevents event hevent)
    intro text htext
    exact hmember text (.inr (.inl (List.mem_flatMap.mpr ⟨event, hevent, htext⟩)))
  intro events
  apply bind
  · apply mapM
    intro command hcommand
    apply commandCode
    · intro text htext
      exact hmember text (.inr (.inr (List.mem_flatMap.mpr ⟨command, hcommand, htext⟩)))
    · intro name hname
      exact hcommands name (List.mem_flatMap.mpr ⟨command, hcommand, hname⟩)
  intro commands
  exact bind (ofName (by simp [Subject.identifiers])) fun builder => ok _

theorem enumCode {decl : ResolvedEnum} (hvalues : decl.values ≠ []) :
    FailsByIdentifier (Subject.identifiers around (.enumeration decl))
      (EnumCode.of around decl) := by
  obtain ⟨value, hvalue⟩ := ResolvedEnum.exists_default? hvalues
  have hmember := ResolvedEnum.mem_of_default? hvalue
  have hvariant : ∀ value ∈ decl.values,
      Text.pascal value.name ∈ Subject.identifiers around (.enumeration decl) :=
    fun value hmem => List.mem_cons_of_mem _ (List.mem_map_of_mem hmem)
  apply bind (ofName List.mem_cons_self)
  intro ident
  apply bind (mapM fun value hmem => ofName (hvariant value hmem))
  intro variants
  rw [hvalue]
  exact bind (ofName (hvariant value hmember)) fun default => ok _

end FailsByIdentifier

/-! ## What naming finds -/

section Found

variable {around : Surroundings}

theorem TypeCode.of_eq_ok {type : ResolvedType} {code : TypeCode}
    (hcode : TypeCode.of around type = .ok code) :
    code.type = type ∧ Ident.ofType type.name = .ok code.ident ∧
      List.Forall₂ (fun field code => FieldCode.of around field = .ok code)
        type.fields code.fields ∧
      List.Forall₂ (fun event code => EventCode.of around event = .ok code)
        type.events code.events ∧
      List.Forall₂ (fun command code => CommandCode.of around type.supportsUpdates command = .ok code)
        type.commands code.commands := by
  obtain ⟨fields, hfields, hcode⟩ := Outcome.bind_eq_ok_iff.mp hcode
  obtain ⟨ident, hident, hcode⟩ := Outcome.bind_eq_ok_iff.mp hcode
  obtain ⟨events, hevents, hcode⟩ := Outcome.bind_eq_ok_iff.mp hcode
  obtain ⟨commands, hcommands, hcode⟩ := Outcome.bind_eq_ok_iff.mp hcode
  obtain ⟨builder, -, hcode⟩ := Outcome.bind_eq_ok_iff.mp hcode
  cases hcode
  exact ⟨rfl, hident, Outcome.mapM_eq_ok_iff.mp hfields, Outcome.mapM_eq_ok_iff.mp hevents,
    Outcome.mapM_eq_ok_iff.mp hcommands⟩

theorem EnumCode.of_eq_ok {decl : ResolvedEnum} {code : EnumCode}
    (hcode : EnumCode.of around decl = .ok code) :
    code.decl = decl ∧ Ident.ofType decl.name = .ok code.ident := by
  obtain ⟨ident, hident, hcode⟩ := Outcome.bind_eq_ok_iff.mp hcode
  obtain ⟨variants, -, hcode⟩ := Outcome.bind_eq_ok_iff.mp hcode
  cases hdefault : decl.default? with
  | none =>
    rw [hdefault] at hcode
    cases hcode
  | some value =>
    rw [hdefault] at hcode
    obtain ⟨default, -, hcode⟩ := Outcome.bind_eq_ok_iff.mp hcode
    cases hcode
    exact ⟨rfl, hident⟩

/-- The name of a declaration without the package and the outer declarations. -/
def Subject.label : Subject → String
  | type resolved => resolved.name
  | enumeration decl => decl.name

theorem Item.of_eq_ok {subject : Subject} {item : Item} (hitem : Item.of around subject = .ok item) :
    item.name = subject.name ∧ Ident.ofType subject.label = .ok item.ident := by
  cases subject with
  | type resolved =>
    obtain ⟨code, hcode, rfl⟩ := Outcome.map_eq_ok_iff.mp hitem
    obtain ⟨hself, hident, -⟩ := TypeCode.of_eq_ok hcode
    exact ⟨congrArg ResolvedType.qualified hself, hident⟩
  | enumeration decl =>
    obtain ⟨code, hcode, rfl⟩ := Outcome.map_eq_ok_iff.mp hitem
    obtain ⟨hself, hident⟩ := EnumCode.of_eq_ok hcode
    exact ⟨congrArg ResolvedEnum.qualified hself, hident⟩

end Found

/-! ## What resolution hands on -/

/-- A resolved type carries the name, events and commands of its declaration. -/
def Index.Carries (index : Index) (type : ResolvedType) : Prop :=
  ∃ declared, index.declared type.qualified = .ok declared ∧ type.name = declared.name ∧
    type.events = declared.events ∧ type.commands = declared.commands ∧
      index.PayloadsFit declared.events declared.commands

theorem Index.carries_of_assemble {index : Index} {config : GenerateConfig} {memo : Memo}
    {name : String} {tree : Resolved} (hassemble : index.assemble config memo name = .ok tree) :
    tree.type.qualified = name ∧ index.Carries tree.type := by
  obtain ⟨declared, filtered, hassembled⟩ := exists_assembled hassemble
  have hdeclared : index.declared tree.type.qualified = .ok declared := by
    rw [hassembled.qualified_eq, hassembled.declared_eq]
  exact ⟨hassembled.qualified_eq, declared, hdeclared, hassembled.name_eq, hassembled.events_eq,
    hassembled.commands_eq, checkPayloads_eq_ok_iff.mp hassembled.checkPayloads_eq⟩

namespace Resolution

variable (resolution : Resolution)

/-- All resolved declarations, as emission takes them. -/
def subjects : List Subject :=
  resolution.trees.map (.type ·.type) ++ resolution.enums.map .enumeration

theorem forall₂_trees :
    List.Forall₂ (fun name tree => tree.type.qualified = name ∧ resolution.index.Carries tree.type)
      resolution.index.resolvableNames resolution.trees := by
  apply Memo.All.resolveEach _ _ (by simp [Memo.All]) resolution.resolveAll_eq
  intro memo name tree _ hassemble
  exact Index.carries_of_assemble hassemble

theorem forall₂_enums :
    List.Forall₂ (fun decl enum => resolution.index.resolveEnum decl.qualified = .ok enum)
      resolution.index.enumerations resolution.enums :=
  Outcome.mapM_eq_ok_iff.mp resolution.resolveEnums_eq

/-- Every declaration is resolved once. -/
theorem subjects_perm :
    (resolution.subjects.map Subject.name).Perm (resolution.index.entries.map Entry.name) := by
  have htrees : resolution.index.resolvableNames.map id =
      resolution.trees.map (·.type.qualified) :=
    Outcome.map_eq_map resolution.forall₂_trees fun _ _ hresolved => hresolved.1.symm
  have henums : resolution.index.enumerations.map (·.qualified) =
      resolution.enums.map (·.qualified) :=
    Outcome.map_eq_map resolution.forall₂_enums fun _ _ hresolved =>
      (Index.qualified_of_resolveEnum hresolved).symm
  have hsplit : resolution.subjects.map Subject.name =
      resolution.trees.map (·.type.qualified) ++ resolution.enums.map (·.qualified) := by
    rw [subjects, List.map_append, List.map_map, List.map_map]
    rfl
  have hnamed : ∀ entries : List Entry,
      (entries.filterMap (·.decl.enumeration?)).map (·.qualified) =
        (entries.filter fun entry => !(entry.decl.kind != .enumeration)).map Entry.name := by
    intro entries
    induction entries with
    | nil => rfl
    | cons entry rest ih =>
      obtain ⟨source, decl⟩ := entry
      cases decl with
      | type decl => simpa [Declaration.enumeration?, Declaration.kind] using ih
      | enumeration decl =>
        simpa [Declaration.enumeration?, Declaration.kind, Entry.name, Declaration.name] using ih
      | component decl => simpa [Declaration.enumeration?, Declaration.kind] using ih
  rw [hsplit, ← htrees, ← henums, List.map_id, Index.enumerations, hnamed, Index.resolvableNames,
    ← List.map_append]
  exact (List.filter_append_perm _ _).map _

/-- Everything a resolved type refers to is declared. -/
theorem isSome_get?_of_mem_references {tree : Resolved} (htree : tree ∈ resolution.trees)
    {name : String} (hname : name ∈ tree.type.references) :
    (resolution.index.get? name).isSome := by
  obtain ⟨-, -, -, declared, hdeclared, -, hevents, hcommands, hpayloads⟩ :=
    Outcome.exists_left_of_mem resolution.forall₂_trees htree
  have htype : ∀ {name}, resolution.index.IsType name → (resolution.index.get? name).isSome := by
    intro name htype
    exact Option.isSome_of_isSome_bind htype
  simp only [ResolvedType.references, ResolvedField.references, List.mem_append,
    List.mem_filterMap, List.mem_flatMap, List.mem_map] at hname
  rcases hname with (⟨field, hfield, element, helement, htarget⟩ | ⟨event, hevent, rfl⟩) |
      ⟨command, hcommand, hname⟩
  · have hmem : tree.type ∈ Resolved.allOf resolution.trees := by
      rw [Resolved.mem_allOf_iff]
      exact ⟨tree, htree, by rw [Resolved.all_eq]; exact List.mem_cons_self⟩
    obtain ⟨reference, hreference, hdeclares⟩ :=
      Index.declares_of_mem_elements resolution.resolveAll_eq hmem hfield helement
    cases reference with
    | primitive kind =>
      obtain ⟨scalar, -, rfl⟩ := Option.map_eq_some_iff.mp hreference
      cases htarget
    | enumeration target =>
      cases hreference
      cases htarget
      exact Option.isSome_of_isSome_bind hdeclares
    | named target =>
      cases hreference
      cases htarget
      exact htype hdeclares
  · exact htype (hpayloads.events event (hevents ▸ hevent))
  · have hfit := hpayloads.commands command (hcommands ▸ hcommand)
    rcases List.mem_cons.mp hname with rfl | hname
    · exact htype hfit.1
    · split at hname
      · exact htype (List.mem_singleton.mp hname ▸ hfit.2)
      · cases hname

/-- Nothing but an invalid identifier keeps a resolved declaration from being named. -/
theorem failsByIdentifier_item {around : Surroundings} (hindex : around.index = resolution.index)
    {subject : Subject} (hsubject : subject ∈ resolution.subjects) :
    FailsByIdentifier (subject.identifiers around) (Item.of around subject) := by
  rw [subjects, List.mem_append, List.mem_map, List.mem_map] at hsubject
  rcases hsubject with ⟨tree, htree, rfl⟩ | ⟨enum, henum, rfl⟩
  · apply FailsByIdentifier.map
    apply FailsByIdentifier.typeCode
    intro name hname
    rw [hindex]
    exact resolution.isSome_get?_of_mem_references htree hname
  · apply FailsByIdentifier.map
    apply FailsByIdentifier.enumCode
    obtain ⟨decl, -, hresolve⟩ := Outcome.exists_left_of_mem resolution.forall₂_enums henum
    obtain ⟨found, -, -, -, hvalues, hnonempty⟩ := Index.values_of_resolveEnum hresolve
    rwa [hvalues]

end Resolution

end SchemaLoom
