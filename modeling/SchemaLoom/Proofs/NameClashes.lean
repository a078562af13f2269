import SchemaLoom.Proofs.OutputFiles

/-!
# When names clash in generated code

Names of the schema become identifiers by changes of case, by beginnings and endings and by the
escape of keywords, and no step looks at the names beside it.  So two names clash in the code of a
declaration exactly when they have become the same text before, and nothing is refused for it.
-/

namespace SchemaLoom

/-! ## Identifiers of texts -/

/-- Members that follow one another along a relation differ as their keys do, if related members are
equal just when their keys are. -/
theorem Outcome.nodup_iff_of_forall₂ {α β γ : Type} {relates : α → β → Prop} {items : List α}
    {results : List β} {key : α → γ} (hall : List.Forall₂ relates items results)
    (hkey : ∀ {item other result result'}, relates item result → relates other result' →
      (result = result' ↔ key item = key other)) :
    results.Nodup ↔ (items.map key).Nodup := by
  induction hall with
  | nil => simp
  | @cons item result items results hfirst hrest ih =>
    rw [List.map_cons, List.nodup_cons, List.nodup_cons, ih, List.mem_map]
    refine and_congr_left fun _ => not_congr ⟨fun hmem => ?_, ?_⟩
    · obtain ⟨other, hother, hrelates⟩ := exists_left_of_mem hrest hmem
      exact ⟨other, hother, (hkey hrelates hfirst).mp rfl⟩
    · rintro ⟨other, hother, heq⟩
      obtain ⟨result', hresult', hrelates⟩ := exists_right_of_mem hrest hother
      rwa [(hkey hfirst hrelates).mpr heq.symm]

namespace Ident

theorem eq_of_text_eq {ident other : Ident} (htext : ident.text = other.text) : ident = other := by
  cases ident
  cases other
  congr

/-- An identifier is spelled as the escaped text, raw if that is a keyword. -/
theorem text_of_ofName {text : String} {ident : Ident} (hident : ofName text = .ok ident) :
    ident.text = written (escape text) := by
  rw [ofName] at hident
  split at hident
  · cases hident
    rfl
  · cases hident

/-- Different texts are spelled differently: a raw identifier has a character that no valid text
has. -/
theorem written_inj {left right : String} (hleft : isValid left = true)
    (hright : isValid right = true) : written left = written right ↔ left = right := by
  have hraw : ∀ {raw plain : String}, isValid plain = true → "r#" ++ raw ≠ plain := by
    rintro raw plain hplain rfl
    exact absurd (isPartChar_of_isValid hplain '#' (by simp)) (by decide)
  refine ⟨fun heq => ?_, congrArg written⟩
  simp only [written] at heq
  split at heq <;> split at heq
  · exact String.append_right_inj _ |>.mp heq
  · exact absurd heq (hraw hright)
  · exact absurd heq.symm (hraw hleft)
  · exact heq

/-- Two identifiers are the same if their texts are, once escaped. -/
theorem eq_iff_of_ofName {left right : String} {ident other : Ident}
    (hleft : ofName left = .ok ident) (hright : ofName right = .ok other) :
    ident = other ↔ escape left = escape right := by
  rw [← written_inj (isValid_of_ofName hleft) (isValid_of_ofName hright), ← text_of_ofName hleft,
    ← text_of_ofName hright]
  exact ⟨congrArg Ident.text, eq_of_text_eq⟩

/-- The identifiers of texts are different exactly when the escaped texts are. -/
theorem nodup_iff_of_ofName {texts : List String} {idents : List Ident}
    (hidents : List.Forall₂ (fun text ident => ofName text = .ok ident) texts idents) :
    idents.Nodup ↔ (texts.map escape).Nodup :=
  Outcome.nodup_iff_of_forall₂ hidents eq_iff_of_ofName

end Ident

/-! ## Scopes -/

/-- The places in the code of a declaration where names stand together and must be different: the
fields of a structure, the constants with their numbers, the variants of an enumeration, those of
the enumeration of commands, the members of the builder of updates, and the inner modules. -/
inductive Scope where
  | fields
  | constants
  | variants
  | commands
  | builder
  | modules
  deriving DecidableEq

def TypeCode.names (code : TypeCode) : Scope → List Ident
  | .fields => code.fields.map (·.ident)
  | .constants => code.fields.map (·.idConst)
  | .commands => if code.type.isComponent then code.commands.map (·.variant) else []
  | .builder => if code.type.supportsUpdates then code.builderMembers.map (·.1) else []
  | _ => []

def EnumCode.names (code : EnumCode) : Scope → List Ident
  | .variants => code.variants
  | _ => []

def Item.names : Item → Scope → List Ident
  | type code => code.names
  | enumeration code => code.names

/-- The identifiers in a scope of the code of a module. -/
def Module.names (module : Module) : Scope → List Ident
  | .modules => module.members.map (·.1)
  | scope => module.item.names scope

/-- The numbers of the variants of the enumeration of commands. -/
def Item.commandIndexes : Item → List UInt32
  | type code => code.commands.map (·.command.index)
  | enumeration _ => []

/-- The names in a scope, as they are read in the code of a module.  What the code declares first is
a structure, unless it is an enumeration. -/
def Code.names (code : Code) : Scope → List String
  | .fields => code.fields.map (·.1)
  | .constants => code.constants
  | .variants => if (code.introduced "struct").isEmpty then code.variants.map (·.1) else []
  | .commands => if (code.introduced "struct").isEmpty then [] else code.variants.map (·.1)
  | .builder => code.builderFields.map (·.1)
  | .modules => (code.introduced "mod").map (·.1)

/-- The numbers of the variants of the enumeration of commands, as they are read. -/
def Code.commandNumbers (code : Code) : List String :=
  if (code.introduced "struct").isEmpty then [] else code.variants.map (·.2)

def ResolvedType.texts (type : ResolvedType) : Scope → List String
  | .fields => type.fields.map (Text.snake ·.name)
  | .constants => type.fields.map fun field => Text.upper (Text.snake field.name) ++ "_FIELD_ID"
  | .commands => if type.isComponent then type.commands.map (Text.pascal ·.name) else []
  | .builder =>
    if type.supportsUpdates then
      type.fields.map (Text.snake ·.name) ++
        type.events.map fun event => Text.snake event.name ++ "_events"
    else []
  | _ => []

def ResolvedEnum.texts (decl : ResolvedEnum) : Scope → List String
  | .variants => decl.values.map (Text.pascal ·.name)
  | _ => []

def Subject.memberTexts : Subject → Scope → List String
  | type resolved => resolved.texts
  | enumeration decl => decl.texts

/-- The texts that the names of a declaration become in a scope, before they are escaped. -/
def Subject.texts (index : Index) (subject : Subject) : Scope → List String
  | .modules => (index.nestedMembers subject.name).map fun name => Ident.moduleName (shortName name)
  | scope => subject.memberTexts scope

def Subject.commandIndexes : Subject → List UInt32
  | type resolved => resolved.commands.map (·.index)
  | enumeration _ => []

/-! ## Names and their texts -/

section Named

variable {around : Surroundings}

/-- Identifiers found for texts, in the order of the texts. -/
abbrev Named (texts : List String) (idents : List Ident) : Prop :=
  List.Forall₂ (fun text ident => Ident.ofName text = .ok ident) texts idents

theorem named_map {α β : Type} {relates : α → β → Prop} {items : List α} {results : List β}
    (hall : List.Forall₂ relates items results) {text : α → String} {ident : β → Ident}
    (hname : ∀ item result, relates item result → Ident.ofName (text item) = .ok (ident result)) :
    Named (items.map text) (results.map ident) :=
  List.forall₂_map_left_iff.mpr (List.forall₂_map_right_iff.mpr (hall.imp hname))

theorem FieldCode.of_eq_ok {field : ResolvedField} {code : FieldCode}
    (hcode : FieldCode.of around field = .ok code) :
    Ident.ofField field.name = .ok code.ident ∧ Ident.ofFieldId field.name = .ok code.idConst := by
  obtain ⟨ident, hident, hcode⟩ := Outcome.bind_eq_ok_iff.mp hcode
  obtain ⟨idConst, hconst, hcode⟩ := Outcome.bind_eq_ok_iff.mp hcode
  obtain ⟨shape, -, hcode⟩ := Outcome.bind_eq_ok_iff.mp hcode
  obtain ⟨updater, -, hcode⟩ := Outcome.bind_eq_ok_iff.mp hcode
  obtain ⟨setter, -, hcode⟩ := Outcome.bind_eq_ok_iff.mp hcode
  cases hcode
  exact ⟨hident, hconst⟩

theorem EventCode.accessor_of_eq_ok {event : Event} {code : EventCode}
    (hcode : EventCode.of around event = .ok code) :
    Ident.after event.name "_events" = .ok code.accessor := by
  obtain ⟨accessor, haccessor, hcode⟩ := Outcome.bind_eq_ok_iff.mp hcode
  obtain ⟨payload, -, hcode⟩ := Outcome.bind_eq_ok_iff.mp hcode
  obtain ⟨adder, -, hcode⟩ := Outcome.bind_eq_ok_iff.mp hcode
  cases hcode
  exact haccessor

theorem CommandCode.variant_of_eq_ok {answers : Bool} {command : Command} {code : CommandCode}
    (hcode : CommandCode.of around answers command = .ok code) :
    Ident.ofVariant command.name = .ok code.variant ∧ code.command = command := by
  obtain ⟨variant, hvariant, hcode⟩ := Outcome.bind_eq_ok_iff.mp hcode
  obtain ⟨sender, -, hcode⟩ := Outcome.bind_eq_ok_iff.mp hcode
  obtain ⟨request, -, hcode⟩ := Outcome.bind_eq_ok_iff.mp hcode
  cases answers with
  | false =>
    obtain ⟨response, -, hcode⟩ := Outcome.bind_eq_ok_iff.mp hcode
    obtain ⟨method, -, hcode⟩ := Outcome.bind_eq_ok_iff.mp hcode
    cases hcode
    exact ⟨hvariant, rfl⟩
  | true =>
    obtain ⟨responder, -, hcode⟩ := Outcome.bind_eq_ok_iff.mp hcode
    obtain ⟨path, -, hcode⟩ := Outcome.bind_eq_ok_iff.mp hcode
    obtain ⟨response, -, hcode⟩ := Outcome.bind_eq_ok_iff.mp hcode
    obtain ⟨method, -, hcode⟩ := Outcome.bind_eq_ok_iff.mp hcode
    cases hcode
    exact ⟨hvariant, rfl⟩

theorem EnumCode.variants_of_eq_ok {decl : ResolvedEnum} {code : EnumCode}
    (hcode : EnumCode.of around decl = .ok code) :
    List.Forall₂ (fun value ident => Ident.ofVariant value.name = .ok ident)
      decl.values code.variants := by
  obtain ⟨ident, -, hcode⟩ := Outcome.bind_eq_ok_iff.mp hcode
  obtain ⟨variants, hvariants, hcode⟩ := Outcome.bind_eq_ok_iff.mp hcode
  cases hdefault : decl.default? with
  | none =>
    rw [hdefault] at hcode
    cases hcode
  | some value =>
    rw [hdefault] at hcode
    obtain ⟨default, -, hcode⟩ := Outcome.bind_eq_ok_iff.mp hcode
    cases hcode
    exact Outcome.mapM_eq_ok_iff.mp hvariants

theorem TypeCode.named {type : ResolvedType} {code : TypeCode}
    (hcode : TypeCode.of around type = .ok code) (scope : Scope) :
    Named (type.texts scope) (code.names scope) := by
  obtain ⟨rfl, -, hfields, hevents, hcommands⟩ := TypeCode.of_eq_ok hcode
  have hmembers : Named (code.type.fields.map (Text.snake ·.name)) (code.fields.map (·.ident)) :=
    named_map hfields fun _ _ hfield => (FieldCode.of_eq_ok hfield).1
  cases scope with
  | fields => exact hmembers
  | constants => exact named_map hfields fun _ _ hfield => (FieldCode.of_eq_ok hfield).2
  | variants => exact .nil
  | commands =>
    simp only [ResolvedType.texts, TypeCode.names]
    split
    · exact named_map hcommands fun _ _ hcommand => (CommandCode.variant_of_eq_ok hcommand).1
    · exact .nil
  | builder =>
    simp only [ResolvedType.texts, TypeCode.names, TypeCode.builderMembers, List.map_append,
      List.map_map, Function.comp_def]
    split
    · exact List.rel_append hmembers
        (named_map hevents fun _ _ hevent => EventCode.accessor_of_eq_ok hevent)
    · exact .nil
  | modules => exact .nil

theorem Item.named {subject : Subject} {item : Item} (hitem : Item.of around subject = .ok item) :
    (∀ scope, Named (subject.memberTexts scope) (item.names scope)) ∧
      item.commandIndexes = subject.commandIndexes := by
  cases subject with
  | type resolved =>
    obtain ⟨code, hcode, rfl⟩ := Outcome.map_eq_ok_iff.mp hitem
    obtain ⟨-, -, -, -, hcommands⟩ := TypeCode.of_eq_ok hcode
    refine ⟨TypeCode.named hcode,
      (Outcome.map_eq_map hcommands fun command found hcommand => ?_).symm⟩
    rw [(CommandCode.variant_of_eq_ok hcommand).2]
  | enumeration decl =>
    obtain ⟨code, hcode, rfl⟩ := Outcome.map_eq_ok_iff.mp hitem
    refine ⟨fun scope => ?_, rfl⟩
    cases scope with
    | variants =>
      exact List.forall₂_map_left_iff.mpr (EnumCode.variants_of_eq_ok hcode)
    | _ => exact .nil

/-- In every scope of a module stand the identifiers of the texts of its declaration. -/
theorem Module.Fits.named {subjects : List Subject} {module : Module}
    (hfits : module.Fits around subjects) :
    ∃ subject ∈ subjects, subject.name = module.item.name ∧
      (∀ scope, Named (subject.texts around.index scope) (module.names scope)) ∧
        module.item.commandIndexes = subject.commandIndexes := by
  obtain ⟨subject, hmem, hname, hitem⟩ := hfits.item
  obtain ⟨hnamed, hindexes⟩ := Item.named hitem
  refine ⟨subject, hmem, hname, fun scope => ?_, hindexes⟩
  cases scope with
  | modules =>
    simp only [Subject.texts, hname]
    exact named_map hfits.members fun _ _ hmember => hmember.1
  | _ => exact hnamed _

/-- The variants of an enumeration all have numbers. -/
theorem EnumCode.map_numbered {decl : ResolvedEnum} {code : EnumCode}
    (hcode : EnumCode.of around decl = .ok code) : code.numbered.map (·.1) = code.variants := by
  have hlength := (EnumCode.variants_of_eq_ok hcode).length_eq
  rw [← (EnumCode.of_eq_ok hcode).1] at hlength
  exact List.map_fst_zip (by simp [hlength])

theorem Item.names_variants {subject : Subject} {code : EnumCode}
    (hitem : Item.of around subject = .ok (.enumeration code)) :
    code.numbered.map (·.1) = code.names .variants := by
  cases subject with
  | type resolved =>
    obtain ⟨code, -, hcode⟩ := Outcome.map_eq_ok_iff.mp hitem
    cases hcode
  | enumeration decl =>
    obtain ⟨code', hcode, hsame⟩ := Outcome.map_eq_ok_iff.mp hitem
    cases hsame
    exact EnumCode.map_numbered hcode

theorem Item.names_commands (code : TypeCode) :
    (Item.type code).numbered.map (·.1) = code.names .commands := by
  simp only [Item.numbered, TypeCode.names, TypeCode.commandVariants]
  split
  · rw [List.map_map]
    rfl
  · rfl

theorem Item.names_builder (item : Item) :
    item.builderMembers.map (·.1) = item.names .builder := by
  cases item with
  | type code =>
    simp only [Item.builderMembers, Item.names, TypeCode.names]
    split <;> rfl
  | enumeration code => rfl

theorem Item.names_fields (item : Item) : item.members.map (·.1) = item.names .fields := by
  cases item with
  | type code => exact List.map_map
  | enumeration code => rfl

theorem Item.names_constants (item : Item) : item.constants = item.names .constants := by
  cases item <;> rfl

/-- What is read in the code of a module are its names, in every scope. -/
theorem Module.Fits.names_eq {subjects : List Subject} {module : Module}
    (hfits : module.Fits around subjects) (hspelled : module.Spelled) (scope : Scope) :
    module.code.names scope = (module.names scope).map Ident.text := by
  obtain ⟨subject, -, -, hitem⟩ := hfits.item
  have hstruct := hspelled.introduced_item (show "struct" ≠ "mod" by decide)
  cases scope with
  | fields =>
    simp only [Code.names, Module.names, hspelled.fields_eq, ← Item.names_fields, List.map_map]
    rfl
  | constants => simp only [Code.names, Module.names, hspelled.constants_eq, Item.names_constants]
  | builder =>
    simp only [Code.names, Module.names, hspelled.builderFields_eq, ← Item.names_builder,
      List.map_map]
    rfl
  | modules =>
    simp only [Code.names, Module.names, hspelled.written.members, List.map_map]
    rfl
  | variants =>
    simp only [Code.names, Module.names, hspelled.variants_eq, hstruct]
    cases hcode : module.item with
    | type code =>
      rw [Item.blocks, Item.named_struct]
      rfl
    | enumeration code =>
      rw [hcode] at hitem
      simp only [Item.names, ← Item.names_variants hitem, List.map_map]
      rfl
  | commands =>
    simp only [Code.names, Module.names, hspelled.variants_eq, hstruct]
    cases module.item with
    | type code =>
      rw [Item.blocks, Item.named_struct]
      simp only [Item.names, ← Item.names_commands, List.map_map]
      rfl
    | enumeration code => rfl

/-- Where commands are read, their numbers are those that the item was given. -/
theorem Module.Spelled.commandNumbers_eq {module : Module} (hspelled : module.Spelled)
    (hcommands : module.code.names .commands ≠ []) :
    module.code.commandNumbers =
      module.item.commandIndexes.map fun index => Nat.repr index.toNat := by
  have hstruct := hspelled.introduced_item (show "struct" ≠ "mod" by decide)
  simp only [Code.names, Code.commandNumbers, hspelled.variants_eq, hstruct] at hcommands ⊢
  cases hcode : module.item with
  | type code =>
    rw [hcode, Item.blocks, Item.named_struct] at hcommands
    rw [Item.blocks, Item.named_struct]
    simp only [Item.numbered, List.isEmpty_cons, Bool.false_eq_true, if_false] at hcommands ⊢
    split at hcommands
    · next hcomponent =>
      simp only [if_pos hcomponent, TypeCode.commandVariants, Item.commandIndexes, List.map_map]
      rfl
    · exact absurd rfl hcommands
  | enumeration code =>
    rw [hcode] at hcommands
    exact absurd rfl hcommands

/-- The names of a scope are different exactly when their texts are, once escaped. -/
theorem Module.Fits.nodup_iff {subjects : List Subject} {module : Module}
    (hfits : module.Fits around subjects) :
    ∃ subject ∈ subjects, subject.name = module.item.name ∧
      (∀ scope, (module.names scope).Nodup ↔
        ((subject.texts around.index scope).map Ident.escape).Nodup) ∧
        module.item.commandIndexes = subject.commandIndexes := by
  obtain ⟨subject, hmem, hname, hnamed, hindexes⟩ := hfits.named
  exact ⟨subject, hmem, hname, fun scope => Ident.nodup_iff_of_ofName (hnamed scope), hindexes⟩

end Named

/-! ## Fields and their constants -/

namespace Ident

theorem toNat_lt_of_isPartChar {char : Char} (hpart : isPartChar char = true) :
    char.toNat < 0x80 := by
  have hcases : ((65 ≤ char.toNat ∧ char.toNat ≤ 90 ∨ 97 ≤ char.toNat ∧ char.toNat ≤ 122) ∨
      48 ≤ char.toNat ∧ char.toNat ≤ 57) ∨ char = '_' := by
    have hranges : isPartChar char =
        (((decide (65 ≤ char.val ∧ char.val ≤ 90) ||
          decide (97 ≤ char.val) && decide (char.val ≤ 122)) ||
            decide (48 ≤ char.val) && decide (char.val ≤ 57)) || decide (char = '_')) := rfl
    rw [hranges] at hpart
    simpa [UInt32.le_iff_toNat_le] using hpart
  rcases hcases with hrange | rfl
  · omega
  · decide

theorem subset_escape (text : String) : text.toList ⊆ (escape text).toList := by
  rw [escape]
  split
  · simp
  · exact List.Subset.refl _

/-- A name in small words that is an identifier is made of small letters of ASCII. -/
theorem small_of_isValid {name : String} (hvalid : isValid (escape (Text.snake name)) = true) :
    ∀ char ∈ (Text.snake name).toList, char.toNat < 0x80 ∧ char.isUpper = false := by
  intro char hchar
  have hpart := isPartChar_of_isValid hvalid char (subset_escape _ hchar)
  exact ⟨toNat_lt_of_isPartChar hpart, Text.isUpper_of_mem_snake char hchar⟩

theorem escape_append_fieldId (text : String) :
    escape (text ++ "_FIELD_ID") = text ++ "_FIELD_ID" := by
  have hshort : ∀ name ∈ neverRaw, name.length < "_FIELD_ID".length := by decide
  rw [escape, if_neg]
  intro hraw
  have hlength := hshort _ (by simpa using hraw)
  rw [String.length_append] at hlength
  omega

/-- Fields whose constants have the same text have the same name in small words. -/
theorem snake_eq_of_fieldId_eq {left right : String}
    (hleft : isValid (escape (Text.snake left)) = true)
    (hright : isValid (escape (Text.snake right)) = true)
    (heq : escape (Text.upper (Text.snake left) ++ "_FIELD_ID") =
      escape (Text.upper (Text.snake right) ++ "_FIELD_ID")) :
    Text.snake left = Text.snake right := by
  rw [escape_append_fieldId, escape_append_fieldId, String.append_left_inj] at heq
  exact Text.eq_of_upper_eq (small_of_isValid hleft) (small_of_isValid hright) heq

end Ident

/-- Constants of fields clash only where the fields do. -/
theorem TypeCode.nodup_constants {around : Surroundings} {type : ResolvedType} {code : TypeCode}
    (hcode : TypeCode.of around type = .ok code) (hfields : (code.names .fields).Nodup) :
    (code.names .constants).Nodup := by
  obtain ⟨-, -, hcodes, -, -⟩ := TypeCode.of_eq_ok hcode
  simp only [TypeCode.names, List.Nodup, List.pairwise_map] at hfields ⊢
  refine hfields.imp_of_mem fun {left right} hleft hright hne hsame => hne ?_
  obtain ⟨field, -, hfield⟩ := Outcome.exists_left_of_mem hcodes hleft
  obtain ⟨other, -, hother⟩ := Outcome.exists_left_of_mem hcodes hright
  obtain ⟨hident, hconst⟩ := FieldCode.of_eq_ok hfield
  obtain ⟨hident', hconst'⟩ := FieldCode.of_eq_ok hother
  have hsnake := Ident.snake_eq_of_fieldId_eq (Ident.isValid_of_ofName hident)
    (Ident.isValid_of_ofName hident') ((Ident.eq_iff_of_ofName hconst hconst').mp hsame)
  exact (Ident.eq_iff_of_ofName hident hident').mpr (congrArg Ident.escape hsnake)

theorem Module.Fits.nodup_constants {around : Surroundings} {subjects : List Subject}
    {module : Module} (hfits : module.Fits around subjects)
    (hfields : (module.names .fields).Nodup) : (module.names .constants).Nodup := by
  obtain ⟨subject, -, -, hitem⟩ := hfits.item
  simp only [Module.names] at hfields ⊢
  cases subject with
  | type resolved =>
    obtain ⟨code, hcode, hitem⟩ := Outcome.map_eq_ok_iff.mp hitem
    rw [← hitem] at hfields ⊢
    exact TypeCode.nodup_constants hcode hfields
  | enumeration decl =>
    obtain ⟨code, -, hitem⟩ := Outcome.map_eq_ok_iff.mp hitem
    rw [← hitem]
    exact List.nodup_nil

/-! ## Generated code -/

/-- In the code of every declaration, the names of a scope are different exactly when the texts that
they are made from are, once escaped, and the numbers of commands are those that were declared.
Constants of fields are different where the fields are.  These names and numbers are what is read in
the code. -/
theorem names_nodup_iff {index : Index} {config : GenerateConfig} {generation : Generation}
    (hgenerate : generate index config = .ok generation) :
    ∃ (resolution : Resolution) (units : List OutputUnit),
      resolution.index = index ∧ resolution.config = config ∧
        generation.artifacts = units.map OutputUnit.artifact ∧
        ((units.flatMap (·.module.all)).map (·.item.name)).Perm (index.entries.map Entry.name) ∧
        ∀ module ∈ units.flatMap (·.module.all), ∃ subject ∈ resolution.subjects,
          subject.name = module.item.name ∧
            (∀ scope, (module.names scope).Nodup ↔
              ((subject.texts index scope).map Ident.escape).Nodup) ∧
            module.item.commandIndexes = subject.commandIndexes ∧
            ((module.names .fields).Nodup → (module.names .constants).Nodup) ∧
            (∀ scope, module.code.names scope = (module.names scope).map Ident.text) ∧
            (module.code.names .commands ≠ [] → module.code.commandNumbers =
              module.item.commandIndexes.map fun number => Nat.repr number.toNat) := by
  obtain ⟨resolution, around, units, rfl, hconfig, haround, hunits, hcomplete⟩ :=
    exists_complete_of_generate hgenerate
  have hindex := Resolution.index_of_ofConfig haround
  refine ⟨resolution, units, rfl, hconfig, hunits, hindex ▸ hcomplete.once,
    fun module hmodule => ?_⟩
  have hfits := hcomplete.fits module hmodule
  have hspelled := Resolution.spelled_of_complete haround hcomplete module hmodule
  obtain ⟨subject, hmem, hname, hnodup, hindexes⟩ := hfits.nodup_iff
  exact ⟨subject, hmem, hname, hindex ▸ hnodup, hindexes, hfits.nodup_constants,
    hfits.names_eq hspelled, hspelled.commandNumbers_eq⟩

namespace Resolution

/-- What an index resolves to under a configuration is determined. -/
theorem eq_of_config_eq {left right : Resolution} (hindex : left.index = right.index)
    (hconfig : left.config = right.config) : left = right := by
  obtain ⟨index, config, trees, enums, htrees, henums⟩ := left
  obtain ⟨index', config', trees', enums', htrees', henums'⟩ := right
  obtain rfl : index = index' := hindex
  obtain rfl : config = config' := hconfig
  obtain rfl := Except.ok.inj (htrees.symm.trans htrees')
  obtain rfl := Except.ok.inj (henums.symm.trans henums')
  rfl

theorem names_nodup_iff_members :
    ∃ generation, ∃ units : List OutputUnit, generate memberIndex {} = .ok generation ∧
      generation.artifacts = units.map OutputUnit.artifact ∧
        ∀ module ∈ units.flatMap (·.module.all), ∀ scope,
          (module.names scope).Nodup ∧ (module.code.names scope).Nodup := by
  obtain ⟨artifacts, hemit⟩ := exists_emit_members
  obtain ⟨generation, hgenerate, -⟩ := ofMembers.exists_generate_of_emit hemit
  obtain ⟨resolution, units, hindex, hconfig, hunits, -, hmodules⟩ := names_nodup_iff hgenerate
  obtain rfl : resolution = ofMembers := eq_of_config_eq hindex hconfig
  refine ⟨generation, units, hgenerate, hunits, fun module hmodule scope => ?_⟩
  obtain ⟨subject, hsubject, -, hnodup, -, -, hread, -⟩ := hmodules module hmodule
  have htexts : ∀ subject ∈ ofMembers.subjects,
      ((subject.texts memberIndex scope).map Ident.escape).Nodup := by
    cases scope <;> decide +kernel
  have hnames := (hnodup scope).mpr (htexts subject hsubject)
  refine ⟨hnames, ?_⟩
  rw [hread]
  exact hnames.map fun _ _ => Ident.eq_of_text_eq

/-- Names that differ in the schema and agree in code: fields, commands with the same number and
inner types of a component, a field and an event of another, and values of an enumeration. -/
def clashIndex : Index where
  entries :=
    [⟨⟨"a.schema", ""⟩, .component
        (((ComponentDecl.declare "Car" 7
            [.singular "maxSpeed" 1 (.scalar .float),
              .singular "max_speed" 2 (.scalar .float)]).withCommand
          "goFast" 1 "Ping" "Ping").withCommand "go_fast" 1 "Ping" "Ping")⟩,
      ⟨⟨"a.schema", ""⟩, .type ((TypeDecl.declare "Car.Hub" []).nestedIn "Car")⟩,
      ⟨⟨"a.schema", ""⟩, .type ((TypeDecl.declare "Car.hub" []).nestedIn "Car")⟩,
      ⟨⟨"a.schema", ""⟩, .enumeration (.declare "Color" [("DARK_RED", 0), ("DarkRed", 1)])⟩,
      ⟨⟨"a.schema", ""⟩, .component ((ComponentDecl.declare "Horn" 8
        [.list "blast_events" 1 (.scalar .float)]).withEvent "blast" 1 "Ping")⟩,
      ⟨⟨"a.schema", ""⟩, .type (.declare "Ping" [])⟩]
  ascending := by decide

def ofClash : Resolution where
  index := clashIndex
  config := {}
  trees := (clashIndex.resolveAll {} []).2.toOption.getD []
  enums := clashIndex.resolveEnums.toOption.getD []
  resolveAll_eq := rfl
  resolveEnums_eq := rfl

theorem grounded_clash : ∀ name ∈ clashIndex.entries.map Entry.name, clashIndex.Grounded name := by
  have hcar : clashIndex.Grounded "Car" := .top (by decide) (by decide)
  simp only [clashIndex, List.map_cons, List.map_nil, List.forall_mem_cons]
  exact ⟨hcar, .nested (by decide) hcar, .nested (by decide) hcar, .top (by decide) (by decide),
    .top (by decide) (by decide), .top (by decide) (by decide), by simp⟩

theorem exists_generate_clash :
    ∃ (around : Surroundings) (generation : Generation) (units : List OutputUnit),
      Surroundings.ofConfig clashIndex {} = .ok around ∧ generate clashIndex {} = .ok generation ∧
        generation.artifacts = units.map OutputUnit.artifact ∧
          around.Complete ofClash.subjects units := by
  have haround := Surroundings.ofConfig_default clashIndex
  rcases cases_emit ofClash {} haround (by decide +kernel) with
    ⟨units, hemit, hcomplete, -⟩ | ⟨missing, -, name, hname, hopen⟩
  · obtain ⟨generation, hgenerate, hartifacts⟩ := ofClash.exists_generate_of_emit hemit
    exact ⟨_, generation, units, haround, hgenerate, hartifacts, hcomplete⟩
  · exact absurd (grounded_clash name hname) hopen

/-- Every scope has names that clash in code that is generated all the same, and two commands have
one number. -/
theorem generated_names_clash :
    ∃ generation, ∃ units : List OutputUnit, generate clashIndex {} = .ok generation ∧
      generation.artifacts = units.map OutputUnit.artifact ∧
        (∀ scope, ∃ module ∈ units.flatMap (·.module.all),
          ¬ (module.names scope).Nodup ∧ ¬ (module.code.names scope).Nodup) ∧
          ∃ module ∈ units.flatMap (·.module.all), ¬ module.item.commandIndexes.Nodup := by
  obtain ⟨around, generation, units, haround, hgenerate, hartifacts, hcomplete⟩ :=
    exists_generate_clash
  have hindex := index_of_ofConfig haround
  have hmodule : ∀ name ∈ clashIndex.entries.map Entry.name,
      ∃ module ∈ units.flatMap (·.module.all), ∃ subject ∈ ofClash.subjects, subject.name = name ∧
        (∀ scope, (module.names scope).Nodup ↔
          ((subject.texts clashIndex scope).map Ident.escape).Nodup) ∧
          module.item.commandIndexes = subject.commandIndexes := by
    intro name hname
    rw [← hindex, ← hcomplete.once.mem_iff, List.mem_map] at hname
    obtain ⟨module, hmem, rfl⟩ := hname
    exact ⟨module, hmem, hindex ▸ (hcomplete.fits module hmem).nodup_iff⟩
  have hread : ∀ module ∈ units.flatMap (·.module.all), ∀ scope,
      module.code.names scope = (module.names scope).map Ident.text :=
    fun module hmem => (hcomplete.fits module hmem).names_eq
      (spelled_of_complete haround hcomplete module hmem)
  have hclash : ∀ name ∈ clashIndex.entries.map Entry.name, ∀ scope,
      (∀ subject ∈ ofClash.subjects, subject.name = name →
        ¬ ((subject.texts clashIndex scope).map Ident.escape).Nodup) →
      ∃ module ∈ units.flatMap (·.module.all),
        ¬ (module.names scope).Nodup ∧ ¬ (module.code.names scope).Nodup := by
    intro name hname scope htexts
    obtain ⟨module, hmem, subject, hsubject, hsame, hnodup, -⟩ := hmodule name hname
    have hnames := (hnodup scope).not.mpr (htexts subject hsubject hsame)
    refine ⟨module, hmem, hnames, fun htext => hnames ?_⟩
    rw [hread module hmem] at htext
    exact htext.of_map
  refine ⟨generation, units, hgenerate, hartifacts, fun scope => ?_, ?_⟩
  · cases scope with
    | fields => exact hclash "Car" (by decide) _ (by decide +kernel)
    | constants => exact hclash "Car" (by decide) _ (by decide +kernel)
    | variants => exact hclash "Color" (by decide) _ (by decide +kernel)
    | commands => exact hclash "Car" (by decide) _ (by decide +kernel)
    | builder => exact hclash "Horn" (by decide) _ (by decide +kernel)
    | modules =>
      have hmembers : clashIndex.nestedMembers "Car" = ["Car.Hub", "Car.hub"] :=
        List.mergeSort_of_pairwise (by decide)
      refine hclash "Car" (by decide) _ fun subject _ hname => ?_
      rw [Subject.texts, hname, hmembers]
      decide +kernel
  · have hindexes : ∀ subject ∈ ofClash.subjects, subject.name = "Car" →
        ¬ subject.commandIndexes.Nodup := by decide +kernel
    obtain ⟨module, hmem, subject, hsubject, hname, -, hsame⟩ := hmodule "Car" (by decide)
    exact ⟨module, hmem, hsame ▸ hindexes subject hsubject hname⟩

end Resolution

end SchemaLoom
