import SchemaLoom.Proofs.WrittenModules

/-!
# Names in the code of a module

The names that a declaration brings along are read back from its blocks: fields with their types
stand after `pub` in a structure, variants with their numbers between commas in an enumeration, and
the constants of fields come first in what belongs to a structure.  What is read are the identifiers
that were found for the declaration, in order.
-/

namespace SchemaLoom

open Code

namespace Code

/-! ## Splitting code at a mark -/

section Split

variable {α : Type} {mark : String} {items : List α} {text : α → Code}

theorem splitOn_cons_flatMap {first : Code} (hfirst : mark ∉ first)
    (htext : ∀ item ∈ items, mark ∉ text item) :
    (first ++ items.flatMap fun item => mark :: text item).splitOn mark =
      first :: items.map text := by
  induction items generalizing first with
  | nil => simpa using List.splitOn_eq_singleton hfirst
  | cons item items ih =>
    obtain ⟨hitem, htext⟩ := List.forall_mem_cons.mp htext
    rw [List.flatMap_cons, List.cons_append, List.splitOn_append_cons_self,
      List.splitOn_eq_singleton hfirst, ih hitem htext]
    rfl

theorem splitOn_flatMap_append (htext : ∀ item ∈ items, mark ∉ text item) (rest : Code) :
    (items.flatMap (fun item => text item ++ [mark]) ++ rest).splitOn mark =
      items.map text ++ rest.splitOn mark := by
  induction items with
  | nil => rfl
  | cons item items ih =>
    obtain ⟨hitem, htext⟩ := List.forall_mem_cons.mp htext
    rw [List.flatMap_cons, List.append_assoc, List.append_assoc, List.singleton_append,
      List.splitOn_append_cons_self, List.splitOn_eq_singleton hitem, ih htext]
    rfl

theorem exists_splitOn_cons {token : String} (hne : token ≠ mark) (rest : Code) :
    ∃ first others, (token :: rest).splitOn mark = (token :: first) :: others := by
  obtain ⟨first, others, hrest⟩ := List.exists_cons_of_ne_nil (rest.splitOn_ne_nil mark)
  refine ⟨first, others, ?_⟩
  rw [List.splitOn_eq_splitOnP] at hrest ⊢
  rw [List.splitOnP_cons_eq_if_modifyHead, if_neg (by simpa using hne), hrest]
  rfl

end Split

/-! ## Readers -/

/-- A field after its visibility: a name, a colon and a type, with a comma at the end. -/
def field? : Code → Option (String × Code)
  | name :: mark :: rest => if mark = ":" then some (name, rest.dropLast) else none
  | _ => none

/-- The fields in the body of a structure, with their types. -/
def fieldsIn (body : Code) : List (String × Code) :=
  (body.splitOn "pub").filterMap field?

def variant? : Code → Option (String × String)
  | [name, mark, value] => if mark = "=" then some (name, value) else none
  | _ => none

/-- The variants in the body of an enumeration, with their numbers. -/
def variantsIn (body : Code) : List (String × String) :=
  (body.splitOn ",").filterMap variant?

/-- The constants that come first in the body of an implementation. -/
def constantsIn (body : Code) : List String :=
  ((body.splitOn ";").takeWhile (["pub", "const"].isPrefixOf ·)).filterMap (·[2]?)

/-- The fields of the structure that the code declares, with their types. -/
def fields (code : Code) : List (String × Code) :=
  (code.introduced "struct").head?.elim [] fun found => fieldsIn found.2

/-- The fields of all further structures. -/
def builderFields (code : Code) : List (String × Code) :=
  (code.introduced "struct").tail.flatMap fun found => fieldsIn found.2

/-- The constants of the structure that the code declares. -/
def constants (code : Code) : List String :=
  (code.introduced "impl").head?.elim [] fun found => constantsIn found.2

/-- The variants of the enumerations in the code, with their numbers. -/
def variants (code : Code) : List (String × String) :=
  (code.introduced "enum").flatMap fun found => variantsIn found.2

/-! ## Types without visibility -/

/-- A token that is no segment is in no path. -/
theorem IsPath.notMem {path : Code} (hpath : IsPath path) {mark : String}
    (hsegment : isSegment mark = false) (hcolons : mark ≠ "::") : mark ∉ path := by
  intro hmem
  rcases hpath.cases_of_mem mark hmem with heq | hmark
  · exact hcolons heq
  · rw [hsegment] at hmark
    cases hmark

theorem ne_ident {mark : String} (hmark : isSegment mark = false) (ident : Ident) :
    mark ≠ ident.text := by
  rintro rfl
  rw [isSegment_ident] at hmark
  cases hmark

theorem notMem_ofText {mark chars : List Char} (hchars : mark ∉ pieces chars) :
    String.ofList mark ∉ ofText (String.ofList chars) := by
  rw [ofText_ofList, List.mem_map]
  rintro ⟨piece, hpiece, heq⟩
  exact hchars (String.ofList_inj.mp heq ▸ hpiece)

theorem notMem_angle {mark : String} (hmarks : mark ∉ ["<", ">"]) {code : Code}
    (hcode : mark ∉ code) : mark ∉ angle code := by
  simp only [List.mem_cons, List.not_mem_nil, or_false, not_or] at hmarks
  simpa [angle] using ⟨hmarks.1, hcode, hmarks.2⟩

end Code

namespace Vocabulary

variable {runtime : Code} {own : Ident} {known : Code → Prop}
  (hwords : Vocabulary runtime own known)

section Visibility

theorem isSegment_pub : isSegment "pub" = false :=
  isSegment_ofList ['p', 'u', 'b']

theorem pub_notMem_vecType {inner : Code} (hinner : "pub" ∉ inner) :
    "pub" ∉ Phrase.vecType inner :=
  List.not_mem_append (notMem_ofText (by decide)) (notMem_angle (by decide) hinner)

theorem pub_notMem_optionType {inner : Code} (hinner : "pub" ∉ inner) :
    "pub" ∉ Phrase.optionType inner :=
  List.not_mem_append (notMem_ofText (by decide)) (notMem_angle (by decide) hinner)

include hwords

theorem pub_notMem_item {chars : List Char} (hchars : isItemChars (pieces chars) = true) :
    "pub" ∉ Phrase.item runtime (String.ofList chars) :=
  (hwords.isPath_item hchars).notMem isSegment_pub (by decide)

theorem pub_notMem_elementType {element : ElementCode} (helement : element.Known known) :
    "pub" ∉ Phrase.elementType runtime element := by
  obtain ⟨kind | _ | _, path⟩ := element
  · cases kind with
    | bytes => exact pub_notMem_vecType (by decide)
    | entityId => exact hwords.pub_notMem_item (by decide)
    | string => exact notMem_ofText (by decide)
    | _ => simp [Phrase.elementType, Phrase.scalarType]
  · exact (helement rfl).isPath.notMem isSegment_pub (by decide)
  · exact (helement rfl).isPath.notMem isSegment_pub (by decide)

theorem pub_notMem_fieldType {field : FieldCode}
    (hshape : ∀ element ∈ field.shape.elements, element.Known known) :
    "pub" ∉ Phrase.fieldType runtime field := by
  obtain ⟨resolved, ident, idConst, shape, updater, setter⟩ := field
  cases shape with
  | singular element => exact hwords.pub_notMem_elementType (hshape element (.head _))
  | option element =>
    exact pub_notMem_optionType (hwords.pub_notMem_elementType (hshape element (.head _)))
  | list element =>
    have helement := hwords.pub_notMem_elementType (hshape element (.head _))
    simp only [Phrase.fieldType]
    cases resolved.materialization with
    | persistent =>
      exact List.not_mem_append (hwords.pub_notMem_item (by decide))
        (notMem_angle (by decide) helement)
    | growable => exact pub_notMem_vecType helement
  | map key value =>
    have hkey := hwords.pub_notMem_elementType (hshape key (.head _))
    have hvalue := hwords.pub_notMem_elementType (hshape value (.tail _ (.head _)))
    refine List.not_mem_append ?_ (notMem_angle (by decide)
      (List.not_mem_append (List.not_mem_append hkey (by decide)) hvalue))
    cases resolved.materialization with
    | persistent => exact hwords.pub_notMem_item (by decide)
    | growable => exact hwords.pub_notMem_item (by decide)

end Visibility

end Vocabulary

/-! ## Reading what is written -/

theorem fieldsIn_publicFields {members : List (Ident × Code)}
    (hmembers : ∀ member ∈ members, "pub" ∉ member.2) :
    fieldsIn (publicFields members) = members.map fun member => (member.1.text, member.2) := by
  have hfree : ∀ member ∈ members, "pub" ∉ [member.1.text, ":"] ++ member.2 ++ [","] := by
    intro member hmember
    refine List.not_mem_append (List.not_mem_append ?_ (hmembers member hmember)) (by decide)
    simp only [List.mem_cons, List.not_mem_nil, or_false, not_or]
    exact ⟨ne_ident Vocabulary.isSegment_pub member.1, by decide⟩
  have htext : publicFields members = [] ++ members.flatMap fun member =>
      "pub" :: ([member.1.text, ":"] ++ member.2 ++ [","]) := by
    simp [publicFields, terminated, List.flatMap_map]
  rw [fieldsIn, htext, splitOn_cons_flatMap List.not_mem_nil hfree, List.filterMap_cons]
  simp [field?, List.filterMap_map, Function.comp_def]

/-- A number has a digit in it, so it is no mark. -/
theorem notMem_number (value : UInt32) {mark : List Char} (hmark : mark.all (!·.isDigit) = true) :
    String.ofList mark ∉ number value := by
  intro hmem
  obtain ⟨digit, hdigit, hisDigit⟩ := Neat.exists_isDigit_repr value.toNat
  rw [← List.mem_singleton.mp hmem, String.toList_ofList] at hdigit
  have hnone := List.all_eq_true.mp hmark digit hdigit
  simp [hisDigit] at hnone

theorem variantsIn_numberedVariants (variants : List (Ident × UInt32)) :
    variantsIn (numberedVariants variants) =
      variants.map fun variant => (variant.1.text, Nat.repr variant.2.toNat) := by
  have hfree : ∀ variant ∈ variants, "," ∉ [variant.1.text, "="] ++ number variant.2 := by
    intro variant _
    refine List.not_mem_append ?_ (notMem_number variant.2 (by decide))
    simp only [List.mem_cons, List.not_mem_nil, or_false, not_or]
    exact ⟨ne_ident (isSegment_ofList [',']) variant.1, by decide⟩
  have htext : numberedVariants variants = (variants.flatMap fun variant =>
      [variant.1.text, "="] ++ number variant.2 ++ [","]) ++ [] := by
    rw [numberedVariants, terminated, List.flatMap_map, List.append_nil]
  rw [variantsIn, htext, splitOn_flatMap_append hfree, List.filterMap_append]
  simp [variant?, number, List.filterMap_map, Function.comp_def]

namespace TypeCode

variable {code : TypeCode} {known : Code → Prop}
  (hwords : Vocabulary code.runtime code.ident known) (hrefers : code.Refers known)
include hwords

/-- The constants of fields come first in what belongs to a type, and no other constant follows. -/
theorem constantsIn_inherentItems :
    constantsIn code.inherentItems = code.fields.map (·.idConst.text) := by
  have hsemicolon : isSegment ";" = false := isSegment_ofList [';']
  have hlib : ";" ∉ code.lib "FieldId" :=
    (hwords.isPath_item (by decide)).notMem hsemicolon (by decide)
  have hfree : ∀ field ∈ code.fields, ";" ∉ ["pub", "const", field.idConst.text, ":"] ++
      code.lib "FieldId" ++ ["="] ++ number field.field.id := by
    intro field _
    refine List.not_mem_append (List.not_mem_append (List.not_mem_append ?_ hlib) (by decide))
      (notMem_number field.field.id (by decide))
    simp only [List.mem_cons, List.not_mem_nil, or_false, not_or]
    exact ⟨by decide, by decide, ne_ident hsemicolon field.idConst, by decide⟩
  obtain ⟨rest, hrest⟩ : ∃ rest, code.inherentItems = (code.fields.flatMap fun field =>
      ["pub", "const", field.idConst.text, ":"] ++ code.lib "FieldId" ++ ["="] ++
        number field.field.id ++ [";"]) ++ "#" :: rest :=
    ⟨_, by rw [inherentItems, idConstants, List.append_assoc, List.append_assoc]; rfl⟩
  obtain ⟨first, others, hsplit⟩ := exists_splitOn_cons (show "#" ≠ ";" by decide) rest
  rw [constantsIn, hrest, splitOn_flatMap_append hfree, hsplit, List.takeWhile_append_of_pos,
    List.filterMap_append]
  · simp [List.filterMap_map]
  · rw [List.forall_mem_map]
    intro field _
    simp

include hrefers

theorem pub_notMem_members : ∀ member ∈ code.members, "pub" ∉ member.2 := by
  rw [members, List.forall_mem_map]
  exact fun field hfield => hwords.pub_notMem_fieldType (hrefers.fields field hfield)

theorem pub_notMem_builderMembers (hcomponent : code.type.isComponent = true) :
    ∀ member ∈ code.builderMembers, "pub" ∉ member.2 := by
  rw [builderMembers, List.forall_mem_append, List.forall_mem_map, List.forall_mem_map]
  refine ⟨fun field hfield => ?_, fun event hevent => ?_⟩
  · exact Vocabulary.pub_notMem_optionType
      (hwords.pub_notMem_fieldType (hrefers.fields field hfield))
  · exact Vocabulary.pub_notMem_vecType
      ((hrefers.events hcomponent event hevent).isPath.notMem Vocabulary.isSegment_pub (by decide))

end TypeCode

/-! ## Names of an item -/

namespace Item

/-- The fields of the structure of an item, with their types. -/
def members : Item → List (Ident × Code)
  | type code => code.members
  | enumeration _ => []

/-- The members of the builder of updates, with their types. -/
def builderMembers : Item → List (Ident × Code)
  | type code => if code.type.supportsUpdates then code.builderMembers else []
  | enumeration _ => []

/-- The variants of an enumeration or of the commands of a component, with their numbers. -/
def numbered : Item → List (Ident × UInt32)
  | type code => if code.type.isComponent then code.commandVariants else []
  | enumeration code => code.numbered

/-- The constants with the numbers of fields. -/
def constants : Item → List Ident
  | type code => code.fields.map (·.idConst)
  | enumeration _ => []

section Blocks

variable (code : TypeCode)

theorem named_commandBlocks :
    named code.commandBlocks "struct" = [] ∧ named code.commandBlocks "enum" =
      if code.commands.isEmpty then []
      else [("Commands", numberedVariants code.commandVariants)] := by
  rw [TypeCode.commandBlocks]
  split <;> exact ⟨rfl, rfl⟩

theorem named_builderBlocks :
    named code.builderBlocks "enum" = [] ∧ named code.builderBlocks "struct" =
      if code.type.supportsUpdates then [(code.builder.text, publicFields code.builderMembers)]
      else [] := by
  rw [TypeCode.builderBlocks]
  split <;> exact ⟨rfl, rfl⟩

theorem named_struct :
    named code.blocks "struct" = (code.ident.text, publicFields code.members) ::
      if code.type.supportsUpdates then [(code.builder.text, publicFields code.builderMembers)]
      else [] := by
  cases hcomponent : code.type.isComponent with
  | false => simp [named, TypeCode.blocks, ResolvedType.supportsUpdates, hcomponent]
  | true =>
    rw [TypeCode.blocks, if_pos hcomponent, ← (named_builderBlocks code).2]
    change _ :: named (code.commandBlocks ++ code.builderBlocks) "struct" = _
    rw [named_append, (named_commandBlocks code).1, List.nil_append]

theorem named_enum :
    named code.blocks "enum" = if code.type.isComponent then
      if code.commands.isEmpty then []
      else [("Commands", numberedVariants code.commandVariants)] else [] := by
  rw [TypeCode.blocks]
  split
  · change named (code.commandBlocks ++ code.builderBlocks) "enum" = _
    rw [named_append, (named_commandBlocks code).2, (named_builderBlocks code).1, List.append_nil]
  · rfl

theorem head?_named_impl :
    (named code.blocks "impl").head? = some (code.ident.text, code.inherentItems) := by
  rfl

end Blocks

end Item

/-! ## Names of a module -/

namespace Module

variable {module : Module} (hspelled : module.Spelled)
include hspelled

theorem Spelled.introduced_item {keyword : String} (hkeyword : keyword ≠ "mod") :
    module.code.introduced keyword = named module.item.blocks keyword := by
  rw [hspelled.introduced_eq, if_neg hkeyword, List.append_nil]

/-- The fields of the structure are read back with their types. -/
theorem Spelled.fields_eq :
    module.code.fields = module.item.members.map fun member => (member.1.text, member.2) := by
  have hitem := hspelled module module.mem_all_self
  rw [Code.fields, hspelled.introduced_item (by decide)]
  cases hcode : module.item with
  | type code =>
    rw [hcode] at hitem
    rw [Item.blocks, Item.named_struct]
    exact fieldsIn_publicFields (TypeCode.pub_notMem_members hitem.vocabulary hitem.refers)
  | enumeration code => rfl

/-- Each field of a type stands in its structure, and the type it has there is written with the
paths of the types that the field refers to. -/
theorem Spelled.exists_field {code : TypeCode} (hcode : module.item = .type code)
    {field : FieldCode} (hfield : field ∈ code.fields) :
    ∃ type, (field.ident.text, type) ∈ module.code.fields ∧
      ∀ path ∈ field.paths, path ∈ type.paths := by
  refine ⟨Phrase.fieldType code.runtime field, ?_, fun path hpath => ?_⟩
  · rw [hspelled.fields_eq, hcode, Item.members, TypeCode.members, List.map_map]
    exact List.mem_map_of_mem hfield
  · have hitem := hspelled module module.mem_all_self
    rw [hcode] at hitem
    obtain ⟨hisPath, hcolons⟩ := hitem.paths path
      (List.mem_append_left _ (List.mem_flatMap.mpr ⟨field, hfield, hpath⟩))
    exact field.mem_paths_fieldType hpath hisPath hcolons

/-- The members of the builder are read back with their types. -/
theorem Spelled.builderFields_eq :
    module.code.builderFields =
      module.item.builderMembers.map fun member => (member.1.text, member.2) := by
  have hitem := hspelled module module.mem_all_self
  rw [Code.builderFields, hspelled.introduced_item (by decide)]
  cases hcode : module.item with
  | type code =>
    rw [hcode] at hitem
    rw [Item.blocks, Item.named_struct, Item.builderMembers, List.tail_cons]
    split
    · next hupdates =>
      have hcomponent := (Bool.and_eq_true_iff.mp hupdates).1
      rw [List.flatMap_singleton]
      exact fieldsIn_publicFields
        (TypeCode.pub_notMem_builderMembers hitem.vocabulary hitem.refers hcomponent)
    · rfl
  | enumeration code => rfl

theorem Spelled.constants_eq :
    module.code.constants = module.item.constants.map Ident.text := by
  have hitem := hspelled module module.mem_all_self
  rw [Code.constants, hspelled.introduced_item (by decide)]
  cases hcode : module.item with
  | type code =>
    rw [hcode] at hitem
    rw [Item.blocks, Item.head?_named_impl, Item.constants, List.map_map]
    exact TypeCode.constantsIn_inherentItems hitem.vocabulary
  | enumeration code => rfl

/-- The variants are read back with their numbers. -/
theorem Spelled.variants_eq :
    module.code.variants =
      module.item.numbered.map fun variant => (variant.1.text, Nat.repr variant.2.toNat) := by
  rw [Code.variants, hspelled.introduced_item (by decide)]
  cases module.item with
  | type code =>
    rw [Item.blocks, Item.named_enum, Item.numbered]
    split
    · split
      · next hcommands =>
        rw [TypeCode.commandVariants, List.isEmpty_iff.mp hcommands]
        rfl
      · rw [List.flatMap_singleton]
        exact variantsIn_numberedVariants code.commandVariants
    · rfl
  | enumeration code => exact (List.flatMap_singleton ..).trans (variantsIn_numberedVariants _)

end Module

end SchemaLoom
