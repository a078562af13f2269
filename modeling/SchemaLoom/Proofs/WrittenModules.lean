import SchemaLoom.Generate
import SchemaLoom.Proofs.Assembly
import SchemaLoom.Proofs.WrittenPaths

/-!
# Reading the code of modules

The code of a module is that of its item followed by the inner modules, and the code of a file is
that of a module after a mark.  Both are read back: their named blocks are those of the item and one
for each inner module, with the code of that module inside, and all paths in them are those that the
items refer to or lead to no declaration.
-/

namespace SchemaLoom

open Code

/-! ## Items -/

namespace Item

/-- The keyword that declares an item. -/
def keyword : Item → String
  | type _ => "struct"
  | enumeration _ => "enum"

/-- The code of an item has its declaration. -/
theorem declares_ident (item : Item) :
    ["pub", item.keyword, item.ident.text] <:+: item.text := by
  cases item with
  | type code =>
    have hdeclaration : ["pub", "struct", code.ident.text] <:+: code.declaration := ⟨_, _, rfl⟩
    have htext : code.declaration <:+: code.text := by
      simp only [TypeCode.text, List.append_assoc]
      exact (List.prefix_append _ _).isInfix.trans (List.suffix_append _ _).isInfix
    exact hdeclaration.trans htext
  | enumeration code =>
    have hdeclaration : ["pub", "enum", code.ident.text] <:+: code.declaration := ⟨_, _, rfl⟩
    have htext : code.declaration <:+: code.text := by
      simp only [EnumCode.text, List.append_assoc]
      exact (List.prefix_append _ _).isInfix
    exact hdeclaration.trans htext

theorem head?_blocks (item : Item) :
    item.blocks.head?.map (fun block => (block.keyword, block.name)) =
      some (item.keyword, item.ident.text) := by
  cases item <;> rfl

theorem named_mod (item : Item) : named item.blocks "mod" = [] := by
  cases item with
  | type code =>
    simp only [blocks, TypeCode.blocks, TypeCode.commandBlocks, TypeCode.builderBlocks]
    repeat' split
    all_goals rfl
  | enumeration code => rfl

end Item

/-! ## Modules -/

namespace Module

/-- The paths that may stand in the code of a module. -/
def Known (module : Module) (path : Code) : Prop :=
  ∃ inner ∈ module.all, inner.item.Known path

/-- The named blocks of the code of a module. -/
def blocks (module : Module) : List Block :=
  module.item.blocks ++ module.members.map fun member => ⟨"mod", member.1.text, member.2.code⟩

/-- The items of a module and of all modules inside it are given paths. -/
def Spelled (module : Module) : Prop :=
  ∀ inner ∈ module.all, inner.item.Spelled

theorem mem_all_self (module : Module) : module ∈ module.all := by
  rw [all_eq]
  exact List.mem_cons_self

theorem mem_all_of_member {module inner : Module} {member : Ident × Module}
    (hmember : member ∈ module.members) (hinner : inner ∈ member.2.all) : inner ∈ module.all := by
  rw [all_eq]
  exact List.mem_cons_of_mem _ (List.mem_flatMap.mpr ⟨member, hmember, hinner⟩)

theorem mem_all_trans {outer module inner : Module} (hmodule : module ∈ outer.all)
    (hinner : inner ∈ module.all) : inner ∈ outer.all := by
  induction outer using Module.induction with
  | node outer ih =>
    rw [all_eq, List.mem_cons, List.mem_flatMap] at hmodule
    rcases hmodule with rfl | ⟨member, hmember, hmodule⟩
    · exact hinner
    · exact mem_all_of_member hmember (ih member hmember hmodule)

/-- Inner modules one after the other are read back as blocks. -/
theorem laid_inlined {known : Code → Prop} {members : List (Ident × Module)}
    (hmembers : ∀ member ∈ members, Neat known .hard member.2.code .hard) :
    Laid known [] .hard (members.flatMap inlined)
      (members.map fun member => ⟨"mod", member.1.text, member.2.code⟩) := by
  induction members with
  | nil => exact .nil
  | cons member members ih =>
    obtain ⟨hmember, hmembers⟩ := List.forall_mem_cons.mp hmembers
    rw [List.flatMap_cons, inlined, List.append_assoc]
    exact .visible member.1 (by decide) (by decide) hmember (ih hmembers)

/-- The code of a module is read back as the blocks of its item and its members. -/
theorem Spelled.laid_code {module : Module} (hspelled : module.Spelled) (head : Code) :
    Laid module.Known head .hard module.code module.blocks := by
  induction module using Module.induction generalizing head with
  | node module ih =>
    have hitem := (hspelled module module.mem_all_self).laid_text head
    rw [code_eq]
    refine (hitem.mono fun path hpath => ⟨module, module.mem_all_self, hpath⟩).append
      (laid_inlined fun member hmember => ?_)
    have hinner := ih member hmember (fun inner hinner =>
      hspelled inner (mem_all_of_member hmember hinner)) []
    refine hinner.neat.mono ?_
    rintro path ⟨inner, hinner, hpath⟩
    exact ⟨inner, mem_all_of_member hmember hinner, hpath⟩

/-- Inner modules have a keyword of their own. -/
theorem named_members (members : List (Ident × Module)) (keyword : String) :
    named (members.map fun member => ⟨"mod", member.1.text, member.2.code⟩) keyword =
      if keyword = "mod" then members.map fun member => (member.1.text, member.2.code) else [] := by
  split
  · next hkeyword => simp [named, hkeyword, List.filter_map, Function.comp_def]
  · next hkeyword => simp [named, List.filter_map, Function.comp_def, Ne.symm hkeyword]

theorem Spelled.introduced_eq {module : Module} (hspelled : module.Spelled) (keyword : String) :
    module.code.introduced keyword = named module.item.blocks keyword ++
      if keyword = "mod" then module.members.map fun member => (member.1.text, member.2.code)
      else [] := by
  rw [introduced, (hspelled.laid_code []).lists.outline_eq, blocks, named_append, named_members]

/-- What a reader of the code of a module finds: first the declaration of its item, and the members
as inner modules, in order, each with its own code in it. -/
structure Written (module : Module) : Prop where
  declares : ["pub", module.item.keyword, module.item.ident.text] <:+: module.item.text
  starts : module.item.text <+: module.code
  first : module.code.outline.head?.map (fun block => (block.keyword, block.name)) =
    some (module.item.keyword, module.item.ident.text)
  members : module.code.introduced "mod" =
    module.members.map fun member => (member.1.text, member.2.code)

theorem Spelled.written {module : Module} (hspelled : module.Spelled) : module.Written where
  declares := module.item.declares_ident
  starts := by
    rw [code_eq]
    exact List.prefix_append _ _
  first := by
    rw [(hspelled.laid_code []).lists.outline_eq, blocks, List.head?_append]
    have hitem := module.item.head?_blocks
    cases hhead : module.item.blocks.head? with
    | none => simp [hhead] at hitem
    | some block => rwa [hhead] at hitem
  members := by
    rw [hspelled.introduced_eq, module.item.named_mod]
    rfl

/-- What the code of an inner module writes, the code of the outer one writes too. -/
theorem writes_code {module inner : Module} (hinner : inner ∈ module.all) {path : Code}
    (hwrites : Writes inner.item.text path) : Writes module.code path := by
  induction module using Module.induction with
  | node module ih =>
    rw [all_eq, List.mem_cons, List.mem_flatMap] at hinner
    rw [code_eq]
    rcases hinner with rfl | ⟨member, hmember, hinner⟩
    · exact .left hwrites
    · exact .right (.flatMap hmember (.right (.brace (ih member hmember hinner))))

end Module

/-! ## Files -/

namespace OutputUnit

variable {unit : OutputUnit} (hspelled : unit.module.Spelled)
include hspelled

/-- The code of a file is read back as that of its module. -/
theorem laid_code : Laid unit.module.Known [] .hard unit.artifact.code unit.module.blocks := by
  have hwords : Vocabulary _ _ unit.module.Known :=
    ⟨(hspelled _ unit.module.mem_all_self).runtime,
      fun path hfixed => ⟨unit.module, unit.module.mem_all_self, .inr hfixed⟩⟩
  have hnames : Flat (ofText "clippy :: all , clippy :: pedantic , clippy :: nursery") :=
    .words (by decide)
  simp only [artifact, lintMark, List.append_assoc]
  exact .lead (.marks (by decide)) (.words (by decide)) <|
    .lead (.square (.cons (.word (by decide)) (.paren (hwords.fixed_text (by decide)))))
      ((Flat.word (by decide)).append <| ((Flat.word (by decide)).append hnames.paren).append
        (.word (by decide))) <| hspelled.laid_code _

theorem outline_artifact : unit.artifact.code.outline = unit.module.code.outline := by
  rw [(laid_code hspelled).lists.outline_eq, (hspelled.laid_code []).lists.outline_eq]

/-- All paths in a file are those that its items refer to or lead to no declaration. -/
theorem known_of_mem_paths : ∀ path ∈ unit.artifact.code.paths, unit.module.Known path :=
  (laid_code hspelled).neat.reads.known_of_mem_paths

/-- All paths that the items of a file refer to are in it. -/
theorem mem_paths {inner : Module} (hinner : inner ∈ unit.module.all) {path : Code}
    (hpath : path ∈ inner.item.paths) : path ∈ unit.artifact.code.paths := by
  obtain ⟨hisPath, hcolons⟩ := (hspelled inner hinner).paths path hpath
  have hwrites : Writes unit.artifact.code path :=
    .right (Module.writes_code hinner (Item.writes_text hpath))
  exact hwrites.mem_paths hisPath hcolons

end OutputUnit

end SchemaLoom
