import SchemaLoom.Proofs.DeclarationOrder
import SchemaLoom.Proofs.NamedDeclarations
import SchemaLoom.Proofs.NestingDepth

/-!
# Assembling files

Declarations are added one by one.  A nested one waits, and its outer declaration takes it.  The
invariant says which declarations wait after some have been added, and that the modules built so far
hold each of those once.  Since the order of emission has nested declarations first, every
declaration that is grounded finds all its members waiting; where one is not grounded, a member is
missing or is left over.
-/

namespace SchemaLoom

/-! ## Modules inside modules -/

namespace Module

mutual

/-- The module itself and all modules inside it. -/
def all : Module → List Module
  | node item members => node item members :: allOf members

def allOf : List (Ident × Module) → List Module
  | [] => []
  | (_, inner) :: rest => inner.all ++ allOf rest

end

theorem allOf_eq (members : List (Ident × Module)) : allOf members = members.flatMap (·.2.all) := by
  induction members with
  | nil => rfl
  | cons member rest ih =>
    obtain ⟨ident, inner⟩ := member
    rw [allOf, List.flatMap_cons, ih]

theorem all_eq (module : Module) :
    module.all = module :: module.members.flatMap (·.2.all) := by
  cases module
  rw [all, allOf_eq]
  rfl

/-- What holds of a module whenever it holds of all its members holds of every module. -/
@[elab_as_elim]
theorem induction {motive : Module → Prop}
    (node : ∀ module, (∀ member ∈ module.members, motive member.2) → motive module)
    (module : Module) : motive module :=
  node module fun member _ => induction node member.2
termination_by module
decreasing_by
  next hmember =>
  cases module with
  | node item members =>
    have hsize := List.sizeOf_lt_of_mem hmember
    obtain ⟨ident, inner⟩ := member
    simp only [Module.members, Prod.mk.sizeOf_spec, Module.node.sizeOf_spec] at hsize ⊢
    omega

/-- A member as it stands in the code of its outer module. -/
def inlined (member : Ident × Module) : Code :=
  ["pub", "mod", member.1.text] ++ Code.brace member.2.code

theorem code_eq (module : Module) :
    module.code = module.item.text ++ module.members.flatMap inlined := by
  have hmembers : ∀ members, codeOf members = members.flatMap inlined := by
    intro members
    induction members with
    | nil => rfl
    | cons member rest ih =>
      obtain ⟨ident, inner⟩ := member
      rw [codeOf, List.flatMap_cons, ih]
      rfl
  cases module
  rw [code, hmembers]
  rfl

/-- The module holds the code of a resolved declaration and, as its members, exactly the
declarations nested in that one, each under the identifier of its own name. -/
structure Fits (around : Surroundings) (subjects : List Subject) (module : Module) : Prop where
  item : ∃ subject ∈ subjects, subject.name = module.item.name ∧
    Item.of around subject = .ok module.item
  members : List.Forall₂
    (fun name member => Ident.ofModule (shortName name) = .ok member.1 ∧
      member.2.item.name = name)
    (around.index.nestedMembers module.item.name) module.members

end Module

/-! ## Nested members -/

namespace Index

variable {index : Index}

theorem outer?_eq_some_iff {name outer : String} :
    index.outer? name = some outer ↔
      name ∈ index.nestedTypes outer ∨ name ∈ index.nestedEnumerations outer := by
  simp only [outer?, nestedTypes, nestedEnumerations, List.mem_map, List.mem_filter, beq_iff_eq,
    mem_types_iff, mem_enumerations_iff, type?, enumeration?]
  constructor
  · intro houter
    obtain ⟨entry, hget, hdecl⟩ := Option.bind_eq_some_iff.mp houter
    have hname := (get?_eq_some_iff.mp hget).2
    obtain ⟨source, decl⟩ := entry
    cases decl with
    | type decl =>
      obtain rfl : decl.qualified = name := hname
      exact .inl ⟨decl, ⟨by rw [hget]; rfl, hdecl⟩, rfl⟩
    | enumeration decl =>
      obtain rfl : decl.qualified = name := hname
      exact .inr ⟨decl, ⟨by rw [hget]; rfl, hdecl⟩, rfl⟩
    | component decl => cases hdecl
  · rintro (⟨decl, ⟨hdecl, houter⟩, rfl⟩ | ⟨decl, ⟨hdecl, houter⟩, rfl⟩)
    · obtain ⟨entry, hget, hview⟩ := Option.bind_eq_some_iff.mp hdecl
      rw [hget]
      obtain ⟨source, found⟩ := entry
      cases found <;> simp_all [Declaration.type?, Declaration.outer?]
    · obtain ⟨entry, hget, hview⟩ := Option.bind_eq_some_iff.mp hdecl
      rw [hget]
      obtain ⟨source, found⟩ := entry
      cases found <;> simp_all [Declaration.enumeration?, Declaration.outer?]

theorem mem_nestedMembers_iff {name outer : String} :
    name ∈ index.nestedMembers outer ↔ index.outer? name = some outer := by
  rw [nestedMembers, List.mem_mergeSort, List.mem_append, outer?_eq_some_iff]

theorem nodup_nestedMembers (index : Index) (outer : String) :
    (index.nestedMembers outer).Nodup := by
  rw [nestedMembers, (List.mergeSort_perm _ _).nodup_iff, List.nodup_append]
  refine ⟨SortedNames.nodup_of_ascending (index.ascending_nestedTypes outer),
    SortedNames.nodup_of_ascending (index.ascending_nestedEnumerations outer), ?_⟩
  rintro name htype _ henum rfl
  obtain ⟨type, htype, -⟩ := mem_nestedTypes_iff.mp htype
  obtain ⟨entry, hget, hdecl⟩ := Option.bind_eq_some_iff.mp htype
  have henum := enumeration?_of_mem_nestedEnumerations henum
  rw [enumeration?, hget] at henum
  obtain ⟨source, decl⟩ := entry
  cases decl with
  | type decl => simp [Declaration.enumeration?] at henum
  | enumeration decl => cases hdecl
  | component decl => cases hdecl

end Index

/-! ## Taking members -/

section Taking

variable {names : List String} {waiting rest : Waiting} {members : List (Ident × Module)}

theorem Waiting.perm_cons_filter (hkeys : (waiting.map (·.1)).Nodup) {entry : String × Module}
    (hmem : entry ∈ waiting) : waiting.Perm (entry :: waiting.filter (·.1 != entry.1)) := by
  induction waiting with
  | nil => cases hmem
  | cons first others ih =>
    rw [List.map_cons, List.nodup_cons] at hkeys
    rcases List.mem_cons.mp hmem with rfl | hmem
    · have hothers : others.filter (·.1 != entry.1) = others := by
        rw [List.filter_eq_self]
        intro other hother
        have hne : other.1 ≠ entry.1 := fun heq =>
          hkeys.1 (heq ▸ List.mem_map_of_mem hother)
        simpa using hne
      simp [hothers]
    · have hne : first.1 ≠ entry.1 := fun heq =>
        hkeys.1 (heq ▸ List.mem_map_of_mem hmem)
      have hkept : (first :: others).filter (·.1 != entry.1) =
          first :: others.filter (·.1 != entry.1) := by
        simp [hne]
      rw [hkept]
      exact ((ih hkeys.2 hmem).cons first).trans (List.Perm.swap _ _ _)

/-- Members are taken in the order of their names, and nothing else is. -/
theorem takeMembers_eq_ok (hkeys : (waiting.map (·.1)).Nodup)
    (htake : takeMembers names waiting = .ok (members, rest)) :
    List.Forall₂ (fun name member => Ident.ofModule (shortName name) = .ok member.1 ∧
        (name, member.2) ∈ waiting) names members ∧
      waiting.Perm (names.zip (members.map (·.2)) ++ rest) := by
  induction names generalizing waiting members with
  | nil =>
    cases htake
    exact ⟨.nil, List.Perm.refl _⟩
  | cons name names ih =>
    rw [takeMembers] at htake
    cases hfind : waiting.find? (·.1 == name) with
    | none =>
      rw [hfind] at htake
      cases htake
    | some entry =>
      obtain ⟨key, inner⟩ := entry
      obtain rfl : key = name := by simpa using List.find?_some hfind
      rw [hfind] at htake
      obtain ⟨ident, hident, htake⟩ := Outcome.bind_eq_ok_iff.mp htake
      obtain ⟨⟨others, left⟩, hothers, htake⟩ := Outcome.bind_eq_ok_iff.mp htake
      cases htake
      have hmem := List.mem_of_find?_eq_some hfind
      have hsub : (waiting.filter (·.1 != key)).Sublist waiting := List.filter_sublist
      have hrest := ih (hkeys.sublist (hsub.map _)) hothers
      refine ⟨.cons ⟨hident, hmem⟩ ?_, ?_⟩
      · exact hrest.1.imp fun _ _ hmember => ⟨hmember.1, hsub.subset hmember.2⟩
      · exact (Waiting.perm_cons_filter hkeys hmem).trans (hrest.2.cons _)

/-- Taking fails for an identifier, or for a name under which nothing waits. -/
theorem takeMembers_eq_error {error : EmitError} (hnames : names.Nodup)
    (htake : takeMembers names waiting = .error error) :
    (∃ name ∈ names, Ident.ofModule (shortName name) = .error error) ∨
      ∃ name ∈ names, name ∉ waiting.map (·.1) ∧ error = .missingNested name := by
  induction names generalizing waiting with
  | nil => cases htake
  | cons name names ih =>
    rw [List.nodup_cons] at hnames
    rw [takeMembers] at htake
    cases hfind : waiting.find? (·.1 == name) with
    | none =>
      rw [hfind] at htake
      cases htake
      refine .inr ⟨name, List.mem_cons_self, fun hmem => ?_, rfl⟩
      obtain ⟨entry, hentry, heq⟩ := List.mem_map.mp hmem
      have hne := List.find?_eq_none.mp hfind entry hentry
      simp [heq] at hne
    | some entry =>
      rw [hfind] at htake
      rcases Outcome.bind_eq_error_iff.mp htake with hident | ⟨ident, -, htake⟩
      · exact .inl ⟨name, List.mem_cons_self, hident⟩
      rcases Outcome.bind_eq_error_iff.mp htake with hothers | ⟨taken, -, htake⟩
      · rcases ih hnames.2 hothers with ⟨other, hother, hident⟩ | ⟨other, hother, hmissing, herror⟩
        · exact .inl ⟨other, List.mem_cons_of_mem _ hother, hident⟩
        · refine .inr ⟨other, List.mem_cons_of_mem _ hother, fun hmem => hmissing ?_, herror⟩
          obtain ⟨entry, hentry, rfl⟩ := List.mem_map.mp hmem
          have hne : entry.1 ≠ name := fun heq => hnames.1 (heq ▸ hother)
          exact List.mem_map_of_mem (List.mem_filter.mpr ⟨hentry, by simpa using hne⟩)
      · cases htake

/-- What waited is what was taken, under the names in turn, and what is left. -/
theorem takeMembers_split (hkeys : (waiting.map (·.1)).Nodup)
    (htake : takeMembers names waiting = .ok (members, rest)) :
    (waiting.map (·.1)).Perm (names ++ rest.map (·.1)) ∧
      (waiting.map (·.2)).Perm (members.map (·.2) ++ rest.map (·.2)) := by
  obtain ⟨hall, hperm⟩ := takeMembers_eq_ok hkeys htake
  have hlength : names.length = (members.map (·.2)).length := by
    rw [List.length_map, hall.length_eq]
  have hnames := hperm.map (·.1)
  have hmodules := hperm.map (·.2)
  rw [List.map_append] at hnames hmodules
  constructor
  · simpa [List.map_fst_zip (Nat.le_of_eq hlength)] using hnames
  · simpa [List.map_snd_zip (Nat.le_of_eq hlength.symm)] using hmodules

end Taking

/-! ## The invariant -/

namespace Assembly

variable {around : Surroundings} {subjects : List Subject} {assembly next : Assembly}
  {done : List String} {name : String}

/-- All modules that are not inside another one yet. -/
def modules (assembly : Assembly) : List Module :=
  assembly.waiting.map (·.2) ++ assembly.units.map (·.module)

/-- What holds once the names were added: those whose outer declaration was not wait for it, the
others are files or inside one of the modules, and no declaration was added before its members. -/
structure Sound (around : Surroundings) (subjects : List Subject) (done : List String)
    (assembly : Assembly) : Prop where
  keys : (assembly.waiting.map (·.1)).Nodup
  waiting : ∀ name, name ∈ assembly.waiting.map (·.1) ↔
    name ∈ done ∧ ∃ outer, around.index.outer? name = some outer ∧ outer ∉ done
  ordered : ∀ before outer after, done = before ++ outer :: after →
    ∀ name, around.index.outer? name = some outer → name ∈ before
  labels : ∀ entry ∈ assembly.waiting, entry.2.item.name = entry.1
  once : ((assembly.modules.flatMap Module.all).map (·.item.name)).Perm done
  fits : ∀ module ∈ assembly.modules.flatMap Module.all, module.Fits around subjects
  units : assembly.units.map (·.name) =
    done.filter fun name => (around.index.outer? name).isNone
  tops : ∀ unit ∈ assembly.units, unit.module.item.name = unit.name ∧
    around.filePath unit.name = .ok unit.path

theorem sound_nil (around : Surroundings) (subjects : List Subject) :
    Sound around subjects [] {} where
  keys := List.nodup_nil
  waiting := by simp
  ordered := by simp
  labels := by simp
  once := List.Perm.refl _
  fits := by simp [modules]
  units := rfl
  tops := by simp

/-- Everything that adding a name can do. -/
theorem exists_of_add_eq_ok (hadd : add around subjects assembly name = .ok next) :
    ∃ subject item members rest, subject ∈ subjects ∧ subject.name = name ∧
      Item.of around subject = .ok item ∧
      takeMembers (around.index.nestedMembers name) assembly.waiting = .ok (members, rest) ∧
      ((∃ outer, around.index.outer? name = some outer) ∧
          next = ⟨rest ++ [(name, .node item members)], assembly.units⟩ ∨
        around.index.outer? name = none ∧ ∃ path, around.filePath name = .ok path ∧
          next = ⟨rest, assembly.units ++ [⟨name, path, .node item members⟩]⟩) := by
  rw [add] at hadd
  cases hfind : subjects.find? (·.name == name) with
  | none =>
    rw [hfind] at hadd
    cases hadd
  | some subject =>
    rw [hfind] at hadd
    obtain ⟨item, hitem, hadd⟩ := Outcome.bind_eq_ok_iff.mp hadd
    obtain ⟨⟨members, rest⟩, htake, hadd⟩ := Outcome.bind_eq_ok_iff.mp hadd
    refine ⟨subject, item, members, rest, List.mem_of_find?_eq_some hfind,
      by simpa using List.find?_some hfind, hitem, htake, ?_⟩
    cases houter : around.index.outer? name with
    | some outer =>
      rw [houter] at hadd
      cases hadd
      exact .inl ⟨⟨outer, rfl⟩, rfl⟩
    | none =>
      rw [houter] at hadd
      obtain ⟨path, hpath, hadd⟩ := Outcome.bind_eq_ok_iff.mp hadd
      cases hadd
      exact .inr ⟨rfl, path, hpath, rfl⟩

/-- Everything that keeps a name from being added. -/
theorem cases_of_add_eq_error {error : EmitError}
    (hadd : add around subjects assembly name = .error error) :
    (∀ subject ∈ subjects, subject.name ≠ name) ∨
      (∃ subject ∈ subjects, Item.of around subject = .error error) ∨
      takeMembers (around.index.nestedMembers name) assembly.waiting = .error error ∨
      around.filePath name = .error error := by
  rw [add] at hadd
  cases hfind : subjects.find? (·.name == name) with
  | none =>
    left
    simpa using hfind
  | some subject =>
    right
    rw [hfind] at hadd
    rcases Outcome.bind_eq_error_iff.mp hadd with hitem | ⟨item, -, hadd⟩
    · exact .inl ⟨subject, List.mem_of_find?_eq_some hfind, hitem⟩
    right
    rcases Outcome.bind_eq_error_iff.mp hadd with htake | ⟨⟨members, rest⟩, -, hadd⟩
    · exact .inl htake
    right
    cases houter : around.index.outer? name with
    | some outer =>
      rw [houter] at hadd
      cases hadd
    | none =>
      rw [houter] at hadd
      rcases Outcome.bind_eq_error_iff.mp hadd with hpath | ⟨path, -, hadd⟩
      · exact hpath
      · cases hadd

namespace Sound

/-- No declaration is added before its members. -/
theorem mem_of_outer (hsound : Sound around subjects done assembly) {outer : String}
    (houter : around.index.outer? name = some outer) (hdone : outer ∈ done) : name ∈ done := by
  obtain ⟨before, after, hsplit⟩ := List.append_of_mem hdone
  rw [hsplit]
  exact List.mem_append_left _ (hsound.ordered before outer after hsplit name houter)

/-- The members that are taken were added before. -/
theorem mem_of_takeMembers (hsound : Sound around subjects done assembly) {names : List String}
    {members : List (Ident × Module)} {rest : Waiting}
    (htake : takeMembers names assembly.waiting = .ok (members, rest)) {member : String}
    (hmember : member ∈ names) : member ∈ done := by
  have hperm := (takeMembers_split hsound.keys htake).1
  exact ((hsound.waiting member).mp (hperm.mem_iff.mpr (List.mem_append_left _ hmember))).1

/-- What is left after the members of a new name were taken still waits. -/
theorem mem_rest_iff (hsound : Sound around subjects done assembly) {rest : Waiting}
    {members : List (Ident × Module)}
    (htake : takeMembers (around.index.nestedMembers name) assembly.waiting = .ok (members, rest))
    (other : String) :
    other ∈ rest.map (·.1) ↔
      other ∈ done ∧ ∃ outer, around.index.outer? other = some outer ∧ outer ∉ done ++ [name] := by
  have hperm := (takeMembers_split hsound.keys htake).1
  have hdisjoint := List.nodup_append.mp (hperm.nodup_iff.mp hsound.keys)
  have hwaiting := hsound.waiting other
  rw [hperm.mem_iff, List.mem_append] at hwaiting
  constructor
  · intro hrest
    obtain ⟨hdone, outer, houter, hopen⟩ := hwaiting.mp (.inr hrest)
    refine ⟨hdone, outer, houter, ?_⟩
    rw [List.mem_append, List.mem_singleton, not_or]
    refine ⟨hopen, fun heq => ?_⟩
    exact hdisjoint.2.2 other (Index.mem_nestedMembers_iff.mpr (heq ▸ houter)) other hrest rfl
  · rintro ⟨hdone, outer, houter, hopen⟩
    rw [List.mem_append, List.mem_singleton, not_or] at hopen
    rcases hwaiting.mpr ⟨hdone, outer, houter, hopen.1⟩ with hnested | hrest
    · rw [Index.mem_nestedMembers_iff, houter, Option.some.injEq] at hnested
      exact absurd hnested hopen.2
    · exact hrest

/-- The modules after a name was added are those before and the new one around its members. -/
theorem perm_modules (hsound : Sound around subjects done assembly) {rest : Waiting}
    {item : Item} {members : List (Ident × Module)}
    (htake : takeMembers (around.index.nestedMembers name) assembly.waiting = .ok (members, rest))
    (hnext : next.modules.Perm
      (.node item members :: (rest.map (·.2) ++ assembly.units.map (·.module)))) :
    (next.modules.flatMap Module.all).Perm
      (.node item members :: assembly.modules.flatMap Module.all) := by
  have hwaiting := (takeMembers_split hsound.keys htake).2
  calc next.modules.flatMap Module.all
    _ |>.Perm ((Module.node item members ::
          (rest.map (·.2) ++ assembly.units.map (·.module))).flatMap Module.all) :=
        hnext.flatMap_right _
    _ = .node item members :: (members.map (·.2) ++ rest.map (·.2) ++
          assembly.units.map (·.module)).flatMap Module.all := by
        rw [List.flatMap_cons, Module.all_eq]
        simp [Module.members, List.flatMap_map]
    _ |>.Perm (.node item members :: assembly.modules.flatMap Module.all) := by
        apply List.Perm.cons
        exact (hwaiting.symm.append_right _).flatMap_right _

/-- Adding a new name keeps the invariant. -/
theorem add (hsound : Sound around subjects done assembly) (hnew : name ∉ done)
    (hadd : Assembly.add around subjects assembly name = .ok next) :
    Sound around subjects (done ++ [name]) next := by
  obtain ⟨subject, item, members, rest, hsubject, hname, hitem, htake, hcases⟩ :=
    exists_of_add_eq_ok hadd
  have hrest := hsound.mem_rest_iff htake
  have hself := (Item.of_eq_ok hitem).1.trans hname
  have hsplit := takeMembers_split hsound.keys htake
  have hkeys := (List.nodup_append.mp (hsplit.1.nodup_iff.mp hsound.keys)).2.1
  have hlabels : ∀ entry ∈ rest, entry.2.item.name = entry.1 := by
    intro entry hentry
    apply hsound.labels
    exact (takeMembers_eq_ok hsound.keys htake).2.mem_iff.mpr (List.mem_append_right _ hentry)
  have hclosed : ∀ inner outer, around.index.outer? inner = some outer →
      outer ∈ done ++ [name] → inner ∈ done := by
    intro inner outer houter hmem
    rw [List.mem_append, List.mem_singleton] at hmem
    rcases hmem with hdone | rfl
    · exact hsound.mem_of_outer houter hdone
    · exact hsound.mem_of_takeMembers htake (Index.mem_nestedMembers_iff.mpr houter)
  have hfits : (Module.node item members).Fits around subjects := by
    refine ⟨⟨subject, hsubject, hname.trans hself.symm, hitem⟩, ?_⟩
    change List.Forall₂ _ (around.index.nestedMembers item.name) members
    rw [hself]
    exact (takeMembers_eq_ok hsound.keys htake).1.imp fun _ member hmember =>
      ⟨hmember.1, hsound.labels _ hmember.2⟩
  have hmodules : next.modules.Perm
      (.node item members :: (rest.map (·.2) ++ assembly.units.map (·.module))) := by
    rcases hcases with ⟨-, rfl⟩ | ⟨-, path, -, rfl⟩
    · simp only [modules, List.map_append, List.append_assoc]
      exact List.perm_middle
    · simp only [modules, List.map_append, ← List.append_assoc]
      exact List.perm_append_singleton _ _
  have hall := hsound.perm_modules htake hmodules
  have hopen : ∀ outer, around.index.outer? name = some outer → outer ∉ done ++ [name] :=
    fun outer houter hmem => hnew (hclosed name outer houter hmem)
  refine
    { keys := ?keys
      waiting := ?waiting
      ordered := ?ordered
      labels := ?labels
      once := ?once
      fits := fun module hmem => ?fits
      units := ?units
      tops := ?tops }
  case ordered =>
    intro before outer after hdone inner houter
    rcases List.eq_nil_or_concat after with rfl | ⟨after, last, rfl⟩
    · obtain ⟨rfl, hlast⟩ := List.append_inj hdone (by simpa using congrArg List.length hdone)
      exact hclosed inner outer houter (by simp [hlast])
    · rw [List.concat_eq_append, ← List.cons_append, ← List.append_assoc] at hdone
      exact hsound.ordered before outer after (List.append_inj_left' hdone rfl) inner houter
  case once =>
    have hnames := hall.map (·.item.name)
    rw [List.map_cons] at hnames
    refine hnames.trans (.trans ?_ (List.perm_append_singleton name done).symm)
    change List.Perm (item.name :: _) _
    rw [hself]
    exact hsound.once.cons name
  case fits =>
    rw [hall.mem_iff, List.mem_cons] at hmem
    rcases hmem with rfl | hmem
    · exact hfits
    · exact hsound.fits module hmem
  all_goals rcases hcases with ⟨⟨outer, houter⟩, rfl⟩ | ⟨htop, path, hpath, rfl⟩
  case keys.inl =>
    rw [List.map_append, List.map_singleton, List.nodup_append]
    refine ⟨hkeys, List.nodup_singleton _, ?_⟩
    rintro other hother _ hlast rfl
    obtain rfl : other = name := List.mem_singleton.mp hlast
    exact hnew ((hrest other).mp hother).1
  case keys.inr => exact hkeys
  case waiting.inl =>
    intro other
    rw [List.map_append, List.map_singleton, List.mem_append, List.mem_singleton, hrest]
    constructor
    · rintro (⟨hdone, hpending⟩ | rfl)
      · exact ⟨List.mem_append_left _ hdone, hpending⟩
      · exact ⟨List.mem_append_right _ (List.mem_singleton_self _), outer, houter,
          hopen outer houter⟩
    · rintro ⟨hmem, hpending⟩
      rw [List.mem_append, List.mem_singleton] at hmem
      exact hmem.imp_left fun hdone => ⟨hdone, hpending⟩
  case waiting.inr =>
    intro other
    rw [hrest, List.mem_append, List.mem_singleton]
    refine ⟨fun ⟨hdone, hpending⟩ => ⟨.inl hdone, hpending⟩, ?_⟩
    rintro ⟨hdone | rfl, hpending⟩
    · exact ⟨hdone, hpending⟩
    · simp [htop] at hpending
  case labels.inl =>
    intro entry hentry
    rcases List.mem_append.mp hentry with hentry | hentry
    · exact hlabels entry hentry
    · rw [List.mem_singleton.mp hentry]
      exact hself
  case labels.inr => exact hlabels
  case units.inl => simp [hsound.units, houter]
  case units.inr => simp [hsound.units, htop]
  case tops.inl => exact hsound.tops
  case tops.inr =>
    intro unit hunit
    rcases List.mem_append.mp hunit with hunit | hunit
    · exact hsound.tops unit hunit
    · rw [List.mem_singleton.mp hunit]
      exact ⟨hself, hpath⟩

/-- Adding names one after the other keeps the invariant. -/
theorem foldlM (hsound : Sound around subjects done assembly) {names : List String}
    (hnodup : (done ++ names).Nodup)
    (hrun : names.foldlM (Assembly.add around subjects) assembly = .ok next) :
    Sound around subjects (done ++ names) next := by
  induction names generalizing done assembly with
  | nil =>
    cases hrun
    rwa [List.append_nil]
  | cons name names ih =>
    rw [List.foldlM_cons] at hrun
    obtain ⟨reached, hadd, hrun⟩ := Outcome.bind_eq_ok_iff.mp hrun
    have hnew : name ∉ done := fun hmem =>
      (List.nodup_append.mp hnodup).2.2 name hmem name List.mem_cons_self rfl
    rw [List.append_cons] at hnodup ⊢
    exact ih (hsound.add hnew hadd) hnodup hrun

theorem of_run {names : List String} (hnodup : names.Nodup)
    (hrun : names.foldlM (Assembly.add around subjects) {} = .ok assembly) :
    Sound around subjects names assembly :=
  foldlM (sound_nil around subjects) hnodup hrun

/-- When nothing waits any more, the chains of outer declarations above all added names end: the
outer declaration of each stands after it. -/
theorem grounded (hsound : Sound around subjects done assembly) (hnodup : done.Nodup)
    (hdeclared : ∀ name ∈ done, (around.index.get? name).isSome)
    (hwaiting : assembly.waiting = []) : ∀ name ∈ done, around.index.Grounded name := by
  suffices hsuffix : ∀ after before, done = before ++ after →
      ∀ name ∈ after, around.index.Grounded name from hsuffix done [] rfl
  intro after
  induction after with
  | nil => simp
  | cons name after ih =>
    intro before hdone
    have hrest := ih (before ++ [name]) (by rw [hdone, List.append_cons])
    rw [List.forall_mem_cons]
    refine ⟨?_, hrest⟩
    have hname : name ∈ done := by simp [hdone]
    have hbefore : name ∉ before := by
      rw [hdone] at hnodup
      exact fun hmem => (List.nodup_append.mp hnodup).2.2 name hmem name List.mem_cons_self rfl
    cases houter : around.index.outer? name with
    | none => exact .top (hdeclared name hname) houter
    | some outer =>
      have hmem : outer ∈ done := by
        by_contra hopen
        have hwaits := (hsound.waiting name).mpr ⟨hname, outer, houter, hopen⟩
        rw [hwaiting] at hwaits
        cases hwaits
      rw [hdone, List.mem_append, List.mem_cons] at hmem
      rcases hmem with hmem | rfl | hmem
      · obtain ⟨first, second, hsplit⟩ := List.append_of_mem hmem
        have hfirst := hsound.ordered first outer (second ++ name :: after)
          (by rw [hdone, hsplit, List.append_assoc, List.cons_append]) name houter
        exact absurd (by rw [hsplit]; exact List.mem_append_left _ hfirst) hbefore
      · exact absurd (hsound.ordered before outer after hdone outer houter) hbefore
      · exact .nested houter (hrest outer hmem)

end Sound

theorem exists_of_finish_eq_ok {units : List OutputUnit} (hfinish : assembly.finish = .ok units) :
    assembly.waiting = [] ∧ units.Perm assembly.units ∧
      (units.map (·.name)).Pairwise (· ≤ ·) := by
  rw [finish] at hfinish
  split at hfinish
  · cases hfinish
  · next hnone =>
    cases hfinish
    have hperm := List.mergeSort_perm (assembly.waiting.map (·.1)) (· ≤ ·)
    rw [hnone] at hperm
    exact ⟨List.map_eq_nil_iff.mp hperm.symm.eq_nil, List.mergeSort_perm _ _,
      SortedNames.pairwise_map_mergeSort OutputUnit.name _⟩

theorem exists_of_finish_eq_error {error : EmitError} (hfinish : assembly.finish = .error error) :
    ∃ orphan ∈ assembly.waiting.map (·.1), error = .missingNested orphan := by
  rw [finish] at hfinish
  split at hfinish
  · next orphan rest hsome =>
    cases hfinish
    refine ⟨orphan, ?_, rfl⟩
    rw [← List.mem_mergeSort, hsome]
    exact List.mem_cons_self
  · cases hfinish

end Assembly

end SchemaLoom
