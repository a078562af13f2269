import SchemaLoom.Proofs.ByteOrder
import SchemaLoom.Proofs.NestingDepth

/-!
# Depths and orders on every index

The way up from a name, through the declarations it is nested in, ends or comes back to a name it
has passed: names with an outer declaration are declared, and there are only as many of them as the
index is long.  A depth up to that length is therefore the length of the way, and one more says that
it circles.  The order of emission follows from the depths and the bytes of the names alone.
-/

namespace SchemaLoom.Index

open ByteOrder (bytes)

variable {index : Index} {name outer : String}

/-! ## The way up -/

/-- The second name is that of the declaration in which the first one is nested. -/
def Inside (index : Index) (inner outer : String) : Prop :=
  index.outer? inner = some outer

/-- The way up from the name comes to one that is passed again and again. -/
def Circles (index : Index) (name : String) : Prop :=
  ∃ member, Relation.ReflTransGen index.Inside name member ∧
    Relation.TransGen index.Inside member member

namespace Circles

theorem of_inside (hinside : index.Inside name outer) (hcircles : index.Circles outer) :
    index.Circles name := by
  obtain ⟨member, hreach, hcycle⟩ := hcircles
  exact ⟨member, hreach.head hinside, hcycle⟩

/-- A name from which the way up circles has an outer declaration, and the way up from there circles
as well. -/
theorem exists_inside (hcircles : index.Circles name) :
    ∃ outer, index.Inside name outer ∧ index.Circles outer := by
  obtain ⟨member, hreach, hcycle⟩ := hcircles
  rcases hreach.cases_head with rfl | ⟨outer, hinside, hreach⟩
  · obtain ⟨outer, hinside, hback⟩ := Relation.TransGen.head'_iff.mp hcycle
    exact ⟨outer, hinside, outer, .refl, .tail' hback hinside⟩
  · exact ⟨outer, hinside, member, hreach, hcycle⟩

/-- As many steps as are allowed are taken, and one more is counted. -/
theorem depthWithin_eq (hcircles : index.Circles name) (fuel : Nat) :
    index.depthWithin fuel name = fuel + 1 := by
  induction fuel generalizing name with
  | zero =>
    obtain ⟨outer, houter, -⟩ := hcircles.exists_inside
    rw [Inside] at houter
    unfold depthWithin
    simp [houter]
  | succ fuel ih =>
    obtain ⟨outer, houter, hcircles⟩ := hcircles.exists_inside
    rw [Inside] at houter
    unfold depthWithin
    simp [houter, ih hcircles]

theorem nestingDepth_eq (hcircles : index.Circles name) :
    index.nestingDepth name = index.size + 1 :=
  hcircles.depthWithin_eq index.size

end Circles

/-- The names passed on a way up to a name: all are declared, and none was passed twice. -/
structure Climb (index : Index) (passed : List String) (name : String) : Prop where
  leads : ∀ member ∈ passed, Relation.TransGen index.Inside member name
  nodup : passed.Nodup
  declared : passed ⊆ index.entries.map Entry.name

namespace Climb

variable {passed : List String}

theorem start (index : Index) (name : String) : index.Climb [] name :=
  ⟨by simp, List.nodup_nil, List.nil_subset _⟩

theorem up (hclimb : index.Climb passed name) (hinside : index.Inside name outer)
    (hnew : name ∉ passed) : index.Climb (name :: passed) outer where
  leads := by
    rw [List.forall_mem_cons]
    exact ⟨.single hinside, fun member hmem => (hclimb.leads member hmem).tail hinside⟩
  nodup := List.nodup_cons.mpr ⟨hnew, hclimb.nodup⟩
  declared :=
    List.cons_subset.mpr ⟨isSome_get?_iff.mp (isSome_get?_of_outer? hinside), hclimb.declared⟩

theorem length_le (hclimb : index.Climb passed name) : passed.length ≤ index.size := by
  have hshort := hclimb.nodup.length_le_of_subset hclimb.declared
  rwa [List.length_map] at hshort

/-- However far one has climbed, the rest of the way ends or circles. -/
theorem ends_or_circles {passed : List String} {name : String}
    (hclimb : index.Climb passed name) :
    (∃ depth, index.DepthIs name depth) ∨ index.Circles name := by
  cases houter : index.outer? name with
  | none => exact .inl ⟨0, .top houter⟩
  | some outer =>
    by_cases hpassed : name ∈ passed
    · exact .inr ⟨name, .refl, hclimb.leads name hpassed⟩
    · have hfurther : index.Climb (name :: passed) outer := hclimb.up houter hpassed
      rcases hfurther.ends_or_circles with ⟨depth, hdepth⟩ | hcircles
      · exact .inl ⟨depth + 1, .nested houter hdepth⟩
      · exact .inr (hcircles.of_inside houter)
-- Each step passes one more of the declared names.
termination_by index.size - passed.length
decreasing_by
  have hlength := hfurther.length_le
  rw [List.length_cons] at *
  omega

end Climb

/-- A depth up to the length of the index is the length of the way up. -/
theorem depthIs_iff {depth : Nat} :
    index.DepthIs name depth ↔ depth ≤ index.size ∧ index.nestingDepth name = depth := by
  refine ⟨fun hdepth => ⟨hdepth.le_size, hdepth.nestingDepth_eq⟩, ?_⟩
  rintro ⟨hle, hnesting⟩
  rcases (Climb.start index name).ends_or_circles with ⟨length, hlength⟩ | hcircles
  · rwa [← hnesting, hlength.nestingDepth_eq]
  · have hcut := hcircles.nestingDepth_eq
    omega

/-- A greater depth says that the way up circles. -/
theorem circles_iff : index.Circles name ↔ index.nestingDepth name = index.size + 1 := by
  refine ⟨Circles.nestingDepth_eq, fun hnesting => ?_⟩
  rcases (Climb.start index name).ends_or_circles with ⟨length, hlength⟩ | hcircles
  · have hle := hlength.le_size
    have heq := hlength.nestingDepth_eq
    omega
  · exact hcircles

/-! ## The order of emission -/

/-- The first name is deeper, or as deep and less by its bytes. -/
def Precedes (index : Index) (left right : String) : Prop :=
  index.nestingDepth right < index.nestingDepth left ∨
    (index.nestingDepth left = index.nestingDepth right ∧ bytes left < bytes right)

theorem nodup_emissionOrder (index : Index) (names : List String) :
    (index.emissionOrder names).Nodup :=
  (index.emissionOrder_perm_eraseDups names).nodup_iff.mpr (SortedNames.nodup_eraseDups names)

theorem mem_emissionOrder_iff {names : List String} :
    name ∈ index.emissionOrder names ↔ name ∈ names :=
  (index.emissionOrder_perm_eraseDups names).mem_iff.trans List.mem_eraseDups

theorem precedes_emissionOrder (index : Index) (names : List String) :
    (index.emissionOrder names).Pairwise index.Precedes := by
  have hdistinct := index.nodup_emissionOrder names
  refine ((index.pairwise_emissionOrder names).and hdistinct).imp ?_
  rintro left right ⟨hbefore, hne⟩
  rcases emittedBefore_iff.mp hbefore with hdeeper | ⟨heq, hle⟩
  · exact .inl hdeeper
  · refine .inr ⟨heq, ByteOrder.bytes_lt_iff.mpr ?_⟩
    exact String.not_le.mp fun hge => hne (String.le_antisymm hle hge)

theorem Precedes.asymm {left right : String} (hleft : index.Precedes left right) :
    ¬index.Precedes right left := by
  rintro (hdeeper | ⟨heq, hless⟩) <;> rcases hleft with hdeeper' | ⟨heq', hless'⟩
  · omega
  · omega
  · omega
  · exact List.lt_asymm hless hless'

/-- Neither the order in which the names are given nor how often matters. -/
theorem emissionOrder_congr {names others : List String}
    (hsame : ∀ name, name ∈ others ↔ name ∈ names) :
    index.emissionOrder others = index.emissionOrder names := by
  have hperm : (index.emissionOrder others).Perm (index.emissionOrder names) := by
    rw [List.perm_ext_iff_of_nodup (index.nodup_emissionOrder others)
      (index.nodup_emissionOrder names)]
    intro name
    rw [mem_emissionOrder_iff, mem_emissionOrder_iff, hsame]
  apply hperm.eq_of_pairwise _ (index.precedes_emissionOrder others)
    (index.precedes_emissionOrder names)
  intro left right _ _ hleft hright
  exact absurd hright hleft.asymm

theorem sublist_emissionOrder {names : List String} {depth : Nat}
    (hdepth : index.DepthIs name depth) (houter : index.outer? name = some outer)
    (hname : name ∈ names) (hmem : outer ∈ names) :
    [name, outer].Sublist (index.emissionOrder names) := by
  cases hdepth with
  | top hnone => simp [hnone] at houter
  | nested houter' hdepth =>
    obtain rfl := Option.some.inj (houter.symm.trans houter')
    obtain ⟨done, rest, hsplit⟩ := List.append_of_mem (mem_emissionOrder_iff.mpr hmem)
    have hdone := mem_before_outer hsplit (mem_emissionOrder_iff.mpr hname) houter hdepth
    rw [hsplit]
    exact (List.singleton_sublist.mpr hdone).append (List.singleton_sublist.mpr List.mem_cons_self)

/-- Depths are exact on every index: that of a name whose way up ends is the length of that way,
even where it passes all declarations, and that of any other name, whose way up circles, is one more
than there are declarations.  Names are emitted once each, the deepest first and equally deep ones
in the order of their bytes, in whatever order and however often they are given.  A name whose way
up ends stands before its outer declaration. -/
theorem emissionOrder_by_exact_depths (index : Index) :
    (∀ name,
      (∀ depth, index.DepthIs name depth ↔
        depth ≤ index.size ∧ index.nestingDepth name = depth) ∧
      (index.Circles name ↔ index.nestingDepth name = index.size + 1) ∧
      ((∃ depth, index.DepthIs name depth) ∨ index.Circles name)) ∧
    ∀ names,
      (index.emissionOrder names).Nodup ∧
      (∀ name, name ∈ index.emissionOrder names ↔ name ∈ names) ∧
      (index.emissionOrder names).Pairwise index.Precedes ∧
      (∀ others, (∀ name, name ∈ others ↔ name ∈ names) →
        index.emissionOrder others = index.emissionOrder names) ∧
      ∀ name outer depth, index.DepthIs name depth → index.outer? name = some outer →
        name ∈ names → outer ∈ names → [name, outer].Sublist (index.emissionOrder names) := by
  refine ⟨fun name => ⟨fun depth => depthIs_iff, circles_iff, ?_⟩, fun names => ?_⟩
  · exact (Climb.start index name).ends_or_circles
  · exact ⟨index.nodup_emissionOrder names, fun name => mem_emissionOrder_iff,
      index.precedes_emissionOrder names, fun others => emissionOrder_congr,
      fun name outer depth => sublist_emissionOrder⟩

/-- A chain through all declarations to an outer one that is not declared. -/
def towerIndex : Index where
  entries := [
    ⟨⟨"a.schema", "a"⟩, .enumeration ((EnumDecl.declare "a.Flag" [("NONE", 0)]).nestedIn "a.Roof")⟩,
    ⟨⟨"a.schema", "a"⟩, .type ((TypeDecl.declare "a.Roof" []).nestedIn "a.Wall")⟩,
    ⟨⟨"a.schema", "a"⟩, .type ((TypeDecl.declare "a.Wall" []).nestedIn "a.Ground")⟩]
  ascending := by decide

/-- A declaration that is nested in one of two that are nested in each other. -/
def ringIndex : Index where
  entries := [
    ⟨⟨"a.schema", "a"⟩, .type ((TypeDecl.declare "a.East" []).nestedIn "a.West")⟩,
    ⟨⟨"a.schema", "a"⟩, .type ((TypeDecl.declare "a.Hook" []).nestedIn "a.East")⟩,
    ⟨⟨"a.schema", "a"⟩, .enumeration ((EnumDecl.declare "a.West" [("NONE", 0)]).nestedIn "a.East")⟩]
  ascending := by decide

theorem emissionOrder_by_exact_depths_tower_ring :
    towerIndex.size = 3 ∧ towerIndex.DepthIs "a.Flag" 3 ∧
      towerIndex.emissionOrder ["a.Wall", "a.Flag", "a.Ground", "a.Wall"] =
        towerIndex.emissionOrder ["a.Flag", "a.Ground", "a.Wall"] ∧
      ["a.Wall", "a.Ground"].Sublist (towerIndex.emissionOrder ["a.Flag", "a.Ground", "a.Wall"]) ∧
      ringIndex.size = 3 ∧ ringIndex.nestingDepth "a.Hook" = 4 ∧ ringIndex.Circles "a.Hook" := by
  obtain ⟨hdepths, horders⟩ := emissionOrder_by_exact_depths towerIndex
  obtain ⟨hrings, -⟩ := emissionOrder_by_exact_depths ringIndex
  obtain ⟨-, -, -, hsame, hbefore⟩ := horders ["a.Flag", "a.Ground", "a.Wall"]
  have hwall : towerIndex.DepthIs "a.Wall" 1 := ((hdepths "a.Wall").1 1).mpr (by decide)
  refine ⟨rfl, ((hdepths "a.Flag").1 3).mpr (by decide), hsame _ (by simp), ?_, rfl, by decide,
    (hrings "a.Hook").2.1.mpr (by decide)⟩
  exact hbefore "a.Wall" "a.Ground" 1 hwall (by decide) (by decide) (by decide)

end SchemaLoom.Index
