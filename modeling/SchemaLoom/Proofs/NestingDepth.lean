import SchemaLoom.Code.Order
import SchemaLoom.Proofs.Nesting
import SchemaLoom.Proofs.SortedNames

/-!
# Depth and the order of emission

Following outer declarations from a name upwards, a chain either ends or runs into a cycle.  A chain
that ends has no name twice, so it is no longer than the index, and the bound on the depth never
cuts it short.  In the order of emission such a name therefore stands before its outer declaration.
-/

namespace SchemaLoom.Index

variable {index : Index} {name outer : String}

/-! ## Chains of outer declarations -/

/-- The chain of outer declarations above the name ends after the given number of steps. -/
inductive DepthIs (index : Index) : String → Nat → Prop where
  | top {name : String} (hnone : index.outer? name = none) : DepthIs index name 0
  | nested {name outer : String} {depth : Nat} (houter : index.outer? name = some outer)
      (hdepth : DepthIs index outer depth) : DepthIs index name (depth + 1)

/-- The chain of outer declarations above the name ends at a declaration without an outer one. -/
inductive Grounded (index : Index) : String → Prop where
  | top {name : String} (hdeclared : (index.get? name).isSome) (hnone : index.outer? name = none) :
      Grounded index name
  | nested {name outer : String} (houter : index.outer? name = some outer)
      (hgrounded : Grounded index outer) : Grounded index name

theorem isSome_get?_of_outer? (houter : index.outer? name = some outer) :
    (index.get? name).isSome := by
  obtain ⟨entry, hget, -⟩ := Option.bind_eq_some_iff.mp houter
  exact Option.isSome_of_mem hget

theorem isSome_get?_iff : (index.get? name).isSome ↔ name ∈ index.entries.map Entry.name := by
  rw [Option.isSome_iff_exists, List.mem_map]
  simp only [get?_eq_some_iff]

theorem Grounded.exists_depthIs (hgrounded : index.Grounded name) :
    ∃ depth, index.DepthIs name depth := by
  induction hgrounded with
  | top _ hnone => exact ⟨0, .top hnone⟩
  | nested houter _ ih =>
    obtain ⟨depth, hdepth⟩ := ih
    exact ⟨depth + 1, .nested houter hdepth⟩

namespace DepthIs

theorem unique {left right : Nat} (hleft : index.DepthIs name left)
    (hright : index.DepthIs name right) : left = right := by
  induction hleft generalizing right with
  | top hnone =>
    cases hright with
    | top => rfl
    | nested houter => simp [hnone] at houter
  | nested houter _ ih =>
    cases hright with
    | top hnone => simp [hnone] at houter
    | nested houter' hdepth =>
      rw [houter, Option.some.injEq] at houter'
      subst houter'
      rw [ih hdepth]

/-- The nested names of a chain, which are all declared and of different depths. -/
theorem exists_chain {depth : Nat} (hdepth : index.DepthIs name depth) :
    ∃ chain : List String, chain.length = depth ∧ chain.Nodup ∧
      chain ⊆ index.entries.map Entry.name ∧
        ∀ member ∈ chain, ∃ below, below ≤ depth ∧ index.DepthIs member below := by
  induction hdepth with
  | top => exact ⟨[], rfl, List.nodup_nil, List.nil_subset _, by simp⟩
  | @nested name outer depth houter hdepth ih =>
    obtain ⟨chain, hlength, hnodup, hdeclared, hbelow⟩ := ih
    have hself : index.DepthIs name (depth + 1) := .nested houter hdepth
    have hnew : name ∉ chain := by
      intro hmem
      obtain ⟨below, hle, hname⟩ := hbelow name hmem
      have heq := hself.unique hname
      omega
    refine ⟨name :: chain, by rw [List.length_cons, hlength], List.nodup_cons.mpr ⟨hnew, hnodup⟩,
      List.cons_subset.mpr ⟨isSome_get?_iff.mp (isSome_get?_of_outer? houter), hdeclared⟩, ?_⟩
    rw [List.forall_mem_cons]
    refine ⟨⟨depth + 1, Nat.le_refl _, hself⟩, fun member hmem => ?_⟩
    obtain ⟨below, hle, hmember⟩ := hbelow member hmem
    exact ⟨below, by omega, hmember⟩

/-- No chain that ends is longer than the index. -/
theorem le_size {depth : Nat} (hdepth : index.DepthIs name depth) : depth ≤ index.size := by
  obtain ⟨chain, hlength, hnodup, hdeclared, -⟩ := hdepth.exists_chain
  have hshort := hnodup.length_le_of_subset hdeclared
  rw [List.length_map] at hshort
  rw [← hlength]
  exact hshort

theorem depthWithin_eq {depth fuel : Nat} (hdepth : index.DepthIs name depth)
    (hfuel : depth ≤ fuel) : index.depthWithin fuel name = depth := by
  induction hdepth generalizing fuel with
  | top hnone =>
    unfold depthWithin
    simp [hnone]
  | nested houter _ ih =>
    cases fuel with
    | zero => omega
    | succ fuel =>
      unfold depthWithin
      simp [houter, ih (Nat.le_of_succ_le_succ hfuel)]

theorem nestingDepth_eq {depth : Nat} (hdepth : index.DepthIs name depth) :
    index.nestingDepth name = depth :=
  hdepth.depthWithin_eq hdepth.le_size

end DepthIs

/-! ## The order of emission -/

theorem emittedBefore_iff {left right : Nat × String} :
    emittedBefore left right = true ↔
      right.1 < left.1 ∨ (left.1 = right.1 ∧ left.2 ≤ right.2) := by
  simp [emittedBefore]

theorem emittedBefore_trans (first second third : Nat × String)
    (hfirst : emittedBefore first second = true) (hsecond : emittedBefore second third = true) :
    emittedBefore first third = true := by
  rw [emittedBefore_iff] at *
  rcases hfirst with hless | ⟨heq, hle⟩
  · left
    omega
  · rcases hsecond with hless | ⟨heq', hle'⟩
    · left
      omega
    · right
      exact ⟨heq.trans heq', String.le_trans hle hle'⟩

theorem emittedBefore_total (first second : Nat × String) :
    (emittedBefore first second || emittedBefore second first) = true := by
  rw [Bool.or_eq_true, emittedBefore_iff, emittedBefore_iff]
  rcases Nat.lt_trichotomy first.1 second.1 with hless | heq | hgreater
  · exact .inr (.inl hless)
  · rcases String.le_total first.2 second.2 with hle | hle
    · exact .inl (.inr ⟨heq, hle⟩)
    · exact .inr (.inr ⟨heq.symm, hle⟩)
  · exact .inl (.inl hgreater)

theorem emissionOrder_perm_eraseDups (index : Index) (names : List String) :
    (index.emissionOrder names).Perm names.eraseDups := by
  have hgraded := (List.mergeSort_perm
    (names.eraseDups.map fun name => (index.nestingDepth name, name)) emittedBefore).map (·.2)
  rw [List.map_map] at hgraded
  exact hgraded.trans (.of_eq (List.map_id _))

/-- The order holds each of the names once. -/
theorem emissionOrder_perm (index : Index) {names : List String} (hnodup : names.Nodup) :
    (index.emissionOrder names).Perm names := by
  apply (index.emissionOrder_perm_eraseDups names).trans
  rw [List.perm_ext_iff_of_nodup (SortedNames.nodup_eraseDups names) hnodup]
  intro name
  exact List.mem_eraseDups

theorem pairwise_emissionOrder (index : Index) (names : List String) :
    (index.emissionOrder names).Pairwise fun left right =>
      emittedBefore (index.nestingDepth left, left) (index.nestingDepth right, right) = true := by
  rw [emissionOrder, List.pairwise_map]
  have hsorted := List.pairwise_mergeSort emittedBefore_trans emittedBefore_total
    (names.eraseDups.map fun name => (index.nestingDepth name, name))
  -- What is sorted is a name together with its own depth.
  refine hsorted.imp_of_mem fun {left right} hleft hright hbefore => ?_
  have hgraded : ∀ graded ∈ (names.eraseDups.map fun name =>
      (index.nestingDepth name, name)).mergeSort emittedBefore,
      (index.nestingDepth graded.2, graded.2) = graded := by
    intro graded hmem
    rw [List.mem_mergeSort, List.mem_map] at hmem
    obtain ⟨name, -, rfl⟩ := hmem
    rfl
  rwa [hgraded left hleft, hgraded right hright]

/-- A name stands before its outer declaration where the chain above that one ends. -/
theorem mem_before_outer {names done rest : List String} {member : String} {depth : Nat}
    (hsplit : index.emissionOrder names = done ++ name :: rest)
    (hmem : member ∈ index.emissionOrder names) (houter : index.outer? member = some name)
    (hdepth : index.DepthIs name depth) : member ∈ done := by
  have hmember : index.DepthIs member (depth + 1) := .nested houter hdepth
  rw [hsplit, List.mem_append, List.mem_cons] at hmem
  rcases hmem with hdone | rfl | hrest
  · exact hdone
  · have heq := hmember.unique hdepth
    omega
  · have hpairwise := hsplit ▸ index.pairwise_emissionOrder names
    have hbefore := List.rel_of_pairwise_cons (List.pairwise_append.mp hpairwise).2.1 hrest
    rw [emittedBefore_iff, hmember.nestingDepth_eq, hdepth.nestingDepth_eq] at hbefore
    omega

end SchemaLoom.Index
