import SchemaLoom.Resolved.Reach

/-!
# The walk reaches what types lead to

The walk over the declarations finds exactly the types that the starting names lead to.  It never
leaves them, and it ends closed under successors: every round but the last passes a declaration that
was not passed before, so there are enough rounds.
-/

namespace SchemaLoom.Index

variable {index : Index}

theorem Leads.trans {first second third : String} (hfirst : index.Leads first second)
    (hsecond : index.Leads second third) : index.Leads first third := by
  induction hfirst with
  | here name => exact hsecond
  | step hnext _ ih => exact .step hnext (ih hsecond)

theorem Leads.snoc {first second third : String} (hleads : index.Leads first second)
    (hnext : third ∈ index.successors second) : index.Leads first third :=
  hleads.trans (.step hnext (.here third))

theorem mem_fresh_iff {passed names : List String} {name : String} :
    name ∈ fresh passed names ↔ name ∈ names ∧ name ∉ passed := by
  simp [fresh, List.mem_eraseDups]

theorem widen_nil (fuel : Nat) (passed : List String) : index.widen fuel passed [] = passed := by
  cases fuel with
  | zero => exact List.append_nil passed
  | succ fuel => rfl

theorem widen_succ {waiting : List String} (hwaiting : waiting ≠ []) (fuel : Nat)
    (passed : List String) :
    index.widen (fuel + 1) passed waiting =
      index.widen fuel (passed ++ waiting)
        (fresh (passed ++ waiting) (waiting.flatMap index.successors)) := by
  cases waiting with
  | nil => exact absurd rfl hwaiting
  | cons first rest => rfl

/-! ## The walk stays with what is led to -/

/-- What holds of the names at the start and is kept by successors holds of all names found. -/
theorem forall_mem_widen {holds : String → Prop}
    (hstep : ∀ name, holds name → ∀ next ∈ index.successors name, holds next) (fuel : Nat)
    {passed waiting : List String} (hpassed : ∀ name ∈ passed, holds name)
    (hwaiting : ∀ name ∈ waiting, holds name) :
    ∀ name ∈ index.widen fuel passed waiting, holds name := by
  induction fuel generalizing passed waiting with
  | zero => exact List.forall_mem_append.mpr ⟨hpassed, hwaiting⟩
  | succ fuel ih =>
    by_cases hnil : waiting = []
    · rw [hnil, widen_nil]
      exact hpassed
    · rw [widen_succ hnil]
      apply ih (List.forall_mem_append.mpr ⟨hpassed, hwaiting⟩)
      intro name hname
      obtain ⟨earlier, hearlier, hnext⟩ := List.mem_flatMap.mp (mem_fresh_iff.mp hname).1
      exact hstep earlier (hwaiting earlier hearlier) name hnext

/-! ## The walk ends closed -/

/-- The declarations whose names were not passed. -/
def unpassed (index : Index) (passed : List String) : List Entry :=
  index.entries.filter fun entry => !passed.contains entry.name

theorem unpassed_append (passed waiting : List String) :
    index.unpassed (passed ++ waiting) =
      (index.unpassed passed).filter fun entry => !waiting.contains entry.name := by
  rw [unpassed, unpassed, List.filter_filter]
  apply List.filter_congr
  intro entry _
  simp [Bool.and_comm]

/-- Only a declared type has successors. -/
theorem exists_entry_of_mem_successors {name next : String} (hnext : next ∈ index.successors name) :
    ∃ entry ∈ index.entries, entry.name = name := by
  unfold successors at hnext
  cases htype : index.type? name with
  | none => simp [htype] at hnext
  | some decl =>
    obtain ⟨entry, hget, -⟩ := Option.bind_eq_some_iff.mp htype
    exact ⟨entry, List.mem_of_find?_eq_some hget, by simpa using List.find?_some hget⟩

/-- Passing a name with successors for the first time leaves fewer declarations. -/
theorem length_unpassed_lt {passed waiting : List String}
    (hnew : ∀ name ∈ waiting, name ∉ passed) {name next : String} (hname : name ∈ waiting)
    (hnext : next ∈ index.successors name) :
    (index.unpassed (passed ++ waiting)).length < (index.unpassed passed).length := by
  obtain ⟨entry, hentry, rfl⟩ := exists_entry_of_mem_successors hnext
  rw [unpassed_append, List.length_filter_lt_length_iff_exists]
  refine ⟨entry, List.mem_filter.mpr ⟨hentry, ?_⟩, ?_⟩
  · simpa using hnew entry.name hname
  · simpa using hname

/-- Every successor of a passed name is passed or waiting. -/
def Followed (index : Index) (passed waiting : List String) : Prop :=
  ∀ name ∈ passed, ∀ next ∈ index.successors name, next ∈ passed ∨ next ∈ waiting

theorem Followed.advance {passed waiting : List String}
    (hfollowed : index.Followed passed waiting) :
    index.Followed (passed ++ waiting)
      (fresh (passed ++ waiting) (waiting.flatMap index.successors)) := by
  intro name hname next hnext
  by_cases hknown : next ∈ passed ++ waiting
  · exact .inl hknown
  · right
    rw [mem_fresh_iff]
    refine ⟨?_, hknown⟩
    rcases List.mem_append.mp hname with hpassed | hwaiting
    · exact absurd (List.mem_append.mpr (hfollowed name hpassed next hnext)) hknown
    · exact List.mem_flatMap.mpr ⟨name, hwaiting, hnext⟩

/-- With more rounds than unpassed declarations the walk ends closed under successors. -/
theorem closed_widen {fuel : Nat} {passed waiting : List String}
    (hfollowed : index.Followed passed waiting) (hnew : ∀ name ∈ waiting, name ∉ passed)
    (hfuel : (index.unpassed passed).length < fuel) :
    (∀ name ∈ passed ++ waiting, name ∈ index.widen fuel passed waiting) ∧
      index.Followed (index.widen fuel passed waiting) [] := by
  induction fuel generalizing passed waiting with
  | zero => omega
  | succ fuel ih =>
    by_cases hwaiting : waiting = []
    · subst hwaiting
      rw [widen_nil, List.append_nil]
      exact ⟨fun name hname => hname, hfollowed⟩
    have hadvance := hfollowed.advance
    rw [widen_succ hwaiting]
    by_cases hdone : waiting.flatMap index.successors = []
    · -- The waiting names lead nowhere: this was the last round.
      have hnothing : fresh (passed ++ waiting) [] = [] := rfl
      rw [hdone, hnothing] at hadvance ⊢
      rw [widen_nil]
      exact ⟨fun name hname => hname, hadvance⟩
    · obtain ⟨next, hnext⟩ := List.exists_mem_of_ne_nil _ hdone
      obtain ⟨name, hname, hnext⟩ := List.mem_flatMap.mp hnext
      have hless := length_unpassed_lt hnew hname hnext
      have hrest := ih hadvance (fun name hname => (mem_fresh_iff.mp hname).2) (by omega)
      exact ⟨fun name hname => hrest.1 name (List.mem_append_left _ hname), hrest.2⟩

/-- With more rounds than unpassed declarations the walk has come to its end, and further rounds
change nothing. -/
theorem widen_add_rounds {fuel : Nat} {passed waiting : List String}
    (hnew : ∀ name ∈ waiting, name ∉ passed) (hfuel : (index.unpassed passed).length < fuel)
    (more : Nat) : index.widen (fuel + more) passed waiting = index.widen fuel passed waiting := by
  induction fuel generalizing passed waiting with
  | zero => omega
  | succ fuel ih =>
    by_cases hwaiting : waiting = []
    · rw [hwaiting, widen_nil, widen_nil]
    rw [Nat.succ_add, widen_succ hwaiting, widen_succ hwaiting]
    by_cases hdone : waiting.flatMap index.successors = []
    · have hnothing : fresh (passed ++ waiting) [] = [] := rfl
      rw [hdone, hnothing, widen_nil, widen_nil]
    · obtain ⟨next, hnext⟩ := List.exists_mem_of_ne_nil _ hdone
      obtain ⟨name, hname, hnext⟩ := List.mem_flatMap.mp hnext
      have hless := length_unpassed_lt hnew hname hnext
      exact ih (fun name hname => (mem_fresh_iff.mp hname).2) (by omega)

theorem length_unpassed_nil_lt (index : Index) : (index.unpassed []).length < index.size + 1 :=
  Nat.lt_succ_of_le (List.length_filter_le _ _)

/-- The walk ends by itself: more rounds than there are declarations find nothing more. -/
theorem widen_eq_reachable {names : List String} {rounds : Nat} (hrounds : index.size < rounds) :
    index.widen rounds [] names.eraseDups = index.reachable names := by
  obtain ⟨more, rfl⟩ := Nat.exists_eq_add_of_le hrounds
  exact widen_add_rounds (by simp) index.length_unpassed_nil_lt more

/-! ## Reaching -/

theorem Followed.mem_of_leads {names : List String} (hclosed : index.Followed names [])
    {first last : String} (hfirst : first ∈ names) (hleads : index.Leads first last) :
    last ∈ names := by
  induction hleads with
  | here name => exact hfirst
  | step hnext _ ih =>
    rcases hclosed _ hfirst _ hnext with hmem | hmem
    · exact ih hmem
    · cases hmem

theorem mem_reachable_iff {names : List String} {target : String} :
    target ∈ index.reachable names ↔ ∃ name ∈ names, index.Leads name target := by
  constructor
  · have hstart : ∀ name ∈ names.eraseDups, ∃ start ∈ names, index.Leads start name :=
      fun name hname => ⟨name, List.mem_eraseDups.mp hname, .here name⟩
    have hstep : ∀ name, (∃ start ∈ names, index.Leads start name) →
        ∀ next ∈ index.successors name, ∃ start ∈ names, index.Leads start next := by
      rintro name ⟨start, hmem, hleads⟩ next hnext
      exact ⟨start, hmem, hleads.snoc hnext⟩
    exact forall_mem_widen hstep _ (by simp) hstart target
  · rintro ⟨name, hname, hleads⟩
    obtain ⟨hmem, hclosed⟩ :=
      closed_widen (by simp [Followed]) (by simp) index.length_unpassed_nil_lt
    exact hclosed.mem_of_leads (hmem name (by simpa using hname)) hleads

/-- A shape reaches a type exactly when one of the types it names leads there. -/
theorem reaches_iff {shape : Shape Reference} {target : String} :
    index.reaches shape target ↔ ∃ name ∈ shape.namedTypes, index.Leads name target := by
  rw [reaches, List.contains_iff_mem, mem_reachable_iff]

end SchemaLoom.Index
