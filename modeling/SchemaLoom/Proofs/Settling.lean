import SchemaLoom.Proofs.Nesting
import SchemaLoom.Proofs.Resolution

/-!
# Settling one name

What a name resolves to is determined by its declaration and by what its nested types resolve to.  A
memo is sound if it holds nothing else.  Every attempt to settle a name leaves a sound memo that
knows what it knew before, also when the attempt fails, and no attempt runs out of levels.
-/

namespace SchemaLoom

/-! ## Known names -/

namespace Memo

/-- Something is remembered under the name. -/
def Knows (memo : Memo) (name : String) : Prop :=
  (memo.get? name).isSome

theorem get?_cons (first name : String) (tree : Resolved) (rest : Memo) :
    get? ((first, tree) :: rest) name = if name = first then some tree else get? rest name := by
  by_cases heq : name = first
  · simp [get?, heq]
  · have hne : (first == name) = false := by simpa using Ne.symm heq
    simp [get?, heq, hne]

theorem get?_insert (memo : Memo) (name other : String) (tree : Resolved) :
    (memo.insert name tree).get? other = if other = name then some tree else memo.get? other := by
  induction memo with
  | nil => exact get?_cons name other tree []
  | cons entry rest ih =>
    obtain ⟨first, known⟩ := entry
    rw [Memo.insert]
    split
    · next heq =>
      subst heq
      rw [get?_cons, get?_cons]
      split <;> rfl
    · next hne =>
      split
      · exact get?_cons name other tree _
      · rw [get?_cons, get?_cons, ih]
        by_cases hother : other = first
        · simp [hother, Ne.symm hne]
        · simp [hother]

/-- What is remembered under a name that has to be known. -/
def remembered (memo : Memo) (name : String) : Except ResolveError Resolved :=
  match memo.get? name with
  | some resolved => .ok resolved
  | none => .error (.unknownDeclaration name)

theorem remembered_of_get? {memo : Memo} {name : String} {tree : Resolved}
    (hget : memo.get? name = some tree) : memo.remembered name = .ok tree := by
  rw [remembered, hget]

theorem knows_of_mem {memo : Memo} {entry : String × Resolved} (hmem : entry ∈ memo) :
    memo.Knows entry.1 := by
  rw [Knows, get?, Option.isSome_map, List.find?_isSome]
  exact ⟨entry, hmem, beq_self_eq_true _⟩

theorem knows_insert {memo : Memo} {name other : String} {tree : Resolved} :
    (memo.insert name tree).Knows other ↔ other = name ∨ memo.Knows other := by
  rw [Knows, Knows, get?_insert]
  by_cases heq : other = name
  · simp [heq]
  · simp [heq]

end Memo

/-! ## What a name resolves to -/

/-- The nested types of the name resolve to what a memo holds for them, and from that memo the tree
is assembled. -/
inductive Index.ResolvesTo (index : Index) (config : GenerateConfig) :
    String → Resolved → Prop where
  | assembled {name : String} {tree : Resolved} (memo : Memo)
      (hnested : ∀ child ∈ index.nestedTypes name, ∀ nested, memo.get? child = some nested →
        Index.ResolvesTo index config child nested)
      (hassemble : index.assemble config memo name = .ok tree) :
      Index.ResolvesTo index config name tree

namespace Index

variable {index : Index} {config : GenerateConfig} {name : String}

theorem knows_of_assemble {memo : Memo} {tree : Resolved}
    (hassemble : index.assemble config memo name = .ok tree) :
    ∀ child ∈ index.nestedTypes name, memo.Knows child := by
  intro child hchild
  obtain ⟨-, -, hnested⟩ := exists_of_assemble_eq_ok hassemble
  obtain ⟨nested, -, hget⟩ := Outcome.exists_right_of_mem hnested hchild
  exact Option.isSome_of_mem hget

/-- The tree of a declaration from its parts. -/
def compose (index : Index) (config : GenerateConfig) (name : String) (declared : Declared)
    (filtered : Filtered) (nested : List Resolved) (nestedEnums : List ResolvedEnum) :
    Except ResolveError Resolved :=
  match index.source? name with
  | none => .error (.unknownDeclaration name)
  | some source =>
    .ok (.node
      { qualified := name, name := declared.name, outer := declared.outer,
        componentId := declared.componentId, restricted := config.isRestricted name,
        commandPayload := index.isCommandType name, source, position := declared.position,
        fields := filtered.fields, omitted := filtered.omitted, nestedEnums,
        annotations := declared.annotations, events := declared.events,
        commands := declared.commands, warnings := filtered.warnings }
      nested)

/-- Assembling in its steps. -/
theorem assemble_eq (index : Index) (config : GenerateConfig) (memo : Memo) (name : String) :
    index.assemble config memo name =
      (index.declared name >>= fun declared =>
        index.checkPayloads name declared >>= fun _ =>
          index.filterFields config.recursion declared.target declared.fields >>= fun filtered =>
            (index.nestedTypes name).mapM memo.remembered >>= fun nested =>
              (index.nestedEnumerations name).mapM index.resolveEnum >>= fun nestedEnums =>
                index.compose config name declared filtered nested nestedEnums) := rfl

/-- Assembling looks at nothing in the memo but the nested types. -/
theorem assemble_congr {memo memo' : Memo}
    (hsame : ∀ child ∈ index.nestedTypes name, memo.get? child = memo'.get? child) :
    index.assemble config memo name = index.assemble config memo' name := by
  have hnested : (index.nestedTypes name).mapM memo.remembered =
      (index.nestedTypes name).mapM memo'.remembered := by
    apply Outcome.mapM_congr
    intro child hchild
    rw [Memo.remembered, Memo.remembered, hsame child hchild]
  rw [assemble_eq, assemble_eq, hnested]

theorem ResolvesTo.unique {first second : Resolved} (hfirst : index.ResolvesTo config name first)
    (hsecond : index.ResolvesTo config name second) : first = second := by
  induction hfirst generalizing second with
  | @assembled name first memo hnested hassemble ih =>
    obtain ⟨memo', hnested', hassemble'⟩ := hsecond
    have hsame : ∀ child ∈ index.nestedTypes name, memo.get? child = memo'.get? child := by
      intro child hchild
      obtain ⟨nested, hget⟩ :=
        Option.isSome_iff_exists.mp (knows_of_assemble hassemble child hchild)
      obtain ⟨nested', hget'⟩ :=
        Option.isSome_iff_exists.mp (knows_of_assemble hassemble' child hchild)
      rw [hget, hget', ih child hchild nested hget (hnested' child hchild nested' hget')]
    rw [assemble_congr hsame, hassemble'] at hassemble
    exact (Except.ok.inj hassemble).symm

/-- A name that resolves to something is not nested without end. -/
theorem ResolvesTo.acc {tree : Resolved} (hresolves : index.ResolvesTo config name tree) :
    Acc index.NestedIn name := by
  induction hresolves with
  | @assembled name tree memo hnested hassemble ih =>
    refine ⟨name, fun child hchild => ?_⟩
    have hmem := mem_nestedTypes_iff.mpr hchild
    obtain ⟨nested, hget⟩ := Option.isSome_iff_exists.mp (knows_of_assemble hassemble child hmem)
    exact ih child hmem nested hget

end Index

/-! ## Sound memos -/

/-- Every name of the memo resolves to what is remembered under it, and its nested types are known
too. -/
structure Memo.Sound (index : Index) (config : GenerateConfig) (memo : Memo) : Prop where
  resolves : Memo.All (index.ResolvesTo config) memo
  closed : ∀ name, memo.Knows name → ∀ child ∈ index.nestedTypes name, memo.Knows child

/-- The second memo is sound and knows all that the first one knows. -/
structure Memo.Grows (index : Index) (config : GenerateConfig) (before after : Memo) : Prop where
  sound : after.Sound index config
  keeps : ∀ name, before.Knows name → after.Knows name

section Sound

variable {index : Index} {config : GenerateConfig} {name : String} {memo : Memo}

theorem Memo.sound_nil (index : Index) (config : GenerateConfig) : Memo.Sound index config [] where
  resolves := by simp [Memo.All]
  closed := by simp [Memo.Knows, Memo.get?]

theorem Memo.Sound.grows (hsound : memo.Sound index config) : Memo.Grows index config memo memo :=
  ⟨hsound, fun _ => id⟩

theorem Memo.Grows.trans {first second third : Memo} (hfirst : Memo.Grows index config first second)
    (hsecond : Memo.Grows index config second third) : Memo.Grows index config first third :=
  ⟨hsecond.sound, fun name hknows => hsecond.keeps name (hfirst.keeps name hknows)⟩

theorem Memo.Sound.exists_resolvesTo (hsound : memo.Sound index config) (hknows : memo.Knows name) :
    ∃ tree, memo.get? name = some tree ∧ index.ResolvesTo config name tree := by
  obtain ⟨tree, hget⟩ := Option.isSome_iff_exists.mp hknows
  exact ⟨tree, hget, hsound.resolves.of_get? hget⟩

theorem Memo.Sound.get?_of_resolvesTo (hsound : memo.Sound index config) (hknows : memo.Knows name)
    {tree : Resolved} (hresolves : index.ResolvesTo config name tree) :
    memo.get? name = some tree := by
  obtain ⟨known, hget, hknown⟩ := hsound.exists_resolvesTo hknows
  rw [hget, hknown.unique hresolves]

/-- Two sound memos that know the same names hold the same for them. -/
theorem Memo.Sound.get?_eq {memo' : Memo} (hsound : memo.Sound index config)
    (hsound' : memo'.Sound index config) (hknows : memo.Knows name) (hknows' : memo'.Knows name) :
    memo.get? name = memo'.get? name := by
  obtain ⟨tree, hget, hresolves⟩ := hsound.exists_resolvesTo hknows
  rw [hget, hsound'.get?_of_resolvesTo hknows' hresolves]

theorem Memo.Sound.resolvesTo_of_assemble (hsound : memo.Sound index config) {tree : Resolved}
    (hassemble : index.assemble config memo name = .ok tree) :
    index.ResolvesTo config name tree :=
  .assembled memo (fun _ _ _ hget => hsound.resolves.of_get? hget) hassemble

theorem Memo.Sound.grows_insert (hsound : memo.Sound index config) {tree : Resolved}
    (hassemble : index.assemble config memo name = .ok tree) :
    Memo.Grows index config memo (memo.insert name tree) := by
  refine ⟨⟨hsound.resolves.insert (hsound.resolvesTo_of_assemble hassemble), ?_⟩, ?_⟩
  · intro other hother child hchild
    rw [Memo.knows_insert] at hother ⊢
    rcases hother with rfl | hother
    · exact .inr (Index.knows_of_assemble hassemble child hchild)
    · exact .inr (hsound.closed other hother child hchild)
  · intro other hother
    exact Memo.knows_insert.mpr (.inr hother)

end Sound

/-! ## One step of settling -/

/-- Assemble a declaration and remember it, once its nested types were attempted. -/
def Index.conclude (index : Index) (config : GenerateConfig) (name : String) :
    Attempt Unit → Attempt Unit
  | (memo, .error error) => (memo, .error error)
  | (memo, .ok ()) =>
    match index.assemble config memo name with
    | .error error => (memo, .error error)
    | .ok resolved => (memo.insert name resolved, .ok ())

/-- The first nested type that is being worked on already. -/
def Index.reentered? (index : Index) (path : List String) (name : String) : Option String :=
  (index.nestedTypes name).find? fun child => (name :: path).contains child

namespace Index

variable {index : Index} {config : GenerateConfig} {fuel : Nat} {path : List String}
  {name : String} {memo : Memo}

theorem settle_of_knows (hknows : memo.Knows name) :
    index.settle config (fuel + 1) path name memo = (memo, .ok ()) := by
  obtain ⟨tree, hget⟩ := Option.isSome_iff_exists.mp hknows
  rw [settle, hget]

theorem settle_of_reentered (hnew : ¬memo.Knows name) {child : String}
    (hchild : index.reentered? path name = some child) :
    index.settle config (fuel + 1) path name memo = (memo, .error (.nestingCycle child)) := by
  rw [settle, Option.not_isSome_iff_eq_none.mp hnew]
  simp only
  rw [show (index.nestedTypes name).find? _ = some child from hchild]

theorem settle_of_new (hnew : ¬memo.Knows name) (hchild : index.reentered? path name = none) :
    index.settle config (fuel + 1) path name memo =
      index.conclude config name
        (attemptAll (index.settle config fuel (name :: path)) (index.nestedTypes name).reverse
          memo) := by
  rw [settle, Option.not_isSome_iff_eq_none.mp hnew]
  simp only
  rw [show (index.nestedTypes name).find? _ = none from hchild]
  rfl

theorem reentered?_eq_none_iff :
    index.reentered? path name = none ↔
      ∀ child, index.NestedIn child name → child ∉ name :: path := by
  simp [reentered?, mem_nestedTypes_iff]

end Index

theorem attemptAll_cons {step : String → Memo → Attempt Unit} {name : String} {names : List String}
    {memo : Memo} :
    attemptAll step (name :: names) memo =
      match (step name memo).2 with
      | .ok () => attemptAll step names (step name memo).1
      | .error error => ((step name memo).1, .error error) := by
  rw [attemptAll]
  rcases step name memo with ⟨after, error | ⟨⟩⟩ <;> rfl

/-! ## Attempts keep the memo sound -/

section Growth

variable {index : Index} {config : GenerateConfig}

/-- The attempt grows the memo, and if it succeeds the names are known. -/
def Attempted (index : Index) (config : GenerateConfig) (memo : Memo) (names : List String)
    (attempt : Attempt Unit) : Prop :=
  Memo.Grows index config memo attempt.1 ∧
    (attempt.2 = .ok () → ∀ name ∈ names, attempt.1.Knows name)

theorem attempted_attemptAll {step : String → Memo → Attempt Unit} (names : List String)
    (hstep : ∀ name memo, memo.Sound index config →
      Attempted index config memo [name] (step name memo))
    {memo : Memo} (hsound : memo.Sound index config) :
    Attempted index config memo names (attemptAll step names memo) := by
  induction names generalizing memo with
  | nil => exact ⟨hsound.grows, by simp⟩
  | cons name names ih =>
    obtain ⟨hgrows, hknows⟩ := hstep name memo hsound
    rw [attemptAll_cons]
    split
    · next hok =>
      obtain ⟨hgrows', hknows'⟩ := ih hgrows.sound
      refine ⟨hgrows.trans hgrows', fun hall => List.forall_mem_cons.mpr ⟨?_, hknows' hall⟩⟩
      exact hgrows'.keeps name (hknows hok name List.mem_cons_self)
    · exact ⟨hgrows, fun hok => by cases hok⟩

theorem attempted_reverse {step : String → Memo → Attempt Unit} {names : List String}
    (hstep : ∀ name memo, memo.Sound index config →
      Attempted index config memo [name] (step name memo))
    {memo : Memo} (hsound : memo.Sound index config) :
    Attempted index config memo names (attemptAll step names.reverse memo) := by
  obtain ⟨hgrows, hknows⟩ := attempted_attemptAll names.reverse hstep hsound
  exact ⟨hgrows, by simpa using hknows⟩

theorem attempted_conclude {memo : Memo} {name : String} {attempt : Attempt Unit}
    (hattempt : Attempted index config memo (index.nestedTypes name) attempt) :
    Attempted index config memo [name] (index.conclude config name attempt) := by
  obtain ⟨after, outcome⟩ := attempt
  obtain ⟨hgrows, -⟩ := hattempt
  rcases outcome with error | ⟨⟩
  · exact ⟨hgrows, fun hok => by cases hok⟩
  · rw [Index.conclude]
    split
    · exact ⟨hgrows, fun hok => by cases hok⟩
    · next tree hassemble =>
      refine ⟨hgrows.trans (hgrows.sound.grows_insert hassemble), fun _ other hother => ?_⟩
      exact Memo.knows_insert.mpr (.inl (List.mem_singleton.mp hother))

theorem attempted_settle (fuel : Nat) (path : List String) (name : String) {memo : Memo}
    (hsound : memo.Sound index config) :
    Attempted index config memo [name] (index.settle config fuel path name memo) := by
  induction fuel generalizing path name memo with
  | zero => exact ⟨hsound.grows, fun hok => by cases hok⟩
  | succ fuel ih =>
    by_cases hknows : memo.Knows name
    · rw [Index.settle_of_knows hknows]
      exact ⟨hsound.grows, by simpa using hknows⟩
    cases hchild : index.reentered? path name with
    | some child =>
      rw [Index.settle_of_reentered hknows hchild]
      exact ⟨hsound.grows, fun hok => by cases hok⟩
    | none =>
      rw [Index.settle_of_new hknows hchild]
      exact attempted_conclude (attempted_reverse (fun child _ => ih (name :: path) child) hsound)

theorem attempted_nestedTypes (fuel : Nat) (path : List String) (name : String) {memo : Memo}
    (hsound : memo.Sound index config) :
    Attempted index config memo (index.nestedTypes name)
      (attemptAll (index.settle config fuel (name :: path)) (index.nestedTypes name).reverse
        memo) :=
  attempted_reverse (fun child _ => attempted_settle fuel (name :: path) child) hsound

end Growth

/-! ## The levels of nesting suffice -/

section Fuel

variable {index : Index} {config : GenerateConfig} {path : List String} {name : String}

theorem attemptAll_congr {left right : String → Memo → Attempt Unit} {names : List String}
    (hstep : ∀ name ∈ names, ∀ memo, left name memo = right name memo) (memo : Memo) :
    attemptAll left names memo = attemptAll right names memo := by
  induction names generalizing memo with
  | nil => rfl
  | cons name names ih =>
    obtain ⟨hname, hnames⟩ := List.forall_mem_cons.mp hstep
    rw [attemptAll_cons, attemptAll_cons, hname]
    split
    · exact ih hnames _
    · rfl

theorem Index.Trail.fuel_pos (htrail : index.Trail path name) {fuel : Nat}
    (hfuel : index.size < fuel + path.length) : fuel ≠ 0 := by
  have hlength := htrail.length_le
  omega

/-- The nested types of a name that is entered for the first time are entered for the first time. -/
theorem Index.Trail.child (htrail : index.Trail path name)
    (hnew : index.reentered? path name = none) {child : String}
    (hchild : child ∈ (index.nestedTypes name).reverse) : index.Trail (name :: path) child := by
  have hnested := Index.mem_nestedTypes_iff.mp (List.mem_reverse.mp hchild)
  exact htrail.enter hnested (Index.reentered?_eq_none_iff.mp hnew child hnested)

/-- On a trail, more fuel than declarations that are still to be met changes nothing. -/
theorem Index.settle_add_fuel (htrail : index.Trail path name) {fuel : Nat}
    (hfuel : index.size < fuel + path.length) (extra : Nat) (memo : Memo) :
    index.settle config (fuel + extra) path name memo =
      index.settle config fuel path name memo := by
  induction fuel generalizing path name memo with
  | zero => exact absurd rfl (htrail.fuel_pos hfuel)
  | succ fuel ih =>
    rw [Nat.succ_add]
    by_cases hknows : memo.Knows name
    · rw [Index.settle_of_knows hknows, Index.settle_of_knows hknows]
    cases hchild : index.reentered? path name with
    | some child =>
      rw [Index.settle_of_reentered hknows hchild, Index.settle_of_reentered hknows hchild]
    | none =>
      rw [Index.settle_of_new hknows hchild, Index.settle_of_new hknows hchild]
      congr 1
      apply attemptAll_congr
      intro child hmem memo
      apply ih (htrail.child hchild hmem)
      rw [List.length_cons]
      omega

end Fuel

end SchemaLoom
