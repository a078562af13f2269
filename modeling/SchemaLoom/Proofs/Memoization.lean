import SchemaLoom.Proofs.Settling

/-!
# The memo does not show

From sound memos a name is settled with the same outcome, the same result or the same first failure.
Every attempt leaves a sound memo behind, so a resolver with a history answers as a new one does.
-/

namespace SchemaLoom

/-! ## Steps in sequence -/

/-- Steps that end alike on related memos and relate what they leave do so in sequence. -/
theorem attemptAll_related {left right : String → Memo → Attempt Unit}
    {related : Memo → Memo → Prop} {names : List String}
    (hstep : ∀ name ∈ names, ∀ memo memo', related memo memo' →
      (left name memo).2 = (right name memo').2 ∧
        related (left name memo).1 (right name memo').1)
    {memo memo' : Memo} (hrelated : related memo memo') :
    (attemptAll left names memo).2 = (attemptAll right names memo').2 ∧
      related (attemptAll left names memo).1 (attemptAll right names memo').1 := by
  induction names generalizing memo memo' with
  | nil => exact ⟨rfl, hrelated⟩
  | cons name names ih =>
    obtain ⟨hname, hnames⟩ := List.forall_mem_cons.mp hstep
    obtain ⟨houtcome, hafter⟩ := hname memo memo' hrelated
    rw [attemptAll_cons, attemptAll_cons, ← houtcome]
    split
    · exact ih hnames hafter
    · exact ⟨rfl, hafter⟩

theorem attemptAll_eq_ok {step : String → Memo → Attempt Unit} {holds : Memo → Prop}
    {names : List String}
    (hstep : ∀ name ∈ names, ∀ memo, holds memo →
      (step name memo).2 = .ok () ∧ holds (step name memo).1)
    {memo : Memo} (hmemo : holds memo) : (attemptAll step names memo).2 = .ok () := by
  induction names generalizing memo with
  | nil => rfl
  | cons name names ih =>
    obtain ⟨hname, hnames⟩ := List.forall_mem_cons.mp hstep
    obtain ⟨hok, hafter⟩ := hname memo hmemo
    rw [attemptAll_cons, hok]
    exact ih hnames hafter

/-- A sequence fails as one of its steps does. -/
theorem exists_of_attemptAll_eq_error {step : String → Memo → Attempt Unit} {holds : Memo → Prop}
    {names : List String} (hstep : ∀ name memo, holds memo → holds (step name memo).1)
    {memo : Memo} (hmemo : holds memo) {error : ResolveError}
    (hfailed : (attemptAll step names memo).2 = .error error) :
    ∃ name ∈ names, ∃ before, holds before ∧ (step name before).2 = .error error := by
  induction names generalizing memo with
  | nil => cases hfailed
  | cons name names ih =>
    rw [attemptAll_cons] at hfailed
    split at hfailed
    · obtain ⟨failed, hmem, hbefore⟩ := ih (hstep name memo hmemo) hfailed
      exact ⟨failed, List.mem_cons_of_mem _ hmem, hbefore⟩
    · next hname =>
      cases hfailed
      exact ⟨name, List.mem_cons_self, memo, hmemo, hname⟩

section Transparency

variable {index : Index} {config : GenerateConfig} {path : List String} {name : String}

/-! ## Outcomes do not depend on the memo -/

theorem Index.conclude_of_error {attempt : Attempt Unit} {error : ResolveError}
    (hfailed : attempt.2 = .error error) : index.conclude config name attempt = attempt := by
  obtain ⟨after, outcome⟩ := attempt
  cases hfailed
  rfl

theorem Index.conclude_snd {attempt : Attempt Unit} (hok : attempt.2 = .ok ()) :
    (index.conclude config name attempt).2 =
      Outcome.verdict (index.assemble config attempt.1 name) := by
  obtain ⟨after, outcome⟩ := attempt
  cases hok
  rw [conclude]
  cases index.assemble config after name <;> rfl

theorem Index.conclude_of_resolvesTo {memo : Memo} {attempt : Attempt Unit}
    (hattempt : Attempted index config memo (index.nestedTypes name) attempt)
    (hok : attempt.2 = .ok ()) {tree : Resolved} (hresolves : index.ResolvesTo config name tree) :
    (index.conclude config name attempt).2 = .ok () := by
  obtain ⟨hgrows, hknows⟩ := hattempt
  obtain ⟨known, hnested, hassemble⟩ := hresolves
  have hsame : ∀ child ∈ index.nestedTypes name, attempt.1.get? child = known.get? child := by
    intro child hchild
    obtain ⟨nested, hget⟩ := Option.isSome_iff_exists.mp (knows_of_assemble hassemble child hchild)
    rw [hget]
    exact hgrows.sound.get?_of_resolvesTo (hknows hok child hchild)
      (hnested child hchild nested hget)
  rw [conclude_snd hok, assemble_congr hsame, hassemble]
  rfl

/-- What resolves to something is settled from every sound memo. -/
theorem Index.settle_of_resolvesTo {tree : Resolved} (hresolves : index.ResolvesTo config name tree)
    (htrail : index.Trail path name) {fuel : Nat} (hfuel : index.size < fuel + path.length)
    {memo : Memo} (hsound : memo.Sound index config) :
    (index.settle config fuel path name memo).2 = .ok () := by
  have hacc := hresolves.acc
  have hself := hresolves
  induction hresolves generalizing path fuel memo with
  | @assembled name tree known hnested hassemble ih =>
    obtain ⟨fuel, rfl⟩ := Nat.exists_eq_succ_of_ne_zero (htrail.fuel_pos hfuel)
    by_cases hknows : memo.Knows name
    · rw [settle_of_knows hknows]
    -- The name is on no cycle of nesting, so no nested type is on the trail.
    have hnew : index.reentered? path name = none := by
      rw [reentered?_eq_none_iff]
      intro child hchild hmem
      rcases List.mem_cons.mp hmem with rfl | hmem
      · exact not_transGen_of_acc hacc (.single hchild)
      · exact not_transGen_of_acc hacc ((htrail.transGen_of_mem hmem).tail hchild)
    have hstep : ∀ child ∈ (index.nestedTypes name).reverse, ∀ memo : Memo,
        memo.Sound index config →
          (index.settle config fuel (name :: path) child memo).2 = .ok () ∧
            (index.settle config fuel (name :: path) child memo).1.Sound index config := by
      intro child hchild memo hsound
      have hmem := List.mem_reverse.mp hchild
      obtain ⟨nested, hget⟩ := Option.isSome_iff_exists.mp (knows_of_assemble hassemble child hmem)
      have hresolves := hnested child hmem nested hget
      refine ⟨ih child hmem nested hget (htrail.child hnew hchild) ?_ hsound hresolves.acc hresolves,
        (attempted_settle fuel (name :: path) child hsound).1.sound⟩
      rw [List.length_cons]
      omega
    rw [settle_of_new hknows hnew]
    exact conclude_of_resolvesTo (attempted_nestedTypes fuel path name hsound)
      (attemptAll_eq_ok hstep hsound) hself

theorem Index.conclude_snd_eq {memo memo' : Memo} {attempt attempt' : Attempt Unit}
    (hattempt : Attempted index config memo (index.nestedTypes name) attempt)
    (hattempt' : Attempted index config memo' (index.nestedTypes name) attempt')
    (hsame : attempt.2 = attempt'.2) :
    (index.conclude config name attempt).2 = (index.conclude config name attempt').2 := by
  cases hok : attempt.2 with
  | error error =>
    rw [conclude_of_error hok, conclude_of_error (hsame.symm.trans hok), hsame]
  | ok =>
    have hok' : attempt'.2 = .ok () := hsame.symm.trans hok
    have hget : ∀ child ∈ index.nestedTypes name, attempt.1.get? child = attempt'.1.get? child :=
      fun child hchild => hattempt.1.sound.get?_eq hattempt'.1.sound (hattempt.2 hok child hchild)
        (hattempt'.2 hok' child hchild)
    rw [conclude_snd hok, conclude_snd hok', assemble_congr hget]

/-- From two sound memos a name on a trail is settled with the same outcome. -/
theorem Index.settle_snd_eq (htrail : index.Trail path name) {fuel : Nat}
    (hfuel : index.size < fuel + path.length) {memo memo' : Memo}
    (hsound : memo.Sound index config) (hsound' : memo'.Sound index config) :
    (index.settle config fuel path name memo).2 =
      (index.settle config fuel path name memo').2 := by
  induction fuel generalizing path name memo memo' with
  | zero => exact absurd rfl (htrail.fuel_pos hfuel)
  | succ fuel ih =>
    -- If one memo knows the name, the other one settles it.
    have hresolved : ∀ tree, index.ResolvesTo config name tree →
        (index.settle config (fuel + 1) path name memo).2 =
          (index.settle config (fuel + 1) path name memo').2 := by
      intro tree hresolves
      rw [settle_of_resolvesTo hresolves htrail hfuel hsound,
        settle_of_resolvesTo hresolves htrail hfuel hsound']
    by_cases hknows : memo.Knows name
    · obtain ⟨tree, -, hresolves⟩ := hsound.exists_resolvesTo hknows
      exact hresolved tree hresolves
    by_cases hknows' : memo'.Knows name
    · obtain ⟨tree, -, hresolves⟩ := hsound'.exists_resolvesTo hknows'
      exact hresolved tree hresolves
    cases hchild : index.reentered? path name with
    | some child => rw [settle_of_reentered hknows hchild, settle_of_reentered hknows' hchild]
    | none =>
      rw [settle_of_new hknows hchild, settle_of_new hknows' hchild]
      have hstep : ∀ child ∈ (index.nestedTypes name).reverse, ∀ memo memo' : Memo,
          memo.Sound index config ∧ memo'.Sound index config →
            (index.settle config fuel (name :: path) child memo).2 =
              (index.settle config fuel (name :: path) child memo').2 ∧
            (index.settle config fuel (name :: path) child memo).1.Sound index config ∧
              (index.settle config fuel (name :: path) child memo').1.Sound index config := by
        rintro child hmem memo memo' ⟨hsound, hsound'⟩
        refine ⟨ih (htrail.child hchild hmem) ?_ hsound hsound',
          (attempted_settle fuel _ child hsound).1.sound,
          (attempted_settle fuel _ child hsound').1.sound⟩
        rw [List.length_cons]
        omega
      exact conclude_snd_eq (attempted_nestedTypes fuel path name hsound)
        (attempted_nestedTypes fuel path name hsound')
        (attemptAll_related hstep ⟨hsound, hsound'⟩).1

/-! ## Resolving -/

theorem Index.resolve_fst (memo : Memo) :
    (index.resolve config name memo).1 =
      (index.settle config (index.size + 2) [] name memo).1 := by
  rw [resolve]
  rcases index.settle config (index.size + 2) [] name memo with ⟨after, error | ⟨⟩⟩
  · rfl
  · simp only
    split <;> rfl

theorem Index.resolve_snd (memo : Memo) :
    (index.resolve config name memo).2 =
      ((index.settle config (index.size + 2) [] name memo).2 >>= fun _ =>
        (index.settle config (index.size + 2) [] name memo).1.remembered name) := by
  rw [resolve]
  rcases index.settle config (index.size + 2) [] name memo with ⟨after, error | ⟨⟩⟩
  · rfl
  · simp only
    split
    · next hget => exact (Memo.remembered_of_get? hget).symm
    · next hget =>
      simp only [Memo.remembered, hget]
      rfl

theorem Memo.Sound.resolve {memo : Memo} (hsound : memo.Sound index config) (name : String) :
    (index.resolve config name memo).1.Sound index config := by
  rw [Index.resolve_fst]
  exact (attempted_settle _ _ name hsound).1.sound

theorem Index.resolve_of_resolvesTo {tree : Resolved}
    (hresolves : index.ResolvesTo config name tree) {memo : Memo}
    (hsound : memo.Sound index config) : (index.resolve config name memo).2 = .ok tree := by
  have hok := settle_of_resolvesTo hresolves (.start index name)
    (show index.size < index.size + 2 + [].length by simp) hsound
  obtain ⟨hgrows, hknows⟩ := attempted_settle (index.size + 2) [] name hsound
  have hget := hgrows.sound.get?_of_resolvesTo (hknows hok name List.mem_cons_self) hresolves
  rw [resolve_snd, hok]
  exact Memo.remembered_of_get? hget

/-- From a sound memo a name is resolved as from no memo at all. -/
theorem Index.resolve_snd_eq {memo : Memo} (hsound : memo.Sound index config) :
    (index.resolve config name memo).2 = (index.resolve config name []).2 := by
  have hempty := Memo.sound_nil index config
  have hsame := settle_snd_eq (.start index name)
    (show index.size < index.size + 2 + [].length by simp) hsound hempty
  cases houtcome : (index.settle config (index.size + 2) [] name []).2 with
  | error error =>
    rw [resolve_snd, resolve_snd, hsame, houtcome]
    rfl
  | ok =>
    obtain ⟨hgrows, hknows⟩ := attempted_settle (index.size + 2) [] name hempty
    obtain ⟨tree, -, hresolves⟩ :=
      hgrows.sound.exists_resolvesTo (hknows houtcome name List.mem_cons_self)
    rw [resolve_of_resolvesTo hresolves hsound, resolve_of_resolvesTo hresolves hempty]

/-- The memo of a resolver after some calls, whatever their outcomes. -/
def Index.memoAfter (index : Index) (config : GenerateConfig) (calls : List String) : Memo :=
  calls.foldl (fun memo name => (index.resolve config name memo).1) []

theorem Index.sound_memoAfter (index : Index) (config : GenerateConfig) (calls : List String) :
    (index.memoAfter config calls).Sound index config := by
  have hcalls : ∀ memo : Memo, memo.Sound index config →
      (calls.foldl (fun memo name => (index.resolve config name memo).1) memo).Sound
        index config := by
    induction calls with
    | nil => exact fun _ hsound => hsound
    | cons name calls ih => exact fun memo hsound => ih _ (hsound.resolve name)
  exact hcalls [] (Memo.sound_nil index config)

end Transparency

/-! ## Unknown declarations -/

section Unknown

variable {index : Index} {config : GenerateConfig}

theorem Index.checkType_ne_unknown {referrer name unknown : String} :
    index.checkType referrer name ≠ .error (.unknownDeclaration unknown) := by
  rw [checkType]
  split <;> simp

theorem Index.checkReference_ne_unknown {referrer unknown : String} {reference : Reference} :
    index.checkReference referrer reference ≠ .error (.unknownDeclaration unknown) := by
  cases reference with
  | primitive kind => simp [checkReference]
  | enumeration name =>
    rw [checkReference, checkEnum]
    split <;> simp
  | named name => exact checkType_ne_unknown

theorem Index.checkPayloads_ne_unknown {name unknown : String} {declared : Declared} :
    index.checkPayloads name declared ≠ .error (.unknownDeclaration unknown) := by
  intro hfailed
  rcases Outcome.bind_eq_error_iff.mp hfailed with hevents | ⟨-, -, hcommands⟩
  · obtain ⟨-, event, -, -, -, hevent⟩ := Outcome.forM_eq_error_iff.mp hevents
    exact checkType_ne_unknown hevent
  · obtain ⟨-, command, -, -, -, hcommand⟩ := Outcome.forM_eq_error_iff.mp hcommands
    rcases Outcome.bind_eq_error_iff.mp hcommand with hrequest | ⟨-, -, hresponse⟩
    · exact checkType_ne_unknown hrequest
    · exact checkType_ne_unknown hresponse

theorem Index.checkFields_ne_unknown {target unknown : String} {earlier fields : List Field} :
    index.checkFields target earlier fields ≠ .error (.unknownDeclaration unknown) := by
  induction fields generalizing earlier with
  | nil => simp [checkFields]
  | cons field fields ih =>
    rw [checkFields]
    split
    · next error hfield =>
      rintro ⟨⟩
      rw [checkField] at hfield
      split at hfield
      · cases hfield
      · obtain ⟨-, reference, -, -, -, hreference⟩ := Outcome.forM_eq_error_iff.mp hfield
        exact checkReference_ne_unknown hreference
    · exact ih

theorem Index.filterFields_ne_unknown {policy : RecursionPolicy} {target unknown : String}
    {fields : List Field} :
    index.filterFields policy target fields ≠ .error (.unknownDeclaration unknown) := by
  rw [filterFields]
  split
  · next error hcheck =>
    rintro ⟨⟩
    exact checkFields_ne_unknown hcheck
  · simp

/-- An enumeration that is declared is never unknown. -/
theorem Index.resolveEnum_ne_unknown {name unknown : String}
    (hdeclared : (index.enumeration? name).isSome) :
    index.resolveEnum name ≠ .error (.unknownDeclaration unknown) := by
  obtain ⟨decl, hdecl⟩ := Option.isSome_iff_exists.mp hdeclared
  obtain ⟨entry, hget, -⟩ := Option.bind_eq_some_iff.mp hdecl
  have hsource : index.source? name = some entry.source := by rw [source?, hget]; rfl
  rw [resolveEnum, hdecl, hsource]
  simp only
  split
  · simp
  · split <;> simp

theorem Index.declared_eq_unknown {name unknown : String}
    (hfailed : index.declared name = .error (.unknownDeclaration unknown)) :
    unknown = name ∧ index.type? name = none := by
  rw [declared] at hfailed
  split at hfailed
  · next component _ _ =>
    rw [componentFields] at hfailed
    split at hfailed
    · cases hfailed
    · split at hfailed <;> cases hfailed
  · cases hfailed
  · next htype =>
    cases hfailed
    exact ⟨rfl, htype⟩

/-- Once the nested types are known, nothing but the declaration itself can be unknown. -/
theorem Index.assemble_eq_unknown {memo : Memo} {name unknown : String}
    (hknows : ∀ child ∈ index.nestedTypes name, memo.Knows child)
    (hfailed : index.assemble config memo name = .error (.unknownDeclaration unknown)) :
    unknown = name ∧ index.type? name = none := by
  rw [assemble_eq] at hfailed
  rcases Outcome.bind_eq_error_iff.mp hfailed with hdeclared | ⟨declared, -, hfailed⟩
  · exact declared_eq_unknown hdeclared
  rcases Outcome.bind_eq_error_iff.mp hfailed with hpayloads | ⟨-, -, hfailed⟩
  · exact absurd hpayloads checkPayloads_ne_unknown
  rcases Outcome.bind_eq_error_iff.mp hfailed with hfields | ⟨filtered, -, hfailed⟩
  · exact absurd hfields filterFields_ne_unknown
  rcases Outcome.bind_eq_error_iff.mp hfailed with hnested | ⟨nested, -, hfailed⟩
  · obtain ⟨child, hchild, hremembered⟩ := Outcome.exists_mem_of_mapM_eq_error hnested
    obtain ⟨tree, hget⟩ := Option.isSome_iff_exists.mp (hknows child hchild)
    rw [Memo.remembered, hget] at hremembered
    cases hremembered
  rcases Outcome.bind_eq_error_iff.mp hfailed with henums | ⟨nestedEnums, -, hfailed⟩
  · obtain ⟨enum, henum, hresolve⟩ := Outcome.exists_mem_of_mapM_eq_error henums
    exact absurd hresolve (resolveEnum_ne_unknown (enumeration?_of_mem_nestedEnumerations henum))
  · rw [compose] at hfailed
    split at hfailed
    · next hsource =>
      cases hfailed
      refine ⟨rfl, ?_⟩
      rw [type?, Option.map_eq_none_iff.mp hsource]
      rfl
    · cases hfailed

/-- Settling fails for an unknown declaration only if it is the one to be settled. -/
theorem Index.settle_eq_unknown {fuel : Nat} {path : List String} {name unknown : String}
    {memo : Memo} (hsound : memo.Sound index config)
    (hfailed : (index.settle config fuel path name memo).2 =
      .error (.unknownDeclaration unknown)) :
    unknown = name ∧ index.type? name = none := by
  induction fuel generalizing path name memo with
  | zero => cases hfailed
  | succ fuel ih =>
    by_cases hknows : memo.Knows name
    · rw [settle_of_knows hknows] at hfailed
      cases hfailed
    cases hchild : index.reentered? path name with
    | some child =>
      rw [settle_of_reentered hknows hchild] at hfailed
      cases hfailed
    | none =>
      rw [settle_of_new hknows hchild] at hfailed
      have hchildren := attempted_nestedTypes fuel path name hsound
      cases houtcome : (attemptAll (index.settle config fuel (name :: path))
          (index.nestedTypes name).reverse memo).2 with
      | error error =>
        obtain rfl : error = .unknownDeclaration unknown := by
          rw [conclude_of_error houtcome, houtcome] at hfailed
          exact Except.error.inj hfailed
        have hkeeps : ∀ child (memo : Memo), memo.Sound index config →
            (index.settle config fuel (name :: path) child memo).1.Sound index config :=
          fun child _ hsound => (attempted_settle fuel (name :: path) child hsound).1.sound
        obtain ⟨child, hmem, before, hbefore, hstep⟩ :=
          exists_of_attemptAll_eq_error hkeeps hsound houtcome
        obtain ⟨-, hnone⟩ := ih hbefore hstep
        obtain ⟨type, htype, -⟩ := mem_nestedTypes_iff.mp (List.mem_reverse.mp hmem)
        rw [htype] at hnone
        cases hnone
      | ok =>
        rw [conclude_snd houtcome, Outcome.verdict_eq_error_iff] at hfailed
        exact assemble_eq_unknown (hchildren.2 houtcome) hfailed

theorem Index.resolve_eq_unknown {name unknown : String} {memo : Memo}
    (hsound : memo.Sound index config)
    (hfailed : (index.resolve config name memo).2 = .error (.unknownDeclaration unknown)) :
    unknown = name ∧ index.type? name = none := by
  rw [resolve_snd] at hfailed
  rcases Outcome.bind_eq_error_iff.mp hfailed with hsettle | ⟨⟨⟩, hok, hremembered⟩
  · exact settle_eq_unknown hsound hsettle
  · have hknows := (attempted_settle (index.size + 2) [] name hsound).2 hok name List.mem_cons_self
    obtain ⟨tree, hget⟩ := Option.isSome_iff_exists.mp hknows
    rw [Memo.remembered_of_get? hget] at hremembered
    cases hremembered

end Unknown

/-! ## A resolver with a history -/

/-- After any calls, failed ones included, a name is resolved as by a new resolver.  The memo holds
what a new resolver returns for its names, nested types included.  Every call comes to an end by
itself, within the levels of nesting there can be, and only the name asked for can be unknown. -/
theorem Index.resolve_memoAfter (index : Index) (config : GenerateConfig) (calls : List String)
    (name : String) :
    (index.resolve config name (index.memoAfter config calls)).2 =
        (index.resolve config name []).2 ∧
      (∀ entry ∈ index.memoAfter config calls,
        (index.resolve config entry.1 []).2 = .ok entry.2 ∧
          ∀ child ∈ index.nestedTypes entry.1,
            ((index.memoAfter config calls).get? child).isSome) ∧
      (∀ fuel, index.size + 2 ≤ fuel →
        index.settle config fuel [] name (index.memoAfter config calls) =
          index.settle config (index.size + 2) [] name (index.memoAfter config calls)) ∧
      ∀ unknown, (index.resolve config name (index.memoAfter config calls)).2 =
        .error (.unknownDeclaration unknown) → unknown = name := by
  have hsound := index.sound_memoAfter config calls
  refine ⟨resolve_snd_eq hsound, ?_, ?_, ?_⟩
  · intro entry hentry
    have hresolves := hsound.resolves entry hentry
    refine ⟨resolve_of_resolvesTo hresolves (Memo.sound_nil index config), ?_⟩
    exact hsound.closed entry.1 (Memo.knows_of_mem hentry)
  · intro fuel hfuel
    obtain ⟨extra, rfl⟩ := Nat.exists_eq_add_of_le hfuel
    exact settle_add_fuel (.start index name) (by simp) extra _
  · intro unknown hfailed
    exact (resolve_eq_unknown hsound hfailed).1

end SchemaLoom
