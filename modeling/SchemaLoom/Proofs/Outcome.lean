import Mathlib.Data.List.Forall2
import Mathlib.Data.List.Perm.Subperm

/-!
# Outcomes of steps that can fail

Success of a computation built from smaller ones, in terms of the success of its parts.  A list of
computations succeeds exactly when each of them does, and then the results stand place by place.
-/

namespace SchemaLoom.Outcome

variable {ε ε' α β : Type}

theorem bind_eq_ok_iff {first : Except ε α} {next : α → Except ε β} {result : β} :
    (first >>= next) = .ok result ↔ ∃ value, first = .ok value ∧ next value = .ok result := by
  cases first <;> simp [bind, Except.bind]

theorem map_eq_ok_iff {outcome : Except ε α} {change : α → β} {result : β} :
    outcome.map change = .ok result ↔ ∃ value, outcome = .ok value ∧ change value = result := by
  cases outcome <;> simp [Except.map]

theorem mapError_eq_ok_iff {outcome : Except ε α} {change : ε → ε'} {result : α} :
    outcome.mapError change = .ok result ↔ outcome = .ok result := by
  cases outcome <;> simp [Except.mapError]

theorem pure_eq_ok_iff {value result : α} :
    (pure value : Except ε α) = .ok result ↔ value = result := by
  simp [pure, Except.pure]

theorem forall₂_of_mapM_eq_ok {step : α → Except ε β} {items : List α} {results : List β}
    (hmap : items.mapM step = .ok results) :
    List.Forall₂ (fun item result => step item = .ok result) items results := by
  induction items generalizing results with
  | nil =>
    rw [List.mapM_nil, pure_eq_ok_iff] at hmap
    rw [← hmap]
    exact .nil
  | cons item items ih =>
    rw [List.mapM_cons, bind_eq_ok_iff] at hmap
    obtain ⟨result, hitem, hrest⟩ := hmap
    obtain ⟨results', hitems, hpure⟩ := bind_eq_ok_iff.mp hrest
    rw [← pure_eq_ok_iff.mp hpure]
    exact .cons hitem (ih hitems)

theorem mapM_eq_ok_of_forall₂ {step : α → Except ε β} {items : List α} {results : List β}
    (hall : List.Forall₂ (fun item result => step item = .ok result) items results) :
    items.mapM step = .ok results := by
  induction hall with
  | nil => rfl
  | cons hitem _ ih =>
    rw [List.mapM_cons, hitem, ih]
    rfl

theorem mapM_eq_ok_iff {step : α → Except ε β} {items : List α} {results : List β} :
    items.mapM step = .ok results ↔
      List.Forall₂ (fun item result => step item = .ok result) items results :=
  ⟨forall₂_of_mapM_eq_ok, mapM_eq_ok_of_forall₂⟩

/-- Two runs over items related place by place come to the same end if related items do. -/
theorem mapM_eq_of_forall₂ {α' : Type} {step : α → Except ε β} {step' : α' → Except ε β}
    {items : List α} {items' : List α'}
    (hsame : List.Forall₂ (fun item item' => step item = step' item') items items') :
    items.mapM step = items'.mapM step' := by
  induction hsame with
  | nil => rfl
  | cons hitem _ ih => rw [List.mapM_cons, List.mapM_cons, hitem, ih]

theorem mapM_congr {step step' : α → Except ε β} {items : List α}
    (hstep : ∀ item ∈ items, step item = step' item) : items.mapM step = items.mapM step' :=
  mapM_eq_of_forall₂ (List.forall₂_same.mpr hstep)

/-- A check of every item passes exactly when each single check does. -/
theorem forM_eq_ok_iff {check : α → Except ε Unit} {items : List α} :
    items.forM check = .ok () ↔ ∀ item ∈ items, check item = .ok () := by
  induction items with
  | nil => simp [pure, Except.pure]
  | cons item items ih =>
    change (check item >>= fun _ => items.forM check) = .ok () ↔ _
    rw [bind_eq_ok_iff, List.forall_mem_cons, ← ih]
    constructor
    · rintro ⟨⟨⟩, hitem, hitems⟩
      exact ⟨hitem, hitems⟩
    · rintro ⟨hitem, hitems⟩
      exact ⟨(), hitem, hitems⟩

/-! ## How a computation ended -/

theorem bind_eq_error_iff {first : Except ε α} {next : α → Except ε β} {error : ε} :
    (first >>= next) = .error error ↔
      first = .error error ∨ ∃ value, first = .ok value ∧ next value = .error error := by
  cases first <;> simp [bind, Except.bind]

theorem mapError_eq_error_iff {outcome : Except ε α} {change : ε → ε'} {error : ε'} :
    outcome.mapError change = .error error ↔
      ∃ cause, outcome = .error cause ∧ change cause = error := by
  cases outcome <;> simp [Except.mapError]

/-- Success or the failure, without the result. -/
def verdict (outcome : Except ε α) : Except ε Unit :=
  outcome.map fun _ => ()

@[simp]
theorem verdict_ok (value : α) : verdict (.ok value : Except ε α) = .ok () := rfl

@[simp]
theorem verdict_error (error : ε) : verdict (.error error : Except ε α) = .error error := rfl

@[simp]
theorem verdict_unit (outcome : Except ε Unit) : verdict outcome = outcome := by
  cases outcome <;> rfl

theorem verdict_eq_ok_iff {outcome : Except ε α} :
    verdict outcome = .ok () ↔ ∃ value, outcome = .ok value := by
  cases outcome <;> simp

theorem verdict_eq_error_iff {outcome : Except ε α} {error : ε} :
    verdict outcome = .error error ↔ outcome = .error error := by
  cases outcome <;> simp

@[simp]
theorem verdict_map (outcome : Except ε α) (change : α → β) :
    verdict (outcome.map change) = verdict outcome := by
  cases outcome <;> rfl

@[simp]
theorem verdict_mapError (outcome : Except ε α) (change : ε → ε') :
    verdict (outcome.mapError change) = (verdict outcome).mapError change := by
  cases outcome <;> rfl

theorem verdict_bind (first : Except ε α) (next : α → Except ε β) :
    verdict (first >>= next) = first >>= fun value => verdict (next value) := by
  cases first <;> rfl

/-- Two computations end alike if their first parts do and what follows them does. -/
theorem verdict_bind_congr {α' β' : Type} {first : Except ε α} {first' : Except ε α'}
    {next : α → Except ε β} {next' : α' → Except ε β'} (hfirst : verdict first = verdict first')
    (hnext : ∀ value value', first = .ok value → first' = .ok value' →
      verdict (next value) = verdict (next' value')) :
    verdict (first >>= next) = verdict (first' >>= next') := by
  rw [verdict_bind, verdict_bind]
  cases first with
  | error error =>
    rw [verdict_eq_error_iff.mp hfirst.symm]
    rfl
  | ok value =>
    obtain ⟨value', hvalue'⟩ := verdict_eq_ok_iff.mp hfirst.symm
    rw [hvalue']
    exact hnext value value' rfl hvalue'

theorem forM_cons (check : α → Except ε Unit) (item : α) (items : List α) :
    (item :: items).forM check = (check item >>= fun _ => items.forM check) := rfl

theorem forM_singleton (check : α → Except ε Unit) (item : α) : [item].forM check = check item := by
  rw [forM_cons]
  cases check item <;> rfl

theorem forM_flatMap (check : β → Except ε Unit) (expand : α → List β) (items : List α) :
    (items.flatMap expand).forM check = items.forM fun item => (expand item).forM check := by
  induction items with
  | nil => rfl
  | cons item items ih =>
    rw [List.flatMap_cons, forM_cons, ← ih]
    exact List.forM_append

/-- A list of computations ends as the list of their verdicts does. -/
theorem verdict_mapM (step : α → Except ε β) (items : List α) :
    verdict (items.mapM step) = items.forM fun item => verdict (step item) := by
  induction items with
  | nil => rfl
  | cons item items ih =>
    rw [List.mapM_cons, forM_cons, ← ih]
    cases step item with
    | error error => rfl
    | ok result => cases items.mapM step <;> rfl

/-- Checks fail with the first failure among them. -/
theorem forM_eq_error_iff {check : α → Except ε Unit} {items : List α} {error : ε} :
    items.forM check = .error error ↔
      ∃ done item rest, items = done ++ item :: rest ∧
        (∀ earlier ∈ done, check earlier = .ok ()) ∧ check item = .error error := by
  induction items with
  | nil => simp [pure, Except.pure]
  | cons item items ih =>
    rw [forM_cons, bind_eq_error_iff, ih]
    constructor
    · rintro (hitem | ⟨⟨⟩, hitem, done, failed, rest, rfl, hdone, hfailed⟩)
      · exact ⟨[], item, items, rfl, by simp, hitem⟩
      · exact ⟨item :: done, failed, rest, rfl, List.forall_mem_cons.mpr ⟨hitem, hdone⟩, hfailed⟩
    · rintro ⟨done, failed, rest, hsplit, hdone, hfailed⟩
      cases done with
      | nil =>
        obtain ⟨rfl, rfl⟩ := List.cons.inj hsplit
        exact .inl hfailed
      | cons first done =>
        obtain ⟨rfl, rfl⟩ := List.cons.inj hsplit
        obtain ⟨hfirst, hdone⟩ := List.forall_mem_cons.mp hdone
        exact .inr ⟨(), hfirst, done, failed, rest, rfl, hdone, hfailed⟩

/-- A check passes exactly on what is good, and fails as said for what is bad. -/
structure Decides (outcome : Except ε Unit) (good : Prop) (bad : ε → Prop) : Prop where
  ok_iff : outcome = .ok () ↔ good
  error_iff : ∀ error, outcome = .error error ↔ bad error

namespace Decides

variable {outcome : Except ε Unit} {good good' : Prop} {bad bad' : ε → Prop}

theorem of_ok (hgood : good) (hbad : ∀ error, ¬bad error) :
    Decides (.ok () : Except ε Unit) good bad :=
  ⟨iff_of_true rfl hgood, fun error => iff_of_false (by simp) (hbad error)⟩

theorem of_error {failure : ε} (hgood : ¬good) (hbad : ∀ error, bad error ↔ error = failure) :
    Decides (.error failure) good bad :=
  ⟨iff_of_false (by simp) hgood, fun error => by rw [hbad, Except.error.injEq, eq_comm]⟩

theorem congr (hdecides : Decides outcome good bad) (hgood : good ↔ good')
    (hbad : ∀ error, bad error ↔ bad' error) : Decides outcome good' bad' :=
  ⟨hdecides.ok_iff.trans hgood, fun error => (hdecides.error_iff error).trans (hbad error)⟩

/-- Checks in turn pass if each does, and fail with the first that does not pass. -/
theorem forM {check : α → Except ε Unit} {items : List α} {good : α → Prop} {bad : α → ε → Prop}
    (hdecides : ∀ item ∈ items, Decides (check item) (good item) (bad item)) :
    Decides (items.forM check) (∀ item ∈ items, good item) fun error =>
      ∃ done item rest, items = done ++ item :: rest ∧ (∀ earlier ∈ done, good earlier) ∧
        bad item error where
  ok_iff := by
    rw [forM_eq_ok_iff]
    exact forall₂_congr fun item hitem => (hdecides item hitem).ok_iff
  error_iff error := by
    rw [forM_eq_error_iff]
    constructor
    · rintro ⟨done, item, rest, rfl, hdone, hitem⟩
      refine ⟨done, item, rest, rfl, fun earlier hearlier => ?_, ?_⟩
      · exact (hdecides earlier (by simp [hearlier])).ok_iff.mp (hdone earlier hearlier)
      · exact ((hdecides item (by simp)).error_iff error).mp hitem
    · rintro ⟨done, item, rest, rfl, hdone, hitem⟩
      refine ⟨done, item, rest, rfl, fun earlier hearlier => ?_, ?_⟩
      · exact (hdecides earlier (by simp [hearlier])).ok_iff.mpr (hdone earlier hearlier)
      · exact ((hdecides item (by simp)).error_iff error).mpr hitem

end Decides

theorem exists_mem_of_mapM_eq_error {step : α → Except ε β} {items : List α} {error : ε}
    (hmap : items.mapM step = .error error) : ∃ item ∈ items, step item = .error error := by
  rw [← verdict_eq_error_iff, verdict_mapM, forM_eq_error_iff] at hmap
  obtain ⟨done, item, rest, rfl, -, hitem⟩ := hmap
  exact ⟨item, by simp, verdict_eq_error_iff.mp hitem⟩

/-- A run that fails has reached some state from which one step fails. -/
theorem exists_of_foldlM_eq_error {σ : Type} {step : σ → α → Except ε σ} {items : List α}
    {state : σ} {error : ε} (hrun : items.foldlM step state = .error error) :
    ∃ done item rest reached, items = done ++ item :: rest ∧
      done.foldlM step state = .ok reached ∧ step reached item = .error error := by
  induction items generalizing state with
  | nil => cases hrun
  | cons item items ih =>
    rw [List.foldlM_cons] at hrun
    rcases bind_eq_error_iff.mp hrun with hstep | ⟨next, hstep, hrest⟩
    · exact ⟨[], item, items, state, rfl, rfl, hstep⟩
    · obtain ⟨done, failed, rest, reached, rfl, hdone, hfailed⟩ := ih hrest
      refine ⟨item :: done, failed, rest, reached, rfl, ?_, hfailed⟩
      rw [List.foldlM_cons, hstep]
      exact hdone

/-! ## Lists related place by place -/

section PlaceByPlace

variable {α β : Type*} {relates : α → β → Prop} {items : List α} {results : List β}

theorem exists_forall₂ (hexists : ∀ item ∈ items, ∃ result, relates item result) :
    ∃ results, List.Forall₂ relates items results := by
  induction items with
  | nil => exact ⟨[], .nil⟩
  | cons item items ih =>
    obtain ⟨hitem, hitems⟩ := List.forall_mem_cons.mp hexists
    obtain ⟨result, hrelates⟩ := hitem
    obtain ⟨results, hall⟩ := ih hitems
    exact ⟨result :: results, .cons hrelates hall⟩

theorem exists_left_of_mem (hall : List.Forall₂ relates items results) {result : β}
    (hmem : result ∈ results) : ∃ item ∈ items, relates item result := by
  induction hall with
  | nil => simp at hmem
  | cons hrelates _ ih =>
    rcases List.mem_cons.mp hmem with rfl | hmem
    · exact ⟨_, List.mem_cons_self, hrelates⟩
    · obtain ⟨item, hitem, hrelated⟩ := ih hmem
      exact ⟨item, List.mem_cons_of_mem _ hitem, hrelated⟩

theorem exists_right_of_mem (hall : List.Forall₂ relates items results) {item : α}
    (hmem : item ∈ items) : ∃ result ∈ results, relates item result :=
  exists_left_of_mem hall.flip hmem

/-- A relation that follows for members of the lists holds place by place too. -/
theorem forall₂_imp_of_mem {follows : α → β → Prop} (hall : List.Forall₂ relates items results)
    (himp : ∀ item ∈ items, ∀ result ∈ results, relates item result → follows item result) :
    List.Forall₂ follows items results := by
  induction hall with
  | nil => exact .nil
  | cons hfirst _ ih =>
    refine .cons (himp _ List.mem_cons_self _ List.mem_cons_self hfirst) (ih ?_)
    intro item hitem result hresult
    exact himp item (List.mem_cons_of_mem _ hitem) result (List.mem_cons_of_mem _ hresult)

/-- Related items have the same view if the relation says so. -/
theorem map_eq_map {γ : Type} (hall : List.Forall₂ relates items results) {left : α → γ}
    {right : β → γ} (hsame : ∀ item result, relates item result → left item = right result) :
    items.map left = results.map right := by
  induction hall with
  | nil => rfl
  | cons hfirst _ ih => rw [List.map_cons, List.map_cons, hsame _ _ hfirst, ih]

theorem forall₂_append_left {front : List α} (hall : List.Forall₂ relates (front ++ items) results) :
    ∃ first second, results = first ++ second ∧ List.Forall₂ relates front first ∧
      List.Forall₂ relates items second := by
  induction front generalizing results with
  | nil => exact ⟨[], results, rfl, .nil, hall⟩
  | cons item front ih =>
    cases hall with
    | @cons _ result _ rest hrelates hall =>
      obtain ⟨first, second, rfl, hfirst, hsecond⟩ := ih hall
      exact ⟨result :: first, second, rfl, .cons hrelates hfirst, hsecond⟩

theorem exists_some_left {found : Option α} {result : β}
    (hrelated : Option.Rel relates found (some result)) :
    ∃ item, found = some item ∧ relates item result := by
  cases hrelated with
  | some hrelates => exact ⟨_, rfl, hrelates⟩

theorem exists_some_right {item : α} {found : Option β}
    (hrelated : Option.Rel relates (some item) found) :
    ∃ result, found = some result ∧ relates item result := by
  cases hrelated with
  | some hrelates => exact ⟨_, rfl, hrelates⟩

theorem rel_getLast? (hall : List.Forall₂ relates items results) :
    Option.Rel relates items.getLast? results.getLast? := by
  have hreverse := List.rel_reverse hall
  rw [List.getLast?_eq_head?_reverse, List.getLast?_eq_head?_reverse]
  generalize items.reverse = left at hreverse
  generalize results.reverse = right at hreverse
  cases hreverse with
  | nil => exact .none
  | cons hfirst _ => exact .some hfirst

theorem exists_getLast?_left (hall : List.Forall₂ relates items results) {result : β}
    (hlast : results.getLast? = some result) :
    ∃ item, items.getLast? = some item ∧ relates item result := by
  have hrelated := rel_getLast? hall
  rw [hlast] at hrelated
  exact exists_some_left hrelated

theorem forall₂_concat (hall : List.Forall₂ relates items results) {item : α} {result : β}
    (hlast : relates item result) : List.Forall₂ relates (items ++ [item]) (results ++ [result]) :=
  List.rel_append hall (.cons hlast .nil)

theorem rel_getElem? (hall : List.Forall₂ relates items results) (position : Nat) :
    Option.Rel relates items[position]? results[position]? := by
  induction hall generalizing position with
  | nil => exact .none
  | cons hfirst _ ih =>
    cases position with
    | zero => exact .some hfirst
    | succ position => exact ih position

/-- Items can be matched with different others if each has a match and no two have the same. -/
theorem exists_submatching {others : List β}
    (hcovered : ∀ item ∈ items, ∃ other ∈ others, relates item other)
    (hapart : items.Pairwise fun earlier later =>
      ∀ other ∈ others, relates earlier other → ¬relates later other) :
    ∃ arranged, arranged.Subperm others ∧ List.Forall₂ relates items arranged := by
  induction items generalizing others with
  | nil => exact ⟨[], List.nil_subperm, .nil⟩
  | cons item items ih =>
    obtain ⟨hitem, hitems⟩ := List.forall_mem_cons.mp hcovered
    obtain ⟨hfirst, hlater⟩ := List.pairwise_cons.mp hapart
    obtain ⟨other, hother, hrelates⟩ := hitem
    obtain ⟨before, after, rfl⟩ := List.append_of_mem hother
    have hmiddle : (before ++ other :: after).Perm (other :: (before ++ after)) := List.perm_middle
    -- The match of the first item is taken out; the later items have theirs among the rest.
    have hrest : ∀ later ∈ items, ∃ found ∈ before ++ after, relates later found := by
      intro later hmem
      obtain ⟨found, hfound, hrelatesLater⟩ := hitems later hmem
      rcases List.mem_cons.mp (hmiddle.mem_iff.mp hfound) with rfl | hfound
      · exact absurd hrelatesLater (hfirst later hmem found hother hrelates)
      · exact ⟨found, hfound, hrelatesLater⟩
    have hlaterRest := hlater.imp fun hnot found (hfound : found ∈ before ++ after) =>
      hnot found (hmiddle.mem_iff.mpr (List.mem_cons_of_mem _ hfound))
    obtain ⟨arranged, hsubperm, hforall⟩ := ih hrest hlaterRest
    refine ⟨other :: arranged, ?_, .cons hrelates hforall⟩
    exact ((List.subperm_cons other).mpr hsubperm).trans hmiddle.symm.subperm

/-- If there are no more others than items, all of them are matched. -/
theorem exists_matching {others : List β}
    (hcovered : ∀ item ∈ items, ∃ other ∈ others, relates item other)
    (hapart : items.Pairwise fun earlier later =>
      ∀ other ∈ others, relates earlier other → ¬relates later other)
    (hlength : items.length = others.length) :
    ∃ arranged, arranged.Perm others ∧ List.Forall₂ relates items arranged := by
  obtain ⟨arranged, hsubperm, hforall⟩ := exists_submatching hcovered hapart
  have hle : others.length ≤ arranged.length :=
    Nat.le_of_eq (hlength.symm.trans hforall.length_eq)
  exact ⟨arranged, hsubperm.perm_of_length_le hle, hforall⟩

end PlaceByPlace

end SchemaLoom.Outcome
