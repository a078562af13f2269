import SchemaLoom.Collection.Keyed

/-!
# Keys of keyed lists

Keyed insertion keeps the keys apart: of two entries, the later key is never alike to the earlier
one.  Inserting entries whose keys are apart already gives back the entries.  Nothing is asked of
the comparison, which need not even be reflexive.
-/

namespace SchemaLoom.Keyed

variable {κ ν : Type} {alike : κ → κ → Bool}

/-- No entry has a key alike to the key of an earlier entry. -/
def Apart (alike : κ → κ → Bool) (entries : List (κ × ν)) : Prop :=
  entries.Pairwise fun earlier later => alike earlier.1 later.1 = false

instance (alike : κ → κ → Bool) (entries : List (κ × ν)) : Decidable (Apart alike entries) :=
  inferInstanceAs (Decidable (entries.Pairwise _))

/-- Insertion under a known key changes no key; under a new one it appends the entry. -/
theorem map_fst_insert (alike : κ → κ → Bool) (key : κ) (value : ν) (entries : List (κ × ν)) :
    (insert alike key value entries).map (·.1) = entries.map (·.1) ∨
      (∀ entry ∈ entries, alike entry.1 key = false) ∧
        insert alike key value entries = entries ++ [(key, value)] := by
  induction entries with
  | nil => exact .inr ⟨by simp, rfl⟩
  | cons entry rest ih =>
    obtain ⟨other, old⟩ := entry
    cases halike : alike other key with
    | true => exact .inl (by simp [insert, halike])
    | false =>
      rcases ih with hkeys | ⟨hnew, happend⟩
      · exact .inl (by simp [insert, halike, hkeys])
      · refine .inr ⟨?_, by simp [insert, halike, happend]⟩
        exact List.forall_mem_cons.mpr ⟨halike, hnew⟩

theorem apart_iff_pairwise_keys {entries : List (κ × ν)} :
    Apart alike entries ↔
      (entries.map (·.1)).Pairwise fun earlier later => alike earlier later = false :=
  (List.pairwise_map (R := fun earlier later => alike earlier later = false)).symm

theorem apart_insert {entries : List (κ × ν)} (hapart : Apart alike entries) (key : κ)
    (value : ν) : Apart alike (insert alike key value entries) := by
  rcases map_fst_insert alike key value entries with hkeys | ⟨hnew, happend⟩
  · rw [apart_iff_pairwise_keys, hkeys]
    exact apart_iff_pairwise_keys.mp hapart
  · rw [happend]
    refine List.pairwise_append.mpr ⟨hapart, List.pairwise_singleton _ _, ?_⟩
    intro earlier hearlier later hlater
    rw [List.mem_singleton.mp hlater]
    exact hnew earlier hearlier

theorem apart_insertAll {entries : List (κ × ν)} (hapart : Apart alike entries)
    (more : List (κ × ν)) : Apart alike (insertAll alike entries more) := by
  induction more generalizing entries with
  | nil => exact hapart
  | cons entry more ih => exact ih (apart_insert hapart entry.1 entry.2)

theorem apart_ofList (entries : List (κ × ν)) : Apart alike (ofList alike entries) :=
  apart_insertAll .nil entries

theorem length_insert_le (alike : κ → κ → Bool) (key : κ) (value : ν) (entries : List (κ × ν)) :
    (insert alike key value entries).length ≤ entries.length + 1 := by
  rcases map_fst_insert alike key value entries with hkeys | ⟨-, happend⟩
  · have hlength := congrArg List.length hkeys
    simp only [List.length_map] at hlength
    omega
  · simp [happend]

theorem length_insertAll_le (alike : κ → κ → Bool) (entries more : List (κ × ν)) :
    (insertAll alike entries more).length ≤ entries.length + more.length := by
  induction more generalizing entries with
  | nil => exact Nat.le_refl _
  | cons entry more ih =>
    have hfirst := length_insert_le alike entry.1 entry.2 entries
    have hrest := ih (insert alike entry.1 entry.2 entries)
    simp only [insertAll, List.foldl_cons, List.length_cons] at hrest ⊢
    omega

theorem length_ofList_le (entries : List (κ × ν)) :
    (ofList alike entries).length ≤ entries.length := by
  simpa [ofList] using length_insertAll_le alike [] entries

/-- Every entry after an insertion has an old or the new key with an old or the new value. -/
theorem forall_mem_insert {entries : List (κ × ν)} {keyHolds : κ → Prop} {valueHolds : ν → Prop}
    (hentries : ∀ entry ∈ entries, keyHolds entry.1 ∧ valueHolds entry.2) {key : κ} {value : ν}
    (hkey : keyHolds key) (hvalue : valueHolds value) :
    ∀ entry ∈ insert alike key value entries, keyHolds entry.1 ∧ valueHolds entry.2 := by
  induction entries with
  | nil => simpa [insert] using ⟨hkey, hvalue⟩
  | cons first rest ih =>
    obtain ⟨hfirst, hrest⟩ := List.forall_mem_cons.mp hentries
    simp only [insert]
    split
    · exact List.forall_mem_cons.mpr ⟨⟨hfirst.1, hvalue⟩, hrest⟩
    · exact List.forall_mem_cons.mpr ⟨hfirst, ih hrest⟩

/-- What holds of all keys and all values still holds of them after the insertions. -/
theorem forall_mem_ofList (keyHolds : κ → Prop) (valueHolds : ν → Prop) {entries : List (κ × ν)}
    (hentries : ∀ entry ∈ entries, keyHolds entry.1 ∧ valueHolds entry.2) :
    ∀ entry ∈ ofList alike entries, keyHolds entry.1 ∧ valueHolds entry.2 := by
  have hinsertAll : ∀ more done : List (κ × ν),
      (∀ entry ∈ more, keyHolds entry.1 ∧ valueHolds entry.2) →
      (∀ entry ∈ done, keyHolds entry.1 ∧ valueHolds entry.2) →
      ∀ entry ∈ insertAll alike done more, keyHolds entry.1 ∧ valueHolds entry.2 := by
    intro more
    induction more with
    | nil => exact fun _ _ hdone => hdone
    | cons entry more ih =>
      intro done hmore hdone
      obtain ⟨hentry, hmore⟩ := List.forall_mem_cons.mp hmore
      exact ih _ hmore (forall_mem_insert hdone hentry.1 hentry.2)
  exact hinsertAll entries [] hentries (by simp)

/-! ## Entries with keys apart -/

theorem insert_eq_append {entries : List (κ × ν)} {key : κ}
    (hnew : ∀ entry ∈ entries, alike entry.1 key = false) (value : ν) :
    insert alike key value entries = entries ++ [(key, value)] := by
  induction entries with
  | nil => rfl
  | cons entry rest ih =>
    obtain ⟨hentry, hrest⟩ := List.forall_mem_cons.mp hnew
    simp [insert, hentry, ih hrest]

theorem insertAll_eq_append {entries more : List (κ × ν)} (hapart : Apart alike (entries ++ more)) :
    insertAll alike entries more = entries ++ more := by
  induction more generalizing entries with
  | nil => simp [insertAll]
  | cons entry more ih =>
    have hnew : ∀ earlier ∈ entries, alike earlier.1 entry.1 = false := by
      intro earlier hearlier
      exact (List.pairwise_append.mp hapart).2.2 earlier hearlier entry List.mem_cons_self
    have hsplit : entries ++ entry :: more = (entries ++ [entry]) ++ more := by simp
    calc
      insertAll alike entries (entry :: more) = insertAll alike (entries ++ [entry]) more := by
        rw [insertAll, List.foldl_cons, insert_eq_append hnew]
        rfl
      _ = (entries ++ [entry]) ++ more := ih (hsplit ▸ hapart)
      _ = entries ++ entry :: more := hsplit.symm

theorem ofList_eq_self {entries : List (κ × ν)} (hapart : Apart alike entries) :
    ofList alike entries = entries :=
  insertAll_eq_append hapart

end SchemaLoom.Keyed
