import SchemaLoom.Text.Case

/-!
# Changing the case of letters

Small letters lie beyond all capitals of ASCII.  So putting a name in small letters brings in none
of the characters before them, neither capitals nor the dot and the slash of paths, and what begins
with such a character still does.  On small ASCII letters, capitals can be turned back.
-/

namespace SchemaLoom.Text

/-! ## Single characters -/

theorem lower_runs_beyond_capitals : ∀ run ∈ lowerRuns, (90 : Int) < run.first + run.shift ∧
    (run.last + run.shift < 0xD800 ∨
      0xDFFF < run.first + run.shift ∧ run.last + run.shift < 0x110000) := by
  decide +kernel

theorem lower_expansions_beyond_capitals : ∀ expansion ∈ lowerExpansions,
    expansion.2 ≠ [] ∧ ∀ code ∈ expansion.2, 90 < code ∧ code < 0xD800 := by
  decide +kernel

theorem toNat_ofNat {code : Nat}
    (hvalid : code < 0xD800 ∨ 0xDFFF < code ∧ code < 0x110000) :
    (Char.ofNat code).toNat = code := by
  have hchar : code.isValidChar := hvalid
  rw [Char.ofNat, dif_pos hchar]
  rfl

theorem isUpper_iff {char : Char} : char.isUpper = true ↔ 65 ≤ char.toNat ∧ char.toNat ≤ 90 := by
  change decide (65 ≤ char.val ∧ char.val ≤ 90) = true ↔ _
  simp [UInt32.le_iff_toNat_le]

/-- A character has no small form of its own, or its small form lies beyond all capitals. -/
theorem lowerChar_cases (char : Char) :
    lowerChar char = [char] ∧ char.isUpper = false ∨
      lowerChar char ≠ [] ∧ ∀ lowered ∈ lowerChar char, 90 < lowered.toNat := by
  rw [lowerChar]
  split
  · next hascii =>
    have hall : ∀ code < 0x80, (Char.ofNat code).toLower = Char.ofNat code ∧
        (Char.ofNat code).isUpper = false ∨ 90 < (Char.ofNat code).toLower.toNat := by
      decide +kernel
    have hchar := hall char.toNat hascii
    rw [Char.ofNat_toNat] at hchar
    apply hchar.imp
    · rintro ⟨hlower, hupper⟩
      exact ⟨by rw [hlower], hupper⟩
    · intro hbeyond
      simpa using hbeyond
  · next hascii =>
    rw [mapChar]
    split
    · next codes hcodes =>
      obtain ⟨front, back, hlist, -⟩ := List.lookup_eq_some_iff.mp hcodes
      obtain ⟨hne, hbeyond⟩ :=
        lower_expansions_beyond_capitals (char.toNat, codes) (by simp [hlist])
      refine .inr ⟨by simpa using hne, ?_⟩
      rw [List.forall_mem_map]
      intro code hcode
      obtain ⟨habove, hvalid⟩ := hbeyond code hcode
      rwa [toNat_ofNat (.inl hvalid)]
    · split
      · next run hrun =>
        have hcontains := List.find?_some hrun
        have hrange := lower_runs_beyond_capitals run (List.mem_of_find?_eq_some hrun)
        simp only [CaseRun.contains, Bool.and_eq_true, decide_eq_true_eq] at hcontains
        refine .inr ⟨List.cons_ne_nil _ _, ?_⟩
        rw [List.forall_mem_singleton, toNat_ofNat (by omega)]
        omega
      · refine .inl ⟨rfl, ?_⟩
        rw [← Bool.not_eq_true, isUpper_iff]
        omega

theorem lowerChar_ne_nil (char : Char) : lowerChar char ≠ [] := by
  rcases lowerChar_cases char with ⟨hsame, -⟩ | ⟨hne, -⟩
  · simp [hsame]
  · exact hne

/-- Nothing but a character itself gives one of those up to the capitals. -/
theorem eq_of_mem_lowerChar {char mark : Char} (hmark : mark.toNat ≤ 90)
    (hmem : mark ∈ lowerChar char) : mark = char := by
  rcases lowerChar_cases char with ⟨hsame, -⟩ | ⟨-, hbeyond⟩
  · simpa [hsame] using hmem
  · have hlt := hbeyond mark hmem
    omega

theorem isUpper_of_mem_lowerChar {char lowered : Char} (hmem : lowered ∈ lowerChar char) :
    lowered.isUpper = false := by
  rcases lowerChar_cases char with ⟨hsame, hupper⟩ | ⟨-, hbeyond⟩
  · rw [hsame, List.mem_singleton] at hmem
    rwa [hmem]
  · have hlt := hbeyond lowered hmem
    rw [← Bool.not_eq_true, isUpper_iff]
    omega

/-! ## Words -/

theorem forall_mem_lowerAfter {holds : Char → Prop} (hsigma : holds 'σ' ∧ holds 'ς')
    {passed chars : List Char}
    (hchars : ∀ char ∈ chars, ∀ lowered ∈ lowerChar char, holds lowered) :
    ∀ lowered ∈ lowerAfter passed chars, holds lowered := by
  induction chars generalizing passed with
  | nil => exact fun lowered hmem => absurd hmem List.not_mem_nil
  | cons char rest ih =>
    obtain ⟨hchar, hrest⟩ := List.forall_mem_cons.mp hchars
    rw [lowerAfter, List.forall_mem_append]
    refine ⟨?_, ih hrest⟩
    split
    · split
      · exact List.forall_mem_singleton.mpr hsigma.2
      · exact List.forall_mem_singleton.mpr hsigma.1
    · exact hchar

/-- Words are made of the units of the name. -/
theorem mem_of_mem_splitWords {units word : List Cluster} (hword : word ∈ splitWords units)
    {unit : Cluster} (hunit : unit ∈ word) : unit ∈ units := by
  induction units generalizing word with
  | nil =>
    rw [List.mem_singleton.mp hword] at hunit
    exact hunit
  | cons current rest ih =>
    rw [List.mem_cons]
    rw [splitWords] at hword
    split at hword
    · rcases List.mem_cons.mp hword with rfl | hword
      · cases hunit
      · exact .inr (ih hword hunit)
    · split at hword
      · rcases List.mem_cons.mp hword with rfl | hword
        · exact .inl (List.mem_singleton.mp hunit)
        · exact .inr (ih hword hunit)
      · split at hword
        · rw [List.mem_singleton.mp hword] at hunit
          exact .inl (List.mem_singleton.mp hunit)
        · next first others hsplit =>
          rw [hsplit] at ih
          rcases List.mem_cons.mp hword with rfl | hword
          · rcases List.mem_cons.mp hunit with rfl | hunit
            · exact .inl rfl
            · exact .inr (ih List.mem_cons_self hunit)
          · exact .inr (ih (List.mem_cons_of_mem _ hword) hunit)

theorem forall_mem_intercalate {holds : Char → Prop} {separator : List Char}
    {parts : List (List Char)} (hseparator : ∀ char ∈ separator, holds char)
    (hparts : ∀ part ∈ parts, ∀ char ∈ part, holds char) :
    ∀ char ∈ separator.intercalate parts, holds char := by
  induction parts with
  | nil => simp
  | cons part parts ih =>
    obtain ⟨hpart, hparts⟩ := List.forall_mem_cons.mp hparts
    by_cases hempty : parts = []
    · simpa [hempty] using hpart
    · rw [List.intercalate_cons_of_ne_nil hempty, List.forall_mem_append, List.forall_mem_append]
      exact ⟨⟨hpart, hseparator⟩, ih hparts⟩

/-- What holds of the small forms of the characters of a name, of the two small sigmas and of the
underscore holds of all characters of the name in small words. -/
theorem forall_mem_snake (holds : Char → Prop) (hsigma : holds 'σ' ∧ holds 'ς')
    (hunderscore : holds '_') {name : String}
    (hname : ∀ char ∈ name.toList, ∀ lowered ∈ lowerChar char, holds lowered) :
    ∀ char ∈ (snake name).toList, holds char := by
  rw [snake, String.toList_ofList]
  apply forall_mem_intercalate (List.forall_mem_singleton.mpr hunderscore)
  rw [List.forall_mem_map]
  intro word hword
  apply forall_mem_lowerAfter hsigma
  intro char hchar
  obtain ⟨unit, hunit, hchar⟩ := List.mem_flatten.mp hchar
  apply hname
  rw [← flatten_clusters name.toList, List.mem_flatten]
  exact ⟨unit, mem_of_mem_splitWords hword hunit, hchar⟩

theorem notMem_snake {mark : Char} (hmark : mark.toNat ≤ 90) {name : String}
    (hname : mark ∉ name.toList) : mark ∉ (snake name).toList := by
  have hne : ∀ other : Char, 90 < other.toNat → other ≠ mark := by
    rintro other hother rfl
    omega
  have hall : ∀ char ∈ (snake name).toList, char ≠ mark := by
    apply forall_mem_snake (· ≠ mark) ⟨hne 'σ' (by decide), hne 'ς' (by decide)⟩
      (hne '_' (by decide))
    rintro char hchar lowered hlowered rfl
    exact hname (eq_of_mem_lowerChar hmark hlowered ▸ hchar)
  exact fun hmem => hall mark hmem rfl

theorem isUpper_of_mem_snake {name : String} :
    ∀ char ∈ (snake name).toList, char.isUpper = false :=
  forall_mem_snake (·.isUpper = false) ⟨by decide, by decide⟩ (by decide)
    fun _ _ _ => isUpper_of_mem_lowerChar

/-! ## The first character -/

theorem exists_clusters_cons (char : Char) (rest : List Char) :
    ∃ marks others, clusters (char :: rest) = (char :: marks) :: others := by
  rw [clusters]
  split
  · split <;> exact ⟨_, _, rfl⟩
  · exact ⟨_, _, rfl⟩

/-- A unit that is no separator begins the first word. -/
theorem exists_splitWords_cons {unit : Cluster} (hunit : unit.isSeparator = false)
    (rest : List Cluster) :
    ∃ word others, splitWords (unit :: rest) = (unit :: word) :: others := by
  rw [splitWords, hunit]
  simp only [Bool.false_eq_true, if_false]
  split
  · exact ⟨_, _, rfl⟩
  · split <;> exact ⟨_, _, rfl⟩

theorem head?_lowerAfter_cons (char : Char) (rest : List Char) :
    (lowerAfter [] (char :: rest)).head? = some '/' ↔ char = '/' := by
  rw [lowerAfter]
  by_cases hslash : char = '/'
  · subst hslash
    exact iff_of_true rfl rfl
  · refine iff_of_false ?_ hslash
    split
    · split <;> simp
    · rw [List.head?_append, List.head?_eq_some_head (lowerChar_ne_nil char), Option.some_or]
      intro hhead
      have hmem : '/' ∈ lowerChar char := Option.some.inj hhead ▸ List.head_mem _
      exact hslash (eq_of_mem_lowerChar (by decide) hmem).symm

/-- Words joined by another character begin with a slash if the first word does. -/
theorem head?_intercalate_eq_slash_iff {separator : Char} (hseparator : separator ≠ '/')
    (word : List Char) (words : List (List Char)) :
    ([separator].intercalate (word :: words)).head? = some '/' ↔ word.head? = some '/' := by
  cases words with
  | nil => simp
  | cons next words => cases word <;> simp [hseparator]

/-- Small letters and underscores neither bring in nor remove a slash at the beginning. -/
theorem head?_snake_eq_slash_iff (name : String) :
    (snake name).toList.head? = some '/' ↔ name.toList.head? = some '/' := by
  rw [snake, String.toList_ofList, words]
  cases name.toList with
  | nil => simp [clusters, splitWords, lowerCase, lowerAfter]
  | cons char rest =>
    obtain ⟨marks, others, hclusters⟩ := exists_clusters_cons char rest
    rw [hclusters, List.head?_cons, Option.some.injEq]
    cases hseparator : Cluster.isSeparator (char :: marks) with
    | true =>
      have hchar : char ≠ '/' := by
        rintro rfl
        simp [Cluster.isSeparator] at hseparator
      rw [splitWords, if_pos hseparator, List.map_cons, head?_intercalate_eq_slash_iff (by decide)]
      simp [lowerCase, lowerAfter, hchar]
    | false =>
      obtain ⟨word, words, hwords⟩ := exists_splitWords_cons hseparator others
      rw [hwords, List.map_cons, head?_intercalate_eq_slash_iff (by decide)]
      exact head?_lowerAfter_cons char _

/-! ## Capitals -/

/-- Small letters of ASCII in capitals can be put in small letters again. -/
theorem map_toLower_upperCase {chars : List Char}
    (hchars : ∀ char ∈ chars, char.toNat < 0x80 ∧ char.isUpper = false) :
    (upperCase chars).map Char.toLower = chars := by
  have hall : ∀ code < 0x80, (Char.ofNat code).isUpper = false →
      (Char.ofNat code).toUpper.toLower = Char.ofNat code := by
    decide +kernel
  induction chars with
  | nil => rfl
  | cons char rest ih =>
    obtain ⟨⟨hascii, hsmall⟩, hrest⟩ := List.forall_mem_cons.mp hchars
    have hchar := hall char.toNat hascii
    rw [Char.ofNat_toNat] at hchar
    rw [upperCase, List.flatMap_cons, upperChar, if_pos hascii, List.map_append, ← upperCase,
      ih hrest, List.map_singleton, hchar hsmall, List.singleton_append]

/-- Names in small letters that agree in capitals are the same. -/
theorem eq_of_upper_eq {left right : String}
    (hleft : ∀ char ∈ left.toList, char.toNat < 0x80 ∧ char.isUpper = false)
    (hright : ∀ char ∈ right.toList, char.toNat < 0x80 ∧ char.isUpper = false)
    (hupper : upper left = upper right) : left = right := by
  have hcapitals : upperCase left.toList = upperCase right.toList := by
    simpa only [upper, String.toList_ofList] using congrArg String.toList hupper
  rw [← String.toList_inj, ← map_toLower_upperCase hleft, hcapitals, map_toLower_upperCase hright]

end SchemaLoom.Text
