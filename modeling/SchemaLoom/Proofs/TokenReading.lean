import Mathlib.Data.List.SplitBy
import Mathlib.Data.List.TakeDrop
import SchemaLoom.Code.CodePath

/-!
# Reading tokens

Code is a flat sequence of tokens, and its paths are read back from the tokens alone: they are runs
of names with double colons between them.  A text that is put together from parts is read part by
part if no path goes on over a border.  What a path given as text becomes is read as one path.
-/

namespace SchemaLoom

namespace Code

/-! ## Segments of paths -/

/-- Keywords that are no segments of paths. -/
def leads : List String :=
  ["as", "for", "if", "impl", "in", "let", "mut", "pub", "return", "use"]

/-- Whether a word may start with the character. -/
def startsWord (char : Char) : Bool :=
  Ident.isStartChar char || 0x80 ≤ char.toNat

/-- Whether a token may be a segment of a path. -/
def isSegment (token : String) : Bool :=
  token.toList.head?.any startsWord && !leads.contains token

/-- Whether two neighbouring tokens belong to one path. -/
def joined (left right : String) : Bool :=
  (left == "::" && isSegment right) || (isSegment left && right == "::")

/-- The paths in code, as long as they can be; a lone name is none. -/
def paths (code : Code) : List Code :=
  (code.splitBy joined).filter (·.contains "::")

/-- Neither a double colon nor a brace. -/
def isPlain (token : String) : Bool :=
  token != "::" && token != "\x7b" && token != "\x7d"

/-- A plain token that is no segment either, such as a keyword or a comma. -/
def isHard (token : String) : Bool :=
  isPlain token && !isSegment token

section Literals

/-! Tokens that are given as literals are checked by their characters. -/

def leadChars : List (List Char) :=
  [['a', 's'], ['f', 'o', 'r'], ['i', 'f'], ['i', 'm', 'p', 'l'], ['i', 'n'], ['l', 'e', 't'],
    ['m', 'u', 't'], ['p', 'u', 'b'], ['r', 'e', 't', 'u', 'r', 'n'], ['u', 's', 'e']]

def isSegmentChars (chars : List Char) : Bool :=
  chars.head?.any startsWord && !leadChars.contains chars

def joinedChars (left right : List Char) : Bool :=
  (left == [':', ':'] && isSegmentChars right) || (isSegmentChars left && right == [':', ':'])

def pathsOfPieces (pieces : List (List Char)) : List (List (List Char)) :=
  (pieces.splitBy joinedChars).filter (·.contains [':', ':'])

def isPlainChars (chars : List Char) : Bool :=
  chars != [':', ':'] && chars != ['\x7b'] && chars != ['\x7d']

variable (chars : List Char)

theorem contains_map_ofList (table : List (List Char)) :
    (table.map String.ofList).contains (String.ofList chars) = table.contains chars := by
  rw [Bool.eq_iff_iff]
  simp [String.ofList_inj]

theorem ofList_beq (other : List Char) :
    (String.ofList chars == String.ofList other) = (chars == other) := by
  rw [Bool.eq_iff_iff]
  simp [String.ofList_inj]

theorem isSegment_ofList : isSegment (String.ofList chars) = isSegmentChars chars := by
  rw [isSegment, isSegmentChars, String.toList_ofList, ← contains_map_ofList chars leadChars]
  rfl

theorem isPlain_ofList : isPlain (String.ofList chars) = isPlainChars chars := by
  simp only [isPlainChars, bne, ← ofList_beq]
  rfl

theorem isHard_ofList :
    isHard (String.ofList chars) = (isPlainChars chars && !isSegmentChars chars) := by
  rw [isHard, isPlain_ofList, isSegment_ofList]

theorem ofText_ofList : ofText (String.ofList chars) = (pieces chars).map String.ofList := by
  rw [ofText, String.toList_ofList]

/-- Splitting after a change of the items is splitting by the changed relation. -/
theorem splitBy_map {α β : Type} (change : α → β) (joins : β → β → Bool) (items : List α) :
    (items.map change).splitBy joins =
      (items.splitBy fun left right => joins (change left) (change right)).map
        (List.map change) := by
  rw [List.splitBy_eq_iff]
  refine ⟨?_, ?_, ?_, ?_⟩
  · rw [← List.map_flatten, List.flatten_splitBy]
  · simp [List.nil_notMem_splitBy]
  · rw [List.forall_mem_map]
    intro run hrun
    rw [List.isChain_map]
    exact List.isChain_of_mem_splitBy hrun
  · rw [List.isChain_map]
    refine (List.isChain_getLast_head_splitBy _ items).imp ?_
    rintro left right ⟨hleft, hright, hapart⟩
    exact ⟨by simpa using hleft, by simpa using hright, by simpa using hapart⟩

theorem paths_map_ofList (tokens : List (List Char)) :
    paths (tokens.map String.ofList) = (pathsOfPieces tokens).map (List.map String.ofList) := by
  have hjoined : (fun left right => joined (String.ofList left) (String.ofList right)) =
      joinedChars := by
    funext left right
    rw [joined, joinedChars, isSegment_ofList, isSegment_ofList, ← ofList_beq, ← ofList_beq]
  rw [paths, splitBy_map, hjoined, pathsOfPieces, List.filter_map]
  congr 2
  funext run
  exact contains_map_ofList [':', ':'] run

end Literals

/-! ## Paths over a border -/

theorem isSegment_colons : isSegment "::" = false :=
  isSegment_ofList [':', ':']

theorem joined_eq_false {left right : String} (hcolons : left ≠ "::")
    (hsegment : isSegment left = false ∨ right ≠ "::") : joined left right = false := by
  rcases hsegment with hsegment | hright
  · simp [joined, hcolons, hsegment]
  · simp [joined, hcolons, hright]

theorem paths_append {left right : Code}
    (hborder : ∀ token ∈ left.getLast?, ∀ next ∈ right.head?, joined token next = false) :
    (left ++ right).paths = left.paths ++ right.paths := by
  rw [paths, List.splitBy_append hborder, List.filter_append]
  rfl

theorem paths_singleton {token : String} (hcolons : token ≠ "::") : paths [token] = [] := by
  have hsplit : List.splitBy joined [token] = [[token]] := rfl
  simp [paths, hsplit, hcolons.symm]

/-- Names and double colons in turn. -/
def IsRun (code : Code) : Prop :=
  code.IsChain fun left right => joined left right = true

/-- A path from a name, or from leading double colons, to a name. -/
structure IsPath (code : Code) : Prop where
  run : IsRun code
  last : ∃ token, code.getLast? = some token ∧ isSegment token = true

theorem paths_of_isRun {code : Code} (hrun : IsRun code) (hcolons : "::" ∈ code) :
    code.paths = [code] := by
  have hne : code ≠ [] := List.ne_nil_of_mem hcolons
  simp [paths, List.splitBy_of_isChain hne hrun, hcolons]

namespace IsPath

theorem singleton {token : String} (hsegment : isSegment token = true) : IsPath [token] :=
  ⟨List.isChain_singleton _, token, rfl, hsegment⟩

/-- A path goes on with double colons and another segment. -/
theorem snoc {code : Code} (hpath : IsPath code) {token : String}
    (hsegment : isSegment token = true) : IsPath (code ++ ["::", token]) := by
  obtain ⟨last, hlast, hlastSegment⟩ := hpath.last
  refine ⟨?_, token, by simp, hsegment⟩
  rw [IsRun, List.isChain_append]
  refine ⟨hpath.run, ?_, ?_⟩
  · simp [joined, hsegment]
  · simp [hlast, joined, hlastSegment]

theorem isRun_append_colons {code : Code} (hpath : IsPath code) : IsRun (code ++ ["::"]) := by
  obtain ⟨last, hlast, hsegment⟩ := hpath.last
  rw [IsRun, List.isChain_append]
  exact ⟨hpath.run, List.isChain_singleton _, by simp [hlast, joined, hsegment]⟩

theorem append_segments {code : Code} (hpath : IsPath code) {segments : List String}
    (hsegments : ∀ segment ∈ segments, isSegment segment = true) :
    IsPath (code ++ segments.flatMap (["::", ·])) := by
  induction segments generalizing code with
  | nil => simpa using hpath
  | cons segment rest ih =>
    rw [List.forall_mem_cons] at hsegments
    rw [List.flatMap_cons, ← List.append_assoc]
    exact ih (hpath.snoc hsegments.1) hsegments.2

/-- A path with leading double colons. -/
theorem leading {segments : List String} (hne : segments ≠ [])
    (hsegments : ∀ segment ∈ segments, isSegment segment = true) :
    IsPath (segments.flatMap (["::", ·])) := by
  obtain ⟨first, rest, rfl⟩ := List.exists_cons_of_ne_nil hne
  rw [List.forall_mem_cons] at hsegments
  have hfirst : IsPath ["::", first] :=
    ⟨by simp [IsRun, joined, hsegments.1], first, rfl, hsegments.1⟩
  exact hfirst.append_segments hsegments.2

/-- The tokens of a path are double colons and segments. -/
theorem cases_of_mem {code : Code} (hpath : IsPath code) :
    ∀ token ∈ code, token = "::" ∨ isSegment token = true := by
  obtain ⟨hrun, last, hlast, hsegment⟩ := hpath
  induction code with
  | nil => simp
  | cons first rest ih =>
    cases rest with
    | nil =>
      obtain rfl : first = last := by simpa using hlast
      simp [hsegment]
    | cons next rest =>
      obtain ⟨hjoined, hrun⟩ := List.isChain_cons_cons.mp hrun
      rw [List.forall_mem_cons]
      refine ⟨?_, ih hrun (by simpa using hlast)⟩
      simp only [joined, Bool.or_eq_true, Bool.and_eq_true, beq_iff_eq] at hjoined
      exact hjoined.imp And.left And.left

end IsPath

/-- What the text before a part ends in: soft borders may end in a segment, hard ones do not. -/
inductive Border where
  | hard
  | soft

/-- No path of the code goes on after its border unless it goes on from a segment. -/
def Ends : Border → Code → Prop
  | .hard, code => ∀ token ∈ code.getLast?, token ≠ "::" ∧ isSegment token = false
  | .soft, code => ∀ token ∈ code.getLast?, token ≠ "::"

theorem Ends.soft {border : Border} {code : Code} (hends : Ends border code) : Ends .soft code := by
  cases border with
  | hard => exact fun token htoken => (hends token htoken).1
  | soft => exact hends

/-- After any text with the left border, the paths that the code adds are known ones, and the text
has the right border then. -/
def Reads (known : Code → Prop) (left : Border) (code : Code) (right : Border) : Prop :=
  ∀ before, Ends left before → Ends right (before ++ code) ∧
    ∃ found, (before ++ code).paths = before.paths ++ found ∧ ∀ path ∈ found, known path

namespace Reads

variable {known : Code → Prop} {left middle right : Border} {code rest : Code} {token : String}

theorem nil : Reads known left [] left := by
  intro before hends
  rw [List.append_nil]
  exact ⟨hends, [], by simp, by simp⟩

theorem append (hcode : Reads known left code middle) (hrest : Reads known middle rest right) :
    Reads known left (code ++ rest) right := by
  intro before hends
  obtain ⟨hmiddle, found, hfound, hknown⟩ := hcode before hends
  obtain ⟨hright, found', hfound', hknown'⟩ := hrest (before ++ code) hmiddle
  rw [← List.append_assoc]
  refine ⟨hright, found ++ found', ?_, List.forall_mem_append.mpr ⟨hknown, hknown'⟩⟩
  rw [hfound', hfound, List.append_assoc]

theorem soften (hcode : Reads known left code right) : Reads known left code .soft := by
  intro before hends
  obtain ⟨hright, hfound⟩ := hcode before hends
  exact ⟨hright.soft, hfound⟩

/-- More paths may be known. -/
theorem mono {known' : Code → Prop} (hcode : Reads known left code right)
    (hknown : ∀ path, known path → known' path) : Reads known' left code right := by
  intro before hends
  obtain ⟨hright, found, hfound, hall⟩ := hcode before hends
  exact ⟨hright, found, hfound, fun path hpath => hknown path (hall path hpath)⟩

/-- Any token but double colons can follow any border. -/
theorem plain (hcolons : token ≠ "::") : Reads known left [token] .soft := by
  intro before hends
  refine ⟨by simpa [Ends] using hcolons, [], ?_, by simp⟩
  rw [paths_append, paths_singleton hcolons]
  intro last hlast next hnext
  obtain rfl : token = next := by simpa using hnext
  exact joined_eq_false (hends.soft last hlast) (.inr hcolons)

theorem hard (hcolons : token ≠ "::") (hsegment : isSegment token = false) :
    Reads known left [token] .hard := by
  intro before hends
  exact ⟨by simpa [Ends] using ⟨hcolons, hsegment⟩, (plain hcolons before hends).2⟩

/-- After a hard border, a run of names and double colons is read as one path. -/
theorem paths_eq {before run : Code} (hends : Ends .hard before) (hrun : IsRun run)
    (hcolons : "::" ∈ run) : (before ++ run).paths = before.paths ++ [run] := by
  rw [paths_append, paths_of_isRun hrun hcolons]
  intro last hlast next _
  exact joined_eq_false (hends last hlast).1 (.inl (hends last hlast).2)

theorem path (hpath : IsPath code) (hcolons : "::" ∈ code) (hknown : known code) :
    Reads known .hard code .soft := by
  intro before hends
  refine ⟨?_, [code], paths_eq hends hpath.run hcolons, by simpa using hknown⟩
  obtain ⟨last, hlast, hsegment⟩ := hpath.last
  intro token htoken
  rw [List.getLast?_append, hlast] at htoken
  obtain rfl : last = token := by simpa using htoken
  rintro rfl
  simp [isSegment_colons] at hsegment

/-- A path that ends in double colons needs a token after it that is no segment. -/
theorem open_path (hrun : IsRun code) (hcolons : "::" ∈ code) (hknown : known code)
    (hnext : token ≠ "::") (hsegment : isSegment token = false) :
    Reads known .hard (code ++ [token]) .hard := by
  intro before hends
  rw [← List.append_assoc]
  refine ⟨by simpa [Ends] using ⟨hnext, hsegment⟩, [code], ?_, by simpa using hknown⟩
  rw [paths_append, paths_singleton hnext, List.append_nil, paths_eq hends hrun hcolons]
  intro last _ next hnext'
  obtain rfl : token = next := by simpa using hnext'
  simp [joined, hsegment, hnext]

/-- In a text that reads well all paths are known. -/
theorem known_of_mem_paths (hcode : Reads known .hard code right) :
    ∀ path ∈ code.paths, known path := by
  obtain ⟨-, found, hfound, hknown⟩ := hcode [] (by simp [Ends])
  rw [List.nil_append] at hfound
  rw [hfound]
  simpa [paths] using hknown

end Reads

/-! ## Identifiers -/

theorem isPlain_of_mem {token : String} {char : Char} (hmem : char ∈ token.toList)
    (hchar : char ∉ [':', '\x7b', '\x7d']) : isPlain token = true := by
  simp only [isPlain, Bool.and_eq_true, bne_iff_ne]
  refine ⟨⟨?_, ?_⟩, ?_⟩ <;> rintro rfl <;> simp_all

theorem isPlain_of_isSegment {token : String} (hsegment : isSegment token = true) :
    isPlain token = true := by
  simp only [isPlain, Bool.and_eq_true, bne_iff_ne]
  refine ⟨⟨?_, ?_⟩, ?_⟩ <;> rintro rfl
  · cases (isSegment_ofList [':', ':']).symm.trans hsegment
  · cases (isSegment_ofList ['\x7b']).symm.trans hsegment
  · cases (isSegment_ofList ['\x7d']).symm.trans hsegment

theorem isSegment_ident (ident : Ident) : isSegment ident.text = true := by
  obtain ⟨text, name, hvalid, -, rfl⟩ := ident
  have hleads : ∀ lead ∈ leads, Ident.isKeyword lead = true ∧ '#' ∉ lead.toList := by
    decide +kernel
  have hword : ∀ {word : String}, word.toList.head?.any startsWord = true → word ∉ leads →
      isSegment word = true := by
    intro word hstart hlead
    simp [isSegment, hstart, hlead]
  simp only [Ident.written]
  split
  · refine hword (by simp; decide) fun hlead => (hleads _ hlead).2 ?_
    simp
  · next hkeyword =>
    refine hword ?_ fun hlead => hkeyword (hleads _ hlead).1
    rw [Ident.isValid] at hvalid
    split at hvalid
    · cases hvalid
    · next first rest hchars =>
      simp only [Bool.and_eq_true] at hvalid
      simp [hchars, startsWord, hvalid.1.1]

end Code

/-! ## Paths given as text -/

namespace CodePath

open Code

theorem startsWord_of_isWordStart {char : Char} (hchar : Text.isWordStart char = true) :
    startsWord char = true := by
  have hranges : ∀ range ∈ Text.wordStartRanges,
      range = (65, 90) ∨ range = (97, 122) ∨ 0x80 ≤ range.1 := by
    decide +kernel
  have hstart : Ident.isStartChar char =
      ((decide (65 ≤ char.val ∧ char.val ≤ 90) ||
        decide (97 ≤ char.val) && decide (char.val ≤ 122)) || decide (char = '_')) := rfl
  simp only [startsWord, hstart, Bool.or_eq_true, Bool.and_eq_true, decide_eq_true_eq,
    UInt32.le_iff_toNat_le]
  simp only [Text.isWordStart, Bool.or_eq_true, decide_eq_true_eq, Text.within_iff] at hchar
  rcases hchar with rfl | ⟨range, hrange, hlow, hhigh⟩
  · exact .inl (.inr rfl)
  · rcases hranges range hrange with rfl | rfl | hwide
    · exact .inl (.inl (.inl ⟨hlow, hhigh⟩))
    · exact .inl (.inl (.inr ⟨hlow, hhigh⟩))
    · exact .inr (hwide.trans hlow)

/-- A word of a text starts like a word. -/
theorem startsWord_of_wordPart? {raw : Bool} {chars : List Char}
    (hstart : chars.head?.any Text.isWordStart = true) {text : String}
    (hpart : wordPart? raw chars = some (.word text)) :
    text.toList.head?.any startsWord = true := by
  rw [wordPart?] at hpart
  split at hpart
  · cases hpart
  · split at hpart
    · cases hpart
      obtain ⟨first, hfirst, hstart⟩ := (Option.any_eq_true _ _).mp hstart
      simp [hfirst, startsWord_of_isWordStart hstart]
    · split at hpart
      · cases hpart
      · cases hpart
        simp
        decide

theorem startsWord_of_word? {chars rest : List Char} {text : String}
    (hword : word? chars = some (.word text, rest)) : text.toList.head?.any startsWord = true := by
  rw [word?] at hword
  generalize rawMark chars = marked at hword
  obtain ⟨raw, chars⟩ := marked
  simp only [List.span_eq_takeWhile_dropWhile] at hword
  split at hword
  · next hstart =>
    obtain ⟨part, hpart, heq⟩ := Option.map_eq_some_iff.mp hword
    cases heq
    refine startsWord_of_wordPart? ?_ hpart
    -- Where a word starts, its first character is a part of it.
    cases chars with
    | nil => cases hstart
    | cons first others =>
      have hfirst : Text.isWordStart first = true := by simpa using hstart
      simp [Text.isWordPart, hfirst]
  · cases hword

/-- The words among the parts of a text start like words. -/
theorem startsWord_of_parts? {fuel : Nat} {chars : List Char} {parts : List Part}
    (hparts : parts? fuel chars = some parts) :
    ∀ text, .word text ∈ parts → text.toList.head?.any startsWord = true := by
  fun_induction parts? fuel chars generalizing parts with
  | case1 =>
    cases hparts
    simp
  | case2 => cases hparts
  | case3 fuel char rest hspace ih => exact ih hparts
  | case4 fuel rest hspace ih =>
    obtain ⟨inner, hinner, rfl⟩ := Option.map_eq_some_iff.mp hparts
    simpa using ih hinner
  | case5 fuel rest hspace ih =>
    obtain ⟨after, -, hafter⟩ := Option.bind_eq_some_iff.mp hparts
    exact ih after hafter
  | case6 fuel char rest hspace hslash hcolons ih =>
    obtain ⟨⟨part, after⟩, hword, hafter⟩ := Option.bind_eq_some_iff.mp hparts
    obtain ⟨inner, hinner, rfl⟩ := Option.map_eq_some_iff.mp hafter
    intro text htext
    rcases List.mem_cons.mp htext with rfl | htext
    · exact startsWord_of_word? hword
    · exact ih after hinner text htext

/-- The words that segments are made of may be segments of a path. -/
theorem isSegment_of_segments? {parts : List Part} {segments : List String}
    (hsegments : segments? parts = some segments)
    (hwords : ∀ text, .word text ∈ parts → text.toList.head?.any startsWord = true) :
    segments ≠ [] ∧ ∀ segment ∈ segments, Code.isSegment segment = true := by
  have hleads : ∀ lead ∈ leads, isSegment lead = false := by decide +kernel
  have hword : ∀ {word : String}, word.toList.head?.any startsWord = true →
      isSegment word = true → Code.isSegment word = true := by
    intro word hstart hsegment
    have hlead : word ∉ leads := fun hlead => by
      rw [hleads word hlead] at hsegment
      cases hsegment
    simp [Code.isSegment, hstart, hlead]
  fun_induction segments? parts generalizing segments with
  | case1 text hsegment =>
    cases hsegments
    simpa using hword (hwords text (by simp)) hsegment
  | case2 => cases hsegments
  | case3 text rest hsegment ih =>
    obtain ⟨others, hothers, rfl⟩ := Option.map_eq_some_iff.mp hsegments
    have hrest := (ih hothers fun other hother => hwords other (by simp [hother])).2
    simpa using ⟨hword (hwords text (by simp)) hsegment, hrest⟩
  | case4 => cases hsegments
  | case5 => cases hsegments

theorem separated_segments (first : String) (rest : List String) :
    Code.separated "::" ([first] :: rest.map ([·])) = first :: rest.flatMap (["::", ·]) := by
  induction rest generalizing first with
  | nil => rfl
  | cons next rest ih =>
    rw [List.map_cons, Code.separated, List.intercalate_cons_cons, ← Code.separated, ih]
    rfl

/-- The code of a path that a text gives is a path. -/
theorem isPath_code {text : String} {path : CodePath} (hpath : parse text = .ok path) :
    IsPath path.code := by
  rw [parse] at hpath
  split at hpath
  · next found hfound =>
    cases hpath
    obtain ⟨parts, hparts, hof⟩ := Option.bind_eq_some_iff.mp hfound
    have hwords := startsWord_of_parts? hparts
    -- Either the first part is the leading double colons, or all parts are of the segments.
    have hsegments : ∃ parts', (∀ part ∈ parts', part ∈ parts) ∧ ∃ segments,
        segments? parts' = some segments ∧ ∃ leading, path = ⟨leading, segments⟩ := by
      revert hof
      fun_cases ofParts? parts with
      | case1 rest =>
        intro hof
        obtain ⟨segments, hsegments, rfl⟩ := Option.map_eq_some_iff.mp hof
        exact ⟨rest, fun part hpart => List.mem_cons_of_mem _ hpart, segments, hsegments, true, rfl⟩
      | case2 =>
        intro hof
        obtain ⟨segments, hsegments, rfl⟩ := Option.map_eq_some_iff.mp hof
        exact ⟨parts, fun part hpart => hpart, segments, hsegments, false, rfl⟩
    obtain ⟨parts', hsubset, segments, hsegments, leading, rfl⟩ := hsegments
    obtain ⟨hne, hall⟩ := isSegment_of_segments? hsegments fun word hword =>
      hwords word (hsubset _ hword)
    obtain ⟨first, others, rfl⟩ := List.exists_cons_of_ne_nil hne
    cases leading with
    | true => simpa [code, separated_segments] using IsPath.leading hne hall
    | false =>
      rw [List.forall_mem_cons] at hall
      simpa [code, separated_segments] using (IsPath.singleton hall.1).append_segments hall.2
  · cases hpath

end CodePath

end SchemaLoom
