import SchemaLoom.Proofs.NamedDeclarations
import SchemaLoom.Proofs.Outline

/-!
# Phrases that read well

The parts of generated code are put together by a few combinations.  A part is neat if its braces
are balanced and all paths in it are known ones, and each combination of neat parts is neat.  The
phrases for elements and fields follow one by one.
-/

namespace SchemaLoom

open Code

namespace Code

/-! ## Neat parts -/

/-- The braces of the part are balanced, and it reads well after the left border. -/
structure Neat (known : Code → Prop) (left : Border) (code : Code) (right : Border) : Prop where
  balanced : Balanced code
  reads : Reads known left code right

namespace Neat

variable {known : Code → Prop} {left middle right : Border} {code rest : Code} {token : String}

theorem nil : Neat known left [] left :=
  ⟨.nil, .nil⟩

theorem append (hcode : Neat known left code middle) (hrest : Neat known middle rest right) :
    Neat known left (code ++ rest) right :=
  ⟨hcode.balanced.append hrest.balanced, hcode.reads.append hrest.reads⟩

theorem cons (htoken : Neat known left [token] middle) (hrest : Neat known middle rest right) :
    Neat known left (token :: rest) right :=
  htoken.append hrest

theorem soften (hcode : Neat known left code right) : Neat known left code .soft :=
  ⟨hcode.balanced, hcode.reads.soften⟩

theorem mono {known' : Code → Prop} (hcode : Neat known left code right)
    (hknown : ∀ path, known path → known' path) : Neat known' left code right :=
  ⟨hcode.balanced, hcode.reads.mono hknown⟩

theorem plain (hplain : isPlain token = true) : Neat known left [token] .soft := by
  simp only [isPlain, Bool.and_eq_true, bne_iff_ne] at hplain
  exact ⟨.singleton hplain.1.2 hplain.2, .plain hplain.1.1⟩

theorem hard (hhard : isHard token = true) : Neat known left [token] .hard := by
  simp only [isHard, Bool.and_eq_true, Bool.not_eq_true'] at hhard
  obtain ⟨hplain, hsegment⟩ := hhard
  simp only [isPlain, Bool.and_eq_true, bne_iff_ne] at hplain
  exact ⟨.singleton hplain.1.2 hplain.2, .hard hplain.1.1 hsegment⟩

/-! ### Tokens and texts given as literals -/

section Literals

variable {chars : List Char}

theorem word (hchars : isPlainChars chars = true) : Neat known left [String.ofList chars] .soft :=
  plain ((isPlain_ofList chars).trans hchars)

theorem mark (hchars : (isPlainChars chars && !isSegmentChars chars) = true) :
    Neat known left [String.ofList chars] .hard :=
  hard ((isHard_ofList chars).trans hchars)

/-- A text without paths. -/
theorem words (hchars : (pieces chars).all isPlainChars = true) :
    Neat known left (ofText (String.ofList chars)) .soft := by
  rw [ofText_ofList]
  generalize pieces chars = found at hchars
  induction found generalizing left with
  | nil => exact nil.soften
  | cons piece rest ih =>
    rw [List.all_cons, Bool.and_eq_true] at hchars
    exact (word hchars.1).cons (ih hchars.2)

/-- A text without paths that ends in a mark. -/
theorem marks (hchars : ((pieces chars).all isPlainChars &&
      (pieces chars).getLast?.any (!isSegmentChars ·)) = true) :
    Neat known left (ofText (String.ofList chars)) .hard := by
  obtain ⟨hchars, hlast⟩ := Bool.and_eq_true_iff.mp hchars
  have hwords : Neat known left (ofText (String.ofList chars)) .soft := words hchars
  refine ⟨hwords.balanced, fun before hends => ?_⟩
  obtain ⟨hsoft, hfound⟩ := hwords.reads before hends
  refine ⟨fun token htoken => ⟨hsoft token htoken, ?_⟩, hfound⟩
  obtain ⟨piece, hpiece, hsegment⟩ := (Option.any_eq_true _ _).mp hlast
  rw [ofText_ofList, List.getLast?_append, List.getLast?_map, hpiece] at htoken
  obtain rfl : String.ofList piece = token := by simpa using htoken
  rw [isSegment_ofList]
  simpa using hsegment

end Literals

/-! ### Brackets and lists -/

theorem paren (hcode : Neat known .hard code right) : Neat known left (paren code) .hard :=
  (mark (by decide)).cons (hcode.append (mark (by decide)))

theorem square (hcode : Neat known .hard code right) : Neat known left (square code) .hard :=
  (mark (by decide)).cons (hcode.append (mark (by decide)))

theorem angle (hcode : Neat known .hard code right) : Neat known left (angle code) .hard :=
  (mark (by decide)).cons (hcode.append (mark (by decide)))

theorem marker (hcode : Neat known .hard code right) : Neat known left (marker code) .hard :=
  (mark (by decide)).cons (square hcode)

theorem brace (hcode : Neat known .hard code right) : Neat known left (brace code) .hard := by
  have hopen : isSegment "\x7b" = false := isSegment_ofList ['\x7b']
  have hclose : isSegment "\x7d" = false := isSegment_ofList ['\x7d']
  have hinside : Reads known .hard (code ++ ["\x7d"]) .hard :=
    hcode.reads.append (.hard (by decide) hclose)
  exact ⟨hcode.balanced.brace, Reads.append (.hard (by decide) hopen) hinside⟩

theorem flatMap {α : Type} {items : List α} {text : α → Code}
    (htext : ∀ item ∈ items, Neat known left (text item) left) :
    Neat known left (items.flatMap text) left := by
  induction items with
  | nil => exact nil
  | cons item items ih =>
    rw [List.forall_mem_cons] at htext
    exact htext.1.append (ih htext.2)

theorem flatten {parts : List Code} (hparts : ∀ part ∈ parts, Neat known left part left) :
    Neat known left parts.flatten left := by
  rw [← List.flatMap_id]
  exact flatMap hparts

theorem terminated {parts : List Code} (hparts : ∀ part ∈ parts, Neat known .hard part .soft) :
    Neat known .hard (terminated parts) .hard :=
  flatMap fun part hpart => (hparts part hpart).append (mark (by decide))

theorem separated {separator : String} (hseparator : isHard separator = true) {parts : List Code}
    (hparts : ∀ part ∈ parts, Neat known .hard part .soft) :
    Neat known .hard (separated separator parts) .soft := by
  induction parts with
  | nil => exact nil.soften
  | cons part parts ih =>
    rw [List.forall_mem_cons] at hparts
    cases parts with
    | nil => simpa [Code.separated] using hparts.1
    | cons next parts =>
      have hall : Code.separated separator (part :: next :: parts) =
          part ++ [separator] ++ Code.separated separator (next :: parts) := by
        simp [Code.separated, List.intercalate]
      rw [hall]
      exact (hparts.1.append (hard hseparator)).append (ih hparts.2)

theorem listed {parts : List Code} (hparts : ∀ part ∈ parts, Neat known .hard part .soft) :
    Neat known .hard (listed parts) .soft :=
  separated ((isHard_ofList [',']).trans (by decide)) hparts

/-- A path that leads somewhere known. -/
structure KnownPath (known : Code → Prop) (path : Code) : Prop where
  isPath : IsPath path
  colons : "::" ∈ path
  isKnown : known path

theorem path (hpath : KnownPath known code) : Neat known .hard code .soft :=
  ⟨.of_flat (.path hpath.isPath), .path hpath.isPath hpath.colons hpath.isKnown⟩

end Neat

end Code

/-! ## Paths that lead to no declaration -/

/-- What generated code uses of the supporting library. -/
def supportItems : List String :=
  ["EntityId", "FieldId", "ComponentId", "CommandIndex", "RequestId", "List", "Map", "MapBuf",
    "MAP_KEY_FIELD_ID", "MAP_VALUE_FIELD_ID", "SchemaType", "SchemaObject", "SchemaUpdate",
    "SchemaEq", "SchemaHash", "WireEnum", "Component", "CommandPayload", "CommandTransport",
    "DecodeError"]

/-- What generated code uses of the standard libraries, by the segments. -/
def standardItems : List (List String) :=
  [["core", "clone", "Clone"], ["core", "cmp", "Eq"], ["core", "cmp", "PartialEq"],
    ["core", "convert", "From"], ["core", "convert", "TryFrom"], ["core", "default", "Default"],
    ["core", "hash", "Hash"], ["core", "hash", "Hasher"], ["core", "option", "Option"],
    ["core", "result", "Result"], ["std", "string", "String"], ["std", "vec", "Vec"]]

/-- The paths in the code of a declaration that lead to no declaration: to an item of the standard
or the supporting libraries or a member of it, to a member of a type that is in scope, and to a
member after a type in angle brackets.  Items of the supporting library are also imported. -/
inductive Fixed (runtime : Code) (own : Ident) : Code → Prop where
  | standard {item : List String} (hitem : item ∈ standardItems) (rest : Code) :
      Fixed runtime own (item.flatMap (fun name => ["::", name]) ++ rest)
  | support {name : String} (hname : name ∈ supportItems) (rest : Code) :
      Fixed runtime own (runtime ++ "::" :: name :: rest)
  | imports : Fixed runtime own (runtime ++ ["::"])
  | member {owner : String} (howner : owner ∈ ["Self", "Commands", "U", "clippy"])
      (name : String) : Fixed runtime own [owner, "::", name]
  | ownMember (name : String) : Fixed runtime own [own.text, "::", name]
  | qualified {name : String}
      (hname : name ∈ ["COMPONENT_ID", "from_schema", "from_wire", "try_from"]) :
      Fixed runtime own ["::", name]

/-- The same by the characters, which can be compared without decoding texts. -/
def supportChars : List (List Char) :=
  [['E', 'n', 't', 'i', 't', 'y', 'I', 'd'], ['F', 'i', 'e', 'l', 'd', 'I', 'd'],
    ['C', 'o', 'm', 'p', 'o', 'n', 'e', 'n', 't', 'I', 'd'],
    ['C', 'o', 'm', 'm', 'a', 'n', 'd', 'I', 'n', 'd', 'e', 'x'],
    ['R', 'e', 'q', 'u', 'e', 's', 't', 'I', 'd'], ['L', 'i', 's', 't'], ['M', 'a', 'p'],
    ['M', 'a', 'p', 'B', 'u', 'f'],
    ['M', 'A', 'P', '_', 'K', 'E', 'Y', '_', 'F', 'I', 'E', 'L', 'D', '_', 'I', 'D'],
    ['M', 'A', 'P', '_', 'V', 'A', 'L', 'U', 'E', '_', 'F', 'I', 'E', 'L', 'D', '_', 'I', 'D'],
    ['S', 'c', 'h', 'e', 'm', 'a', 'T', 'y', 'p', 'e'],
    ['S', 'c', 'h', 'e', 'm', 'a', 'O', 'b', 'j', 'e', 'c', 't'],
    ['S', 'c', 'h', 'e', 'm', 'a', 'U', 'p', 'd', 'a', 't', 'e'],
    ['S', 'c', 'h', 'e', 'm', 'a', 'E', 'q'], ['S', 'c', 'h', 'e', 'm', 'a', 'H', 'a', 's', 'h'],
    ['W', 'i', 'r', 'e', 'E', 'n', 'u', 'm'], ['C', 'o', 'm', 'p', 'o', 'n', 'e', 'n', 't'],
    ['C', 'o', 'm', 'm', 'a', 'n', 'd', 'P', 'a', 'y', 'l', 'o', 'a', 'd'],
    ['C', 'o', 'm', 'm', 'a', 'n', 'd', 'T', 'r', 'a', 'n', 's', 'p', 'o', 'r', 't'],
    ['D', 'e', 'c', 'o', 'd', 'e', 'E', 'r', 'r', 'o', 'r']]

theorem map_supportChars : supportChars.map String.ofList = supportItems :=
  rfl

def standardChars : List (List (List Char)) :=
  [[['c', 'o', 'r', 'e'], ['c', 'l', 'o', 'n', 'e'], ['C', 'l', 'o', 'n', 'e']],
    [['c', 'o', 'r', 'e'], ['c', 'm', 'p'], ['E', 'q']],
    [['c', 'o', 'r', 'e'], ['c', 'm', 'p'], ['P', 'a', 'r', 't', 'i', 'a', 'l', 'E', 'q']],
    [['c', 'o', 'r', 'e'], ['c', 'o', 'n', 'v', 'e', 'r', 't'], ['F', 'r', 'o', 'm']],
    [['c', 'o', 'r', 'e'], ['c', 'o', 'n', 'v', 'e', 'r', 't'],
      ['T', 'r', 'y', 'F', 'r', 'o', 'm']],
    [['c', 'o', 'r', 'e'], ['d', 'e', 'f', 'a', 'u', 'l', 't'],
      ['D', 'e', 'f', 'a', 'u', 'l', 't']],
    [['c', 'o', 'r', 'e'], ['h', 'a', 's', 'h'], ['H', 'a', 's', 'h']],
    [['c', 'o', 'r', 'e'], ['h', 'a', 's', 'h'], ['H', 'a', 's', 'h', 'e', 'r']],
    [['c', 'o', 'r', 'e'], ['o', 'p', 't', 'i', 'o', 'n'], ['O', 'p', 't', 'i', 'o', 'n']],
    [['c', 'o', 'r', 'e'], ['r', 'e', 's', 'u', 'l', 't'], ['R', 'e', 's', 'u', 'l', 't']],
    [['s', 't', 'd'], ['s', 't', 'r', 'i', 'n', 'g'], ['S', 't', 'r', 'i', 'n', 'g']],
    [['s', 't', 'd'], ['v', 'e', 'c'], ['V', 'e', 'c']]]

theorem map_standardChars : standardChars.map (·.map String.ofList) = standardItems :=
  rfl

/-- The characters of an item of the standard libraries or a member of it. -/
def isStandardChars (path : List (List Char)) : Bool :=
  standardChars.any fun item => (item.flatMap fun name => [[':', ':'], name]).isPrefixOf path

/-- The characters of a path that leads to no declaration, whatever the supporting library is. -/
def isFixedChars : List (List Char) → Bool
  | first :: second :: rest =>
    isStandardChars (first :: second :: rest) ||
      [['S', 'e', 'l', 'f'], ['C', 'o', 'm', 'm', 'a', 'n', 'd', 's'], ['U'],
        ['c', 'l', 'i', 'p', 'p', 'y']].contains first && second == [':', ':'] &&
          rest.length == 1 ||
      first == [':', ':'] && [['C', 'O', 'M', 'P', 'O', 'N', 'E', 'N', 'T', '_', 'I', 'D'],
        ['f', 'r', 'o', 'm', '_', 's', 'c', 'h', 'e', 'm', 'a'],
        ['f', 'r', 'o', 'm', '_', 'w', 'i', 'r', 'e'],
        ['t', 'r', 'y', '_', 'f', 'r', 'o', 'm']].contains second && rest.isEmpty
  | _ => false

/-- A text without braces in which all paths lead to no declaration. -/
def isFixedText (pieces : List (List Char)) : Bool :=
  pieces.all (fun piece => piece != ['\x7b'] && piece != ['\x7d']) &&
    (pathsOfPieces pieces).all isFixedChars && pieces.getLast?.any (· != [':', ':'])

/-- The characters of names with double colons between them. -/
def isItemChars : List (List Char) → Bool
  | [name] => isSegmentChars name
  | name :: colons :: rest => isSegmentChars name && colons == [':', ':'] && isItemChars rest
  | [] => false

/-- The characters of an item of the supporting library or a member of it. -/
def isSupportChars (path : List (List Char)) : Bool :=
  isItemChars path && path.head?.any supportChars.contains

theorem isPath_append_item {code : Code} (hcode : IsPath code) {names : List (List Char)}
    (hnames : isItemChars names = true) : IsPath (code ++ ["::"] ++ names.map String.ofList) := by
  induction names using isItemChars.induct generalizing code with
  | case1 name =>
    have hname : isSegment (String.ofList name) = true := (isSegment_ofList name).trans hnames
    simpa using hcode.snoc hname
  | case2 name colons rest ih =>
    simp only [isItemChars, Bool.and_eq_true, beq_iff_eq] at hnames
    obtain ⟨⟨hname, rfl⟩, hrest⟩ := hnames
    have hname : isSegment (String.ofList name) = true := (isSegment_ofList name).trans hname
    simpa using ih (hcode.snoc hname) hrest
  | case3 => cases hnames

theorem fixed_of_isStandardChars {runtime : Code} {own : Ident} {path : List (List Char)}
    (hpath : isStandardChars path = true) : Fixed runtime own (path.map String.ofList) := by
  obtain ⟨item, hitem, hstart⟩ := List.any_eq_true.mp hpath
  obtain ⟨rest, rfl⟩ := List.isPrefixOf_iff_prefix.mp hstart
  have hstandard : item.map String.ofList ∈ standardItems := by
    rw [← map_standardChars]
    exact List.mem_map_of_mem hitem
  have hfixed : Fixed runtime own _ := .standard hstandard (rest.map String.ofList)
  rw [List.flatMap_map] at hfixed
  rw [List.map_append, List.map_flatMap]
  exact hfixed

theorem fixed_of_isFixedChars {runtime : Code} {own : Ident} {path : List (List Char)}
    (hpath : isFixedChars path = true) : Fixed runtime own (path.map String.ofList) := by
  match path with
  | [] | [_] => cases hpath
  | first :: second :: rest =>
    simp only [isFixedChars, Bool.or_eq_true, Bool.and_eq_true, beq_iff_eq, List.contains_iff_mem,
      List.isEmpty_iff] at hpath
    rcases hpath with (hstandard | ⟨⟨howner, rfl⟩, hlength⟩) | ⟨⟨rfl, hname⟩, rfl⟩
    · exact fixed_of_isStandardChars hstandard
    · obtain ⟨name, rfl⟩ := List.length_eq_one_iff.mp hlength
      exact .member (List.mem_map_of_mem howner) _
    · exact .qualified (List.mem_map_of_mem hname)

/-- What the code of a declaration may name: the supporting library has a path, and the paths that
lead to no declaration are known. -/
structure Vocabulary (runtime : Code) (own : Ident) (known : Code → Prop) : Prop where
  library : IsPath runtime
  fixed : ∀ path, Fixed runtime own path → known path

namespace Vocabulary

variable {runtime : Code} {own : Ident} {known : Code → Prop}
  (hwords : Vocabulary runtime own known)
include hwords

/-- Tokens in which all paths lead to no declaration. -/
theorem tokens {left : Border} {found : List (List Char)}
    (hleft : left = .hard ∨ found.head? ≠ some [':', ':']) (hfound : isFixedText found = true) :
    Neat known left (found.map String.ofList) .soft := by
  simp only [isFixedText, Bool.and_eq_true, Option.any_eq_true] at hfound
  obtain ⟨⟨hflat, hfixed⟩, last, hlast, hcolons⟩ := hfound
  rw [List.all_eq_true] at hfixed
  rw [bne_iff_ne] at hcolons
  have hne : ∀ {piece other : List Char}, piece ≠ other →
      String.ofList piece ≠ String.ofList other :=
    fun hne heq => hne (String.ofList_inj.mp heq)
  refine ⟨.of_flat (.tokens hflat), fun before hends => ⟨?_, _, paths_append ?_, ?_⟩⟩
  · intro token htoken
    rw [List.getLast?_append, List.getLast?_map, hlast] at htoken
    obtain rfl : String.ofList last = token := by simpa using htoken
    exact hne hcolons
  · intro token htoken next hnext
    rcases hleft with rfl | hfirst
    · exact joined_eq_false (hends token htoken).1 (.inl (hends token htoken).2)
    · refine joined_eq_false (hends.soft token htoken) (.inr ?_)
      rw [List.head?_map] at hnext
      obtain ⟨first, hhead, rfl⟩ := Option.map_eq_some_iff.mp hnext
      exact hne fun heq => hfirst (heq ▸ hhead)
  · rw [paths_map_ofList, List.forall_mem_map]
    exact fun path hpath => hwords.fixed _ (fixed_of_isFixedChars (hfixed path hpath))

section Literals

variable {left : Border} {chars others : List Char}

/-- A text in which all paths lead to no declaration, and that starts with no path. -/
theorem phrase (hstart : (pieces chars).head? ≠ some [':', ':'])
    (hchars : isFixedText (pieces chars) = true) :
    Neat known left (ofText (String.ofList chars)) .soft := by
  rw [ofText_ofList]
  exact hwords.tokens (.inr hstart) hchars

theorem fixed_text (hchars : isFixedText (pieces chars) = true) :
    Neat known .hard (ofText (String.ofList chars)) .soft := by
  rw [ofText_ofList]
  exact hwords.tokens (.inl rfl) hchars

/-- A text and the text of a member after it. -/
theorem fixed_texts (hchars : isFixedText (pieces chars ++ pieces others) = true) :
    Neat known .hard (ofText (String.ofList chars) ++ ofText (String.ofList others)) .soft := by
  rw [ofText_ofList, ofText_ofList, ← List.map_append]
  exact hwords.tokens (.inl rfl) hchars

theorem support {found : List (List Char)} (hfound : isSupportChars found = true) :
    Neat known .hard (runtime ++ ["::"] ++ found.map String.ofList) .soft := by
  obtain ⟨hitem, hfirst⟩ := Bool.and_eq_true_iff.mp hfound
  refine .path ⟨isPath_append_item hwords.library hitem, by simp, hwords.fixed _ ?_⟩
  obtain ⟨name, hhead, hname⟩ := (Option.any_eq_true _ _).mp hfirst
  obtain ⟨rest, rfl⟩ := List.head?_eq_some_iff.mp hhead
  have hsupport : String.ofList name ∈ supportItems := by
    rw [← map_supportChars]
    exact List.mem_map_of_mem (by simpa using hname)
  rw [← List.append_cons]
  exact .support hsupport _

/-- Items of the supporting library in braces. -/
theorem imports {items : Code} {right : Border} (hitems : Neat known .hard items right) :
    Neat known .hard (runtime ++ (["::"] ++ brace items)) .hard := by
  have hcolons : Balanced ["::"] := .singleton (by decide) (by decide)
  have hopen : isSegment "\x7b" = false := isSegment_ofList ['\x7b']
  have hclose : isSegment "\x7d" = false := isSegment_ofList ['\x7d']
  have hstart : Reads known .hard (runtime ++ ["::"] ++ ["\x7b"]) .hard :=
    .open_path hwords.library.isRun_append_colons (by simp) (hwords.fixed _ .imports)
      (by decide) hopen
  have hend : Reads known right ["\x7d"] .hard := .hard (by decide) hclose
  refine ⟨(Balanced.of_flat (.path hwords.library)).append
    (hcolons.append hitems.balanced.brace), ?_⟩
  simpa [brace] using hstart.append (hitems.reads.append hend)

theorem isPath_item (hchars : isItemChars (pieces chars) = true) :
    IsPath (Phrase.item runtime (String.ofList chars)) := by
  rw [Phrase.item, ofText_ofList]
  exact isPath_append_item hwords.library hchars

/-- An item of the supporting library. -/
theorem item (hchars : isSupportChars (pieces chars) = true) :
    Neat known .hard (Phrase.item runtime (String.ofList chars)) .soft := by
  rw [Phrase.item, ofText_ofList]
  exact hwords.support hchars

/-- An item of the supporting library and the text of a member after it. -/
theorem item_member (hchars : isSupportChars (pieces chars ++ pieces others) = true) :
    Neat known .hard
      (Phrase.item runtime (String.ofList chars) ++ ofText (String.ofList others)) .soft := by
  rw [Phrase.item, ofText_ofList, ofText_ofList, List.append_assoc, ← List.map_append]
  exact hwords.support hchars

/-- A type parameter with its bound. -/
theorem bound (hchars : ((pieces chars).all isPlainChars &&
      (pieces chars).getLast?.any (!isSegmentChars ·)) = true)
    (hothers : isSupportChars (pieces others) = true) :
    Neat known left
      (angle (ofText (String.ofList chars) ++ Phrase.item runtime (String.ofList others))) .hard :=
  .angle ((Neat.marks hchars).append (hwords.item hothers))

end Literals

/-! ## Standard items -/

variable {left right right' : Border} {inner value error receiver : Code} {method : String}

theorem optionType (hinner : Neat known .hard inner right) :
    Neat known .hard (Phrase.optionType inner) .hard :=
  (hwords.fixed_text (by decide)).append (.angle hinner)

theorem present (hvalue : Neat known .hard value right) :
    Neat known .hard (Phrase.present value) .hard :=
  (hwords.fixed_text (by decide)).append (.paren hvalue)

theorem absent : Neat known .hard Phrase.absent .soft :=
  hwords.fixed_text (by decide)

theorem resultType (hvalue : Neat known .hard value right)
    (herror : Neat known .hard error right') :
    Neat known .hard (Phrase.resultType value error) .hard :=
  (hwords.fixed_text (by decide)).append
    (.angle ((hvalue.append (.mark (by decide))).append herror))

theorem ok (hvalue : Neat known .hard value right) : Neat known .hard (Phrase.ok value) .hard :=
  (hwords.fixed_text (by decide)).append (.paren hvalue)

theorem err (hvalue : Neat known .hard value right) : Neat known .hard (Phrase.err value) .hard :=
  (hwords.fixed_text (by decide)).append (.paren hvalue)

theorem vecType (hinner : Neat known .hard inner right) :
    Neat known .hard (Phrase.vecType inner) .hard :=
  (hwords.fixed_text (by decide)).append (.angle hinner)

theorem hasher : Neat known .hard Phrase.hasher .soft :=
  hwords.fixed_text (by decide)

theorem cloneSelf : Neat known .hard Phrase.cloneSelf .hard :=
  (hwords.fixed_text (by decide)).append (.paren (.word (by decide)))

theorem defaultValue : Neat known .hard Phrase.defaultValue .hard :=
  (hwords.fixed_text (by decide)).append (.paren .nil)

theorem emptyValue (form : EmptyForm) : Neat known .hard (Phrase.emptyValue form) .soft := by
  cases form with
  | zero => exact hwords.defaultValue.soften
  | absent => exact hwords.absent
  | emptyCollection => exact hwords.defaultValue.soften

omit hwords

theorem call (hreceiver : Neat known left receiver right)
    (hmethod : Neat known .hard [method] .soft) {arguments : List Code}
    (harguments : ∀ argument ∈ arguments, Neat known .hard argument .soft) :
    Neat known left (Phrase.call receiver method arguments) .hard :=
  (hreceiver.append (.cons (.mark (by decide)) hmethod)).append (.paren (.listed harguments))

theorem call_nil (hreceiver : Neat known left receiver right)
    (hmethod : Neat known .hard [method] .soft) :
    Neat known left (Phrase.call receiver method []) .hard :=
  call hreceiver hmethod (by simp)

theorem call_singleton (hreceiver : Neat known left receiver right)
    (hmethod : Neat known .hard [method] .soft) (hvalue : Neat known .hard value .soft) :
    Neat known left (Phrase.call receiver method [value]) .hard :=
  call hreceiver hmethod (List.forall_mem_singleton.mpr hvalue)

theorem call_pair (hreceiver : Neat known left receiver right)
    (hmethod : Neat known .hard [method] .soft) (hinner : Neat known .hard inner .soft)
    (hvalue : Neat known .hard value .soft) :
    Neat known left (Phrase.call receiver method [inner, value]) .hard :=
  call hreceiver hmethod (List.forall_mem_cons.mpr ⟨hinner, List.forall_mem_singleton.mpr hvalue⟩)

theorem mustUse : Neat known left Phrase.mustUse .hard :=
  .marker (.word (by decide))

end Vocabulary

/-! ## Tokens that are not given as literals -/

namespace Code.Neat

variable {known : Code → Prop} {left : Border}

theorem isPlain_literal (text : String) : isPlain (Text.literal text) = true := by
  have hquote : '"' ∈ (Text.literal text).toList := by
    simp [Text.literal, Text.quoted]
  exact isPlain_of_mem hquote (by decide)

theorem literal (text : String) : Neat known left (literal text) .soft :=
  plain (isPlain_literal text)

/-- The text of a number has a digit in it. -/
theorem exists_isDigit_repr (value : Nat) :
    ∃ digit ∈ (Nat.repr value).toList, digit.isDigit = true := by
  obtain ⟨digit, hdigit⟩ := List.exists_mem_of_ne_nil _ (@Nat.toDigits_ne_nil value 10)
  refine ⟨digit, ?_, Nat.isDigit_of_mem_toDigits (by decide) (by decide) hdigit⟩
  rwa [Nat.toList_repr]

theorem number (value : UInt32) : Neat known left (number value) .soft := by
  obtain ⟨digit, hdigit, hisDigit⟩ := exists_isDigit_repr value.toNat
  refine plain (isPlain_of_mem hdigit fun hmem => ?_)
  simp only [List.mem_cons, List.not_mem_nil, or_false] at hmem
  rcases hmem with rfl | rfl | rfl <;> cases hisDigit

theorem ident (ident : Ident) : Neat known left [ident.text] .soft :=
  plain (isPlain_of_isSegment (isSegment_ident ident))

/-- Two words that introduce an identifier. -/
theorem introduced {first second : List Char}
    (hwords : (isPlainChars first && isPlainChars second) = true) (name : Ident) :
    Neat known left [String.ofList first, String.ofList second, name.text] .soft := by
  rw [Bool.and_eq_true] at hwords
  exact (word hwords.1).cons ((word hwords.2).cons (ident name))

/-- Operations of wire objects have an underscore in their names. -/
theorem operation {name : String} (hname : '_' ∈ name.toList) : Neat known left [name] .soft :=
  plain (isPlain_of_mem hname (by decide))

end Code.Neat

/-! ## Elements -/

/-- The type that the element is named after, if any, has a known path. -/
def ElementCode.Known (known : Code → Prop) (code : ElementCode) : Prop :=
  code.element.target?.isSome = true → Neat.KnownPath known code.path

namespace Vocabulary

variable {runtime : Code} {own : Ident} {known : Code → Prop}
  (hwords : Vocabulary runtime own known)
variable {left right : Border} {object id value raw place : Code} {element : ElementCode}
include hwords

theorem scalarType (kind : ScalarKind) :
    Neat known .hard (Phrase.scalarType runtime kind) .soft := by
  cases kind with
  | bytes => exact (hwords.vecType (.word (by decide))).soften
  | entityId => exact hwords.item (by decide)
  | string => exact hwords.fixed_text (by decide)
  | _ => exact .word (by decide)

theorem elementType (helement : element.Known known) :
    Neat known .hard (Phrase.elementType runtime element) .soft := by
  obtain ⟨_ | _ | _, path⟩ := element
  · exact hwords.scalarType _
  · exact .path (helement rfl)
  · exact .path (helement rfl)

theorem parameterType (helement : element.Known known) :
    Neat known .hard (Phrase.parameterType runtime element) .soft := by
  rw [Phrase.parameterType]
  split
  · exact .words (by decide)
  · exact (Neat.cons (.mark (by decide)) (.square (.word (by decide)))).soften
  · next name helementName =>
    exact .cons (.mark (by decide)) (.path (helement (by rw [helementName]; rfl)))
  · exact hwords.elementType helement

theorem fieldType {field : FieldCode}
    (hshape : ∀ element ∈ field.shape.elements, element.Known known) :
    Neat known .hard (Phrase.fieldType runtime field) .soft := by
  have hmap : ∀ {name key value : Code}, Neat known .hard name .soft →
      Neat known .hard key .soft → Neat known .hard value .soft →
        Neat known .hard (name ++ angle (key ++ [","] ++ value)) .soft :=
    fun hname hkey hvalue =>
      (hname.append (.angle ((hkey.append (.mark (by decide))).append hvalue))).soften
  obtain ⟨resolved, ident, idConst, shape, updater, setter⟩ := field
  cases shape with
  | singular element => exact hwords.elementType (hshape element (.head _))
  | option element =>
    exact (hwords.optionType (hwords.elementType (hshape element (.head _)))).soften
  | list element =>
    have helement := hwords.elementType (hshape element (.head _))
    simp only [Phrase.fieldType]
    cases resolved.materialization with
    | persistent => exact ((hwords.item (by decide)).append (.angle helement)).soften
    | growable => exact (hwords.vecType helement).soften
  | map key value =>
    refine hmap ?_ (hwords.elementType (hshape key (.head _)))
      (hwords.elementType (hshape value (.tail _ (.head _))))
    cases resolved.materialization with
    | persistent => exact hwords.item (by decide)
    | growable => exact hwords.item (by decide)

/-! ## Writing -/

theorem writeElement (element : Element) (hobject : Neat known .hard object right)
    (hid : Neat known .hard id .soft) (hvalue : Neat known .hard value .soft) :
    Neat known .hard (Phrase.writeElement runtime element object id value) .hard := by
  have hadd : Neat known .hard [element.wire.addOp] .soft :=
    .operation (by simp [Wire.Kind.addOp])
  have hderef : Neat known .hard ("*" :: value) .soft := .cons (.mark (by decide)) hvalue
  cases element with
  | scalar kind =>
    refine (call_pair hobject hadd hid ?_).append (.mark (by decide))
    split
    · exact hderef
    · exact hvalue
  | enumeration name =>
    have hwire : Neat known .hard
        (Phrase.item runtime "WireEnum :: to_wire" ++ paren ("*" :: value)) .hard :=
      (hwords.item (by decide)).append (.paren hderef)
    exact (call_pair hobject hadd hid hwire.soften).append (.mark (by decide))
  | named name =>
    simp only [Phrase.writeElement, List.append_assoc]
    exact .append (hwords.item (by decide)) <|
      .append (.paren <| .append hvalue <| .append (.mark (by decide)) <|
        call_singleton hobject hadd hid) (.mark (by decide))

theorem writeField (shape : Shape ElementCode) (hobject : Neat known .hard object right)
    (hid : Neat known .hard id .soft) (hplace : Neat known .hard place .soft) :
    Neat known .hard (Phrase.writeField runtime shape object id place) .hard := by
  have hvalue : Neat known .hard ["value"] .soft := .word (by decide)
  have hiter : Neat known .hard (Phrase.call place "iter" []) .hard :=
    call_nil hplace (.word (by decide))
  cases shape with
  | singular code =>
    exact hwords.writeElement _ hobject hid (.cons (.mark (by decide)) hplace)
  | option code =>
    simp only [Phrase.writeField, List.append_assoc]
    exact .append (.marks (by decide)) <| .append (hwords.present hvalue) <|
      .append (.marks (by decide)) <| .append hplace <|
      .brace (hwords.writeElement _ hobject hid hvalue)
  | list code =>
    simp only [Phrase.writeField, List.append_assoc]
    exact .append (.marks (by decide)) <| .append hiter <|
      .brace (hwords.writeElement _ hobject hid hvalue)
  | map key value =>
    simp only [Phrase.writeField, List.append_assoc]
    exact .append (.mark (by decide)) <| .append (.paren (.words (by decide))) <|
      .append (.mark (by decide)) <| .append hiter <| .brace <|
      .append (.marks (by decide)) <| .append (call_singleton hobject (.word (by decide)) hid) <|
      .append (.mark (by decide)) <|
      .append (hwords.writeElement _ (.word (by decide)) (hwords.item (by decide))
        (.word (by decide))) <|
      hwords.writeElement _ (.word (by decide)) (hwords.item (by decide)) hvalue

/-! ## Reading -/

omit hwords in
theorem namedFailure {reading : Code} (hreading : Neat known .hard reading right)
    (fieldName : String) : Neat known .hard (Phrase.namedFailure reading fieldName) .hard := by
  have hnamed : Neat known .hard
      (ofText "| err |" ++ Phrase.call ["err"] "with_field" [literal fieldName]) .hard :=
    .append (.marks (by decide)) <|
      call_singleton (.word (by decide)) (.word (by decide)) (.literal fieldName)
  exact (call_singleton hreading (.word (by decide)) hnamed.soften).append (.mark (by decide))

theorem readRaw (helement : element.Known known) (hraw : Neat known .hard raw .soft)
    (fieldName : String) :
    Neat known .hard (Phrase.readRaw runtime element raw fieldName) .soft := by
  obtain ⟨kind | name | name, path⟩ := element
  · cases kind with
    | string => exact (call_nil hraw (.word (by decide))).soften
    | bytes => exact (call_nil hraw (.word (by decide))).soften
    | _ => exact hraw
  -- Enumerations and types are read alike, through different traits.
  all_goals
    simp only [Phrase.readRaw, List.append_assoc]
    refine (namedFailure (?_ : Neat known .hard _ .hard) fieldName).soften
    exact .append (.angle <| .append (.path (helement rfl)) <| .append (.mark (by decide)) <|
      hwords.item (by decide)) <| .append (hwords.fixed_text (by decide)) (.paren hraw)

theorem readLast (helement : element.Known known) (hobject : Neat known .hard object right)
    (hid : Neat known .hard id .soft) (fieldName : String) :
    Neat known .hard (Phrase.readLast runtime element object id fieldName) .soft := by
  refine hwords.readRaw helement (call_singleton hobject ?_ hid).soften fieldName
  exact .operation (by simp [Wire.Kind.getOp])

theorem readAt (helement : element.Known known) (hobject : Neat known .hard object right)
    (hid : Neat known .hard id .soft) (fieldName : String) :
    Neat known .hard (Phrase.readAt runtime element object id fieldName) .soft := by
  refine hwords.readRaw helement (call_pair hobject ?_ hid (.word (by decide))).soften fieldName
  exact .operation (by simp [Wire.Kind.indexOp])

omit hwords in
theorem callCount (hobject : Neat known left object right) (kind : Wire.Kind)
    (hid : Neat known .hard id .soft) :
    Neat known left (Phrase.call object kind.countOp [id]) .hard :=
  call_singleton hobject (.operation (by simp [Wire.Kind.countOp])) hid

omit hwords in
theorem readCollection {kind : Wire.Kind} {buffer : String} {fresh step final : Code}
    (hobject : Neat known .hard object right) (hid : Neat known .hard id .soft)
    (hbuffer : Neat known .hard [buffer] .soft)
    (hfresh : Neat known .hard (fresh ++ ofText ":: with_capacity") .soft)
    (hstep : Neat known .hard step .hard) (hfinal : Neat known .hard final .soft) :
    Neat known .hard (Phrase.readCollection object id kind buffer fresh step final) .hard := by
  have hdeclare : Neat known .hard ["let", "mut", buffer, "="] .hard :=
    .cons (.mark (by decide)) (.cons (.mark (by decide)) (.cons hbuffer (.mark (by decide))))
  simp only [Phrase.readCollection, List.append_assoc]
  rw [← List.append_assoc fresh]
  exact .brace <| .append (.marks (by decide)) <| .append (callCount hobject kind hid) <|
    .append (.mark (by decide)) <| .append hdeclare <| .append hfresh <|
    .append (.paren (.words (by decide))) <| .append (.mark (by decide)) <|
    .append (.words (by decide)) <| .append (.brace hstep) hfinal

theorem readField {field : FieldCode}
    (hshape : ∀ element ∈ field.shape.elements, element.Known known)
    (hobject : Neat known .hard object .soft) (hid : Neat known .hard id .soft) :
    Neat known .hard (Phrase.readField runtime field object id) .soft := by
  obtain ⟨resolved, ident, idConst, shape, updater, setter⟩ := field
  cases shape with
  | singular element => exact hwords.readLast (hshape element (.head _)) hobject hid _
  | option element =>
    have helement := hwords.readLast (hshape element (.head _)) hobject hid resolved.name
    simp only [Phrase.readField, List.append_assoc]
    exact .soften <| .append (.mark (by decide)) <| .append (callCount hobject _ hid) <|
      .append (.words (by decide)) <| .append (.brace (hwords.present helement)) <|
      .append (.word (by decide)) (.brace hwords.absent)
  | list element =>
    have helement := hwords.readAt (hshape element (.head _)) hobject hid resolved.name
    have hpush : Neat known .hard (Phrase.call ["items"] "push"
        [Phrase.readAt runtime element object id resolved.name] ++ [";"]) .hard :=
      .append (call_singleton (.word (by decide)) (.word (by decide)) helement) (.mark (by decide))
    have hfinal : Neat known .hard (if resolved.materialization == .growable then ["items"]
        else Phrase.item runtime "List :: from" ++ paren ["items"]) .soft := by
      split
      · exact .word (by decide)
      · exact ((hwords.item (by decide)).append (.paren (.word (by decide)))).soften
    exact (readCollection hobject hid (.word (by decide)) (hwords.fixed_texts (by decide))
      hpush hfinal).soften
  | map key value =>
    have hkey : Neat known .hard (Phrase.readLast runtime key ["pair"]
        (Phrase.item runtime "MAP_KEY_FIELD_ID") resolved.name) .soft :=
      hwords.readLast (hshape key (.head _)) (.word (by decide)) (hwords.item (by decide)) _
    have hvalue : Neat known .hard (Phrase.readLast runtime value ["pair"]
        (Phrase.item runtime "MAP_VALUE_FIELD_ID") resolved.name) .soft :=
      hwords.readLast (hshape value (.tail _ (.head _))) (.word (by decide))
        (hwords.item (by decide)) _
    have hfinal : Neat known .hard (if resolved.materialization == .growable then ["entries"]
        else Phrase.call ["entries"] "freeze" []) .soft := by
      split
      · exact .word (by decide)
      · exact (call_nil (.word (by decide)) (.word (by decide))).soften
    simp only [Phrase.readField, List.append_assoc]
    refine (readCollection hobject hid (.word (by decide)) (hwords.item_member (by decide)) ?_
      hfinal).soften
    exact .append (.marks (by decide)) <|
      .append (call_pair hobject (.word (by decide)) hid (.word (by decide))) <|
      .append (.mark (by decide)) <|
      .append (call_pair (.word (by decide)) (.word (by decide)) hkey hvalue) (.mark (by decide))

end Vocabulary

end SchemaLoom
