import SchemaLoom.Proofs.DottedNames
import SchemaLoom.Storage.Path

/-!
# The components of paths

Paths are put together as texts and understood by their components.  A path that starts neither at
the root nor with a dot adds its components when it is joined to another one, so a path made of
plain names has these names as its components.
-/

namespace SchemaLoom.Storage

/-! ## Pieces between slashes -/

theorem slashPieces_eq_splitOn (chars : List Char) : slashPieces chars = chars.splitOn '/' := by
  induction chars with
  | nil => rfl
  | cons char rest ih =>
    rw [slashPieces, ih, List.splitOn_cons_eq_if_modifyHead]
    cases hpieces : rest.splitOn '/' with
    | nil => exact absurd hpieces (List.splitOn_ne_nil _ _)
    | cons piece pieces => simp

theorem slashPieces_append (left right : List Char) :
    slashPieces (left ++ '/' :: right) = slashPieces left ++ slashPieces right := by
  simp only [slashPieces_eq_splitOn, List.splitOn_append_cons_self]

theorem slashPieces_ne_nil (chars : List Char) : slashPieces chars ≠ [] := by
  rw [slashPieces_eq_splitOn]
  exact List.splitOn_ne_nil _ _

theorem slashPieces_of_notMem {chars : List Char} (hslash : '/' ∉ chars) :
    slashPieces chars = [chars] := by
  rw [slashPieces_eq_splitOn, List.splitOn_eq_singleton hslash]

theorem notMem_of_mem_slashPieces {chars piece : List Char} (hpiece : piece ∈ slashPieces chars) :
    '/' ∉ piece := by
  rw [slashPieces_eq_splitOn] at hpiece
  exact notMem_of_mem_splitOn hpiece

theorem exists_slashPiece_of_mem {chars : List Char} {char : Char} (hmem : char ∈ chars)
    (hslash : char ≠ '/') : ∃ piece ∈ slashPieces chars, char ∈ piece := by
  induction chars with
  | nil => cases hmem
  | cons first rest ih =>
    rw [slashPieces]
    split
    · next hfirst =>
      rcases List.mem_cons.mp hmem with rfl | hmem
      · exact absurd hfirst hslash
      · obtain ⟨piece, hpiece, hchar⟩ := ih hmem
        exact ⟨piece, List.mem_cons_of_mem _ hpiece, hchar⟩
    · split
      · next hnil => exact absurd hnil (slashPieces_ne_nil rest)
      · next piece pieces hpieces =>
        rw [hpieces] at ih
        rcases List.mem_cons.mp hmem with rfl | hmem
        · exact ⟨_, List.mem_cons_self, List.mem_cons_self⟩
        · obtain ⟨found, hfound, hchar⟩ := ih hmem
          rcases List.mem_cons.mp hfound with rfl | hfound
          · exact ⟨_, List.mem_cons_self, List.mem_cons_of_mem _ hchar⟩
          · exact ⟨found, List.mem_cons_of_mem _ hfound, hchar⟩

theorem head?_slashPieces_append (left : List Char) (pieces : List (List Char)) :
    (slashPieces left ++ pieces).head? = (slashPieces left).head? := by
  rw [slashPieces_eq_splitOn]
  cases hpieces : left.splitOn '/' with
  | nil => exact absurd hpieces (List.splitOn_ne_nil _ _)
  | cons piece pieces => rfl

namespace Path

/-! ## Joining -/

/-- Whether a path starts neither at the root nor with a dot. -/
def isInner (path : Path) : Bool :=
  !path.isAbsolute && (slashPieces path.text.toList).head? != some ['.']

theorem components_of_isInner {path : Path} (hinner : path.isInner = true) :
    path.components = (slashPieces path.text.toList).filterMap component? := by
  simp only [isInner, Bool.and_eq_true, Bool.not_eq_true', bne_iff_ne] at hinner
  simp [components, hinner.1, hinner.2]

theorem components_of_text_eq_nil {path : Path} (hempty : path.text.toList = []) :
    path.components = [] := by
  simp [components, isAbsolute, hempty, slashPieces, component?]

/-- Pieces after a slash add their components. -/
theorem components_of_text_eq {path front : Path} {rest : List Char}
    (hfront : front.text.toList ≠ [])
    (htext : path.text.toList = front.text.toList ++ '/' :: rest) :
    path.components = front.components ++ (slashPieces rest).filterMap component? := by
  have habsolute : path.isAbsolute = front.isAbsolute := by
    simp [isAbsolute, htext, List.head?_append, List.head?_eq_some_head hfront]
  simp only [components, habsolute, htext, slashPieces_append, head?_slashPieces_append,
    List.filterMap_append, List.append_assoc]

theorem components_of_text_eq_slash {path : Path} {rest : List Char}
    (htext : path.text.toList = '/' :: rest) :
    path.components = .root :: (slashPieces rest).filterMap component? := by
  simp [components, isAbsolute, htext, slashPieces, component?]

theorem components_join {path other : Path} (hinner : other.isInner = true) :
    (path.join other).components = path.components ++ other.components := by
  have hrelative : other.isAbsolute = false := by
    simpa using (Bool.and_eq_true_iff.mp hinner).1
  rw [components_of_isInner hinner, join, hrelative]
  rcases List.eq_nil_or_concat path.text.toList with hempty | ⟨front, last, htext⟩
  · simp [hempty, components_of_text_eq_nil hempty, components_of_isInner hinner]
  rw [List.concat_eq_append] at htext
  simp only [htext, List.getLast?_concat, Bool.false_eq_true, if_false]
  split
  · -- A path that ends with a slash is what stands before it, or the root.
    next hlast =>
    subst hlast
    have hjoined : (path.text ++ other.text).toList = front ++ '/' :: other.text.toList := by
      simp [htext]
    by_cases hfront : front = []
    · subst hfront
      rw [components_of_text_eq_slash htext, components_of_text_eq_slash hjoined]
      simp [slashPieces, component?]
    · have hne : (⟨String.ofList front⟩ : Path).text.toList ≠ [] := by simpa using hfront
      have hfrontText : front = (⟨String.ofList front⟩ : Path).text.toList := by simp
      rw [hfrontText] at htext hjoined
      rw [components_of_text_eq hne htext, components_of_text_eq hne hjoined]
      simp [slashPieces, component?]
  · apply components_of_text_eq
    · simp [htext]
    · simp

/-! ## Plain names -/

/-- A text that is one component of a path. -/
structure IsPlain (text : String) : Prop where
  slash : '/' ∉ text.toList
  component : component? text.toList = some (.name text)

variable {text : String}

/-- A name with a character that is no dot is no sign for a directory. -/
theorem component?_of_mem {piece : List Char} {char : Char} (hmem : char ∈ piece)
    (hdot : char ≠ '.') : component? piece = some (.name (String.ofList piece)) := by
  have hempty : piece ≠ [] := List.ne_nil_of_mem hmem
  have hone : piece ≠ ['.'] := by
    rintro rfl
    exact hdot (List.mem_singleton.mp hmem)
  have htwo : piece ≠ ['.', '.'] := by
    rintro rfl
    simp [hdot] at hmem
  simp [component?, hempty, hone, htwo]

theorem isPlain_of_mem {char : Char} (hslash : '/' ∉ text.toList) (hmem : char ∈ text.toList)
    (hdot : char ≠ '.') : IsPlain text where
  slash := hslash
  component := by simpa using component?_of_mem hmem hdot

theorem isInner_of_isPlain (hplain : IsPlain text) : (⟨text⟩ : Path).isInner = true := by
  have hdot : text.toList ≠ ['.'] := by
    intro hdot
    have hcomponent := hplain.component
    rw [hdot] at hcomponent
    simp [component?] at hcomponent
  have hroot : text.toList.head? ≠ some '/' := by
    intro hroot
    exact hplain.slash (List.mem_of_head? hroot)
  simp [isInner, isAbsolute, slashPieces_of_notMem hplain.slash, hdot, hroot]

theorem components_of_isPlain (hplain : IsPlain text) :
    (⟨text⟩ : Path).components = [.name text] := by
  rw [components_of_isInner (isInner_of_isPlain hplain), slashPieces_of_notMem hplain.slash]
  simp [hplain.component]

theorem components_foldl_join {names : List String} (hplain : ∀ name ∈ names, IsPlain name)
    (path : Path) :
    (names.foldl (fun path name => path.join ⟨name⟩) path).components =
      path.components ++ names.map .name := by
  induction names generalizing path with
  | nil => simp
  | cons name names ih =>
    obtain ⟨hname, hnames⟩ := List.forall_mem_cons.mp hplain
    rw [List.foldl_cons, ih hnames, components_join (isInner_of_isPlain hname),
      components_of_isPlain hname]
    simp

theorem components_ofNames {names : List String} (hplain : ∀ name ∈ names, IsPlain name) :
    (ofNames names).components = names.map .name := by
  rw [ofNames, components_foldl_join hplain, components_of_text_eq_nil rfl, List.nil_append]

/-! ## Stems -/

theorem splitExtension_of_notMem {chars : List Char} (hdot : '.' ∉ chars) :
    splitExtension chars = (chars, none) := by
  have hextension := takeWhile_ne_append (List.mem_reverse.not.mpr hdot) []
  rw [List.append_nil] at hextension
  simp [splitExtension, hextension]

theorem splitExtension_append {stem extension : List Char} (hstem : stem ≠ [])
    (hdot : '.' ∉ extension) :
    splitExtension (stem ++ '.' :: extension) = (stem, some extension) := by
  have hextension := takeWhile_ne_append (List.mem_reverse.not.mpr hdot) ('.' :: stem.reverse)
  have hlength : stem.length + (extension.length + 1) - extension.length - 1 = stem.length := by
    omega
  simp [splitExtension, hextension, hlength, hstem]

theorem stemOf_of_notMem (hdot : '.' ∉ text.toList) : stemOf (.name text) = text := by
  simp [stemOf, Component.fileName?, splitExtension_of_notMem hdot]

theorem stemOf_append {extension : String} (hnonempty : text ≠ "")
    (hdot : '.' ∉ extension.toList) : stemOf (.name (text ++ "." ++ extension)) = text := by
  have hstem : text.toList ≠ [] := by simpa using hnonempty
  simp [stemOf, Component.fileName?, splitExtension_append hstem hdot]

end Path

end SchemaLoom.Storage
