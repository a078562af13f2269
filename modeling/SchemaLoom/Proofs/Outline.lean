import SchemaLoom.Proofs.TokenReading

/-!
# The outline of code

A block is what stands in braces after its head, and the end of a head may name the block.  The
outline of code is the list of its named blocks outside of all other braces.  Code that is put
together from heads without braces and bodies with balanced ones is read block by block.
-/

namespace SchemaLoom

namespace Code

/-! ## Reading blocks -/

/-- A named block: the keyword before its name, the name, and what stands in its braces. -/
structure Block where
  keyword : String
  name : String
  body : Code
  deriving DecidableEq

/-- The block that a head and a body make, if the head names it.  Types and modules are public, and
an implementation belongs to the type it names. -/
def block? (head body : Code) : Option Block :=
  match head.reverse with
  | name :: keyword :: before =>
    if isSegment name && (keyword == "impl" ||
        before.head? == some "pub" && ["struct", "enum", "mod"].contains keyword) then
      some ⟨keyword, name, body⟩
    else none
  | _ => none

/-- The state of reading blocks: those that are complete, the head and the body of the next one, and
how many braces are open. -/
structure BlockReader where
  done : List Block
  head : Code := []
  body : Code := []
  depth : Nat := 0

def BlockReader.step (reader : BlockReader) (token : String) : BlockReader :=
  match reader.depth with
  | 0 =>
    if token = "\x7b" then { reader with depth := 1 }
    else { reader with head := reader.head ++ [token] }
  | depth + 1 =>
    if token = "\x7b" then { reader with body := reader.body ++ [token], depth := depth + 2 }
    else if token = "\x7d" then
      if depth = 0 then { done := reader.done ++ (block? reader.head reader.body).toList }
      else { reader with body := reader.body ++ [token], depth }
    else { reader with body := reader.body ++ [token] }

def BlockReader.run (reader : BlockReader) (code : Code) : BlockReader :=
  code.foldl step reader

theorem BlockReader.run_append (reader : BlockReader) (code rest : Code) :
    reader.run (code ++ rest) = (reader.run code).run rest :=
  List.foldl_append

/-- The named blocks of the code, those inside other braces apart. -/
def outline (code : Code) : List Block :=
  (BlockReader.run { done := [] } code).done

/-- The names of the blocks after a keyword, with the bodies. -/
def named (blocks : List Block) (keyword : String) : List (String × Code) :=
  (blocks.filter (·.keyword == keyword)).map fun block => (block.name, block.body)

theorem named_append (blocks others : List Block) (keyword : String) :
    named (blocks ++ others) keyword = named blocks keyword ++ named others keyword := by
  rw [named, List.filter_append, List.map_append]
  rfl

/-- What a keyword introduces in the outline. -/
def introduced (code : Code) (keyword : String) : List (String × Code) :=
  named code.outline keyword

/-! ## Balanced braces -/

/-- The code has no braces. -/
def Flat (code : Code) : Prop :=
  ∀ token ∈ code, token ≠ "\x7b" ∧ token ≠ "\x7d"

namespace Flat

variable {code rest : Code}

theorem append (hcode : Flat code) (hrest : Flat rest) : Flat (code ++ rest) :=
  List.forall_mem_append.mpr ⟨hcode, hrest⟩

theorem plain {token : String} (hplain : isPlain token = true) : Flat [token] := by
  simp only [isPlain, Bool.and_eq_true, bne_iff_ne] at hplain
  exact List.forall_mem_singleton.mpr ⟨hplain.1.2, hplain.2⟩

theorem ident (ident : Ident) : Flat [ident.text] :=
  plain (isPlain_of_isSegment (isSegment_ident ident))

theorem colons : Flat ["::"] :=
  List.forall_mem_singleton.mpr (by decide)

theorem path (hpath : IsPath code) : Flat code := by
  intro token htoken
  rcases hpath.cases_of_mem token htoken with rfl | hsegment
  · exact colons _ List.mem_cons_self
  · exact plain (isPlain_of_isSegment hsegment) token List.mem_cons_self

theorem word {chars : List Char} (hchars : isPlainChars chars = true) :
    Flat [String.ofList chars] :=
  plain ((isPlain_ofList chars).trans hchars)

theorem tokens {found : List (List Char)}
    (hfound : found.all (fun piece => piece != ['\x7b'] && piece != ['\x7d']) = true) :
    Flat (found.map String.ofList) := by
  simp only [List.all_eq_true, Bool.and_eq_true, bne_iff_ne] at hfound
  rw [Flat, List.forall_mem_map]
  intro piece hpiece
  exact (hfound piece hpiece).imp (mt String.ofList_inj.mp) (mt String.ofList_inj.mp)

theorem words {chars : List Char}
    (hchars : (pieces chars).all (fun piece => piece != ['\x7b'] && piece != ['\x7d']) = true) :
    Flat (ofText (String.ofList chars)) := by
  rw [ofText_ofList]
  exact tokens hchars

theorem flatMap {α : Type} {items : List α} {text : α → Code}
    (htext : ∀ item ∈ items, Flat (text item)) : Flat (items.flatMap text) := by
  intro token htoken
  obtain ⟨item, hitem, htoken⟩ := List.mem_flatMap.mp htoken
  exact htext item hitem token htoken

theorem paren (hcode : Flat code) : Flat (paren code) :=
  (word (by decide)).append (hcode.append (word (by decide)))

theorem angle (hcode : Flat code) : Flat (angle code) :=
  (word (by decide)).append (hcode.append (word (by decide)))

theorem marker (hcode : Flat code) : Flat (marker code) :=
  (word (by decide)).append ((word (by decide)).append (hcode.append (word (by decide))))

end Flat

/-- Inside braces the code is read as a part of their body. -/
def Balanced (code : Code) : Prop :=
  ∀ reader : BlockReader, 0 < reader.depth →
    reader.run code = { reader with body := reader.body ++ code }

namespace Balanced

variable {code rest : Code}

theorem nil : Balanced [] := by
  intro reader _
  simp [BlockReader.run]

theorem append (hcode : Balanced code) (hrest : Balanced rest) : Balanced (code ++ rest) := by
  intro reader hdepth
  rw [BlockReader.run_append, hcode reader hdepth,
    hrest { reader with body := reader.body ++ code } hdepth, List.append_assoc]

theorem singleton {token : String} (hopen : token ≠ "\x7b") (hclose : token ≠ "\x7d") :
    Balanced [token] := by
  rintro ⟨done, head, body, depth⟩ hdepth
  obtain _ | depth := depth
  · cases hdepth
  · simp [BlockReader.run, BlockReader.step, hopen, hclose]

theorem of_flat (hflat : Flat code) : Balanced code := by
  induction code with
  | nil => exact nil
  | cons token rest ih =>
    obtain ⟨⟨hopen, hclose⟩, hrest⟩ := List.forall_mem_cons.mp hflat
    exact (singleton hopen hclose).append (ih hrest)

theorem brace (hcode : Balanced code) : Balanced (brace code) := by
  rintro ⟨done, head, body, depth⟩ hdepth
  obtain _ | depth := depth
  · cases hdepth
  · rw [Code.brace, ← List.singleton_append, BlockReader.run_append, BlockReader.run_append]
    have hopened : BlockReader.run ⟨done, head, body, depth + 1⟩ ["\x7b"] =
        ⟨done, head, body ++ ["\x7b"], depth + 2⟩ := by
      simp [BlockReader.run, BlockReader.step]
    rw [hopened, hcode _ (by simp)]
    simp [BlockReader.run, BlockReader.step]

end Balanced

/-! ## Code made of blocks -/

/-- After the head, the code goes on with whole blocks only, and these are the named ones. -/
def Lists (head code : Code) (blocks : List Block) : Prop :=
  ∀ done, BlockReader.run { done, head } code = { done := done ++ blocks }

namespace Lists

variable {head code rest body : Code} {blocks : List Block}

theorem nil : Lists [] [] [] := by
  intro done
  simp [BlockReader.run]

/-- Code without braces belongs to the head. -/
theorem lead (hflat : Flat code) (hrest : Lists (head ++ code) rest blocks) :
    Lists head (code ++ rest) blocks := by
  induction code generalizing head with
  | nil => simpa using hrest
  | cons token code ih =>
    obtain ⟨⟨hopen, -⟩, hcode⟩ := List.forall_mem_cons.mp hflat
    rw [List.append_cons] at hrest
    intro done
    have hstep : BlockReader.run { done, head } [token] = { done, head := head ++ [token] } := by
      simp [BlockReader.run, BlockReader.step, hopen]
    rw [List.cons_append, ← List.singleton_append, BlockReader.run_append, hstep]
    exact ih hcode hrest done

/-- Braces end a block. -/
theorem block (hbody : Balanced body) (hrest : Lists [] rest blocks) :
    Lists head (brace body ++ rest) ((block? head body).toList ++ blocks) := by
  intro done
  have hopened : BlockReader.run { done, head } ["\x7b"] = { done, head, depth := 1 } := by
    simp [BlockReader.run, BlockReader.step]
  have hclosed : BlockReader.run { done, head, body, depth := 1 } ["\x7d"] =
      { done := done ++ (block? head body).toList } := by
    simp [BlockReader.run, BlockReader.step]
  rw [Code.brace, ← List.singleton_append, BlockReader.run_append, BlockReader.run_append,
    BlockReader.run_append, hopened, hbody _ Nat.one_pos, List.nil_append, hclosed, hrest,
    List.append_assoc]

theorem named {block : Block} (hhead : block? head body = some block) (hbody : Balanced body)
    (hrest : Lists [] rest blocks) : Lists head (brace body ++ rest) (block :: blocks) := by
  have hlists : Lists head _ _ := .block hbody hrest
  rwa [hhead] at hlists

theorem unnamed (hhead : block? head body = none) (hbody : Balanced body)
    (hrest : Lists [] rest blocks) : Lists head (brace body ++ rest) blocks := by
  have hlists : Lists head _ _ := .block hbody hrest
  rwa [hhead] at hlists

theorem append {others : List Block} (hcode : Lists head code blocks)
    (hrest : Lists [] rest others) : Lists head (code ++ rest) (blocks ++ others) := by
  intro done
  rw [BlockReader.run_append, hcode, hrest, List.append_assoc]

theorem outline_eq (hcode : Lists [] code blocks) : code.outline = blocks := by
  rw [outline, hcode, List.nil_append]

end Lists

/-! ## Names of blocks -/

section Names

variable {head body : Code} {keyword name : String}

theorem block?_public (hname : isSegment name = true)
    (hkeyword : keyword ∈ ["struct", "enum", "mod"]) :
    block? (head ++ ["pub", keyword, name]) body = some ⟨keyword, name, body⟩ := by
  simp [block?, hname, hkeyword]

theorem block?_impl (hname : isSegment name = true) :
    block? (head ++ ["impl", name]) body = some ⟨"impl", name, body⟩ := by
  simp [block?, hname]

theorem block?_for : block? (head ++ ["for", name]) body = none := by
  simp [block?]

/-- What ends in no name opens no named block. -/
theorem block?_of_getLast? {code : Code} {last : String} (hlast : code.getLast? = some last)
    (hsegment : isSegment last = false) : block? (head ++ code) body = none := by
  obtain ⟨init, rfl⟩ := List.getLast?_eq_some_iff.mp hlast
  simp only [block?, List.reverse_append, List.reverse_singleton, List.cons_append]
  split
  · simp_all
  · rfl

theorem block?_angle (code : Code) : block? (head ++ angle code) body = none :=
  block?_of_getLast? (by simp [angle, List.getLast?_cons]) (isSegment_ofList ['>'])

theorem block?_words {chars : List Char}
    (hlast : (pieces chars).getLast?.any (!isSegmentChars ·) = true) :
    block? (head ++ ofText (String.ofList chars)) body = none := by
  obtain ⟨piece, hpiece, hsegment⟩ := (Option.any_eq_true _ _).mp hlast
  rw [ofText_ofList]
  apply block?_of_getLast? (by rw [List.getLast?_map, hpiece, Option.map_some])
  rw [isSegment_ofList]
  simpa using hsegment

end Names

end Code

end SchemaLoom
