import Mathlib.Data.List.Induction
import SchemaLoom.Collection.Session
import SchemaLoom.Proofs.KeyedInsertion
import SchemaLoom.Proofs.Outcome
import SchemaLoom.Proofs.StructuralEquality

/-!
# Keyed lists as finite maps

With keys compared by an equivalence, buffers and frozen maps are finite maps up to it.  Each of them
stands for the history of its insertions and removals: a key looks up what was last inserted under
it, and the entries stand in the order of the insertions that brought their keys in.  Two of them are
the same exactly if all look-ups agree.
-/

namespace SchemaLoom.Keyed

variable {κ ν : Type} {alike : κ → κ → Bool}

/-! ## Looking up -/

theorem get?_eq_none_iff {entries : List (κ × ν)} {key : κ} :
    get? alike key entries = none ↔ ∀ entry ∈ entries, alike entry.1 key = false := by
  induction entries with
  | nil => simp [get?]
  | cons entry rest ih =>
    cases halike : alike entry.1 key <;> simp [get?, halike, ih]

theorem exists_mem_of_get? {entries : List (κ × ν)} {key : κ} {value : ν}
    (hget : get? alike key entries = some value) :
    ∃ entry ∈ entries, alike entry.1 key ∧ entry.2 = value := by
  induction entries with
  | nil => cases hget
  | cons entry rest ih =>
    cases halike : alike entry.1 key with
    | true => exact ⟨entry, List.mem_cons_self, halike, by simpa [get?, halike] using hget⟩
    | false =>
      have hrest : get? alike key rest = some value := by simpa [get?, halike] using hget
      obtain ⟨found, hmem, hfound⟩ := ih hrest
      exact ⟨found, List.mem_cons_of_mem _ hmem, hfound⟩

/-- Insertion tells what was found under its key. -/
theorem put_eq (key : κ) (value : ν) (entries : List (κ × ν)) :
    put alike key value entries = (get? alike key entries, insert alike key value entries) := by
  induction entries with
  | nil => rfl
  | cons entry rest ih => cases halike : alike entry.1 key <;> simp [put, get?, insert, halike, ih]

/-- So does removal. -/
theorem take_fst (key : κ) (entries : List (κ × ν)) :
    (take alike key entries).1 = get? alike key entries := by
  induction entries with
  | nil => rfl
  | cons entry rest ih => cases halike : alike entry.1 key <;> simp [take, get?, halike, ih]

section Equivalence

variable (hequiv : Equivalence fun left right => alike left right = true)

include hequiv

theorem alike_eq_of_alike {left right : κ} (halike : alike left right) (other : κ) :
    alike left other = alike right other := by
  rw [Bool.eq_iff_iff]
  exact ⟨hequiv.trans (hequiv.symm halike), hequiv.trans halike⟩

theorem alike_comm (left right : κ) : alike left right = alike right left := by
  rw [Bool.eq_iff_iff]
  exact ⟨hequiv.symm, hequiv.symm⟩

/-- With keys apart, every entry is found under each key alike to its own. -/
theorem get?_eq_some_of_mem {entries : List (κ × ν)} (hapart : Apart alike entries)
    {entry : κ × ν} (hmem : entry ∈ entries) {key : κ} (halike : alike entry.1 key) :
    get? alike key entries = some entry.2 := by
  induction entries with
  | nil => cases hmem
  | cons first rest ih =>
    obtain ⟨hfirst, hrest⟩ := List.pairwise_cons.mp hapart
    rcases List.mem_cons.mp hmem with rfl | hmem
    · simp [get?, halike]
    · have hother : alike first.1 key = false := by
        rw [← hfirst entry hmem, alike_comm hequiv, alike_comm hequiv first.1,
          alike_eq_of_alike hequiv halike]
      rw [get?, hother]
      exact ih hrest hmem

/-- Insertion changes the look-up of alike keys only. -/
theorem get?_insert (key other : κ) (value : ν) (entries : List (κ × ν)) :
    get? alike other (insert alike key value entries) =
      if alike key other then some value else get? alike other entries := by
  induction entries with
  | nil => simp [insert, get?]
  | cons entry rest ih =>
    cases halike : alike entry.1 key with
    | true =>
      have hsame := alike_eq_of_alike hequiv halike other
      cases hother : alike key other <;> simp [insert, get?, halike, hsame, hother]
    | false =>
      cases hother : alike key other with
      | true =>
        have hentry : alike entry.1 other = false := by
          rw [← halike, alike_comm hequiv, ← alike_eq_of_alike hequiv hother, alike_comm hequiv]
        simp [insert, get?, halike, hentry, ih, hother]
      | false => simp [insert, get?, halike, ih, hother]

/-- Removal takes out the entry of the key and leaves all others. -/
theorem take_snd {entries : List (κ × ν)} (hapart : Apart alike entries) (key : κ) :
    (take alike key entries).2 = entries.filter fun entry => !alike key entry.1 := by
  induction entries with
  | nil => rfl
  | cons entry rest ih =>
    obtain ⟨hfirst, hrest⟩ := List.pairwise_cons.mp hapart
    cases halike : alike entry.1 key with
    | true =>
      have hothers : ∀ other ∈ rest, (!alike key other.1) = true := by
        intro other hother
        rw [← alike_eq_of_alike hequiv halike, hfirst other hother]
        rfl
      rw [List.filter_cons, ← alike_comm hequiv, halike, List.filter_eq_self.mpr hothers]
      simp [take, halike]
    | false =>
      rw [List.filter_cons, ← alike_comm hequiv, halike, ← ih hrest]
      simp [take, halike]

theorem get?_filter (key other : κ) (entries : List (κ × ν)) :
    get? alike other (entries.filter fun entry => !alike key entry.1) =
      if alike key other then none else get? alike other entries := by
  induction entries with
  | nil => simp [get?]
  | cons entry rest ih =>
    cases hkey : alike key entry.1 with
    | true =>
      have hentry : alike entry.1 other = alike key other :=
        (alike_eq_of_alike hequiv hkey other).symm
      cases hother : alike key other <;> simpa [hkey, get?, hentry, hother] using ih
    | false =>
      cases hentry : alike entry.1 other with
      | true =>
        have hother : alike key other = false := by
          rw [alike_comm hequiv, ← alike_eq_of_alike hequiv hentry, alike_comm hequiv, hkey]
        simp [hkey, get?, hentry, hother]
      | false => simpa [hkey, get?, hentry] using ih

end Equivalence

/-! ## Histories -/

/-- A change to what a map holds. -/
inductive Change (κ ν : Type) where
  | put (key : κ) (value : ν)
  | drop (key : κ)

namespace Change

def key : Change κ ν → κ
  | put key _ => key
  | drop key => key

/-- What is under the key afterwards. -/
def value? : Change κ ν → Option ν
  | put _ value => some value
  | drop _ => none

/-- Whether the change removes what is under a key. -/
def drops (alike : κ → κ → Bool) (key : κ) : Change κ ν → Bool
  | put _ _ => false
  | drop other => alike other key

end Change

/-- What a history leaves under a key: the last change of an alike key counts. -/
def held? (alike : κ → κ → Bool) (history : List (Change κ ν)) (key : κ) : Option ν :=
  history.foldl (fun held change => if alike change.key key then change.value? else held) none

/-- The keys of the insertions under keys that were not held before and that no later removal takes
out, given the changes before them. -/
def foundersAfter (alike : κ → κ → Bool) (before : List (Change κ ν)) :
    List (Change κ ν) → List κ
  | [] => []
  | .put key value :: after =>
    let later := foundersAfter alike (before ++ [.put key value]) after
    if (held? alike before key).isNone && !after.any (Change.drops alike key) then key :: later
    else later
  | .drop key :: after => foundersAfter alike (before ++ [.drop key]) after

/-- The key of each first insertion since the last removal, in the order of these insertions. -/
def founders (alike : κ → κ → Bool) (history : List (Change κ ν)) : List κ :=
  foundersAfter alike [] history

theorem held?_concat (alike : κ → κ → Bool) (history : List (Change κ ν)) (change : Change κ ν)
    (key : κ) :
    held? alike (history ++ [change]) key =
      if alike change.key key then change.value? else held? alike history key := by
  simp [held?]

/-- What is held is the value of an insertion that no change of an alike key follows. -/
theorem held?_eq_some_iff {history : List (Change κ ν)} {key : κ} {value : ν} :
    held? alike history key = some value ↔
      ∃ before founder after, history = before ++ .put founder value :: after ∧
        alike founder key ∧ ∀ change ∈ after, alike change.key key = false := by
  induction history using List.reverseRecOn with
  | nil => simp [held?]
  | append_singleton history change ih =>
    rw [held?_concat]
    constructor
    · intro hheld
      split at hheld
      · next halike =>
        cases change with
        | put founder last =>
          cases hheld
          exact ⟨history, founder, [], rfl, halike, by simp⟩
        | drop other => cases hheld
      · next hother =>
        obtain ⟨before, founder, after, rfl, hfounder, hafter⟩ := ih.mp hheld
        refine ⟨before, founder, after ++ [change], by simp, hfounder, ?_⟩
        intro later hlater
        rcases List.mem_append.mp hlater with hlater | hlater
        · exact hafter later hlater
        · rw [List.mem_singleton.mp hlater]
          exact Bool.eq_false_iff.mpr hother
    · rintro ⟨before, founder, after, hsplit, hfounder, hafter⟩
      rcases List.eq_nil_or_concat after with rfl | ⟨rest, last, rfl⟩
      · obtain ⟨rfl, hlast⟩ := List.append_inj' hsplit rfl
        cases hlast
        exact if_pos hfounder
      · have hsplit' : history ++ [change] = (before ++ .put founder value :: rest) ++ [last] := by
          simpa using hsplit
        obtain ⟨rfl, hlast⟩ := List.append_inj' hsplit' rfl
        cases hlast
        have hchange : alike change.key key = false := hafter change (by simp)
        rw [hchange, if_neg Bool.false_ne_true]
        exact ih.mpr ⟨before, founder, rest, rfl, hfounder, fun other hother =>
          hafter other (by simp [hother])⟩

theorem foundersAfter_put (before history : List (Change κ ν)) (key : κ) (value : ν) :
    foundersAfter alike before (history ++ [.put key value]) =
      foundersAfter alike before history ++
        if (held? alike (before ++ history) key).isNone then [key] else [] := by
  induction history generalizing before with
  | nil =>
    simp [foundersAfter]
  | cons change history ih =>
    cases change with
    | put other old =>
      have hdrops : (history ++ [Change.put key value]).any (Change.drops alike other) =
          history.any (Change.drops alike other) := by simp [Change.drops]
      rw [List.cons_append, foundersAfter, foundersAfter, hdrops, ih, List.append_assoc]
      split <;> simp
    | drop other =>
      rw [List.cons_append, foundersAfter, foundersAfter, ih, List.append_assoc]
      rfl

theorem foundersAfter_drop (before history : List (Change κ ν)) (key : κ) :
    foundersAfter alike before (history ++ [.drop key]) =
      (foundersAfter alike before history).filter fun founder => !alike key founder := by
  induction history generalizing before with
  | nil => rfl
  | cons change history ih =>
    cases change with
    | put other old =>
      rw [List.cons_append, foundersAfter, foundersAfter, ih, List.any_append]
      cases (held? alike before other).isNone <;>
        cases history.any (Change.drops alike other) <;>
          cases halike : alike key other <;> simp [Change.drops, halike]
    | drop other =>
      rw [List.cons_append, foundersAfter, foundersAfter, ih]

/-! ## Maps that follow a history -/

/-- The entries are what the history left: keys apart, under each key the value of the latest
insertion that no removal follows, and the keys in the order in which they came in. -/
structure Follows (alike : κ → κ → Bool) (history : List (Change κ ν)) (entries : List (κ × ν)) :
    Prop where
  apart : Apart alike entries
  get?_iff : ∀ key value, get? alike key entries = some value ↔
    ∃ before founder after, history = before ++ .put founder value :: after ∧
      alike founder key ∧ ∀ change ∈ after, alike change.key key = false
  keys_eq : entries.map (·.1) = founders alike history

theorem Follows.get?_eq {history : List (Change κ ν)} {entries : List (κ × ν)}
    (hfollows : Follows alike history entries) (key : κ) :
    get? alike key entries = held? alike history key := by
  ext value
  rw [hfollows.get?_iff, held?_eq_some_iff]

theorem follows_of_get?_eq {history : List (Change κ ν)} {entries : List (κ × ν)}
    (hapart : Apart alike entries)
    (hget : ∀ key, get? alike key entries = held? alike history key)
    (hkeys : entries.map (·.1) = founders alike history) : Follows alike history entries where
  apart := hapart
  get?_iff key value := by rw [hget, held?_eq_some_iff]
  keys_eq := hkeys

theorem follows_nil : Follows alike ([] : List (Change κ ν)) [] :=
  follows_of_get?_eq .nil (fun _ => rfl) rfl

section Steps

variable (hequiv : Equivalence fun left right => alike left right = true)
  {history : List (Change κ ν)} {entries : List (κ × ν)}

include hequiv

theorem Follows.insert (hfollows : Follows alike history entries) (key : κ) (value : ν) :
    Follows alike (history ++ [.put key value]) (insert alike key value entries) := by
  refine follows_of_get?_eq (apart_insert hfollows.apart key value) (fun other => ?_) ?_
  · rw [get?_insert hequiv, held?_concat, hfollows.get?_eq]
    rfl
  · rw [founders, foundersAfter_put, List.nil_append, ← hfollows.get?_eq, ← founders,
      ← hfollows.keys_eq]
    cases hget : get? alike key entries with
    | none => simp [insert_eq_append (get?_eq_none_iff.mp hget)]
    | some old =>
      obtain ⟨entry, hmem, halike, -⟩ := exists_mem_of_get? hget
      rcases map_fst_insert alike key value entries with hkeys | ⟨hnew, -⟩
      · simpa using hkeys
      · rw [hnew entry hmem] at halike
        cases halike

theorem Follows.take (hfollows : Follows alike history entries) (key : κ) :
    Follows alike (history ++ [.drop key]) (take alike key entries).2 := by
  rw [take_snd hequiv hfollows.apart]
  refine follows_of_get?_eq (hfollows.apart.filter _) (fun other => ?_) ?_
  · rw [get?_filter hequiv, held?_concat, hfollows.get?_eq]
    rfl
  · rw [founders, foundersAfter_drop, ← founders, ← hfollows.keys_eq, List.filter_map]
    rfl

/-- The history of a map that was made from some entries. -/
def Change.ofEntries (entries : List (κ × ν)) : List (Change κ ν) :=
  entries.map fun entry => .put entry.1 entry.2

theorem Follows.insertAll (hfollows : Follows alike history entries) (more : List (κ × ν)) :
    Follows alike (history ++ Change.ofEntries more) (insertAll alike entries more) := by
  induction more generalizing history entries with
  | nil => simpa [Change.ofEntries, Keyed.insertAll] using hfollows
  | cons entry more ih =>
    have hstep := ih (hfollows.insert hequiv entry.1 entry.2)
    simpa [Change.ofEntries, Keyed.insertAll] using hstep

theorem follows_ofList (entries : List (κ × ν)) :
    Follows alike (Change.ofEntries entries) (ofList alike entries) :=
  follows_nil.insertAll hequiv entries

theorem Follows.inserted (hfollows : Follows alike history entries) (key : κ) (value : ν) :
    Follows alike (history ++ [.put key value]) (inserted alike entries key value) := by
  rw [Keyed.inserted, ofList_eq_self hfollows.apart]
  exact hfollows.insert hequiv key value

end Steps

/-! ## Sessions -/

/-- The histories of the buffer and of all frozen maps. -/
structure Histories (κ ν : Type) where
  buffer : List (Change κ ν) := []
  maps : List (List (Change κ ν)) := [[]]

namespace Histories

/-- A call changes the buffer, or makes another map with a history of its own. -/
def step (histories : Histories κ ν) : Operation κ ν → Histories κ ν
  | .insert key value => { histories with buffer := histories.buffer ++ [.put key value] }
  | .remove key => { histories with buffer := histories.buffer ++ [.drop key] }
  | .refill entries => { histories with buffer := Change.ofEntries entries }
  | .freeze => ⟨[], histories.maps ++ [histories.buffer]⟩
  | .collect entries => { histories with maps := histories.maps ++ [Change.ofEntries entries] }
  | .extend position key value =>
    match histories.maps[position]? with
    | some history => { histories with maps := histories.maps ++ [history ++ [.put key value]] }
    | none => histories

def run (histories : Histories κ ν) (operations : List (Operation κ ν)) : Histories κ ν :=
  operations.foldl step histories

end Histories

/-- The buffer and every frozen map follow their histories. -/
structure Session.Tracks (alike : κ → κ → Bool) (histories : Histories κ ν)
    (session : Session κ ν) : Prop where
  buffer : Follows alike histories.buffer session.buffer
  maps : List.Forall₂ (Follows alike) histories.maps session.maps

namespace Session

variable {histories : Histories κ ν} {session : Session κ ν}

theorem tracks_start : Tracks alike ({} : Histories κ ν) {} :=
  ⟨follows_nil, .cons follows_nil .nil⟩

theorem Tracks.step (hequiv : Equivalence fun left right => alike left right = true)
    (htracks : Tracks alike histories session) (operation : Operation κ ν) :
    Tracks alike (histories.step operation) (session.step alike operation).2 := by
  obtain ⟨hbuffer, hmaps⟩ := htracks
  cases operation with
  | insert key value =>
    refine ⟨?_, hmaps⟩
    simp only [Session.step, put_eq]
    exact hbuffer.insert hequiv key value
  | remove key => exact ⟨hbuffer.take hequiv key, hmaps⟩
  | refill entries => exact ⟨follows_ofList hequiv entries, hmaps⟩
  | freeze => exact ⟨follows_nil, Outcome.forall₂_concat hmaps hbuffer⟩
  | collect entries => exact ⟨hbuffer, Outcome.forall₂_concat hmaps (follows_ofList hequiv entries)⟩
  | extend position key value =>
    have hposition := Outcome.rel_getElem? hmaps position
    simp only [Histories.step, Session.step]
    generalize histories.maps[position]? = history at hposition
    generalize session.maps[position]? = map at hposition
    cases hposition with
    | none => exact ⟨hbuffer, hmaps⟩
    | some hfollows =>
      exact ⟨hbuffer, Outcome.forall₂_concat hmaps (hfollows.inserted hequiv key value)⟩

theorem Tracks.run (hequiv : Equivalence fun left right => alike left right = true)
    (htracks : Tracks alike histories session) (operations : List (Operation κ ν)) :
    Tracks alike (histories.run operations) (session.run alike operations) := by
  induction operations generalizing histories session with
  | nil => exact htracks
  | cons operation operations ih => exact ih (htracks.step hequiv operation)

end Session

/-! ## Maps that are the same -/

section Same

variable (hequiv : Equivalence fun left right => alike left right = true)
  {valueAlike : ν → ν → Bool} {left right : List (κ × ν)}

theorem sameEntries_eq_true_iff :
    sameEntries alike valueAlike left right ↔
      left.length = right.length ∧ ∀ entry ∈ left, ∃ other ∈ right,
        alike entry.1 other.1 ∧ valueAlike entry.2 other.2 := by
  simp [sameEntries]

/-- The maps in the fields of records are compared in this way. -/
theorem alike_map (left right : List (Value × Value)) :
    FieldValue.alike (.map left) (.map right) = sameEntries Value.alike Value.alike left right := by
  rw [Bool.eq_iff_iff, sameEntries_eq_true_iff, FieldValue.alike, Bool.and_eq_true, beq_iff_eq,
    Value.coveredEntries_iff]
  rfl

include hequiv

/-- Keys that are apart have no common match. -/
theorem apart_matches (hleft : Apart alike left) :
    left.Pairwise fun earlier later => ∀ other ∈ right,
      alike earlier.1 other.1 → ¬alike later.1 other.1 := by
  refine hleft.imp fun hapart other _ hearlier hlater => ?_
  rw [hequiv.trans hearlier (hequiv.symm hlater)] at hapart
  cases hapart

theorem length_le_of_covered (hleft : Apart alike left)
    (hcovered : ∀ entry ∈ left, ∃ other ∈ right, alike entry.1 other.1) :
    left.length ≤ right.length := by
  obtain ⟨arranged, hsubperm, hforall⟩ :=
    Outcome.exists_submatching hcovered (apart_matches hequiv hleft)
  exact hforall.length_eq ▸ hsubperm.length_le

/-- Maps with keys apart are the same if and only if every key looks up the same in both, up to the
comparison of values. -/
theorem sameEntries_iff (hleft : Apart alike left) (hright : Apart alike right) :
    sameEntries alike valueAlike left right ↔
      ∀ key, Option.Rel (fun value other => valueAlike value other = true)
        (get? alike key left) (get? alike key right) := by
  rw [sameEntries_eq_true_iff]
  constructor
  · rintro ⟨hlength, hcovered⟩ key
    have hkeys : ∀ entry ∈ left, ∃ other ∈ right, alike entry.1 other.1 := by
      intro entry hentry
      obtain ⟨other, hother, halike, -⟩ := hcovered entry hentry
      exact ⟨other, hother, halike⟩
    obtain ⟨arranged, hperm, hforall⟩ :=
      Outcome.exists_matching hkeys (apart_matches hequiv hleft) hlength
    cases hget : get? alike key left with
    | some value =>
      obtain ⟨entry, hentry, halike, rfl⟩ := exists_mem_of_get? hget
      obtain ⟨other, hother, hmatch, hvalues⟩ := hcovered entry hentry
      rw [get?_eq_some_of_mem hequiv hright hother (hequiv.trans (hequiv.symm hmatch) halike)]
      exact .some hvalues
    | none =>
      -- As many entries on both sides: a key of the second map is alike to one of the first.
      have hnone : get? alike key right = none := by
        rw [get?_eq_none_iff] at hget ⊢
        intro other hother
        obtain ⟨entry, hentry, hmatch⟩ :=
          Outcome.exists_left_of_mem hforall (hperm.mem_iff.mpr hother)
        rw [← alike_eq_of_alike hequiv hmatch, hget entry hentry]
      rw [hnone]
      exact .none
  · intro hagree
    have hcovered : ∀ entry ∈ left, ∃ other ∈ right,
        alike entry.1 other.1 ∧ valueAlike entry.2 other.2 := by
      intro entry hentry
      have hrelated := hagree entry.1
      rw [get?_eq_some_of_mem hequiv hleft hentry (hequiv.refl entry.1)] at hrelated
      obtain ⟨value, hvalue, hvalues⟩ := Outcome.exists_some_right hrelated
      obtain ⟨other, hother, hmatch, rfl⟩ := exists_mem_of_get? hvalue
      exact ⟨other, hother, hequiv.symm hmatch, hvalues⟩
    have hcovers : ∀ other ∈ right, ∃ entry ∈ left, alike other.1 entry.1 := by
      intro other hother
      have hrelated := hagree other.1
      rw [get?_eq_some_of_mem hequiv hright hother (hequiv.refl other.1)] at hrelated
      obtain ⟨value, hvalue, -⟩ := Outcome.exists_some_left hrelated
      obtain ⟨entry, hentry, hmatch, -⟩ := exists_mem_of_get? hvalue
      exact ⟨entry, hentry, hequiv.symm hmatch⟩
    refine ⟨Nat.le_antisymm ?_ (length_le_of_covered hequiv hright hcovers), hcovered⟩
    refine length_le_of_covered hequiv hleft fun entry hentry => ?_
    obtain ⟨other, hother, hmatch, -⟩ := hcovered entry hentry
    exact ⟨other, hother, hmatch⟩

end Same

/-! ## Sessions from the start -/

namespace Session

variable {histories : Histories κ ν} {session : Session κ ν}

/-- The buffer and the frozen maps. -/
def held (session : Session κ ν) : List (List (κ × ν)) :=
  session.buffer :: session.maps

theorem Tracks.apart (htracks : Tracks alike histories session) {entries : List (κ × ν)}
    (hmem : entries ∈ session.held) : Apart alike entries := by
  rcases List.mem_cons.mp hmem with rfl | hmem
  · exact htracks.buffer.apart
  · obtain ⟨history, -, hfollows⟩ := Outcome.exists_left_of_mem htracks.maps hmem
    exact hfollows.apart

/-- No call changes a map that was frozen before. -/
theorem maps_step (alike : κ → κ → Bool) (session : Session κ ν) (operation : Operation κ ν) :
    session.maps <+: (session.step alike operation).2.maps := by
  cases operation with
  | insert | remove | refill => exact ⟨[], List.append_nil _⟩
  | freeze | collect => exact ⟨_, rfl⟩
  | extend position key value =>
    simp only [step]
    split
    · exact ⟨_, rfl⟩
    · exact ⟨[], List.append_nil _⟩

/-- Extending a frozen map is inserting into a buffer with the entries of the map. -/
theorem step_extend {position : Nat} {map : List (κ × ν)}
    (hmap : session.maps[position]? = some map) (hapart : Apart alike map) (key : κ) (value : ν) :
    (session.step alike (.extend position key value)).2 =
      { session with
        maps := session.maps ++
          [(Session.step alike { session with buffer := map } (.insert key value)).2.buffer] } := by
  simp only [step, hmap, put_eq, inserted, ofList_eq_self hapart]

/-- Buffers and frozen maps are finite maps up to the comparison of keys.  After any calls each of
them follows its history; an insertion and a removal give the value that was found before; frozen
maps stay as they are, and extending one is inserting into a copy of it; and any two of them are the
same exactly if all look-ups agree up to the comparison of values. -/
theorem run_tracks_histories (hequiv : Equivalence fun left right => alike left right = true)
    (operations : List (Operation κ ν)) :
    let session := run alike {} operations
    Tracks alike (Histories.run {} operations) session ∧
      (∀ key value,
        (session.step alike (.insert key value)).1 = get? alike key session.buffer) ∧
      (∀ key, (session.step alike (.remove key)).1 = get? alike key session.buffer) ∧
      (∀ operation, session.maps <+: (session.step alike operation).2.maps) ∧
      (∀ position map key value, session.maps[position]? = some map →
        (session.step alike (.extend position key value)).2 =
          { session with
            maps := session.maps ++
              [(Session.step alike { session with buffer := map }
                (.insert key value)).2.buffer] }) ∧
      ∀ valueAlike : ν → ν → Bool, ∀ left ∈ session.held, ∀ others,
        ∀ right ∈ (run alike {} others).held,
          sameEntries alike valueAlike left right ↔
            ∀ key, Option.Rel (fun value other => valueAlike value other = true)
              (get? alike key left) (get? alike key right) := by
  intro session
  have htracks := tracks_start.run hequiv operations
  refine ⟨htracks, fun key value => ?_, fun key => take_fst key _, maps_step alike session, ?_, ?_⟩
  · simp only [step, put_eq]
  · intro position map key value hmap
    exact step_extend hmap (htracks.apart (List.mem_cons_of_mem _ (List.mem_of_getElem? hmap)))
      key value
  · intro valueAlike left hleft others right hright
    have htracks' := tracks_start.run hequiv others
    exact sameEntries_iff hequiv (htracks.apart hleft) (htracks'.apart hright)

/-- The number with the bits as a key. -/
def numberKey (bits : UInt64) : Wire.Scalar := .double ⟨bits⟩

/-- One zero is inserted under the other, and a NaN removed and inserted again under another NaN. -/
def numberCalls : List (Operation Wire.Scalar Nat) :=
  [.insert (numberKey 0x7FF8000000000000) 1, .insert (numberKey 0) 2,
    .insert (numberKey 0x8000000000000000) 3, .remove (numberKey 0xFFF8000000000000),
    .insert (numberKey 0x7FF8000000000001) 4, .freeze,
    .extend 1 (numberKey 0x7FF8000000000000) 5]

theorem run_tracks_histories_numbers :
    (run Wire.Scalar.alike {} numberCalls).held =
      [[], [],
        [(numberKey 0, 3), (numberKey 0x7FF8000000000001, 4)],
        [(numberKey 0, 3), (numberKey 0x7FF8000000000001, 5)]] ∧
    Tracks Wire.Scalar.alike (Histories.run {} numberCalls)
      (run Wire.Scalar.alike {} numberCalls) ∧
    ∀ key, Option.Rel (fun value other => (value == other) = true)
      (get? Wire.Scalar.alike key
        [(numberKey 0, 3), (numberKey 0x7FF8000000000001, 5)])
      (get? Wire.Scalar.alike key
        [(numberKey 0x7FF8000000000000, 5), (numberKey 0x8000000000000000, 3)]) := by
  obtain ⟨htracks, -, -, -, -, hsame⟩ :=
    run_tracks_histories Wire.Scalar.alike_equivalence numberCalls
  refine ⟨by decide +kernel, htracks, ?_⟩
  refine (hsame (· == ·) _ (by decide +kernel)
    [.collect [(numberKey 0x7FF8000000000000, 5), (numberKey 0x8000000000000000, 3)]] _
    (by decide +kernel)).mp (by decide +kernel)

end Session

end SchemaLoom.Keyed
