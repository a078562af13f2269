import SchemaLoom.Output.Write
import SchemaLoom.Storage.Volume

/-!
# Files that stay

Writing a file to a volume makes the directories above it and gives the file its text.  Directories
never go away and files change only where something is written, so after a sequence of writes each
file has the text that was written to its place last.
-/

namespace SchemaLoom

namespace Storage

/-! ## Computations on a disk -/

namespace Action

variable {σ ε α β : Type}

theorem runOn_pure_eq_iff {value result : α} {state next : σ} :
    (pure value : Action σ ε α).runOn state = (.ok result, next) ↔
      value = result ∧ state = next := by
  change ((.ok value, state) : Except ε α × σ) = (.ok result, next) ↔ _
  simp

theorem exists_runOn_eq (action : Action σ ε α) (state : σ) :
    ∃ result next, action.runOn state = (result, next) :=
  ⟨_, _, rfl⟩

theorem runOn_bind (first : Action σ ε α) (rest : α → Action σ ε β) (state : σ) :
    (first >>= rest).runOn state =
      match first.runOn state with
      | (.ok value, reached) => (rest value).runOn reached
      | (.error error, reached) => (.error error, reached) := by
  simp only [runOn, ExceptT.run, StateT.run, bind, ExceptT.bind, ExceptT.mk, StateT.bind]
  rcases first state with ⟨outcome, reached⟩
  cases outcome <;> rfl

theorem runOn_bind_of_ok {first : Action σ ε α} {state reached : σ} {value : α}
    (hfirst : first.runOn state = (.ok value, reached)) (rest : α → Action σ ε β) :
    (first >>= rest).runOn state = (rest value).runOn reached := by
  rw [runOn_bind, hfirst]

theorem runOn_bind_eq_ok_iff {first : Action σ ε α} {rest : α → Action σ ε β} {state next : σ}
    {result : β} :
    (first >>= rest).runOn state = (.ok result, next) ↔
      ∃ value reached, first.runOn state = (.ok value, reached) ∧
        (rest value).runOn reached = (.ok result, next) := by
  rw [runOn_bind]
  rcases first.runOn state with ⟨outcome, reached⟩
  cases outcome with
  | error error => simp
  | ok value =>
    constructor
    · exact fun hrest => ⟨value, reached, rfl, hrest⟩
    · rintro ⟨value', reached', hfirst, hrest⟩
      cases hfirst
      exact hrest

theorem runOn_attempt (error : ε) (operation : σ → σ × Bool) (state : σ) :
    (attempt error operation).runOn state =
      (if (operation state).2 then .ok () else .error error, (operation state).1) := by
  have hrest : (attempt error operation).runOn state =
      (if (operation state).2 then pure () else throw error : Action σ ε Unit).runOn
        (operation state).1 := rfl
  rw [hrest]
  cases (operation state).2 <;> rfl

theorem runOn_attempt_eq_ok_iff {error : ε} {operation : σ → σ × Bool} {state next : σ} :
    (attempt error operation).runOn state = (.ok (), next) ↔ operation state = (next, true) := by
  rw [runOn_attempt]
  rcases operation state with ⟨reached, done⟩
  cases done <;> simp

theorem runOn_get_bind (rest : σ → Action σ ε α) (state : σ) :
    ((get : Action σ ε σ) >>= rest).runOn state = (rest state).runOn state :=
  rfl

theorem runOn_mapError {ε' : Type} (rename : ε → ε') (action : Action σ ε α) (state : σ) :
    (action.mapError rename).runOn state =
      ((action.runOn state).1.mapError rename, (action.runOn state).2) :=
  rfl

theorem runOn_ofOutcome (outcome : Except ε α) (state : σ) :
    (ofOutcome outcome : Action σ ε α).runOn state = (outcome, state) := by
  cases outcome <;> rfl

theorem runOn_ofOutcome_bind (outcome : Except ε α) (rest : α → Action σ ε β) (state : σ) :
    (ofOutcome outcome >>= rest).runOn state =
      match outcome with
      | .ok value => (rest value).runOn state
      | .error error => (.error error, state) := by
  cases outcome <;> rfl

theorem runOn_ofOutcome_eq_ok_iff {outcome : Except ε α} {result : α} {state next : σ} :
    (ofOutcome outcome : Action σ ε α).runOn state = (.ok result, next) ↔
      outcome = .ok result ∧ state = next := by
  rw [runOn_ofOutcome, Prod.mk.injEq]

end Action

/-! ## Places -/

/-- The place that components lead to from another one, if nothing is in the way. -/
def Place.along : Place → List Component → Place
  | place, [] => place
  | _, .root :: rest => along [] rest
  | place, .here :: rest => along place rest
  | place, .parent :: rest => along place.dropLast rest
  | place, .name text :: rest => along (place ++ [text]) rest

/-- The place of a path. -/
def Path.place (path : Path) : Place :=
  Place.along [] path.components

namespace Volume

variable {volume before after : Volume} {place found : Place} {path : Path} {text : String}

theorem eq_along_of_follow? {components : List Component}
    (hfollow : volume.follow? place components = some found) :
    found = Place.along place components := by
  fun_induction follow? volume place components with
  | case1 place => simpa [Place.along] using hfollow.symm
  | case2 _ rest ih => exact ih hfollow
  | case3 place rest ih => exact ih hfollow
  | case4 place rest _ ih => exact ih hfollow
  | case5 => cases hfollow
  | case6 place text rest _ ih => exact ih hfollow
  | case7 => cases hfollow

/-- What one volume has, another one has too: every directory, and every file whose place is not
among the given ones. -/
structure Keeps (before after : Volume) (places : List Place) : Prop where
  directory : ∀ place, before.isDirectory place = true → after.isDirectory place = true
  file : ∀ place text, place ∉ places → before.get? place = some (.file text) →
    after.get? place = some (.file text)

theorem Keeps.refl (volume : Volume) : volume.Keeps volume [] :=
  ⟨fun _ hdirectory => hdirectory, fun _ _ _ hfile => hfile⟩

theorem Keeps.trans {middle : Volume} {places places' : List Place}
    (hfirst : before.Keeps middle places) (hsecond : middle.Keeps after places') :
    before.Keeps after (places ++ places') where
  directory place hdirectory := hsecond.directory place (hfirst.directory place hdirectory)
  file place text hplace hfile := by
    rw [List.mem_append, not_or] at hplace
    exact hsecond.file place text hplace.2 (hfirst.file place text hplace.1 hfile)

theorem get?_insert (volume : Volume) (place other : Place) (stored : Stored)
    (hplace : place ≠ []) :
    (volume.insert place stored).get? other =
      if other = place then some stored else volume.get? other := by
  by_cases hother : other = place
  · subst hother
    have hnone : (volume.entries.filter (·.1 != other)).find? (·.1 == other) = none := by
      simp
    simp [get?, insert, List.find?_append, hnone, hplace]
  · have hsame : (volume.entries.filter (·.1 != place)).find? (·.1 == other) =
        volume.entries.find? (·.1 == other) := by
      rw [List.find?_filter]
      congr 1
      funext entry
      by_cases hentry : entry.1 = other
      · simp [hentry, hother]
      · simp [hentry]
    simp [get?, insert, List.find?_append, hsame, hother, Ne.symm hother]

theorem Keeps.follow? {places : List Place} (hkeeps : before.Keeps after places)
    {components : List Component} (hfollow : before.follow? place components = some found) :
    after.follow? place components = some found := by
  fun_induction Volume.follow? before place components with
  | case1 place => simpa [Volume.follow?] using hfollow
  | case2 _ rest ih => exact ih hfollow
  | case3 place rest ih => exact ih hfollow
  | case4 place rest hdirectory ih =>
    rw [Volume.follow?, hkeeps.directory place hdirectory, if_pos rfl]
    exact ih hfollow
  | case5 => cases hfollow
  | case6 place text rest hname ih =>
    rw [Bool.and_eq_true] at hname
    rw [Volume.follow?, hkeeps.directory place hname.1, hname.2]
    exact ih hfollow
  | case7 => cases hfollow

/-- A directory that is made where nothing was is all that changes. -/
theorem keeps_insert_directory (hnone : volume.get? place = none) :
    volume.Keeps (volume.insert place .directory) [] := by
  have hplace : place ≠ [] := by
    rintro rfl
    cases hnone
  constructor
  · intro other hother
    rw [isDirectory, get?_insert _ _ _ _ hplace]
    split
    · rfl
    · exact hother
  · intro other text _ hfile
    rw [get?_insert _ _ _ _ hplace, if_neg]
    · exact hfile
    · rintro rfl
      rw [hnone] at hfile
      cases hfile

theorem keeps_createAlong (volume : Volume) (place : Place) (components : List Component) :
    volume.Keeps (volume.createAlong place components).1 [] := by
  fun_induction createAlong volume place components with
  | case1 volume => exact .refl volume
  | case2 _ _ _ ih => exact ih
  | case3 _ _ _ ih => exact ih
  | case4 _ _ _ ih => exact ih
  | case5 volume => exact .refl volume
  | case6 _ _ _ _ _ _ _ ih => exact ih
  | case7 volume => exact .refl volume
  | case8 volume place text rest next _ hnone ih => exact (keeps_insert_directory hnone).trans ih

theorem keeps_createDirs (volume : Volume) (path : Path) :
    volume.Keeps (volume.createDirs path).1 [] := by
  rw [createDirs]
  split
  · exact .refl volume
  · exact keeps_createAlong volume [] path.components

theorem place?_eq_some_iff :
    volume.place? path = some place ↔
      path.text ≠ "" ∧ volume.follow? [] path.components = some place := by
  rw [place?]
  split
  · next hempty => simp [hempty]
  · next hempty => simp [hempty]

theorem ne_empty_of_endsOpen (hends : endsOpen path = false) : path.text ≠ "" := by
  intro hempty
  rw [endsOpen, hempty] at hends
  cases hends

theorem filePlace?_eq_some_iff :
    volume.filePlace? path = some place ↔
      endsOpen path = false ∧ volume.follow? [] path.components = some place := by
  rw [filePlace?]
  cases hends : endsOpen path with
  | true => simp
  | false => simp [place?_eq_some_iff, ne_empty_of_endsOpen hends]

/-- A path can be read if it leads to a file. -/
theorem read_eq_some_iff :
    volume.read path = some text ↔
      endsOpen path = false ∧ volume.follow? [] path.components = some path.place ∧
        volume.get? path.place = some (.file text) := by
  rw [read]
  constructor
  · intro hread
    split at hread
    · next found hfound =>
      cases hread
      obtain ⟨place, hfile, hstored⟩ := Option.bind_eq_some_iff.mp hfound
      obtain ⟨hends, hfollow⟩ := filePlace?_eq_some_iff.mp hfile
      obtain rfl : place = path.place := eq_along_of_follow? hfollow
      exact ⟨hends, hfollow, hstored⟩
    · cases hread
  · rintro ⟨hends, hfollow, hstored⟩
    simp [filePlace?_eq_some_iff.mpr ⟨hends, hfollow⟩, hstored]

/-- A place has one text. -/
theorem eq_of_read_eq_some {left right : Path} {text' : String} (hplace : left.place = right.place)
    (hleft : volume.read left = some text) (hright : volume.read right = some text') :
    text = text' := by
  have hstored := (read_eq_some_iff.mp hleft).2.2
  rw [hplace, (read_eq_some_iff.mp hright).2.2] at hstored
  cases hstored
  rfl

/-- A file that was written has its text, and nothing else changes. -/
theorem keeps_write (hwrite : before.write path text = (after, true)) :
    before.Keeps after [path.place] ∧ after.read path = some text := by
  rw [write] at hwrite
  split at hwrite
  · cases hwrite
  · next place hplace =>
    split at hwrite
    · cases hwrite
    · next hdirectory =>
      cases hwrite
      obtain ⟨hends, hfollow⟩ := filePlace?_eq_some_iff.mp hplace
      obtain rfl : place = path.place := eq_along_of_follow? hfollow
      have hne : path.place ≠ [] := by
        intro hroot
        rw [hroot] at hdirectory
        exact hdirectory rfl
      have hkeeps : before.Keeps (before.insert path.place (.file text)) [path.place] := by
        constructor
        · intro other hother
          rw [isDirectory, get?_insert _ _ _ _ hne, if_neg]
          · exact hother
          · rintro rfl
            exact hdirectory hother
        · intro other text' hother hfile
          rw [get?_insert _ _ _ _ hne, if_neg (by simpa using hother)]
          exact hfile
      refine ⟨hkeeps, ?_⟩
      apply read_eq_some_iff.mpr
      refine ⟨hends, hkeeps.follow? hfollow, ?_⟩
      rw [get?_insert _ _ _ _ hne, if_pos rfl]

/-- A text can still be read if nothing was written to its place. -/
theorem Keeps.read {places : List Place} (hkeeps : before.Keeps after places)
    (hplace : path.place ∉ places) (hread : before.read path = some text) :
    after.read path = some text := by
  obtain ⟨hends, hfollow, hstored⟩ := read_eq_some_iff.mp hread
  apply read_eq_some_iff.mpr
  exact ⟨hends, hkeeps.follow? hfollow, hkeeps.file _ text hplace hstored⟩

end Volume

end Storage

/-! ## Sequences of writes -/

open Storage (Path Place Action Volume)

theorem keeps_writeFile {path : Path} {text : String} {before after : Volume}
    (hwrite : (writeFile Volume.disk path text).runOn before = (.ok (), after)) :
    before.Keeps after [path.place] ∧ after.read path = some text := by
  have hlast : ∀ middle : Volume, before.Keeps middle [] →
      (Action.attempt (WriteError.failed path) (Volume.disk.write · path text)).runOn middle =
        (.ok (), after) →
      before.Keeps after [path.place] ∧ after.read path = some text := by
    intro middle hmiddle hwrite
    obtain ⟨hkeeps, hread⟩ := Volume.keeps_write (Action.runOn_attempt_eq_ok_iff.mp hwrite)
    exact ⟨hmiddle.trans hkeeps, hread⟩
  rw [writeFile] at hwrite
  split at hwrite
  · next parent _ =>
    obtain ⟨⟨⟩, middle, hcreate, hwrite⟩ := Action.runOn_bind_eq_ok_iff.mp hwrite
    have hmiddle := Volume.keeps_createDirs before parent
    have hcreated : before.createDirs parent = (middle, true) :=
      Action.runOn_attempt_eq_ok_iff.mp hcreate
    rw [hcreated] at hmiddle
    exact hlast middle hmiddle hwrite
  · exact hlast before (.refl before) hwrite

theorem runOn_writeFile_eq_ok {path : Path} (parent : Path) {text : String}
    {before middle after : Volume} (hparent : path.parent? = some parent)
    (hcreate : before.createDirs parent = (middle, true))
    (hwrite : middle.write path text = (after, true)) :
    (writeFile Volume.disk path text).runOn before = (.ok (), after) := by
  rw [writeFile, hparent]
  apply Action.runOn_bind_eq_ok_iff.mpr
  exact ⟨(), middle, Action.runOn_attempt_eq_ok_iff.mpr hcreate,
    Action.runOn_attempt_eq_ok_iff.mpr hwrite⟩

/-- After a sequence of writes, a file has its text unless something was written to its place
later. -/
theorem keeps_writeFiles {files : List (Path × String)} {before after : Volume}
    (hwrite : (files.forM fun (path, text) => writeFile Volume.disk path text).runOn before =
      (.ok (), after)) :
    before.Keeps after (files.map (·.1.place)) ∧
      ∀ front path text back, files = front ++ (path, text) :: back →
        path.place ∉ back.map (·.1.place) → after.read path = some text := by
  induction files generalizing before with
  | nil =>
    obtain ⟨-, rfl⟩ := Action.runOn_pure_eq_iff.mp hwrite
    exact ⟨.refl before, by simp⟩
  | cons file files ih =>
    obtain ⟨path, text⟩ := file
    obtain ⟨⟨⟩, middle, hfirst, hrest⟩ := Action.runOn_bind_eq_ok_iff.mp hwrite
    obtain ⟨hkeeps, hread⟩ := keeps_writeFile hfirst
    obtain ⟨hlater, hreads⟩ := ih hrest
    refine ⟨hkeeps.trans hlater, fun front path' text' back hfiles hplace => ?_⟩
    cases front with
    | nil =>
      cases hfiles
      exact hlater.read hplace hread
    | cons first front =>
      cases hfiles
      exact hreads front path' text' back rfl hplace

end SchemaLoom
