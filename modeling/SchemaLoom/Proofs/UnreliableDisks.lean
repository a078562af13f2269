import Mathlib.Data.List.Infix
import SchemaLoom.Proofs.StoredFiles

/-!
# Unreliable disks

Any operation of a disk may fail.  A disk is backed by a volume if what it reports as done was done
there: a failed write creates no file, and directories appear only on the way to what is asked for.
A volume is such a disk, and so is a disk that breaks down at any times, and one that notes every
operation together with the state it leaves.
-/

namespace SchemaLoom

namespace Storage

/-! ## Places on the way -/

/-- The first of the components lead from the one place to the other. -/
def Place.Crosses (place : Place) (components : List Component) (other : Place) : Prop :=
  ∃ front, front <+: components ∧ Place.along place front = other

theorem Place.Crosses.cons {place next other : Place} {component : Component}
    {rest : List Component} (hcrosses : next.Crosses rest other)
    (hnext : ∀ front, Place.along place (component :: front) = Place.along next front) :
    place.Crosses (component :: rest) other := by
  obtain ⟨front, hfront, hplace⟩ := hcrosses
  exact ⟨component :: front, List.cons_prefix_cons.mpr ⟨rfl, hfront⟩, (hnext front).trans hplace⟩

namespace Path

/-- The places that the components of a path lead through. -/
def crossed (path : Path) : List Place :=
  path.components.inits.map (Place.along [])

/-- The places of the directories that are made before a file is written. -/
def above (path : Path) : List Place :=
  match path.parent? with
  | some parent => parent.crossed
  | none => []

theorem mem_crossed_iff {path : Path} {place : Place} :
    place ∈ path.crossed ↔ Place.Crosses [] path.components place := by
  simp only [crossed, List.mem_map, List.mem_inits, Place.Crosses]

end Path

namespace Volume

variable {volume before after : Volume} {place other found : Place} {path : Path} {text : String}

/-- Something stands where the path leads. -/
def Has (volume : Volume) (path : Path) : Prop :=
  ∃ place stored, volume.place? path = some place ∧ volume.get? place = some stored

theorem not_has_of_get?_eq_none (hnone : volume.get? path.place = none) : ¬volume.Has path := by
  rintro ⟨place, stored, hplace, hstored⟩
  obtain rfl : place = path.place := eq_along_of_follow? (place?_eq_some_iff.mp hplace).2
  rw [hnone] at hstored
  cases hstored

/-- An empty path leads to nothing, whatever stands on the volume. -/
theorem not_has_of_empty (hempty : path.text = "") : ¬volume.Has path := by
  rintro ⟨place, stored, hplace, -⟩
  exact (place?_eq_some_iff.mp hplace).1 hempty

theorem has_of_read (hread : volume.read path = some text) : volume.Has path := by
  obtain ⟨hends, hfollow, hstored⟩ := read_eq_some_iff.mp hread
  have hplace := place?_eq_some_iff.mpr ⟨ne_empty_of_endsOpen hends, hfollow⟩
  exact ⟨path.place, .file text, hplace, hstored⟩

/-- What is there stays there, if something is at the places that changed. -/
theorem Keeps.has {places : List Place} (hkeeps : before.Keeps after places)
    (hplaces : ∀ place ∈ places, ∃ stored, after.get? place = some stored)
    (hhas : before.Has path) : after.Has path := by
  obtain ⟨place, stored, hplace, hstored⟩ := hhas
  obtain ⟨stored', hstored'⟩ : ∃ stored', after.get? place = some stored' := by
    by_cases hmem : place ∈ places
    · exact hplaces place hmem
    · cases stored with
      | file text => exact ⟨.file text, hkeeps.file place text hmem hstored⟩
      | directory =>
        have hdirectory := hkeeps.directory place (by rw [isDirectory, hstored]; rfl)
        exact ⟨.directory, by simpa [isDirectory] using hdirectory⟩
  obtain ⟨hpath, hfollow⟩ := place?_eq_some_iff.mp hplace
  exact ⟨place, stored', place?_eq_some_iff.mpr ⟨hpath, hkeeps.follow? hfollow⟩, hstored'⟩

theorem keeps_of_get?_eq (hsame : after.get? = before.get?) : before.Keeps after [] where
  directory place hdirectory := by rwa [isDirectory, hsame]
  file place text _ hfile := by rwa [hsame]

/-! ### What the operations leave -/

/-- Directories appear only along the components, where nothing was. -/
theorem get?_createAlong (volume : Volume) (place : Place) (components : List Component)
    (other : Place) :
    (volume.createAlong place components).1.get? other = volume.get? other ∨
      volume.get? other = none ∧
        (volume.createAlong place components).1.get? other = some .directory ∧
          place.Crosses components other := by
  fun_induction createAlong volume place components with
  | case1 volume => exact .inl rfl
  | case2 volume _ rest ih | case3 volume place rest ih | case4 volume place rest ih
  | case6 volume place text rest next _ hdirectory ih =>
    -- Nothing is made here, and the rest of the way starts from where this component leads.
    exact ih.imp_right fun hnew => ⟨hnew.1, hnew.2.1, hnew.2.2.cons fun _ => rfl⟩
  | case5 volume | case7 volume => exact .inl rfl
  | case8 volume place text rest next _ hnext ih =>
    have hne : next ≠ [] := by simp [next]
    rw [get?_insert _ _ _ _ hne] at ih
    by_cases hother : other = next
    · subst hother
      rw [if_pos rfl] at ih
      refine .inr ⟨hnext, ?_, [.name text], by simp, rfl⟩
      rcases ih with hsame | ⟨hnone, -⟩
      · exact hsame
      · cases hnone
    · rw [if_neg hother] at ih
      exact ih.imp_right fun hnew => ⟨hnew.1, hnew.2.1, hnew.2.2.cons fun _ => rfl⟩

theorem get?_createDirs (volume : Volume) (path : Path) (place : Place) :
    (volume.createDirs path).1.get? place = volume.get? place ∨
      volume.get? place = none ∧ (volume.createDirs path).1.get? place = some .directory ∧
        place ∈ path.crossed := by
  rw [createDirs]
  split
  · exact .inl rfl
  · rw [Path.mem_crossed_iff]
    exact get?_createAlong volume [] path.components place

theorem write_failed (hwrite : (volume.write path text).2 = false) :
    (volume.write path text).1 = volume := by
  rw [write] at hwrite ⊢
  split
  · rfl
  · split
    · rfl
    · next hplace hdirectory => simp [hplace, hdirectory] at hwrite

theorem get?_write_of_ne (hplace : place ≠ path.place) :
    (volume.write path text).1.get? place = volume.get? place := by
  rw [write]
  split
  · rfl
  · next found hfound =>
    split
    · rfl
    · next hdirectory =>
      obtain rfl : found = path.place := eq_along_of_follow? (filePlace?_eq_some_iff.mp hfound).2
      have hne : path.place ≠ [] := by
        intro hroot
        rw [hroot] at hdirectory
        exact hdirectory rfl
      rw [get?_insert _ _ _ _ hne, if_neg hplace]

theorem get?_erase_self (hplace : place ≠ []) : (volume.erase place).get? place = none := by
  have hroot : place.isEmpty = false := by simpa using hplace
  rw [get?, hroot, erase]
  simp

/-- A path that counts as missing leads to nothing. -/
theorem get?_eq_none_of_isMissing {components : List Component}
    (hmissing : volume.isMissing place components = true)
    (hfollow : volume.follow? place components = some found) : volume.get? found = none := by
  fun_induction follow? volume place components with
  | case1 place =>
    obtain rfl := Option.some.inj hfollow
    simpa [isMissing] using hmissing
  | case2 _ rest ih => exact ih hmissing hfollow
  | case3 place rest ih => exact ih hmissing hfollow
  | case4 place rest hdirectory ih =>
    have hget : volume.get? place = some .directory := by simpa [isDirectory] using hdirectory
    rw [isMissing, hget] at hmissing
    exact ih hmissing hfollow
  | case5 => cases hfollow
  | case6 place text rest hname ih =>
    obtain ⟨hdirectory, -⟩ := Bool.and_eq_true_iff.mp hname
    have hget : volume.get? place = some .directory := by simpa [isDirectory] using hdirectory
    rw [isMissing, hget] at hmissing
    exact ih (Bool.and_eq_true_iff.mp hmissing).2 hfollow
  | case7 => cases hfollow

/-- After a removal nothing is at the place of the path, if the path led there before. -/
theorem get?_remove (hremove : (volume.remove path).2 = true)
    (hplace : volume.place? path = some path.place ∨ volume.get? path.place = none) :
    (volume.remove path).1.get? path.place = none := by
  rw [remove] at hremove ⊢
  split
  · next hlacks =>
    rcases hplace with hfound | hnone
    · obtain ⟨hpath, hfollow⟩ := place?_eq_some_iff.mp hfound
      have hmissing : volume.isMissing [] path.components = true := by
        simp only [lacks, hpath, decide_false, Bool.false_or, Bool.and_eq_true] at hlacks
        exact hlacks.1
      exact get?_eq_none_of_isMissing hmissing hfollow
    · exact hnone
  · next hlacks =>
    rw [if_neg hlacks] at hremove
    split
    · next hnone => simp [hnone] at hremove
    · next found hfound =>
      obtain rfl : found = path.place := eq_along_of_follow? (filePlace?_eq_some_iff.mp hfound).2
      split
      · next hfile =>
        apply get?_erase_self
        intro hroot
        rw [hroot] at hfile
        cases hfile
      · simp [hfound] at hremove

end Volume

/-! ## Disks backed by a volume -/

variable {σ : Type}

/-- What such a disk reports as done was done on the volume.  A failed write creates nothing, and
directories are made only along their path, whether all of them can be made or not. -/
structure Disk.Backed (disk : Disk σ) (view : σ → Volume) : Prop where
  created : ∀ state path place,
    (view (disk.createDirs state path).1).get? place = (view state).get? place ∨
      (view state).get? place = none ∧
        (view (disk.createDirs state path).1).get? place = some .directory ∧ place ∈ path.crossed
  written : ∀ state path text, (disk.write state path text).2 = true →
    ((view state).write path text).2 = true ∧
      (view (disk.write state path text).1).get? = ((view state).write path text).1.get?
  not_written : ∀ state path text, (disk.write state path text).2 = false →
    ∀ place, (view state).get? place = none →
      (view (disk.write state path text).1).get? place = none
  removed : ∀ state path, (disk.remove state path).2 = true →
    ((view state).remove path).2 = true ∧
      (view (disk.remove state path).1).get? = ((view state).remove path).1.get?

theorem Volume.backed_disk : Volume.disk.Backed id where
  created := get?_createDirs
  written _ _ _ hdone := ⟨hdone, rfl⟩
  not_written _ _ _ hfailed _ hnone := (congrArg (get? · _) (write_failed hfailed)).trans hnone
  removed _ _ hdone := ⟨hdone, rfl⟩

namespace Disk

/-- Do an operation unless the plan says that it fails now. -/
def interrupt (operation : σ → σ × Bool) : σ × List Bool → (σ × List Bool) × Bool
  | (state, true :: later) => ((state, later), false)
  | (state, later) => (((operation state).1, later.tail), (operation state).2)

/-- A disk that breaks down as planned: the list says which operations fail. -/
def interrupted (disk : Disk σ) : Disk (σ × List Bool) where
  read state path := if state.2.head? = some true then none else disk.read state.1 path
  createDirs state path := interrupt (disk.createDirs · path) state
  write state path text := interrupt (disk.write · path text) state
  remove state path := interrupt (disk.remove · path) state

/-- An operation was done or nothing happened. -/
theorem interrupt_cases (operation : σ → σ × Bool) (state : σ × List Bool) :
    (interrupt operation state).1.1 = state.1 ∧ (interrupt operation state).2 = false ∨
      (interrupt operation state).1.1 = (operation state.1).1 ∧
        (interrupt operation state).2 = (operation state.1).2 := by
  obtain ⟨state, plan⟩ := state
  match plan with
  | [] => exact .inr ⟨rfl, rfl⟩
  | true :: later => exact .inl ⟨rfl, rfl⟩
  | false :: later => exact .inr ⟨rfl, rfl⟩

theorem Backed.interrupted {disk : Disk σ} {view : σ → Volume} (hbacked : disk.Backed view) :
    disk.interrupted.Backed fun state => view state.1 where
  created state path place := by
    rcases interrupt_cases (disk.createDirs · path) state with ⟨hstate, -⟩ | ⟨hstate, -⟩
    · exact .inl (congrArg (fun state => (view state).get? place) hstate)
    · simp only [Disk.interrupted, hstate]
      exact hbacked.created state.1 path place
  written state path text hdone := by
    rcases interrupt_cases (disk.write · path text) state with ⟨-, hfailed⟩ | ⟨hstate, hsame⟩
    · cases hdone.symm.trans hfailed
    · simp only [Disk.interrupted, hstate]
      exact hbacked.written state.1 path text (hsame ▸ hdone)
  not_written state path text hfailed place hnone := by
    rcases interrupt_cases (disk.write · path text) state with ⟨hstate, -⟩ | ⟨hstate, hsame⟩
    · simp only [Disk.interrupted, hstate]
      exact hnone
    · simp only [Disk.interrupted, hstate]
      exact hbacked.not_written state.1 path text (hsame ▸ hfailed) place hnone
  removed state path hdone := by
    rcases interrupt_cases (disk.remove · path) state with ⟨-, hfailed⟩ | ⟨hstate, hsame⟩
    · cases hdone.symm.trans hfailed
    · simp only [Disk.interrupted, hstate]
      exact hbacked.removed state.1 path (hsame ▸ hdone)

end Disk

/-! ## Disks that note what happens -/

inductive Operation where
  | createDirs (path : Path)
  | write (path : Path) (text : String)
  | remove (path : Path)

/-- An operation, whether it was done, and the state it left. -/
structure Moment (σ : Type) where
  operation : Operation
  done : Bool
  state : σ

/-- A state with all that happened so far. -/
structure Recorded (σ : Type) where
  now : σ
  log : List (Moment σ)

def Recorded.note (record : Recorded σ) (operation : Operation) (outcome : σ × Bool) :
    Recorded σ × Bool :=
  (⟨outcome.1, record.log ++ [⟨operation, outcome.2, outcome.1⟩]⟩, outcome.2)

namespace Disk

/-- The same disk, with a log of its operations. -/
def recorded (disk : Disk σ) : Disk (Recorded σ) where
  read record path := disk.read record.now path
  createDirs record path := record.note (.createDirs path) (disk.createDirs record.now path)
  write record path text := record.note (.write path text) (disk.write record.now path text)
  remove record path := record.note (.remove path) (disk.remove record.now path)

variable {disk : Disk σ} {view : σ → Volume}

theorem Backed.recorded (hbacked : disk.Backed view) :
    disk.recorded.Backed fun record => view record.now where
  created record := hbacked.created record.now
  written record := hbacked.written record.now
  not_written record := hbacked.not_written record.now
  removed record := hbacked.removed record.now

/-! ## What stays on a backed disk -/

namespace Backed

variable {state next : σ} {path : Path} {text : String} {place : Place}

theorem absent_createDirs (hbacked : disk.Backed view) (hplace : place ∉ path.crossed)
    (hnone : (view state).get? place = none) :
    (view (disk.createDirs state path).1).get? place = none := by
  rcases hbacked.created state path place with hsame | ⟨-, -, hcrossed⟩
  · exact hsame.trans hnone
  · exact absurd hcrossed hplace

theorem absent_write (hbacked : disk.Backed view) (hplace : place ≠ path.place)
    (hnone : (view state).get? place = none) :
    (view (disk.write state path text).1).get? place = none := by
  cases hdone : (disk.write state path text).2 with
  | false => exact hbacked.not_written state path text hdone place hnone
  | true =>
    rw [(hbacked.written state path text hdone).2, Volume.get?_write_of_ne hplace]
    exact hnone

theorem absent_remove (hbacked : disk.Backed view) (hdone : (disk.remove state path).2 = true)
    (hplace : (view state).place? path = some path.place ∨ (view state).get? path.place = none) :
    (view (disk.remove state path).1).get? path.place = none := by
  obtain ⟨hremoved, hsame⟩ := hbacked.removed state path hdone
  rw [hsame]
  exact Volume.get?_remove hremoved hplace

theorem keeps_createDirs (hbacked : disk.Backed view) :
    (view state).Keeps (view (disk.createDirs state path).1) [] where
  directory place hdirectory := by
    rw [Volume.isDirectory] at hdirectory ⊢
    rcases hbacked.created state path place with hsame | ⟨hnone, -⟩
    · rwa [hsame]
    · rw [hnone] at hdirectory
      cases hdirectory
  file place text _ hfile := by
    rcases hbacked.created state path place with hsame | ⟨hnone, -⟩
    · rwa [hsame]
    · rw [hnone] at hfile
      cases hfile

theorem keeps_write (hbacked : disk.Backed view) (hdone : (disk.write state path text).2 = true) :
    (view state).Keeps (view (disk.write state path text).1) [path.place] ∧
      (view (disk.write state path text).1).read path = some text := by
  obtain ⟨hwritten, hsame⟩ := hbacked.written state path text hdone
  obtain ⟨hkeeps, hread⟩ := Volume.keeps_write (Prod.ext rfl hwritten)
  have hview := Volume.keeps_of_get?_eq hsame
  exact ⟨hkeeps.trans hview, hview.read List.not_mem_nil hread⟩

end Backed

end Disk

end Storage

end SchemaLoom
