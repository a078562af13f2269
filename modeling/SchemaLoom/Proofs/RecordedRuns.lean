import SchemaLoom.Proofs.Outcome
import SchemaLoom.Proofs.UnreliableDisks

/-!
# Runs on any disk

What a run does is said without saying what the disk is: the removal of the marker, a plan that
depends only on the state after it, and then writes one after the other until one of them fails.
Noting the operations changes nothing of this.
-/

namespace SchemaLoom

open Storage (Path Disk Action Volume Moment Operation Recorded)

variable {σ : Type}

/-! ## Writing on any disk -/

/-- Write files one after the other. -/
def writeFiles (disk : Disk σ) (files : List (Path × String)) : Action σ WriteError Unit :=
  files.forM fun (path, text) => writeFile disk path text

section Runs

variable {disk : Disk σ} {path : Path} {text : String} {state next : σ}

theorem runOn_writeFile_of_none (hparent : path.parent? = none) :
    (writeFile disk path text).runOn state =
      (if (disk.write state path text).2 then .ok () else .error (.failed path),
        (disk.write state path text).1) := by
  rw [writeFile, hparent]
  exact Action.runOn_attempt _ _ _

theorem runOn_writeFile_of_some {parent : Path} (hparent : path.parent? = some parent) :
    (writeFile disk path text).runOn state =
      if (disk.createDirs state parent).2 then
        (if (disk.write (disk.createDirs state parent).1 path text).2 then .ok ()
          else .error (.failed path), (disk.write (disk.createDirs state parent).1 path text).1)
      else (.error (.failed parent), (disk.createDirs state parent).1) := by
  rw [writeFile, hparent]
  change (Action.attempt _ _ >>= fun _ => Action.attempt _ _).runOn state = _
  rw [Action.runOn_bind, Action.runOn_attempt]
  cases (disk.createDirs state parent).2 with
  | false => rfl
  | true => exact Action.runOn_attempt _ _ _

/-- A state in which the file itself is written, with the directories above it made before. -/
def Prepared (disk : Disk σ) (path : Path) (state reached : σ) : Prop :=
  reached = state ∨
    ∃ parent, path.parent? = some parent ∧ reached = (disk.createDirs state parent).1

theorem Prepared.preserves {reached : σ} (holds : σ → Prop)
    (hprepared : Prepared disk path state reached)
    (hcreate : ∀ state parent, path.parent? = some parent → holds state →
      holds (disk.createDirs state parent).1)
    (hstate : holds state) : holds reached := by
  rcases hprepared with rfl | ⟨parent, hparent, rfl⟩
  · exact hstate
  · exact hcreate state parent hparent hstate

/-- A write ends with the directories, which could not be made, or with the file. -/
theorem runOn_writeFile_cases (disk : Disk σ) (path : Path) (text : String) (state : σ) :
    ∃ reached, Prepared disk path state reached ∧
      ((∃ error, (writeFile disk path text).runOn state = (.error error, reached)) ∨
        (writeFile disk path text).runOn state =
          (if (disk.write reached path text).2 then .ok () else .error (.failed path),
            (disk.write reached path text).1)) := by
  cases hparent : path.parent? with
  | none => exact ⟨state, .inl rfl, .inr (runOn_writeFile_of_none hparent)⟩
  | some parent =>
    refine ⟨(disk.createDirs state parent).1, .inr ⟨parent, hparent, rfl⟩, ?_⟩
    rw [runOn_writeFile_of_some hparent]
    split
    · exact .inr rfl
    · exact .inl ⟨_, rfl⟩

/-- What the operations of a write preserve, the write preserves, also when it fails. -/
theorem writeFile_preserves (holds : σ → Prop)
    (hcreate : ∀ state parent, path.parent? = some parent → holds state →
      holds (disk.createDirs state parent).1)
    (hwrite : ∀ state, holds state → holds (disk.write state path text).1) (hstate : holds state) :
    holds ((writeFile disk path text).runOn state).2 := by
  obtain ⟨reached, hprepared, hend⟩ := runOn_writeFile_cases disk path text state
  have hreached := hprepared.preserves holds hcreate hstate
  rcases hend with ⟨error, hrun⟩ | hrun
  · rw [hrun]
    exact hreached
  · rw [hrun]
    exact hwrite reached hreached

/-- What is not lost by directories and by a failed write is not lost by a write that fails. -/
theorem writeFile_preserves_of_error (holds : σ → Prop) {error : WriteError}
    (hcreate : ∀ state parent, path.parent? = some parent → holds state →
      holds (disk.createDirs state parent).1)
    (hfailed : ∀ state, (disk.write state path text).2 = false → holds state →
      holds (disk.write state path text).1)
    (hrun : (writeFile disk path text).runOn state = (.error error, next)) (hstate : holds state) :
    holds next := by
  obtain ⟨reached, hprepared, hend⟩ := runOn_writeFile_cases disk path text state
  have hreached := hprepared.preserves holds hcreate hstate
  rw [hrun] at hend
  rcases hend with ⟨_, hend⟩ | hend
  · obtain ⟨-, rfl⟩ := Prod.mk.inj hend
    exact hreached
  · obtain ⟨herror, rfl⟩ := Prod.mk.inj hend
    cases hdone : (disk.write reached path text).2 with
    | true => simp [hdone] at herror
    | false => exact hfailed reached hdone hreached

theorem runOn_writeFiles_cons (file : Path × String) (files : List (Path × String)) :
    (writeFiles disk (file :: files)).runOn state =
      (writeFile disk file.1 file.2 >>= fun _ => writeFiles disk files).runOn state :=
  rfl

/-- What the operations for each file preserve, a run over the files preserves. -/
theorem writeFiles_preserves (holds : σ → Prop) {files : List (Path × String)}
    (hfiles : ∀ file ∈ files, ∀ state, holds state →
      holds ((writeFile disk file.1 file.2).runOn state).2)
    (hstate : holds state) : holds ((writeFiles disk files).runOn state).2 := by
  induction files generalizing state with
  | nil => exact hstate
  | cons file files ih =>
    obtain ⟨hfile, hfiles⟩ := List.forall_mem_cons.mp hfiles
    have hreached := hfile state hstate
    rw [runOn_writeFiles_cons, Action.runOn_bind]
    split
    · next _ reached hrun =>
      rw [hrun] at hreached
      exact ih hfiles hreached
    · next error reached hrun =>
      rw [hrun] at hreached
      exact hreached

/-- A file that was written was written by the last operation. -/
theorem exists_write_of_writeFile_eq_ok
    (hrun : (writeFile disk path text).runOn state = (.ok (), next)) :
    ∃ reached, Prepared disk path state reached ∧ disk.write reached path text = (next, true) := by
  obtain ⟨reached, hprepared, hend⟩ := runOn_writeFile_cases disk path text state
  rw [hrun] at hend
  rcases hend with ⟨_, hend⟩ | hend
  · cases (Prod.mk.inj hend).1
  · obtain ⟨hok, rfl⟩ := Prod.mk.inj hend
    cases hdone : (disk.write reached path text).2 with
    | true => exact ⟨reached, hprepared, Prod.ext rfl hdone⟩
    | false => simp [hdone] at hok

end Runs

/-! ## Files that are there -/

section Backed

variable {disk : Disk σ} {view : σ → Volume} {path : Path} {text : String} {state next : σ}

theorem has_writeFile (hbacked : disk.Backed view)
    (hrun : (writeFile disk path text).runOn state = (.ok (), next)) :
    (view next).Has path ∧ ∀ other, (view state).Has other → (view next).Has other := by
  obtain ⟨reached, hprepared, hwrite⟩ := exists_write_of_writeFile_eq_ok hrun
  have hcreated : (view state).Keeps (view reached) [] := by
    rcases hprepared with rfl | ⟨parent, -, rfl⟩
    · exact .refl _
    · exact hbacked.keeps_createDirs
  obtain ⟨hkeeps, hread⟩ := hbacked.keeps_write (congrArg Prod.snd hwrite)
  rw [hwrite] at hkeeps hread
  have hplace : ∀ place ∈ [path.place], ∃ stored, (view next).get? place = some stored := by
    rw [List.forall_mem_singleton]
    exact ⟨.file text, (Volume.read_eq_some_iff.mp hread).2.2⟩
  refine ⟨Volume.has_of_read hread, fun other hother => ?_⟩
  exact hkeeps.has hplace (hcreated.has (by simp) hother)

/-- After a run that succeeds every file is there, and all that was there. -/
theorem has_writeFiles (hbacked : disk.Backed view) {files : List (Path × String)}
    (hrun : (writeFiles disk files).runOn state = (.ok (), next)) :
    (∀ file ∈ files, (view next).Has file.1) ∧
      ∀ other, (view state).Has other → (view next).Has other := by
  induction files generalizing state with
  | nil =>
    obtain ⟨-, rfl⟩ := Action.runOn_pure_eq_iff.mp hrun
    exact ⟨by simp, fun _ hother => hother⟩
  | cons file files ih =>
    rw [runOn_writeFiles_cons, Action.runOn_bind_eq_ok_iff] at hrun
    obtain ⟨⟨⟩, reached, hfirst, hrest⟩ := hrun
    obtain ⟨hhas, hstay⟩ := has_writeFile hbacked hfirst
    obtain ⟨hfiles, hlater⟩ := ih hrest
    refine ⟨List.forall_mem_cons.mpr ⟨hlater _ hhas, hfiles⟩, ?_⟩
    exact fun other hother => hlater other (hstay other hother)

end Backed

/-! ## What is noted -/

section Recorded

variable {disk : Disk σ} {path : Path} {text : String} {record next : Recorded σ}

/-- Noting the operations does not change a write. -/
theorem runOn_writeFile_recorded (disk : Disk σ) (path : Path) (text : String)
    (record : Recorded σ) :
    Prod.map id Recorded.now ((writeFile disk.recorded path text).runOn record) =
      (writeFile disk path text).runOn record.now := by
  cases hparent : path.parent? with
  | none =>
    rw [runOn_writeFile_of_none hparent, runOn_writeFile_of_none hparent]
    rfl
  | some parent =>
    rw [runOn_writeFile_of_some hparent, runOn_writeFile_of_some hparent]
    change Prod.map id Recorded.now (if (disk.createDirs record.now parent).2 then _ else _) = _
    split <;> rfl

theorem runOn_bind_recorded {ε α β : Type} {first' : Action (Recorded σ) ε α}
    {first : Action σ ε α} {rest' : α → Action (Recorded σ) ε β} {rest : α → Action σ ε β}
    (hfirst : ∀ record, Prod.map id Recorded.now (first'.runOn record) = first.runOn record.now)
    (hrest : ∀ value record,
      Prod.map id Recorded.now ((rest' value).runOn record) = (rest value).runOn record.now)
    (record : Recorded σ) :
    Prod.map id Recorded.now ((first' >>= rest').runOn record) =
      (first >>= rest).runOn record.now := by
  rw [Action.runOn_bind, Action.runOn_bind, ← hfirst]
  rcases first'.runOn record with ⟨outcome, reached⟩
  cases outcome with
  | error error => rfl
  | ok value => exact hrest value reached

theorem runOn_writeFiles_recorded (disk : Disk σ) (files : List (Path × String))
    (record : Recorded σ) :
    Prod.map id Recorded.now ((writeFiles disk.recorded files).runOn record) =
      (writeFiles disk files).runOn record.now := by
  induction files generalizing record with
  | nil => rfl
  | cons file files ih =>
    rw [runOn_writeFiles_cons, runOn_writeFiles_cons]
    exact runOn_bind_recorded (runOn_writeFile_recorded disk file.1 file.2) (fun _ => ih) record

/-- The file was written, by one of the operations. -/
def Wrote (log : List (Moment σ)) (file : Path × String) : Prop :=
  ∃ moment ∈ log, moment.operation = .write file.1 file.2 ∧ moment.done = true

/-- The log only grows. -/
theorem subset_log_writeFile (disk : Disk σ) (path : Path) (text : String) (record : Recorded σ) :
    record.log ⊆ ((writeFile disk.recorded path text).runOn record).2.log := by
  let Grown (later : Recorded σ) := record.log ⊆ later.log
  refine writeFile_preserves Grown ?_ ?_ (List.Subset.refl _)
  · exact fun later _ _ hlater => List.Subset.trans hlater (List.subset_append_left _ _)
  · exact fun later hlater => List.Subset.trans hlater (List.subset_append_left _ _)

theorem subset_log_writeFiles (disk : Disk σ) (files : List (Path × String))
    (record : Recorded σ) :
    record.log ⊆ ((writeFiles disk.recorded files).runOn record).2.log := by
  let Grown (later : Recorded σ) := record.log ⊆ later.log
  refine writeFiles_preserves Grown ?_ (List.Subset.refl _)
  intro file _ later hlater
  exact List.Subset.trans hlater (subset_log_writeFile disk file.1 file.2 later)

theorem wrote_writeFile (hrun : (writeFile disk.recorded path text).runOn record = (.ok (), next)) :
    Wrote next.log (path, text) := by
  obtain ⟨reached, -, hwrite⟩ := exists_write_of_writeFile_eq_ok hrun
  obtain ⟨rfl, hdone⟩ := Prod.mk.inj hwrite
  exact ⟨⟨.write path text, _, _⟩, List.mem_append_right _ List.mem_cons_self, rfl, hdone⟩

theorem wrote_writeFiles {files : List (Path × String)}
    (hrun : (writeFiles disk.recorded files).runOn record = (.ok (), next)) :
    ∀ file ∈ files, Wrote next.log file := by
  induction files generalizing record with
  | nil => simp
  | cons file files ih =>
    rw [runOn_writeFiles_cons, Action.runOn_bind_eq_ok_iff] at hrun
    obtain ⟨⟨⟩, reached, hfirst, hrest⟩ := hrun
    have hgrows := subset_log_writeFiles disk files reached
    rw [hrest] at hgrows
    rw [List.forall_mem_cons]
    refine ⟨?_, ih hrest⟩
    obtain ⟨moment, hmoment, hwrote⟩ := wrote_writeFile hfirst
    exact ⟨moment, hgrows hmoment, hwrote⟩

end Recorded

/-! ## Whole runs -/

/-- The files that a run is going to write, in the state after the removal of the marker. -/
def planOutput (disk : Disk σ) (bundle : Path) (config : GenerateConfig) (outDir : Path)
    (state : σ) : Except RunError (Generation × List (Path × String)) := do
  let index ← loadIndex disk bundle state
  let generation ← (generate index config).mapError RunError.generate
  let files ← (outputFiles generation.artifacts outDir config.header).mapError RunError.write
  return (generation, files)

section Generate

variable {disk : Disk σ} {bundle : Path} {config : GenerateConfig} {state : σ}

/-- The writes of a run: its files, and then the marker. -/
def writeOutput (disk : Disk σ) (files : List (Path × String)) (marker : Path) :
    Action σ WriteError Unit := do
  writeFiles disk files
  writeFile disk marker ""

theorem runOn_writeArtifacts_of_error {artifacts : List Artifact} {outDir : Path} {header : String}
    {error : WriteError} (hfiles : outputFiles artifacts outDir header = .error error) :
    (writeArtifacts disk artifacts outDir header).runOn state = (.error error, state) := by
  rw [writeArtifacts, hfiles]
  rfl

theorem runOn_writeArtifacts_of_ok {artifacts : List Artifact} {outDir : Path} {header : String}
    {files : List (Path × String)} (hfiles : outputFiles artifacts outDir header = .ok files) :
    (writeArtifacts disk artifacts outDir header).runOn state =
      (writeFiles disk files >>= fun _ => pure (files.map (·.1))).runOn state := by
  rw [writeArtifacts, hfiles]
  rfl

/-- A run that could not remove the marker ends there. -/
theorem runOn_generateTo_of_kept (output : OutputConfig)
    (hkept : (disk.remove state output.marker).2 = false) :
    (generateTo disk bundle config output).runOn state =
      (.error (.write (.failed output.marker)), (disk.remove state output.marker).1) := by
  rw [generateTo, Action.runOn_bind, Action.runOn_attempt, hkept]
  rfl

/-- A run without a plan ends with the removal. -/
theorem runOn_generateTo_of_error (output : OutputConfig) {removed : σ} {error : RunError}
    (hremoved : disk.remove state output.marker = (removed, true))
    (hplan : planOutput disk bundle config output.outDir removed = .error error) :
    (generateTo disk bundle config output).runOn state = (.error error, removed) := by
  rw [generateTo, Action.runOn_bind_of_ok (Action.runOn_attempt_eq_ok_iff.mpr hremoved),
    Action.runOn_get_bind]
  rcases Outcome.bind_eq_error_iff.mp hplan with hindex | ⟨index, hindex, hplan⟩
  · rw [Action.runOn_ofOutcome_bind, hindex]
  rw [Action.runOn_ofOutcome_bind, hindex]
  dsimp only
  rcases Outcome.bind_eq_error_iff.mp hplan with hgenerate | ⟨generation, hgenerate, hplan⟩
  · rw [Action.runOn_ofOutcome_bind, hgenerate]
  rw [Action.runOn_ofOutcome_bind, hgenerate]
  rcases Outcome.bind_eq_error_iff.mp hplan with hfiles | ⟨_, _, hpure⟩
  · obtain ⟨cause, hcause, rfl⟩ := Outcome.mapError_eq_error_iff.mp hfiles
    have hwrite : (writeArtifacts disk generation.artifacts output.outDir config.header).runOn
        removed = (.error cause, removed) :=
      runOn_writeArtifacts_of_error hcause
    change (Action.mapError _ _ >>= _).runOn removed = _
    rw [Action.runOn_bind, Action.runOn_mapError, hwrite]
    rfl
  · cases hpure

/-- A run that has removed the marker follows its plan. -/
theorem runOn_generateTo_of_ok (output : OutputConfig) {removed : σ} {generation : Generation}
    {files : List (Path × String)} (hremoved : disk.remove state output.marker = (removed, true))
    (hplan : planOutput disk bundle config output.outDir removed = .ok (generation, files)) :
    (generateTo disk bundle config output).runOn state =
      (((writeOutput disk files output.marker).runOn removed).1.mapError RunError.write |>.map
          fun _ => generation, ((writeOutput disk files output.marker).runOn removed).2) := by
  rw [generateTo, Action.runOn_bind_of_ok (Action.runOn_attempt_eq_ok_iff.mpr hremoved),
    Action.runOn_get_bind]
  obtain ⟨index, hindex, hplan⟩ := Outcome.bind_eq_ok_iff.mp hplan
  obtain ⟨found, hgenerate, hplan⟩ := Outcome.bind_eq_ok_iff.mp hplan
  obtain ⟨planned, hfiles, hpure⟩ := Outcome.bind_eq_ok_iff.mp hplan
  obtain ⟨rfl, rfl⟩ := Prod.mk.inj (Outcome.pure_eq_ok_iff.mp hpure)
  rw [Outcome.mapError_eq_ok_iff] at hfiles
  rw [Action.runOn_ofOutcome_bind, hindex]
  dsimp only
  rw [Action.runOn_ofOutcome_bind, hgenerate]
  change (Action.mapError _ _ >>= _).runOn removed = _
  rw [Action.runOn_bind, Action.runOn_mapError, runOn_writeArtifacts_of_ok hfiles, writeOutput,
    Action.runOn_bind, Action.runOn_bind]
  rcases (writeFiles disk planned).runOn removed with ⟨outcome, reached⟩
  cases outcome with
  | error error => rfl
  | ok value =>
    change (Action.mapError _ _ >>= _).runOn reached = _
    rw [Action.runOn_bind, Action.runOn_mapError]
    dsimp only
    rcases (writeFile disk output.marker "").runOn reached with ⟨outcome, last⟩
    cases outcome <;> rfl

/-- Noting the operations does not change a run. -/
theorem runOn_generateTo_recorded (disk : Disk σ) (bundle : Path) (config : GenerateConfig)
    (output : OutputConfig) (record : Recorded σ) :
    Prod.map id Recorded.now ((generateTo disk.recorded bundle config output).runOn record) =
      (generateTo disk bundle config output).runOn record.now := by
  cases hdone : (disk.remove record.now output.marker).2 with
  | false =>
    have hnoted : (disk.recorded.remove record output.marker).2 = false := hdone
    rw [runOn_generateTo_of_kept output hdone, runOn_generateTo_of_kept output hnoted]
    rfl
  | true =>
    have hremoved : disk.remove record.now output.marker =
        ((disk.remove record.now output.marker).1, true) :=
      Prod.ext rfl hdone
    have hnoted : disk.recorded.remove record output.marker =
        ((disk.recorded.remove record output.marker).1, true) :=
      Prod.ext rfl hdone
    cases hplan : planOutput disk bundle config output.outDir
        (disk.remove record.now output.marker).1 with
    | error error =>
      rw [runOn_generateTo_of_error output hremoved hplan,
        runOn_generateTo_of_error output hnoted hplan]
      rfl
    | ok plan =>
      obtain ⟨generation, files⟩ := plan
      have hwrites : Prod.map id Recorded.now ((writeOutput disk.recorded files output.marker).runOn
          (disk.recorded.remove record output.marker).1) =
            (writeOutput disk files output.marker).runOn (disk.remove record.now output.marker).1 :=
        runOn_bind_recorded (runOn_writeFiles_recorded disk files)
          (fun _ => runOn_writeFile_recorded disk output.marker "") _
      rw [runOn_generateTo_of_ok output hremoved hplan,
        runOn_generateTo_of_ok output hnoted hplan, ← hwrites]
      rfl

end Generate

end SchemaLoom
