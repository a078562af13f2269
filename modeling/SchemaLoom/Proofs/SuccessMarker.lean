import SchemaLoom.Proofs.DeclarationOrder
import SchemaLoom.Proofs.OutputFiles
import SchemaLoom.Proofs.RecordedRuns

/-!
# The marker of a successful run

A run removes the marker of an earlier one, writes its files and then the marker.  Nothing stands at
the marker's place from the removal on until the last operation, whatever fails before: each
operation keeps the place empty as long as the marker is neither one of the files nor one of the
directories above them.  A marker whose path leads back over a directory that is not there yet is
not removed, though, and is seen again as soon as the directory is made.
-/

namespace SchemaLoom

open Storage (Path Disk Action Volume Moment Operation Recorded)

variable {σ : Type}

/-! ## The place of the marker -/

section Marker

variable {disk : Disk σ} {view : σ → Volume} {path : Path} {text : String} {place : Storage.Place}
  {record next : Recorded σ}

/-- Nothing stands at the place now, or stood there at any time noted. -/
def EmptyAt (view : σ → Volume) (place : Storage.Place) (record : Recorded σ) : Prop :=
  (view record.now).get? place = none ∧
    ∀ moment ∈ record.log, (view moment.state).get? place = none

theorem EmptyAt.note {operation : Operation} {outcome : σ × Bool}
    (hempty : EmptyAt view place record) (hnone : (view outcome.1).get? place = none) :
    EmptyAt view place (record.note operation outcome).1 := by
  refine ⟨hnone, fun moment hmoment => ?_⟩
  rcases List.mem_append.mp hmoment with hmoment | hmoment
  · exact hempty.2 moment hmoment
  · obtain rfl := List.mem_singleton.mp hmoment
    exact hnone

theorem EmptyAt.createDirs (hbacked : disk.Backed view) (habove : place ∉ path.above)
    {parent : Path} (hparent : path.parent? = some parent) (hempty : EmptyAt view place record) :
    EmptyAt view place (disk.recorded.createDirs record parent).1 := by
  rw [Path.above, hparent] at habove
  exact hempty.note (hbacked.absent_createDirs habove hempty.1)

/-- Writing a file leaves a place empty that is not its own nor that of a directory above it. -/
theorem EmptyAt.writeFile (hbacked : disk.Backed view) (hplace : place ≠ path.place)
    (habove : place ∉ path.above) (hempty : EmptyAt view place record) :
    EmptyAt view place ((SchemaLoom.writeFile disk.recorded path text).runOn record).2 := by
  refine writeFile_preserves (EmptyAt view place) ?_ ?_ hempty
  · exact fun _ _ hparent hempty => hempty.createDirs hbacked habove hparent
  · exact fun _ hempty => hempty.note (hbacked.absent_write hplace hempty.1)

theorem EmptyAt.writeFiles (hbacked : disk.Backed view) {files : List (Path × String)}
    (hfiles : ∀ file ∈ files, place ≠ file.1.place ∧ place ∉ file.1.above)
    (hempty : EmptyAt view place record) :
    EmptyAt view place ((SchemaLoom.writeFiles disk.recorded files).runOn record).2 := by
  refine writeFiles_preserves (EmptyAt view place) ?_ hempty
  intro file hfile state hempty
  exact hempty.writeFile hbacked (hfiles file hfile).1 (hfiles file hfile).2

/-- A marker that could not be written is not there. -/
theorem EmptyAt.writeFile_failed (hbacked : disk.Backed view) (habove : path.place ∉ path.above)
    (hempty : EmptyAt view path.place record) {error : WriteError}
    (hrun : (SchemaLoom.writeFile disk.recorded path text).runOn record = (.error error, next)) :
    EmptyAt view path.place next := by
  refine writeFile_preserves_of_error (EmptyAt view path.place) ?_ ?_ hrun hempty
  · exact fun _ _ hparent hempty => hempty.createDirs hbacked habove hparent
  · intro record hfailed hempty
    exact hempty.note (hbacked.not_written record.now path text hfailed path.place hempty.1)

/-- A marker that was written was not there before the last operation. -/
theorem EmptyAt.writeFile_done (hbacked : disk.Backed view) (habove : path.place ∉ path.above)
    (hempty : EmptyAt view path.place record)
    (hrun : (SchemaLoom.writeFile disk.recorded path text).runOn record = (.ok (), next)) :
    ∃ reached last, EmptyAt view path.place reached ∧ record.log ⊆ reached.log ∧
      next.log = reached.log ++ [last] := by
  obtain ⟨reached, hprepared, hwrite⟩ := exists_write_of_writeFile_eq_ok hrun
  obtain ⟨rfl, -⟩ := Prod.mk.inj hwrite
  rcases hprepared with rfl | ⟨parent, hparent, rfl⟩
  · exact ⟨reached, _, hempty, List.Subset.refl _, rfl⟩
  · exact ⟨_, _, hempty.createDirs hbacked habove hparent, List.subset_append_left _ _, rfl⟩

/-- The path leads to nothing now, nor did at any time noted. -/
def Unseen (view : σ → Volume) (path : Path) (record : Recorded σ) : Prop :=
  ¬(view record.now).Has path ∧ ∀ moment ∈ record.log, ¬(view moment.state).Has path

theorem EmptyAt.unseen (hempty : EmptyAt view path.place record) : Unseen view path record :=
  ⟨Volume.not_has_of_get?_eq_none hempty.1,
    fun moment hmoment => Volume.not_has_of_get?_eq_none (hempty.2 moment hmoment)⟩

theorem unseen_of_empty (hpath : path.text = "") : Unseen view path record :=
  ⟨Volume.not_has_of_empty hpath, fun _ _ => Volume.not_has_of_empty hpath⟩

theorem Unseen.not_has_then (hunseen : Unseen view path record) {moment : Moment σ}
    {before after : List (Moment σ)} (hlog : record.log = before ++ moment :: after) :
    ¬(view moment.state).Has path := by
  apply hunseen.2
  rw [hlog]
  exact List.mem_append_right _ List.mem_cons_self

/-- The writes of a run fail and there is no marker, or the marker is written last. -/
theorem EmptyAt.writeOutput (hbacked : disk.Backed view) {files : List (Path × String)}
    {marker : Path} (habove : marker.place ∉ marker.above)
    (hfiles : ∀ file ∈ files, marker.place ≠ file.1.place ∧ marker.place ∉ file.1.above)
    (hempty : EmptyAt view marker.place record) {outcome : Except WriteError Unit}
    (hrun : (SchemaLoom.writeOutput disk.recorded files marker).runOn record = (outcome, next)) :
    (∃ error, outcome = .error error ∧ Unseen view marker next) ∨
      outcome = .ok () ∧ (view next.now).Has marker ∧ (∀ file ∈ files, (view next.now).Has file.1) ∧
        ∃ reached last, Unseen view marker reached ∧ next.log = reached.log ++ [last] ∧
          ∀ file ∈ files, Wrote reached.log file := by
  have hwritten := hempty.writeFiles hbacked hfiles
  rw [SchemaLoom.writeOutput, Action.runOn_bind] at hrun
  split at hrun
  · next _ written hwrites =>
    rw [hwrites] at hwritten
    cases outcome with
    | error error => exact .inl ⟨error, rfl, (hwritten.writeFile_failed hbacked habove hrun).unseen⟩
    | ok value =>
      obtain ⟨hthere, -⟩ := has_writeFiles hbacked.recorded hwrites
      obtain ⟨hmarker, hstay⟩ := has_writeFile hbacked.recorded hrun
      obtain ⟨reached, last, hreached, hsubset, hlog⟩ :=
        hwritten.writeFile_done hbacked habove hrun
      refine .inr ⟨rfl, hmarker, fun file hfile => hstay _ (hthere file hfile), ?_⟩
      refine ⟨reached, last, hreached.unseen, hlog, fun file hfile => ?_⟩
      obtain ⟨moment, hmoment, hwrote⟩ := wrote_writeFiles hwrites file hfile
      exact ⟨moment, hsubset hmoment, hwrote⟩
  · next error failed hwrites =>
    rw [hwrites] at hwritten
    obtain ⟨rfl, rfl⟩ := Prod.mk.inj hrun
    exact .inl ⟨error, rfl, hwritten.unseen⟩

/-- A marker with an empty path cannot be written. -/
theorem exists_error_of_empty (hbacked : disk.Backed view) {files : List (Path × String)}
    {marker : Path} (hmarker : marker.text = "") {outcome : Except WriteError Unit}
    (hrun : (SchemaLoom.writeOutput disk.recorded files marker).runOn record = (outcome, next)) :
    ∃ error, outcome = .error error := by
  rw [SchemaLoom.writeOutput, Action.runOn_bind] at hrun
  split at hrun
  · cases outcome with
    | error error => exact ⟨error, rfl⟩
    | ok value =>
      obtain ⟨hhas, -⟩ := has_writeFile hbacked.recorded hrun
      exact absurd hhas (Volume.not_has_of_empty hmarker)
  · next error failed hwrites =>
    obtain ⟨rfl, -⟩ := Prod.mk.inj hrun
    exact ⟨error, rfl⟩

/-- A time at which the marker stood, in a log where only the last operation can have put it there,
comes after all the others. -/
theorem Unseen.eq_last {marker : Path} (hunseen : Unseen view marker record)
    {last moment : Moment σ} {before after : List (Moment σ)}
    (hlog : record.log ++ [last] = before ++ moment :: after)
    (hhas : (view moment.state).Has marker) : before = record.log := by
  rcases List.eq_nil_or_concat after with rfl | ⟨rest, final, rfl⟩
  · exact (List.append_inj_left' hlog rfl).symm
  · rw [List.concat_eq_append, ← List.cons_append, ← List.append_assoc] at hlog
    exact absurd hhas (hunseen.not_has_then (List.append_inj_left' hlog rfl))

/-- What a marker has to be for a run to tell the truth by it.  It is not a file of the run or a
directory above one, nor does it stand above itself, and unless its place is free its path leads
there from the start. -/
structure ClearMarker (volume : Volume) (marker : Path) (files : List (Path × String)) : Prop where
  start : volume.place? marker = some marker.place ∨ volume.get? marker.place = none
  above : marker.place ∉ marker.above
  files : ∀ file ∈ files, marker.place ≠ file.1.place ∧ marker.place ∉ file.1.above

/-- The files that a plan has, none if it could not be made. -/
def plannedFiles : Except RunError (Generation × List (Path × String)) → List (Path × String)
  | .ok (_, files) => files
  | .error _ => []

/-- The marker is truthful, whatever fails on a disk backed by a volume.  A run that fails after the
removal of the old marker leaves none; a run that succeeds leaves the marker and every file it was
to write; and from the removal on, all files of the run have been written before any moment at which
the marker stands.  A marker with an empty path never stands. -/
theorem generateTo_marker_truthful (hbacked : disk.Backed view) (output : OutputConfig)
    {bundle : Path} {config : GenerateConfig} {state removed : σ} {done : Bool}
    {plan : Except RunError (Generation × List (Path × String))}
    {result : Except RunError Generation} {run : Recorded σ}
    (hremove : disk.remove state output.marker = (removed, done))
    (hplan : planOutput disk bundle config output.outDir removed = plan)
    (hclear : output.marker.text = "" ∨
      ClearMarker (view state) output.marker (plannedFiles plan))
    (hrun : (generateTo disk.recorded bundle config output).runOn ⟨state, []⟩ = (result, run)) :
    (generateTo disk bundle config output).runOn state = (result, run.now) ∧
      (∀ error, result = .error error → done = true → ¬(view run.now).Has output.marker) ∧
      (∀ generation, result = .ok generation → ∃ files, plan = .ok (generation, files) ∧
        (view run.now).Has output.marker ∧ ∀ file ∈ files, (view run.now).Has file.1) ∧
      (done = true → ∀ before moment after, run.log = before ++ moment :: after →
        (view moment.state).Has output.marker →
          ∃ generation files, plan = .ok (generation, files) ∧
            ∀ file ∈ files, Wrote before file) := by
  have hplain := runOn_generateTo_recorded disk bundle config output ⟨state, []⟩
  rw [hrun] at hplain
  refine ⟨hplain.symm, ?_⟩
  cases done with
  | false =>
    have hkept : (disk.recorded.remove ⟨state, []⟩ output.marker).2 = false :=
      congrArg Prod.snd hremove
    rw [runOn_generateTo_of_kept output hkept] at hrun
    obtain ⟨rfl, rfl⟩ := Prod.mk.inj hrun
    exact ⟨fun _ _ => nofun, fun _ => nofun, nofun⟩
  | true =>
    have hnoted : disk.recorded.remove ⟨state, []⟩ output.marker =
        (⟨removed, [⟨.remove output.marker, true, removed⟩]⟩, true) := by
      simp only [Disk.recorded, Recorded.note, hremove, List.nil_append]
    have hempty : ClearMarker (view state) output.marker (plannedFiles plan) →
        EmptyAt view output.marker.place ⟨removed, [⟨.remove output.marker, true, removed⟩]⟩ := by
      intro hclear
      have hnone := hbacked.absent_remove (congrArg Prod.snd hremove) hclear.start
      rw [hremove] at hnone
      exact ⟨hnone, List.forall_mem_singleton.mpr hnone⟩
    have hunseen : Unseen view output.marker
        ⟨removed, [⟨.remove output.marker, true, removed⟩]⟩ :=
      hclear.elim unseen_of_empty fun hclear => (hempty hclear).unseen
    cases plan with
    | error error =>
      rw [runOn_generateTo_of_error output hnoted hplan] at hrun
      obtain ⟨rfl, rfl⟩ := Prod.mk.inj hrun
      refine ⟨fun _ _ _ => hunseen.1, fun _ => nofun, fun _ before moment after hsplit hhas => ?_⟩
      exact absurd hhas (hunseen.not_has_then hsplit)
    | ok plan =>
      obtain ⟨generation, files⟩ := plan
      obtain ⟨outcome, ended, hwrites⟩ := Action.exists_runOn_eq
        (writeOutput disk.recorded files output.marker)
        ⟨removed, [⟨.remove output.marker, true, removed⟩]⟩
      rw [runOn_generateTo_of_ok output hnoted hplan, hwrites] at hrun
      obtain ⟨rfl, rfl⟩ := Prod.mk.inj hrun
      have hcases : (∃ error, outcome = .error error ∧ Unseen view output.marker ended) ∨
          outcome = .ok () ∧ (view ended.now).Has output.marker ∧
            (∀ file ∈ files, (view ended.now).Has file.1) ∧
              ∃ reached last, Unseen view output.marker reached ∧
                ended.log = reached.log ++ [last] ∧ ∀ file ∈ files, Wrote reached.log file := by
        rcases hclear with hmarker | hclear
        · obtain ⟨error, herror⟩ := exists_error_of_empty hbacked hmarker hwrites
          exact .inl ⟨error, herror, unseen_of_empty hmarker⟩
        · exact (hempty hclear).writeOutput hbacked hclear.above hclear.files hwrites
      rcases hcases with
        ⟨error, rfl, hended⟩ | ⟨rfl, hmarker, hthere, reached, last, hreached, hlog, hwrote⟩
      · refine ⟨fun _ _ _ => hended.1, fun _ => nofun,
          fun _ before moment after hsplit hhas => ?_⟩
        exact absurd hhas (hended.not_has_then hsplit)
      · refine ⟨fun _ => nofun, fun found hfound => ?_, fun _ before moment after hsplit hhas => ?_⟩
        · obtain rfl := Except.ok.inj hfound
          exact ⟨files, rfl, hmarker, hthere⟩
        · rw [hlog] at hsplit
          rw [hreached.eq_last hsplit hhas]
          exact ⟨generation, files, rfl, hwrote⟩

end Marker

/-! ## Runs over one enumeration -/

def kindText : String :=
  "\x7b\"schemaFiles\":[\x7b\"canonicalPath\":\"a\",\"package\":\x7b\"name\":\"a\"\x7d,
    \"enums\":[\x7b\"name\":\"Kind\",\"qualifiedName\":\"a.Kind\",
    \"values\":[\x7b\"name\":\"A\",\"value\":0\x7d]\x7d]\x7d]\x7d"

def kindDecl : EnumDecl :=
  { name := "Kind", qualified := "a.Kind", values := [⟨"A", 0, [], .unknown⟩] }

def kindBundle : Bundle :=
  ⟨[{ path := "a", package := ⟨"a", .unknown⟩, enums := [kindDecl] }]⟩

def kindIndex : Index where
  entries := [⟨⟨"a", "a"⟩, .enumeration kindDecl⟩]
  ascending := by decide

set_option maxRecDepth 100000 in
theorem parse_kindText : Bundle.parse kindText = .ok kindBundle := by
  rw [Bundle.parse, Form.read, show kindText = String.ofList _ from rfl, Json.parse?,
    String.toList_ofList]
  rfl

theorem ofBundle_kindBundle : Index.ofBundle kindBundle = .ok kindIndex := by
  rw [Index.ofBundle_eq_ok_iff]
  exact ⟨by decide, (List.mergeSort_singleton _).symm⟩

def ofKind : Resolution where
  index := kindIndex
  config := {}
  trees := []
  enums := kindIndex.resolveEnums.toOption.getD []
  resolveAll_eq := rfl
  resolveEnums_eq := rfl

theorem exists_generate_kind :
    ∃ kind : OutputUnit, ∃ generation, generate kindIndex {} = .ok generation ∧
      generation.artifacts = [kind.artifact] ∧ kind.path = ⟨"a/kind.rs"⟩ := by
  obtain ⟨units, generation, hgenerate, hartifacts, hpaths⟩ :=
    ofKind.exists_generate_of_tops (Surroundings.ofConfig_default kindIndex)
      (by decide +kernel) (by decide)
  obtain ⟨kind, last, rfl, hkind, hlast⟩ := List.map_eq_cons_iff.mp hpaths
  obtain rfl := List.map_eq_nil_iff.mp hlast
  exact ⟨kind, generation, hgenerate, hartifacts, Except.ok.inj hkind⟩

theorem ofPaths_kind :
    ModuleTree.ofPaths [⟨"a/kind.rs"⟩] = .ok [([], ["a"]), ([.name "a"], ["kind"])] := by
  have hlinks : [⟨"a/kind.rs"⟩].flatMap ModuleTree.links =
      [([], .name "a"), ([.name "a"], .name "kind.rs")] := by
    decide
  have hdirectories : ModuleTree.directories [([], .name "a"), ([.name "a"], .name "kind.rs")] =
      [[], [.name "a"]] :=
    List.mergeSort_of_pairwise (by decide)
  have houter : ModuleTree.modulesIn [([], .name "a"), ([.name "a"], .name "kind.rs")] [] =
      ["a"] :=
    List.mergeSort_of_pairwise (by decide)
  have hinner : ModuleTree.modulesIn [([], .name "a"), ([.name "a"], .name "kind.rs")]
      [.name "a"] = ["kind"] :=
    List.mergeSort_of_pairwise (by decide)
  have hnone : ModuleTree.firstRepeated [] [⟨"a/kind.rs"⟩] = none := by
    decide
  simp only [ModuleTree.ofPaths, hlinks, hdirectories, houter, hinner, hnone,
    List.mergeSort_singleton, List.map_cons, List.map_nil]
  rfl

/-- The plan for the enumeration, wherever its bundle is read from. -/
theorem exists_planOutput_kind {disk : Disk σ} {state : σ}
    (hread : disk.read state ⟨"b.json"⟩ = some kindText) :
    ∃ generation kind outer inner, planOutput disk ⟨"b.json"⟩ {} ⟨"out"⟩ state =
      .ok (generation, [(⟨"out/a/kind.rs"⟩, kind), (⟨"out/mod.rs"⟩, outer),
        (⟨"out/a/mod.rs"⟩, inner)]) := by
  obtain ⟨kind, generation, hgenerate, hartifacts, hkind⟩ := exists_generate_kind
  have hindex : loadIndex disk ⟨"b.json"⟩ state = .ok kindIndex := by
    simp only [loadIndex, hread, parse_kindText, ofBundle_kindBundle, bind, Except.bind,
      Except.mapError]
  have hkindFile : (⟨"out"⟩ : Path).join ⟨"a/kind.rs"⟩ = ⟨"out/a/kind.rs"⟩ := by decide
  have houter : ((⟨"out"⟩ : Path).join (ModuleTree.directoryPath [])).join ⟨"mod.rs"⟩ =
      ⟨"out/mod.rs"⟩ := by decide
  have hinner : ((⟨"out"⟩ : Path).join (ModuleTree.directoryPath [.name "a"])).join ⟨"mod.rs"⟩ =
      ⟨"out/a/mod.rs"⟩ := by decide
  have hfiles : ∀ header, outputFiles generation.artifacts ⟨"out"⟩ header =
      .ok [(⟨"out/a/kind.rs"⟩, kind.artifact.render header),
        (⟨"out/mod.rs"⟩, ModuleTree.declarations header ["a"]),
        (⟨"out/a/mod.rs"⟩, ModuleTree.declarations header ["kind"])] := by
    intro header
    simp only [hartifacts, outputFiles, List.map_cons, List.map_nil, OutputUnit.artifact, hkind,
      ofPaths_kind, hkindFile, houter, hinner, ModuleTree.files, bind, Except.bind]
    rfl
  refine ⟨generation, kind.artifact.render ({} : GenerateConfig).header,
    ModuleTree.declarations ({} : GenerateConfig).header ["a"],
    ModuleTree.declarations ({} : GenerateConfig).header ["kind"], ?_⟩
  simp only [planOutput, hindex, hgenerate, hfiles, bind, Except.bind, Except.mapError]
  rfl

/-- None of the files, nor a directory above one, is at the places of these markers. -/
theorem apart_kind {kind outer inner : String} {marker : Path}
    (hmarker : marker.place = ["out", "done"]) :
    ∀ file ∈ [((⟨"out/a/kind.rs"⟩ : Path), kind), (⟨"out/mod.rs"⟩, outer),
      (⟨"out/a/mod.rs"⟩, inner)],
      marker.place ≠ file.1.place ∧ marker.place ∉ file.1.above := by
  rw [hmarker]
  simp only [List.forall_mem_cons]
  exact ⟨by decide, by decide, by decide, by simp⟩

/-- A bundle and the marker of an earlier run. -/
def markedVolume (bundle : String) : Volume :=
  ⟨[(["b.json"], .file bundle), (["out"], .directory), (["out", "done"], .file "")]⟩

/-- The first write fails, and the marker of the earlier run is gone. -/
theorem generateTo_marker_truthful_interrupted :
    ∃ error run, (generateTo Volume.disk.interrupted.recorded ⟨"b.json"⟩ {}
        ⟨⟨"out"⟩, ⟨"out/done"⟩⟩).runOn ⟨(markedVolume kindText, [false, false, true]), []⟩ =
          (.error error, run) ∧
      ¬run.now.1.Has ⟨"out/done"⟩ := by
  have hremove : Volume.disk.interrupted.remove (markedVolume kindText, [false, false, true])
      ⟨"out/done"⟩ =
        ((⟨[(["b.json"], .file kindText), (["out"], .directory)]⟩, [false, true]), true) :=
    rfl
  obtain ⟨generation, kind, outer, inner, hplan⟩ :=
    @exists_planOutput_kind _ Volume.disk.interrupted
      (⟨[(["b.json"], .file kindText), (["out"], .directory)]⟩, [false, true]) rfl
  obtain ⟨result, run, hrun⟩ := Action.exists_runOn_eq
    (generateTo Volume.disk.interrupted.recorded ⟨"b.json"⟩ {} ⟨⟨"out"⟩, ⟨"out/done"⟩⟩)
    ⟨(markedVolume kindText, [false, false, true]), []⟩
  obtain ⟨hplain, hnone, -, -⟩ := generateTo_marker_truthful Volume.backed_disk.interrupted
    ⟨⟨"out"⟩, ⟨"out/done"⟩⟩ hremove hplan
    (.inr ⟨.inl rfl, by decide, apart_kind (by decide)⟩) hrun
  have hfirst : (writeFile Volume.disk.interrupted ⟨"out/a/kind.rs"⟩ kind).runOn
      (⟨[(["b.json"], .file kindText), (["out"], .directory)]⟩, [false, true]) =
        (.error (.failed ⟨"out/a/kind.rs"⟩),
          (⟨[(["b.json"], .file kindText), (["out"], .directory), (["out", "a"], .directory)]⟩,
            [])) := by
    rw [runOn_writeFile_of_some (by decide : _ = some (⟨"out/a"⟩ : Path))]
    rfl
  rw [runOn_generateTo_of_ok ⟨⟨"out"⟩, ⟨"out/done"⟩⟩ hremove hplan] at hplain
  simp only [writeOutput, runOn_writeFiles_cons, Action.runOn_bind, hfirst] at hplain
  obtain ⟨rfl, -⟩ := Prod.mk.inj hplain
  exact ⟨_, run, hrun, hnone _ rfl rfl⟩

/-- The same with a directory where a file is to be written, step by step: the output directory is
made before the marker is put there. -/
def blockedVolume (bundle : String) : Volume :=
  let bundled := (({} : Volume).write ⟨"b.json"⟩ bundle).1
  let opened := (bundled.createDirs ⟨"out"⟩).1
  let marked := (opened.write ⟨"out/done"⟩ "").1
  (marked.createDirs ⟨"out/mod.rs"⟩).1

/-- What a run leaves that fails there. -/
def reopenedVolume (bundle kind : String) : Volume :=
  ⟨(blockedVolume bundle).entries ++
    [(["out", "a"], .directory), (["out", "a", "kind.rs"], .file kind)]⟩

/-- The marker of an earlier run outlives a failed one if its path leads back over a directory that
the run is the first to make: there was nothing to remove, and then the run itself opens the way. -/
theorem stale_marker_survives :
    (blockedVolume kindText).read ⟨"out/done"⟩ = some "" ∧
      ∃ error after, (generateTo Volume.disk ⟨"b.json"⟩ {} ⟨⟨"out"⟩, ⟨"out/a/../done"⟩⟩).runOn
          (blockedVolume kindText) = (.error error, after) ∧
      ((blockedVolume kindText).remove ⟨"out/a/../done"⟩).2 = true ∧
      after.Has ⟨"out/a/../done"⟩ ∧
      ∃ generation files, planOutput Volume.disk ⟨"b.json"⟩ {} ⟨"out"⟩ (blockedVolume kindText) =
          .ok (generation, files) ∧
        ∀ file ∈ files, (⟨"out/a/../done"⟩ : Path).place ≠ file.1.place ∧
          (⟨"out/a/../done"⟩ : Path).place ∉ file.1.above := by
  have hremove : Volume.disk.remove (blockedVolume kindText) ⟨"out/a/../done"⟩ =
      (blockedVolume kindText, true) :=
    rfl
  obtain ⟨generation, kind, outer, inner, hplan⟩ :=
    @exists_planOutput_kind _ Volume.disk (blockedVolume kindText) rfl
  have hfirst : (writeFile Volume.disk ⟨"out/a/kind.rs"⟩ kind).runOn (blockedVolume kindText) =
      (.ok (), reopenedVolume kindText kind) :=
    runOn_writeFile_eq_ok ⟨"out/a"⟩ (by decide) rfl rfl
  have hsecond : (writeFile Volume.disk ⟨"out/mod.rs"⟩ outer).runOn
      (reopenedVolume kindText kind) =
        (.error (.failed ⟨"out/mod.rs"⟩), reopenedVolume kindText kind) := by
    rw [runOn_writeFile_of_some (by decide : _ = some (⟨"out"⟩ : Path))]
    rfl
  have hrun : (generateTo Volume.disk ⟨"b.json"⟩ {} ⟨⟨"out"⟩, ⟨"out/a/../done"⟩⟩).runOn
      (blockedVolume kindText) =
        (.error (.write (.failed ⟨"out/mod.rs"⟩)), reopenedVolume kindText kind) := by
    rw [runOn_generateTo_of_ok ⟨⟨"out"⟩, ⟨"out/a/../done"⟩⟩ hremove hplan]
    simp only [writeOutput, runOn_writeFiles_cons, Action.runOn_bind, hfirst, hsecond]
    rfl
  have hhas : (reopenedVolume kindText kind).Has ⟨"out/a/../done"⟩ :=
    ⟨["out", "done"], .file "", rfl, rfl⟩
  exact ⟨rfl, _, _, hrun, rfl, hhas, generation, _, hplan, apart_kind (by decide)⟩

end SchemaLoom
