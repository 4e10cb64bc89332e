import Mathlib.Algebra.GroupWithZero.Nat
import FieldGraft.Proofs.BuildContents

/-!
# When a build run fails

A run goes through all its sources, whatever is found in them, and then gives its verdict. What it
goes through is said without the run: `Build.Scans` lists, reads, takes through a round and writes
one source after the other, and knows nothing of errors found before.

* `Build.buildPaths_of_scans`, `Build.exists_scans_of_buildPaths` — the run goes this way, and it
  gathers the errors and the counts of its sources (`Build.Gathers`).
* `Build.run_verdict` — the run fails exactly if a source has an error, or warnings are denied and a
  source has one. It stops at a source that does not parse.
-/

namespace FieldGraft.Build

variable {b : Build} {fs fs' fs₀ fs₁ : FileSystem} {out p root : FilePath} {text : String}
  {x : SourceFile} {s s' s₁ : BuildState} {files : List SourceFile} {roots : List FilePath}
  {changed : Bool}

/-! ### The way of a run -/

/-- What a run has of one source. -/
structure Taken where
  source : SourceFile
  report : RoundReport
  /-- Whether its output was written. -/
  changed : Bool

/-- **An output can be written.** It is left alone if it is there already. -/
inductive Output (p : FilePath) (text : String) (fs : FileSystem) : FileSystem → Bool → Prop
  | kept (h : fs.readText p = .ok text) : Output p text fs fs false
  | written {fs₁ fs₂ : FileSystem} (h : fs.readText p ≠ .ok text)
      (hparent : fs.makeParent p = (fs₁, .ok ())) (hwrite : fs₁.write p (.text text) = .ok fs₂) :
      Output p text fs fs₂ true

/-- **A source is taken**: it reads, it parses, and its output can be written. -/
inductive Takes (b : Build) (out : FilePath) (fs : FileSystem) (t : Taken) (fs' : FileSystem) : Prop
  | intro {text : String} {f : File} (hread : fs.readText t.source.path = .ok text)
      (htold : b.session.told text = .ok (f, t.report))
      (houtput : Output (out.join t.source.relative) (outputText text f t.report) fs fs' t.changed)

/-- Sources are taken one after the other. -/
inductive TakesAll (b : Build) (out : FilePath) : FileSystem → List Taken → FileSystem → Prop
  | nil (fs : FileSystem) : TakesAll b out fs [] fs
  | cons {fs fs₁ fs₂ : FileSystem} {t : Taken} {ts : List Taken} (h : b.Takes out fs t fs₁)
      (hrest : TakesAll b out fs₁ ts fs₂) : TakesAll b out fs (t :: ts) fs₂

/-- **Scan paths are gone through** one after the other: each is listed, and all that is found there
is taken. -/
inductive Scans (b : Build) (out : FilePath) :
    FileSystem → List FilePath → List Taken → FileSystem → Prop
  | nil (fs : FileSystem) : Scans b out fs [] [] fs
  | cons {fs fs₁ fs₂ : FileSystem} {root : FilePath} {roots : List FilePath} {ts ts' : List Taken}
      (hsources : sources fs root = .ok (ts.map Taken.source)) (htakes : b.TakesAll out fs ts fs₁)
      (hrest : Scans b out fs₁ roots ts' fs₂) : Scans b out fs (root :: roots) (ts ++ ts') fs₂

namespace Taken

/-- Whether the round over the source has a diagnostic of a severity. -/
def Has (t : Taken) (severity : Severity) : Prop :=
  ∃ d ∈ t.report.diagnostics, d.severity = severity

/-- The lines for the diagnostics of a severity. -/
def lines (severity : Severity) (t : Taken) : List String :=
  diagnosticLines severity t.source.path t.report

theorem length_lines (severity : Severity) (t : Taken) :
    (t.lines severity).length = t.report.count severity := by
  rw [lines, diagnosticLines, List.length_map, RoundReport.located, List.filter_map,
    List.length_map]
  rfl

theorem lines_eq_nil_iff {severity : Severity} {t : Taken} :
    t.lines severity = [] ↔ ¬ t.Has severity := by
  rw [← List.length_eq_zero_iff, length_lines, RoundReport.count, Diagnostic.count,
    List.length_eq_zero_iff, List.filter_eq_nil_iff]
  simp [Has]

end Taken

/-! ### One source -/

theorem holds_iff : fs.holds p text = true ↔ fs.readText p = .ok text := by
  unfold FileSystem.holds
  cases fs.readText p <;> simp

/-- The output that can be written is written. -/
theorem writeIfChanged_eq_ok_iff :
    writeIfChanged fs p text = (fs', .ok changed) ↔ Output p text fs fs' changed := by
  constructor
  · intro h
    unfold writeIfChanged at h
    split at h
    · -- the text is there
      next hholds =>
      cases h
      exact .kept (holds_iff.mp hholds)
    · next hholds =>
      split at h
      · cases h
      · -- it is not, and the directories are made before it is written
        next hparent =>
        split at h
        · next hwrite =>
          cases h
          exact .written (fun hread => hholds (holds_iff.mpr hread)) hparent hwrite
        · cases h
  · rintro (hread | ⟨hread, hparent, hwrite⟩)
    · rw [writeIfChanged, if_pos (holds_iff.mpr hread)]
    · rw [writeIfChanged, if_neg fun hholds => hread (holds_iff.mp hholds), hparent]
      dsimp only
      rw [hwrite]

/-- **What a run gathers** from the sources that it takes. -/
structure Gathers (s s' : BuildState) (ts : List Taken) : Prop where
  errors : s'.errors = s.errors ++ ts.flatMap (Taken.lines .error)
  files : s'.report.files = s.report.files + ts.length
  written : s'.report.written = s.report.written + ts.countP Taken.changed
  injected : s'.report.injected =
    s.report.injected + (ts.map fun t => t.report.summary.injected.length).sum
  warnings : s'.report.warnings = s.report.warnings + (ts.map fun t => t.report.count .warning).sum

namespace Gathers

theorem refl (s : BuildState) : Gathers s s [] := by
  constructor <;> simp

theorem trans {ts ts' : List Taken} (h : Gathers s s₁ ts) (h' : Gathers s₁ s' ts') :
    Gathers s s' (ts ++ ts') := by
  constructor
  · rw [h'.errors, h.errors, List.flatMap_append, List.append_assoc]
  · rw [h'.files, h.files, List.length_append, Nat.add_assoc]
  · rw [h'.written, h.written, List.countP_append, Nat.add_assoc]
  · rw [h'.injected, h.injected, List.map_append, List.sum_append, Nat.add_assoc]
  · rw [h'.warnings, h.warnings, List.map_append, List.sum_append, Nat.add_assoc]

end Gathers

theorem gathers_stateAfter (s : BuildState) (x : SourceFile) (round : Session × File × RoundReport)
    (files : FileSystem) (changed : Bool) :
    Gathers s (stateAfter s x round files changed) [⟨x, round.2.2.withoutLog, changed⟩] := by
  have hlines : ∀ severity, diagnosticLines severity x.path round.2.2 =
      Taken.lines severity ⟨x, round.2.2.withoutLog, changed⟩ := fun _ => rfl
  constructor
  · rw [List.flatMap_singleton, ← hlines]
    rfl
  · rfl
  · rw [stateAfter, List.countP_singleton]
  · rw [stateAfter, List.map_singleton, List.sum_singleton]
    rfl
  · rw [stateAfter, List.map_singleton, List.sum_singleton, hlines, Taken.length_lines]

/-- All sessions of a run make the same of a source. -/
theorem Serves.told_eq {session : Session} (h : b.Serves session) (source : String) :
    session.told source = b.session.told source :=
  Session.told_granted b.serves_session.granted h.granted h.placement_eq source

/-- **A source that is taken**: the run goes on, whatever errors it has. -/
theorem buildFile_of_takes {t : Taken} (hserves : b.Serves s.session)
    (h : b.Takes out s.files t fs') :
    ∃ s', buildFile out s t.source = (s', .ok ()) ∧ s'.files = fs' ∧ b.Serves s'.session ∧
      Gathers s s' [t] := by
  obtain ⟨hread, htold, houtput⟩ := h
  -- the session of the state tells of a text what the first session told
  rw [← hserves.told_eq] at htold
  obtain ⟨x, report, changed⟩ := t
  cases hinject : s.session.injectText _ with
  | error e =>
    rw [Session.told, hinject] at htold
    cases htold
  | ok round =>
    rw [Session.told, hinject] at htold
    cases htold
    -- all four parts of taking a file are there, so it is taken
    have hbuild := buildFile_eq_ok_iff.mpr
      ⟨_, round, fs', changed, hread, hinject, writeIfChanged_eq_ok_iff.mpr houtput, rfl⟩
    exact ⟨_, hbuild, rfl, hserves.after_injectText hinject, gathers_stateAfter ..⟩

/-- A source that the run got through was taken. -/
theorem exists_takes_of_buildFile (hserves : b.Serves s.session)
    (h : buildFile out s x = (s', .ok ())) :
    ∃ t : Taken, t.source = x ∧ b.Takes out s.files t s'.files ∧ b.Serves s'.session := by
  obtain ⟨source, round, files, changed, hread, hinject, hwrite, rfl⟩ := buildFile_eq_ok_iff.mp h
  have htold : b.session.told source = .ok (round.2.1, round.2.2.withoutLog) :=
    (hserves.told_eq source).symm.trans (Session.told_of_injectText hinject)
  exact ⟨⟨x, round.2.2.withoutLog, changed⟩, rfl,
    ⟨hread, htold, writeIfChanged_eq_ok_iff.mp hwrite⟩, hserves.after_injectText hinject⟩

/-- A source that reads but does not parse. -/
theorem buildFile_of_unparsable {cause : SourceError} (hserves : b.Serves s.session)
    (hread : s.files.readText x.path = .ok text) (htold : b.session.told text = .error cause) :
    buildFile out s x = (s, .error (.unparsable x.path cause)) := by
  -- the session refuses the text, as the first one did
  rw [← hserves.told_eq] at htold
  cases hinject : s.session.injectText text with
  | ok round =>
    rw [Session.told, hinject] at htold
    cases htold
  | error e =>
    rw [Session.told, hinject] at htold
    cases htold
    rw [buildFile, hread]
    dsimp only
    rw [hinject]

/-! ### All sources -/

theorem buildFiles_append (out : FilePath) (s : BuildState) (files more : List SourceFile) :
    buildFiles out s (files ++ more) =
      match buildFiles out s files with
      | (s, .ok ()) => buildFiles out s more
      | (s, .error e) => (s, .error e) := by
  induction files generalizing s with
  | nil => rfl
  | cons x files ih =>
    rw [List.cons_append, buildFiles, buildFiles]
    split
    · exact ih _
    · rfl

theorem buildPaths_append (out : FilePath) (s : BuildState) (roots more : List FilePath) :
    buildPaths out s (roots ++ more) =
      match buildPaths out s roots with
      | (s, .ok ()) => buildPaths out s more
      | (s, .error e) => (s, .error e) := by
  induction roots generalizing s with
  | nil => rfl
  | cons root roots ih =>
    rw [List.cons_append, buildPaths, buildPaths]
    split
    · rfl
    · split
      · rfl
      · exact ih _

theorem buildFiles_of_takesAll {ts : List Taken} (hserves : b.Serves s.session)
    (h : b.TakesAll out s.files ts fs') :
    ∃ s', buildFiles out s (ts.map Taken.source) = (s', .ok ()) ∧ s'.files = fs' ∧
      b.Serves s'.session ∧ Gathers s s' ts := by
  induction ts generalizing s with
  | nil =>
    cases h
    exact ⟨s, rfl, rfl, hserves, .refl s⟩
  | cons t ts ih =>
    cases h with
    | cons ht hrest =>
      -- what was gathered of the first file is added to what the others give
      obtain ⟨s₁, hfile, rfl, hserves₁, hfirst⟩ := buildFile_of_takes hserves ht
      obtain ⟨s', hfiles, hend, hserves', hmore⟩ := ih hserves₁ hrest
      refine ⟨s', ?_, hend, hserves', hfirst.trans hmore⟩
      rw [List.map_cons, buildFiles, hfile]
      exact hfiles

theorem exists_takesAll_of_buildFiles (hserves : b.Serves s.session)
    (h : buildFiles out s files = (s', .ok ())) :
    ∃ ts : List Taken, ts.map Taken.source = files ∧ b.TakesAll out s.files ts s'.files ∧
      b.Serves s'.session := by
  induction files generalizing s with
  | nil =>
    cases h
    exact ⟨[], rfl, .nil _, hserves⟩
  | cons x files ih =>
    rw [buildFiles] at h
    split at h
    · next s₁ hfile =>
      -- the first file was taken, and the others from the state that it left
      obtain ⟨t, rfl, htakes, hserves₁⟩ := exists_takes_of_buildFile hserves hfile
      obtain ⟨ts, rfl, hall, hserves'⟩ := ih hserves₁ h
      exact ⟨t :: ts, rfl, .cons htakes hall, hserves'⟩
    · cases h

/-- **The run goes through its scan paths**, if all that it finds there can be taken. -/
theorem buildPaths_of_scans {ts : List Taken} (hserves : b.Serves s.session)
    (h : b.Scans out s.files roots ts fs') :
    ∃ s', buildPaths out s roots = (s', .ok ()) ∧ s'.files = fs' ∧ b.Serves s'.session ∧
      Gathers s s' ts := by
  induction roots generalizing s ts with
  | nil =>
    cases h
    exact ⟨s, rfl, rfl, hserves, .refl s⟩
  | cons root roots ih =>
    cases h with
    -- the files below the first scan path are taken before those below the others
    | cons hsources htakes hrest =>
      obtain ⟨s₁, hfiles, rfl, hserves₁, hfirst⟩ := buildFiles_of_takesAll hserves htakes
      -- the line for the build system is no error and is not counted
      let told : BuildState :=
        { s₁ with output := s₁.output ++ ["cargo:rerun-if-changed=" ++ root.text] }
      obtain ⟨s', hpaths, hend, hserves', hmore⟩ := ih (s := told) hserves₁ hrest
      refine ⟨s', ?_, hend, hserves',
        hfirst.trans ⟨hmore.errors, hmore.files, hmore.written, hmore.injected, hmore.warnings⟩⟩
      rw [buildPaths, hsources]
      dsimp only
      rw [hfiles]
      exact hpaths

/-- **It goes through them only then.** -/
theorem exists_scans_of_buildPaths (hserves : b.Serves s.session)
    (h : buildPaths out s roots = (s', .ok ())) : ∃ ts, b.Scans out s.files roots ts s'.files := by
  induction roots generalizing s with
  | nil =>
    cases h
    exact ⟨[], .nil _⟩
  | cons root roots ih =>
    rw [buildPaths] at h
    split at h
    · cases h
    · next files hsources =>
      split at h
      · cases h
      · next s₁ hfiles =>
        -- the scan path is there with its files, and all of these were taken
        obtain ⟨ts, rfl, htakes, hserves₁⟩ := exists_takesAll_of_buildFiles hserves hfiles
        obtain ⟨ts', hrest⟩ := ih
          (s := { s₁ with output := s₁.output ++ ["cargo:rerun-if-changed=" ++ root.text] })
          hserves₁ h
        exact ⟨ts ++ ts', .cons hsources htakes hrest⟩

/-! ### Outputs apart from the sources -/

theorem Takes.evolves {t : Taken} (hfs : fs.WellFormed) (h : b.Takes out fs t fs') :
    ∃ a, place? fs out t.source = some a ∧ FileSystem.Evolves (· = a) fs fs' := by
  obtain ⟨-, -, houtput⟩ := h
  obtain ⟨a, hplace, hgrows, -⟩ := writeIfChanged_eq_ok hfs (writeIfChanged_eq_ok_iff.mpr houtput)
  exact ⟨a, hplace, hgrows⟩

/-- What a run makes of a source as it was in the beginning. -/
def Reads (b : Build) (fs : FileSystem) (t : Taken) : Prop :=
  ∃ text f, fs.readText t.source.path = .ok text ∧ b.session.told text = .ok (f, t.report)

theorem TakesAll.of_apart {ts : List Taken} (happart : b.Apart fs₀ out)
    (hgrows : FileSystem.Evolves (b.Written fs₀ out) fs₀ fs)
    (hinputs : ∀ t ∈ ts, t.source ∈ b.inputs fs₀) (h : b.TakesAll out fs ts fs') :
    FileSystem.Evolves (b.Written fs₀ out) fs₀ fs' ∧ ∀ t ∈ ts, b.Reads fs₀ t := by
  induction h with
  | nil fs => exact ⟨hgrows, fun _ ht => absurd ht List.not_mem_nil⟩
  | @cons fs fs₁ fs₂ t ts htakes _ ih =>
    obtain ⟨hmem, hinputs⟩ := List.forall_mem_cons.mp hinputs
    obtain ⟨a, hplace, hstep⟩ := htakes.evolves (hgrows.wellFormed happart.tree)
    -- growing moves no place, so what is written are places of targets still
    have hplace₀ : place? fs₀ out t.source = some a := (hgrows.place?_eq _).symm.trans hplace
    obtain ⟨hend, hreads⟩ := ih
      (hgrows.trans (hstep.mono fun _ ha => ⟨t.source, hmem, ha ▸ hplace₀⟩)) hinputs
    obtain ⟨hread, htold, -⟩ := htakes
    rw [happart.readText_eq hgrows hmem] at hread
    exact ⟨hend, List.forall_mem_cons.mpr ⟨⟨_, _, hread, htold⟩, hreads⟩⟩

/-- **If the output is apart from what is scanned**, a run takes the sources that were there in the
beginning, as they were. -/
theorem Scans.of_apart {ts : List Taken} (happart : b.Apart fs₀ out)
    (hroots : ∀ root ∈ roots, root ∈ b.roots)
    (hgrows : FileSystem.Evolves (b.Written fs₀ out) fs₀ fs) (h : b.Scans out fs roots ts fs') :
    ts.map Taken.source = roots.flatMap (fun root => (sources fs₀ root).toOption.getD []) ∧
      (∀ t ∈ ts, b.Reads fs₀ t) ∧ FileSystem.Evolves (b.Written fs₀ out) fs₀ fs' := by
  induction h with
  | nil fs => exact ⟨rfl, fun _ ht => absurd ht List.not_mem_nil, hgrows⟩
  | @cons fs fs₁ fs₂ root roots ts ts' hsources htakes _ ih =>
    obtain ⟨hroot, hroots⟩ := List.forall_mem_cons.mp hroots
    -- what is written lies in no scan path, so the sources are listed as at first
    rw [happart.sources_eq hgrows hroot] at hsources
    have hinputs : ∀ t ∈ ts, t.source ∈ b.inputs fs₀ := fun t ht =>
      List.mem_flatMap.mpr ⟨root, hroot, by rw [hsources]; exact List.mem_map_of_mem ht⟩
    -- the induction goes over the scan paths with the same growth
    obtain ⟨hgrows₁, hreads⟩ := htakes.of_apart happart hgrows hinputs
    obtain ⟨hmore, hreads', hend⟩ := ih hroots hgrows₁
    refine ⟨?_, List.forall_mem_append.mpr ⟨hreads, hreads'⟩, hend⟩
    rw [List.map_append, hmore, List.flatMap_cons, hsources]
    rfl

/-! ### The verdict -/

/-- **The verdict on some sources.** -/
structure Judged (b : Build) (ts : List Taken) (result : Except BuildError BuildReport) : Prop where
  isOk_iff : (∃ r, result = .ok r) ↔
    (∀ t ∈ ts, ¬ t.Has .error) ∧ ¬ (b.denyWarnings = true ∧ ∃ t ∈ ts, t.Has .warning)
  report : ∀ r, result = .ok r → r = {
    files := ts.length
    written := ts.countP Taken.changed
    injected := (ts.map fun t => t.report.summary.injected.length).sum
    warnings := (ts.map fun t => t.report.count .warning).sum }
  rejected : (∃ t ∈ ts, t.Has .error) →
    result = .error (.rejected (ts.flatMap (Taken.lines .error)))
  denied : (∀ t ∈ ts, ¬ t.Has .error) → b.denyWarnings = true → (∃ t ∈ ts, t.Has .warning) →
    result = .error (.denied (ts.map fun t => t.report.count .warning).sum)

/-- Lists of lines are empty together. -/
theorem flatMap_lines_eq_nil_iff {severity : Severity} {ts : List Taken} :
    ts.flatMap (Taken.lines severity) = [] ↔ ∀ t ∈ ts, ¬ t.Has severity := by
  rw [List.flatMap_eq_nil_iff]
  exact forall₂_congr fun t _ => Taken.lines_eq_nil_iff

theorem sum_warnings_pos_iff {ts : List Taken} :
    0 < (ts.map fun t => t.report.count .warning).sum ↔ ∃ t ∈ ts, t.Has .warning := by
  have hlength : (ts.map fun t => t.report.count .warning).sum =
      (ts.flatMap (Taken.lines .warning)).length := by
    rw [List.length_flatMap]
    exact congrArg List.sum (List.map_congr_left fun t _ => (t.length_lines .warning).symm)
  rw [hlength, List.length_pos_iff, ne_eq, flatMap_lines_eq_nil_iff]
  push Not
  rfl

theorem judged_conclude {ts : List Taken}
    (h : Gathers { files := fs, session := b.session } s ts) : Judged b ts (b.conclude s) := by
  have herrors : s.errors = ts.flatMap (Taken.lines .error) := h.errors
  have hreport : s.report = {
      files := ts.length
      written := ts.countP Taken.changed
      injected := (ts.map fun t => t.report.summary.injected.length).sum
      warnings := (ts.map fun t => t.report.count .warning).sum } := by
    -- a run starts with nothing counted
    have hfiles := h.files
    have hwritten := h.written
    have hinjected := h.injected
    have hwarnings := h.warnings
    rw [Nat.zero_add] at hfiles hwritten hinjected hwarnings
    rw [← hfiles, ← hwritten, ← hinjected, ← hwarnings]
  have hempty : s.errors = [] ↔ ∀ t ∈ ts, ¬ t.Has .error := by
    rw [herrors, flatMap_lines_eq_nil_iff]
  have hwarned : 0 < s.report.warnings ↔ ∃ t ∈ ts, t.Has .warning := by
    rw [hreport, sum_warnings_pos_iff]
  -- the three ends of a run
  have hend : b.conclude s =
      if s.errors = [] then
        if b.denyWarnings = true ∧ 0 < s.report.warnings then .error (.denied s.report.warnings)
        else .ok s.report
      else .error (.rejected s.errors) := by
    unfold conclude
    by_cases hnone : s.errors = [] <;> simp [hnone]
  by_cases hnone : s.errors = []
  · -- there are no errors, and the warnings decide
    rw [hend, if_pos hnone]
    have hclean := hempty.mp hnone
    by_cases hdenied : b.denyWarnings = true ∧ 0 < s.report.warnings
    · rw [if_pos hdenied]
      refine ⟨iff_of_false (fun ⟨_, hno⟩ => nomatch hno) fun hok => ?_, (fun _ hno => nomatch hno),
        fun ⟨t, ht, hhas⟩ => absurd hhas (hclean t ht), fun _ _ _ => by rw [hreport]⟩
      exact hok.2 ⟨hdenied.1, hwarned.mp hdenied.2⟩
    · rw [if_neg hdenied]
      refine ⟨iff_of_true ⟨_, rfl⟩ ⟨hclean, fun hwarns => ?_⟩, fun r hr => ?_,
        fun ⟨t, ht, hhas⟩ => absurd hhas (hclean t ht),
        fun _ hdeny hwarns => absurd ⟨hdeny, hwarned.mpr hwarns⟩ hdenied⟩
      · exact hdenied ⟨hwarns.1, hwarned.mpr hwarns.2⟩
      · rw [← Except.ok.inj hr, hreport]
  · -- there are errors, and these are what is told
    rw [hend, if_neg hnone, herrors]
    exact ⟨iff_of_false (fun ⟨_, hno⟩ => nomatch hno) fun hok => hnone (hempty.mpr hok.1),
      (fun _ hno => nomatch hno), fun _ => rfl, fun hclean => absurd (hempty.mpr hclean) hnone⟩

theorem isVerdict_of_conclude {e : BuildError} (h : b.conclude s = .error e) :
    isVerdict e = true := by
  unfold conclude at h
  split at h
  · cases h
    rfl
  · split at h
    · cases h
      rfl
    · cases h

/-- **The way of a run as far as a source**: the scan paths before are gone through, and then the
sources that are listed before it are taken. -/
inductive Reaches (b : Build) (out : FilePath) (fs : FileSystem) :
    List Taken → SourceFile → FileSystem → Prop
  | intro {done rest : List FilePath} {root : FilePath} {ts ts' : List Taken} {x : SourceFile}
      {more : List SourceFile} {fs₁ fs₂ : FileSystem} (hroots : b.roots = done ++ root :: rest)
      (hscans : b.Scans out fs done ts fs₁)
      (hsources : sources fs₁ root = .ok (ts'.map Taken.source ++ x :: more))
      (htakes : b.TakesAll out fs₁ ts' fs₂) : Reaches b out fs (ts ++ ts') x fs₂

/-- The run stops at a source that it reaches and that does not parse. -/
theorem buildPaths_of_reaches {ts : List Taken} {cause : SourceError}
    (h : b.Reaches out fs ts x fs') (hread : fs'.readText x.path = .ok text)
    (htold : b.session.told text = .error cause) :
    ∃ s, buildPaths out { files := fs, session := b.session } b.roots =
      (s, .error (.unparsable x.path cause)) ∧ s.files = fs' := by
  obtain ⟨hroots, hscans, hsources, htakes⟩ := h
  let start : BuildState := { files := fs, session := b.session }
  -- the scan paths before its own, the files before it, and then the file
  obtain ⟨s₁, hdone, rfl, hserves₁, -⟩ :=
    buildPaths_of_scans (s := start) b.serves_session hscans
  obtain ⟨s₂, hfiles, rfl, hserves₂, -⟩ := buildFiles_of_takesAll hserves₁ htakes
  refine ⟨s₂, ?_, rfl⟩
  rw [hroots, buildPaths_append, hdone]
  dsimp only
  rw [buildPaths, hsources]
  dsimp only
  rw [buildFiles_append, hfiles]
  dsimp only
  rw [buildFiles, buildFile_of_unparsable hserves₂ hread htold]

/-- The sources before it are the first ones, if the output is apart from what is scanned. -/
theorem Reaches.of_apart {ts : List Taken} (happart : b.Apart fs out)
    (h : b.Reaches out fs ts x fs') :
    ∃ others, b.inputs fs = ts.map Taken.source ++ x :: others := by
  obtain @⟨done, rest, root, ts, ts', x, more, fs₁, fs₂, hroots, hscans, hsources, -⟩ := h
  have hmem : ∀ root' ∈ done ++ root :: rest, root' ∈ b.roots := fun _ h => hroots ▸ h
  obtain ⟨hbefore, -, hgrows⟩ :=
    hscans.of_apart happart (fun _ h => hmem _ (List.mem_append_left _ h)) .refl
  rw [happart.sources_eq hgrows (hmem root (by simp))] at hsources
  refine ⟨more ++ rest.flatMap (fun root => (sources fs root).toOption.getD []), ?_⟩
  rw [inputs, hroots, List.flatMap_append, List.flatMap_cons, ← hbefore, hsources]
  simp [Except.toOption]

/-- Three sources in one of two scan paths. The first one has an error, the last one does not parse.
-/
def brokenLast : FileSystem where
  entries := [
    (["p"], .directory),
    (["p", "bus.rs"], .file (.text "#[fielder(name = \"k\", ty = u8)] struct Bus \x7b\x7d")),
    (["p", "car.rs"], .file (.text
      "#[fielder(name = \"k\", ty = u8)] #[derive(Default)] struct Car \x7b\x7d")),
    (["p", "zoo.rs"], .file (.text "struct Zoo \x7b")),
    (["q"], .directory),
    (["q", "van.rs"], .file (.text "struct Van;"))]

/-- A run over some of the scan paths. -/
def scanning (scan : List FilePath) : Build where
  scan
  output := some ⟨"out"⟩

/-- The first two sources. -/
def beforeBroken : List SourceFile :=
  [⟨⟨"p/bus.rs"⟩, ⟨"bus.rs"⟩⟩, ⟨⟨"p/car.rs"⟩, ⟨"car.rs"⟩⟩]

/-- All sources of the scan path. -/
def withBroken : List SourceFile :=
  beforeBroken ++ [⟨⟨"p/zoo.rs"⟩, ⟨"zoo.rs"⟩⟩]

/-- The file system after the first two were taken. -/
def brokenMirror : FileSystem where
  entries := brokenLast.entries ++ [
    (["out"], .directory),
    (["out", "bus.rs"], .file (.text "struct Bus \x7b\x7d\n")),
    (["out", "car.rs"], .file (.text
      "#[derive(Default)]\nstruct Car \x7b\n    pub k: u8,\n\x7d\n"))]

/-- The run where it has got to the scan path. -/
def brokenStart : BuildState where
  files := brokenLast
  session := (scanning [⟨"p"⟩, ⟨"q"⟩]).session

theorem brokenLast_reaches : ∃ ts, (scanning [⟨"p"⟩, ⟨"q"⟩]).Reaches ⟨"out"⟩ brokenLast ts
    ⟨⟨"p/zoo.rs"⟩, ⟨"zoo.rs"⟩⟩ brokenMirror := by
  -- the run is computed up to the file that cannot be parsed
  obtain ⟨hgone, hfiles⟩ : (buildFiles ⟨"out"⟩ brokenStart beforeBroken).2 = .ok () ∧
      (buildFiles ⟨"out"⟩ brokenStart beforeBroken).1.files = brokenMirror := by
    decide +kernel
  have hbuild : buildFiles ⟨"out"⟩ brokenStart beforeBroken =
      ((buildFiles ⟨"out"⟩ brokenStart beforeBroken).1, .ok ()) := by
    rw [← hgone]
  -- this file is listed last, behind those that are taken
  have hsources : sources brokenLast ⟨"p"⟩ = .ok withBroken := by
    have hfound : (brokenLast.walk .listed ⟨"p"⟩).filterMap (sourceOf? ⟨"p"⟩) = withBroken := by
      decide +kernel
    have hsorted : withBroken.mergeSort (fun a b => a.relative.notAfter b.relative) = withBroken :=
      List.mergeSort_of_pairwise (by decide +kernel)
    rw [sources, if_pos (by decide +kernel), hfound, hsorted]
  obtain ⟨ts, hts, htakes, -⟩ := exists_takesAll_of_buildFiles (serves_session _) hbuild
  rw [hfiles] at htakes
  rw [withBroken, ← hts] at hsources
  have hroots : (scanning [⟨"p"⟩, ⟨"q"⟩]).roots = [] ++ ⟨"p"⟩ :: [⟨"q"⟩] := rfl
  exact ⟨ts, .intro hroots (.nil _) hsources htakes⟩

theorem told_brokenLast :
    (scanning [⟨"p"⟩, ⟨"q"⟩]).session.told "struct Zoo \x7b" = .error .unlexable := by
  have hkind : (File.ofText "struct Zoo \x7b").map (fun _ => ()) = .error .unlexable := by
    decide +kernel
  rw [Session.told, Session.injectText]
  cases hfile : File.ofText "struct Zoo \x7b" with
  | ok f =>
    rw [hfile] at hkind
    cases hkind
  | error e =>
    rw [hfile] at hkind
    cases hkind
    rfl

end FieldGraft.Build
