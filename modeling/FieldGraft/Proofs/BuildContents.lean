import FieldGraft.Proofs.SessionTexts
import FieldGraft.Proofs.SourceScans

/-!
# What a build run leaves below its output directory

Each source of a run has a text of its own (`Build.ownText?`), which the run writes to its target.
Two targets may be one place, in which case the later source takes it: `Build.run_contents` says
which text each target holds in the end, and that the run is complete exactly if sources that share
a place have the same text.

* `Build.Apart` — the scan paths are directories of a tree, and no target lies in one of them. So
  what the run writes changes neither the sources that are still to come nor their texts.
* `Build.buildFile_eq_ok` — one source: its own text is at its place, and nothing else is written.
* `Build.Mirrored` — after some sources each of their targets holds the text of the last one with
  the same place. One source more keeps this (`Mirrored.step`), and so does the whole run.
-/

namespace FieldGraft

/-! ### The text of a source -/

namespace Build

open FileSystem (exists_entry_of_readText readText_of_entry)

variable {b : Build} {fs fs' fs₀ : FileSystem} {out p root : FilePath} {text : String}
  {x y : SourceFile} {s s' : BuildState} {a : Address} {done files : List SourceFile}

/-- The session that a run starts with. -/
def session (b : Build) : Session :=
  { host := .source .buildScript, placement := b.placement }

/-- A session as the run has it. -/
structure Serves (b : Build) (session : Session) : Prop where
  granted : session.Granted
  placement_eq : session.placement = b.placement

theorem serves_session (b : Build) : b.Serves b.session :=
  ⟨⟨_, rfl⟩, rfl⟩

/-- The text that a session makes of a source text. -/
def produced (session : Session) (source : String) : Except SourceError String :=
  (session.injectText source).map fun (_, f, r) => outputText source f r

theorem produced_eq_told (session : Session) (source : String) :
    produced session source = (session.told source).map fun told =>
      outputText source told.1 told.2 := by
  unfold produced Session.told
  cases session.injectText source <;> rfl

/-- All sessions of a run make the same text of a source. -/
theorem Serves.produced_eq {session : Session} (h : b.Serves session) (source : String) :
    produced session source = produced b.session source := by
  rw [produced_eq_told, produced_eq_told,
    Session.told_granted b.serves_session.granted h.granted h.placement_eq]

/-- The session after a round serves as well. -/
theorem Serves.after_injectText {session session' : Session} {source : String} {f : File}
    {r : RoundReport} (h : b.Serves session)
    (hinject : session.injectText source = .ok (session', f, r)) : b.Serves session' :=
  ⟨h.granted.after_injectText hinject,
    (Session.placement_of_injectText hinject).trans h.placement_eq⟩

/-- **The text that belongs to a source**: its rewritten form if it carries annotations, and the
source itself otherwise. -/
def ownText? (b : Build) (fs : FileSystem) (x : SourceFile) : Option String :=
  match fs.readText x.path with
  | .ok source => (produced b.session source).toOption
  | .error _ => none

/-- The sources of a run, in the order in which it takes them. -/
def inputs (b : Build) (fs : FileSystem) : List SourceFile :=
  b.roots.flatMap fun root => (sources fs root).toOption.getD []

/-- The place to which the text of a source is written. -/
def place? (fs : FileSystem) (out : FilePath) (x : SourceFile) : Option Address :=
  fs.place? (out.join x.relative)

/-- The last of some sources with the same place as the given one. -/
def lastAt? (fs : FileSystem) (out : FilePath) (inputs : List SourceFile) (x : SourceFile) :
    Option SourceFile :=
  inputs.reverse.find? fun y => place? fs out y = place? fs out x

/-- **The output is apart from what is scanned**: the scan paths are directories of a tree, and none
of the places lies in one of them. -/
structure Apart (b : Build) (fs : FileSystem) (out : FilePath) : Prop where
  tree : fs.WellFormed
  scanned : ∀ root ∈ b.roots, fs.isDirectory root = true
  outside : ∀ x ∈ b.inputs fs, ∀ a, place? fs out x = some a → ∀ root ∈ b.roots, ∀ r,
    fs.entry true root = .ok (r, .directory) → ¬ r <+: a

/-! ### One source -/

/-- **A text is written to the place of its path**, or it is there already. -/
theorem writeIfChanged_eq_ok {changed : Bool} (hfs : fs.WellFormed)
    (h : writeIfChanged fs p text = (fs', .ok changed)) :
    ∃ a, fs.place? p = some a ∧ FileSystem.Evolves (· = a) fs fs' ∧
      fs'.entry true p = .ok (a, .file (.text text)) := by
  unfold writeIfChanged at h
  split at h
  · next hholds =>
    -- nothing is written, as the path leads to the text
    cases h
    have hread : fs.readText p = .ok text := by
      unfold FileSystem.holds at hholds
      split at hholds
      · next s hs => rw [hs, beq_iff_eq.mp hholds]
      · cases hholds
    obtain ⟨a, hentry⟩ := exists_entry_of_readText hread
    have hleads := (FileSystem.resolve_eq_ok_iff.mp (FileSystem.entry_eq_ok_iff.mp hentry)).2
    exact ⟨a, hleads.place_eq, .refl, hentry⟩
  · have hparent := FileSystem.makeParent_evolves hfs p
    split at h
    · cases h
    · next fs₁ hmade =>
      rw [hmade] at hparent
      split at h
      · next hwrite =>
        -- new directories on the way do not change the place
        cases h
        obtain ⟨a, hplace, hgrows, hentry⟩ :=
          FileSystem.write_eq_ok (hparent.wellFormed hfs) hwrite
        refine ⟨a, ?_, ?_, hentry⟩
        · rw [← hparent.place?_eq, hplace]
        · exact (hparent.mono fun _ hno => hno.elim).trans hgrows
      · cases h

/-- The state after a source was taken; `changed` tells whether its text was written. -/
def stateAfter (s : BuildState) (x : SourceFile) (round : Session × File × RoundReport)
    (files : FileSystem) (changed : Bool) : BuildState where
  files
  session := round.1
  report := {
    files := s.report.files + 1
    written := s.report.written + (if changed then 1 else 0)
    injected := s.report.injected + round.2.2.summary.injected.length
    warnings := s.report.warnings + (diagnosticLines .warning x.path round.2.2).length }
  errors := s.errors ++ diagnosticLines .error x.path round.2.2
  output := s.output ++
    (diagnosticLines .warning x.path round.2.2).map (fun l => "cargo:warning=" ++ l)
  log := s.log ++ round.2.2.log

/-- **What a run does with a source that it gets through**: it is read, goes through a round, and
what comes of it is written if it is not there already. -/
theorem buildFile_eq_ok_iff : buildFile out s x = (s', .ok ()) ↔
    ∃ source round files changed, s.files.readText x.path = .ok source ∧
      s.session.injectText source = .ok round ∧
      writeIfChanged s.files (out.join x.relative) (outputText source round.2.1 round.2.2) =
        (files, .ok changed) ∧
      s' = stateAfter s x round files changed := by
  constructor
  · intro h
    -- the steps in order, each of which may fail
    unfold buildFile at h
    split at h
    · cases h
    · next source hread =>
      split at h
      · cases h
      · next session f r hinject =>
        dsimp only at h
        split at h
        · cases h
        · next changed hwritten =>
          exact ⟨source, (session, f, r), _, changed, hread, hinject, Prod.ext rfl hwritten,
            (Prod.mk.inj h).1.symm⟩
  · rintro ⟨source, ⟨session, f, r⟩, files, changed, hread, hinject, hwrite, rfl⟩
    unfold buildFile
    rw [hread]
    dsimp only
    rw [hinject]
    dsimp only
    rw [hwrite]
    rfl

/-- **One source**: the run reads it, and its own text is at its place. -/
theorem buildFile_eq_ok (hfs : s.files.WellFormed) (hserves : b.Serves s.session)
    (h : buildFile out s x = (s', .ok ())) :
    b.Serves s'.session ∧ ∃ a text, place? s.files out x = some a ∧
      b.ownText? s.files x = some text ∧ FileSystem.Evolves (· = a) s.files s'.files ∧
      s'.files.entry true (out.join x.relative) = .ok (a, .file (.text text)) := by
  obtain ⟨source, ⟨session, f, r⟩, files, changed, hread, hinject, hwrite, rfl⟩ :=
    buildFile_eq_ok_iff.mp h
  -- the session is not the one that the run started with, but it makes the same text
  have hown : b.ownText? s.files x = some (outputText source f r) := by
    rw [ownText?, hread]
    dsimp only
    rw [← hserves.produced_eq, produced, hinject]
    rfl
  obtain ⟨a, hplace, hgrows, hentry⟩ := writeIfChanged_eq_ok hfs hwrite
  exact ⟨hserves.after_injectText hinject, a, _, hplace, hown, hgrows, hentry⟩

/-! ### All sources -/

/-- The places that a run writes to. -/
def Written (b : Build) (fs : FileSystem) (out : FilePath) (a : Address) : Prop :=
  ∃ x ∈ b.inputs fs, place? fs out x = some a

theorem exists_entry_of_isDirectory (h : fs.isDirectory p = true) :
    ∃ r, fs.entry true p = .ok (r, .directory) := by
  unfold FileSystem.isDirectory at h
  split at h
  · next r hentry => exact ⟨r, hentry⟩
  · cases h

/-- Every source is a file below one of the scan paths, and its relative path spells the names on
the way. -/
theorem exists_names_of_mem_inputs (htree : fs.WellFormed)
    (hscanned : ∀ root ∈ b.roots, fs.isDirectory root = true) (hx : x ∈ b.inputs fs) :
    ∃ root ∈ b.roots, ∃ r names c, fs.entry true root = .ok (r, .directory) ∧ names ≠ [] ∧
      (∀ s ∈ names, IsFileName s) ∧ x.relative = ⟨"/".intercalate names⟩ ∧
      fs.entry true x.path = .ok (r ++ names, .file c) := by
  obtain ⟨root, hroot, hmem⟩ := List.mem_flatMap.mp hx
  obtain ⟨r, hentry⟩ := exists_entry_of_isDirectory (hscanned root hroot)
  -- a scan path that cannot be listed has no inputs
  cases hsources : sources fs root with
  | error e =>
    rw [hsources] at hmem
    cases hmem
  | ok files =>
    rw [hsources] at hmem
    obtain ⟨names, c, hnames⟩ := exists_names_of_mem_sources htree hentry hsources hmem
    exact ⟨root, hroot, r, names, c, hentry, hnames⟩

namespace Apart

/-- **An output directory outside the scan paths**, which do not lie in it either, is apart from
them if there are no links in it. -/
theorem of_disjoint {o : Address} (htree : fs.WellFormed)
    (hscanned : ∀ root ∈ b.roots, fs.isDirectory root = true) (hplace : fs.place? out = some o)
    (hlinks : ∀ a, o <+: a → fs.linkAt? a = none)
    (hdisjoint : ∀ root ∈ b.roots, ∀ r, fs.entry true root = .ok (r, .directory) →
      ¬ r <+: o ∧ ¬ o <+: r) : b.Apart fs out := by
  refine ⟨htree, hscanned, fun x hx a ha root hroot r hentry hbelow => ?_⟩
  obtain ⟨-, -, -, names, -, -, hne, hnames, hrelative, -⟩ :=
    exists_names_of_mem_inputs htree hscanned hx
  rw [place?, hrelative, FileSystem.place?_join hplace hlinks hne hnames] at ha
  cases ha
  -- two addresses that lead to a common one lie in a line
  obtain ⟨hroot, hout⟩ := hdisjoint root hroot r hentry
  exact (List.prefix_or_prefix_of_prefix hbelow (List.prefix_append o names)).elim hroot hout

/-- The sources that are still to come are the same. -/
theorem sources_eq (h : b.Apart fs₀ out) (hgrows : FileSystem.Evolves (b.Written fs₀ out) fs₀ fs)
    (hroot : root ∈ b.roots) : sources fs root = sources fs₀ root := by
  obtain ⟨r, hentry⟩ := exists_entry_of_isDirectory (h.scanned root hroot)
  refine sources_evolves hgrows h.tree hentry ?_
  rintro a ⟨x, hx, ha⟩
  exact h.outside x hx a ha root hroot r hentry

/-- All of them together are the same as well. -/
theorem inputs_eq (h : b.Apart fs₀ out) (hgrows : FileSystem.Evolves (b.Written fs₀ out) fs₀ fs) :
    b.inputs fs = b.inputs fs₀ :=
  List.flatMap_congr fun _ hroot => by rw [h.sources_eq hgrows hroot]

/-- Their paths lead where they led before. -/
theorem entry_eq (h : b.Apart fs₀ out) (hgrows : FileSystem.Evolves (b.Written fs₀ out) fs₀ fs)
    (hx : x ∈ b.inputs fs₀) : fs.entry true x.path = fs₀.entry true x.path := by
  obtain ⟨root, hroot, r, names, c, hentry, -, -, -, hfile⟩ :=
    exists_names_of_mem_inputs h.tree h.scanned hx
  -- the source lies in the scanned directory, where nothing is written
  have hkept : fs.get? (r ++ names) = some (.file c) := by
    refine hgrows.file_of_not_written (h.tree.get?_of_entry hfile) ?_
    rintro ⟨y, hy, ha⟩
    exact h.outside y hy _ ha root hroot r hentry (List.prefix_append r names)
  have hfile' := hgrows.entry_eq h.tree hfile hkept fun _ _ => Entry.noConfusion
  rw [hfile, hfile']

/-- They read as before. -/
theorem readText_eq (h : b.Apart fs₀ out) (hgrows : FileSystem.Evolves (b.Written fs₀ out) fs₀ fs)
    (hx : x ∈ b.inputs fs₀) : fs.readText x.path = fs₀.readText x.path := by
  rw [FileSystem.readText, FileSystem.readText, FileSystem.read, FileSystem.read,
    h.entry_eq hgrows hx]

/-- So their own texts are the same. -/
theorem ownText?_eq (h : b.Apart fs₀ out) (hgrows : FileSystem.Evolves (b.Written fs₀ out) fs₀ fs)
    (hx : x ∈ b.inputs fs₀) : b.ownText? fs x = b.ownText? fs₀ x := by
  rw [ownText?, ownText?, h.readText_eq hgrows hx]

/-- **Without links in the output, places are relative paths.** -/
theorem place?_eq_iff (h : b.Apart fs out) {o : Address} (hplace : fs.place? out = some o)
    (hlinks : ∀ a, o <+: a → fs.linkAt? a = none) (hx : x ∈ b.inputs fs) (hy : y ∈ b.inputs fs) :
    place? fs out x = place? fs out y ↔ x.relative = y.relative := by
  obtain ⟨-, -, -, names, -, -, hne, hnames, hrelative, -⟩ :=
    exists_names_of_mem_inputs h.tree h.scanned hx
  obtain ⟨-, -, -, names', -, -, hne', hnames', hrelative', -⟩ :=
    exists_names_of_mem_inputs h.tree h.scanned hy
  rw [place?, place?, hrelative, hrelative', FileSystem.place?_join hplace hlinks hne hnames,
    FileSystem.place?_join hplace hlinks hne' hnames',
    FilePath.intercalate_inj hne hne' hnames hnames', Option.some_inj, List.append_cancel_left_eq]

end Apart

theorem lastAt?_concat (fs : FileSystem) (out : FilePath) (done : List SourceFile)
    (x y : SourceFile) :
    lastAt? fs out (done ++ [x]) y =
      if place? fs out x = place? fs out y then some x else lastAt? fs out done y := by
  rw [lastAt?, List.reverse_append, List.reverse_singleton, List.singleton_append, List.find?_cons]
  by_cases hplace : place? fs out x = place? fs out y <;> simp [hplace, lastAt?]

/-- **The targets of some sources are written**: each holds the text of the last of them with its
place. -/
structure Mirrored (b : Build) (fs₀ : FileSystem) (out : FilePath) (done : List SourceFile)
    (fs : FileSystem) : Prop where
  evolves : FileSystem.Evolves (b.Written fs₀ out) fs₀ fs
  held : ∀ x ∈ done, ∃ a y text, place? fs₀ out x = some a ∧ lastAt? fs₀ out done x = some y ∧
    b.ownText? fs₀ y = some text ∧
    fs.entry true (out.join x.relative) = .ok (a, .file (.text text))

/-- **One source more** takes its place, and leaves the others alone. -/
theorem Mirrored.step (happart : b.Apart fs₀ out) (hx : x ∈ b.inputs fs₀)
    (h : b.Mirrored fs₀ out done s.files) (hserves : b.Serves s.session)
    (hbuild : buildFile out s x = (s', .ok ())) :
    b.Mirrored fs₀ out (done ++ [x]) s'.files ∧ b.Serves s'.session := by
  -- what the source comes to in the present file system is what it came to in the first one
  have htree := h.evolves.wellFormed happart.tree
  obtain ⟨hserves', a, text, hplace, hown, hgrows, hentry⟩ := buildFile_eq_ok htree hserves hbuild
  have hplace : place? fs₀ out x = some a := (h.evolves.place?_eq _).symm.trans hplace
  rw [happart.ownText?_eq h.evolves hx] at hown
  have hnew : s'.files.get? a = some (.file (.text text)) :=
    (hgrows.wellFormed htree).get?_of_entry hentry
  refine ⟨⟨?_, ?_⟩, hserves'⟩
  · refine h.evolves.trans (hgrows.mono ?_)
    rintro _ rfl
    exact ⟨x, hx, hplace⟩
  · intro y hy
    rw [lastAt?_concat]
    rcases List.mem_append.mp hy with hy | hy
    · obtain ⟨a', z, text', hplace', hlast, hown', hentry'⟩ := h.held y hy
      rw [hplace, hplace']
      by_cases hsame : a = a'
      · -- the new text has taken the place of the old one
        subst hsame
        exact ⟨a, x, text, rfl, if_pos rfl, hown,
          hgrows.entry_eq htree hentry' hnew fun _ _ => Entry.noConfusion⟩
      · -- another place is not written to
        have hkept := hgrows.file_of_not_written (htree.get?_of_entry hentry') (Ne.symm hsame)
        refine ⟨a', z, text', rfl, ?_, hown',
          hgrows.entry_eq htree hentry' hkept fun _ _ => Entry.noConfusion⟩
        rw [if_neg fun heq => hsame (Option.some.inj heq)]
        exact hlast
    · rw [List.mem_singleton.mp hy]
      exact ⟨a, x, text, hplace, if_pos rfl, hown, hentry⟩

/-- The sources below one scan path. -/
theorem Mirrored.buildFiles (happart : b.Apart fs₀ out) (hfiles : ∀ x ∈ files, x ∈ b.inputs fs₀)
    (h : b.Mirrored fs₀ out done s.files) (hserves : b.Serves s.session)
    (hbuild : Build.buildFiles out s files = (s', .ok ())) :
    b.Mirrored fs₀ out (done ++ files) s'.files ∧ b.Serves s'.session := by
  induction files generalizing s done with
  | nil =>
    cases hbuild
    rw [List.append_nil]
    exact ⟨h, hserves⟩
  | cons x files ih =>
    -- `x` first, and then the files behind it in the state that it leaves
    obtain ⟨hx, hrest⟩ := List.forall_mem_cons.mp hfiles
    rw [Build.buildFiles] at hbuild
    split at hbuild
    · next s₁ hfile =>
      obtain ⟨hnext, hserves₁⟩ := h.step happart hx hserves hfile
      obtain ⟨hall, hserves'⟩ := ih hrest hnext hserves₁ hbuild
      rw [List.append_assoc] at hall
      exact ⟨hall, hserves'⟩
    · cases hbuild

/-- All scan paths. -/
theorem Mirrored.buildPaths {roots : List FilePath} (happart : b.Apart fs₀ out)
    (hroots : ∀ root ∈ roots, root ∈ b.roots) (h : b.Mirrored fs₀ out done s.files)
    (hserves : b.Serves s.session) (hbuild : Build.buildPaths out s roots = (s', .ok ())) :
    b.Mirrored fs₀ out
      (done ++ roots.flatMap fun root => (sources fs₀ root).toOption.getD []) s'.files := by
  induction roots generalizing s done with
  | nil =>
    cases hbuild
    rw [List.flatMap_nil, List.append_nil]
    exact h
  | cons root roots ih =>
    obtain ⟨hroot, hrest⟩ := List.forall_mem_cons.mp hroots
    -- the scan path is listed after the targets of the earlier ones were written
    rw [Build.buildPaths, happart.sources_eq h.evolves hroot] at hbuild
    cases hsources : sources fs₀ root with
    | error e =>
      rw [hsources] at hbuild
      cases hbuild
    | ok files =>
      rw [hsources] at hbuild
      dsimp only at hbuild
      split at hbuild
      · cases hbuild
      · next s₁ hfiles =>
        have hinputs : ∀ x ∈ files, x ∈ b.inputs fs₀ := fun x hx =>
          List.mem_flatMap.mpr ⟨root, hroot, by rw [hsources]; exact hx⟩
        obtain ⟨hnext, hserves₁⟩ := h.buildFiles happart hinputs hserves hfiles
        have hall := ih
          (s := { s₁ with output := s₁.output ++ ["cargo:rerun-if-changed=" ++ root.text] })
          hrest hnext hserves₁ hbuild
        rw [List.append_assoc] at hall
        rw [List.flatMap_cons, hsources]
        exact hall

/-! ### The run -/

/-- The error is a verdict on a run that went through all files. -/
def isVerdict : BuildError → Bool
  | .rejected _ => true
  | .denied _ => true
  | _ => false

/-- **The run went through all files**, whatever it found in them. -/
def WentThrough (o : BuildOutcome) : Prop :=
  ∀ e, o.result = .error e → isVerdict e = true

theorem buildFile_error {e : BuildError} (h : buildFile out s x = (s', .error e)) :
    isVerdict e = false := by
  unfold buildFile at h
  split at h
  · cases h
    rfl
  · split at h
    · cases h
      rfl
    · dsimp only at h
      split at h
      · next hwritten =>
        cases h
        unfold writeIfChanged at hwritten
        split at hwritten
        · cases hwritten
        · split at hwritten
          · cases hwritten
            rfl
          · split at hwritten
            · cases hwritten
            · cases hwritten
              rfl
      · cases h

theorem buildFiles_error {e : BuildError} (h : buildFiles out s files = (s', .error e)) :
    isVerdict e = false := by
  induction files generalizing s with
  | nil => cases h
  | cons x files ih =>
    rw [buildFiles] at h
    split at h
    · exact ih h
    · next hfile =>
      cases h
      exact buildFile_error hfile

theorem buildPaths_error {e : BuildError} {roots : List FilePath}
    (h : buildPaths out s roots = (s', .error e)) : isVerdict e = false := by
  induction roots generalizing s with
  | nil => cases h
  | cons root roots ih =>
    rw [buildPaths] at h
    split at h
    · -- the scan path cannot be listed, which is no verdict
      next hsources =>
      cases h
      unfold sources at hsources
      split at hsources
      · cases hsources
      · cases hsources
        rfl
    · split at h
      · next hfiles =>
        cases h
        exact buildFiles_error hfiles
      · exact ih h

theorem run_eq {environment : Option FilePath}
    (hout : b.outputDirectory? environment = some out) (fs : FileSystem) :
    let gone := buildPaths out { files := fs, session := b.session } b.roots
    (b.run environment fs).files = gone.1.files ∧
      (b.run environment fs).result = match gone.2 with
        | .ok () => b.conclude gone.1
        | .error e => .error e := by
  unfold run
  rw [hout]
  exact ⟨rfl, rfl⟩

/-- A run that went through all files has taken all scan paths. -/
theorem exists_buildPaths {environment : Option FilePath}
    (hout : b.outputDirectory? environment = some out)
    (h : WentThrough (b.run environment fs)) :
    ∃ s, buildPaths out { files := fs, session := b.session } b.roots = (s, .ok ()) ∧
      (b.run environment fs).files = s.files := by
  obtain ⟨hfiles, hresult⟩ := run_eq hout fs
  rcases hpaths : buildPaths out { files := fs, session := b.session } b.roots with ⟨s, gone⟩
  rw [hpaths] at hfiles hresult
  cases gone with
  | ok _ => exact ⟨s, rfl, hfiles⟩
  | error e =>
    -- such an error is no verdict
    have hverdict := h e hresult
    rw [buildPaths_error hpaths] at hverdict
    cases hverdict

/-- The targets of all sources are written. -/
theorem run_mirrored {environment : Option FilePath}
    (hout : b.outputDirectory? environment = some out) (happart : b.Apart fs out)
    (hgone : WentThrough (b.run environment fs)) :
    b.Mirrored fs out (b.inputs fs) (b.run environment fs).files := by
  obtain ⟨s, hpaths, hfiles⟩ := exists_buildPaths hout hgone
  have hstart : b.Mirrored fs out [] fs := ⟨.refl, fun _ hx => absurd hx List.not_mem_nil⟩
  rw [hfiles]
  exact hstart.buildPaths (s := { files := fs, session := b.session }) happart (fun _ h => h)
    b.serves_session hpaths

/-- **What a build run leaves below its output directory.** Suppose that the output is apart from
what is scanned, and that the run went through all files. Then every source reads and parses, and
its target holds the text of the last source with the same place. So every target holds the text of
its own source exactly if sources with the same place have the same text. Without links in the
output directory the same place means the same relative path, which sources below different scan
paths may well have. -/
theorem run_contents {environment : Option FilePath}
    (hout : b.outputDirectory? environment = some out) (happart : b.Apart fs out)
    (hgone : WentThrough (b.run environment fs)) :
    (∀ x ∈ b.inputs fs, ∃ y text, lastAt? fs out (b.inputs fs) x = some y ∧
      b.ownText? fs y = some text ∧
      (b.run environment fs).files.readText (out.join x.relative) = .ok text) ∧
    ((∀ x ∈ b.inputs fs, ∃ text, b.ownText? fs x = some text ∧
        (b.run environment fs).files.readText (out.join x.relative) = .ok text) ↔
      ∀ x ∈ b.inputs fs, ∀ y ∈ b.inputs fs, place? fs out x = place? fs out y →
        b.ownText? fs x = b.ownText? fs y) ∧
    ∀ o, fs.place? out = some o → (∀ a, o <+: a → fs.linkAt? a = none) →
      ∀ x ∈ b.inputs fs, ∀ y ∈ b.inputs fs,
        place? fs out x = place? fs out y ↔ x.relative = y.relative := by
  have hmirrored := run_mirrored hout happart hgone
  have hheld : ∀ x ∈ b.inputs fs, ∃ y text, lastAt? fs out (b.inputs fs) x = some y ∧
      b.ownText? fs y = some text ∧
      (b.run environment fs).files.readText (out.join x.relative) = .ok text := by
    intro x hx
    obtain ⟨a, y, text, -, hlast, hown, hentry⟩ := hmirrored.held x hx
    exact ⟨y, text, hlast, hown, readText_of_entry hentry⟩
  refine ⟨hheld, ⟨?_, ?_⟩, fun o hplace hlinks x hx y hy =>
    happart.place?_eq_iff hplace hlinks hx hy⟩
  · -- one place holds one text
    intro hcomplete x hx y hy hplace
    obtain ⟨z, text, hlast, hlastText, hread⟩ := hheld x hx
    obtain ⟨z', text', hlast', hlastText', hread'⟩ := hheld y hy
    have hz : z = z' := by
      rw [lastAt?, hplace] at hlast
      exact Option.some.inj (hlast.symm.trans hlast')
    have htext : text = text' := by
      rw [hz] at hlastText
      exact Option.some.inj (hlastText.symm.trans hlastText')
    obtain ⟨own, hown, hownRead⟩ := hcomplete x hx
    obtain ⟨own', hown', hownRead'⟩ := hcomplete y hy
    rw [hown, hown', ← Except.ok.inj (hread.symm.trans hownRead),
      ← Except.ok.inj (hread'.symm.trans hownRead'), htext]
  · -- the last source with the place has the same text
    intro hsame x hx
    obtain ⟨y, text, hlast, hown, hread⟩ := hheld x hx
    refine ⟨text, ?_, hread⟩
    have hplace : place? fs out y = place? fs out x := by
      simpa using List.find?_some hlast
    have hy : y ∈ b.inputs fs := List.mem_reverse.mp (List.mem_of_find?_eq_some hlast)
    rw [hsame x hx y hy hplace.symm, hown]

/-- Two directories with a source of one name, of which the first is asked for a field. -/
def sharedName : FileSystem where
  entries := [
    (["a"], .directory),
    (["a", "x.rs"], .file (.text
      "#[fielder(name = \"k\", ty = u8)] #[derive(Default)] struct A \x7b\x7d")),
    (["b"], .directory),
    (["b", "x.rs"], .file (.text "struct B;"))]

/-- A run that scans both. -/
def twoScans : Build where
  scan := [⟨"a"⟩, ⟨"b"⟩]
  output := some ⟨"out"⟩

theorem sharedName_wellFormed : sharedName.WellFormed := by decide +kernel

theorem sharedName_linkAt? : ∀ a, sharedName.linkAt? a = none :=
  FileSystem.linkAt?_eq_none (by decide)

theorem twoScans_apart : twoScans.Apart sharedName ⟨"out"⟩ := by
  have hentries : sharedName.entry true ⟨"a"⟩ = .ok (["a"], .directory) ∧
      sharedName.entry true ⟨"b"⟩ = .ok (["b"], .directory) := by decide +kernel
  refine .of_disjoint (o := ["out"]) sharedName_wellFormed (by decide) (by decide +kernel)
    (fun a _ => sharedName_linkAt? a) ?_
  intro root hroot r hentry
  have hroots : root = ⟨"a"⟩ ∨ root = ⟨"b"⟩ := by simpa [twoScans, roots] using hroot
  rcases hroots with rfl | rfl
  · rw [hentries.1] at hentry
    cases hentry
    decide
  · rw [hentries.2] at hentry
    cases hentry
    decide

/-- The run succeeds, the second source takes the target, and the first one, with its new field, is
lost. -/
theorem run_contents_shared :
    twoScans.Apart sharedName ⟨"out"⟩ ∧ WentThrough (twoScans.run none sharedName) ∧
      (twoScans.run none sharedName).files.readText ⟨"out/x.rs"⟩ = .ok "struct B;" ∧
      twoScans.ownText? sharedName ⟨⟨"a/x.rs"⟩, ⟨"x.rs"⟩⟩ =
        some "#[derive(Default)]\nstruct A \x7b\n    pub k: u8,\n\x7d\n" ∧
      ¬ ∀ x ∈ twoScans.inputs sharedName, ∃ text, twoScans.ownText? sharedName x = some text ∧
        (twoScans.run none sharedName).files.readText (FilePath.join ⟨"out"⟩ x.relative) =
          .ok text := by
  let first : SourceFile := ⟨⟨"a/x.rs"⟩, ⟨"x.rs"⟩⟩
  let second : SourceFile := ⟨⟨"b/x.rs"⟩, ⟨"x.rs"⟩⟩
  have hinputs : twoScans.inputs sharedName = [first, second] := by decide +kernel
  have hfirst : twoScans.ownText? sharedName first =
      some "#[derive(Default)]\nstruct A \x7b\n    pub k: u8,\n\x7d\n" := by decide +kernel
  have hsecond : twoScans.ownText? sharedName second = some "struct B;" := by decide +kernel
  have hplace : sharedName.place? ⟨"out"⟩ = some ["out"] := by decide +kernel
  have hgone : WentThrough (twoScans.run none sharedName) := by
    have hresult : (twoScans.run none sharedName).result = .ok ⟨2, 2, 1, 0⟩ := by decide +kernel
    intro e he
    rw [hresult] at he
    cases he
  obtain ⟨hheld, hcomplete, hplaces⟩ := run_contents rfl twoScans_apart hgone
  rw [hinputs] at hheld hcomplete hplaces
  have hmem : first ∈ [first, second] ∧ second ∈ [first, second] := by decide
  -- both have the relative path `x.rs`
  have hshared := (hplaces ["out"] hplace (fun a _ => sharedName_linkAt? a) first hmem.1 second
    hmem.2).mpr rfl
  refine ⟨twoScans_apart, hgone, ?_, hfirst, ?_⟩
  · obtain ⟨y, text, hlast, htext, hread⟩ := hheld first hmem.1
    have hlast' : lastAt? sharedName ⟨"out"⟩ [first, second] first = some second := by
      simp [lastAt?, hshared]
    rw [hlast'] at hlast
    cases hlast
    rw [hsecond] at htext
    cases htext
    have hjoin : FilePath.join ⟨"out"⟩ first.relative = ⟨"out/x.rs"⟩ := by decide
    rwa [hjoin] at hread
  · rw [hinputs]
    intro hall
    have hsame := hcomplete.mp hall first hmem.1 second hmem.2 hshared
    rw [hfirst, hsecond] at hsame
    exact absurd hsame (by decide)

end Build

end FieldGraft
