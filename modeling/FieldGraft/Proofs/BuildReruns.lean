import FieldGraft.Proofs.BuildContents
import Mathlib.Logic.Function.Iterate

/-!
# Build runs that are repeated

A run that went through all files leaves a file system in which a second run finds everything
written: it goes the same way and writes nothing (`Build.run_again`). If the targets are separate at
first, then this is so of every later run (`Build.runs_again`).

* `Build.Separate` — no target lies in a scan path, and sources that share a target are one file.
  Both are said of the places of the targets, so links below the output directory count: without
  them an output directory beside the scan paths is enough (`Separate.of_disjoint`). A run leaves
  the targets as separate as it found them (`Separate.after_run`).
* `Build.Settled` — what a run still writes to a file system is what the last file system holds. The
  induction goes from the end of the run to its start, since only the last file system is known to
  have all scan paths and all sources: one source earlier is `Settled.before`.
-/

namespace FieldGraft.Build

open FileSystem (exists_entry_of_readText readText_of_entry)

variable {b : Build} {fs last : FileSystem} {out root : FilePath} {text : String} {x y : SourceFile}
  {s s' : BuildState} {a : Address} {files : List SourceFile} {roots : List FilePath}

/-- **The targets are separate** from what is scanned, and those of different files from each
other. -/
structure Separate (b : Build) (fs : FileSystem) (out : FilePath) : Prop where
  outside : ∀ x ∈ b.inputs fs, ∀ a, place? fs out x = some a → ∀ root ∈ b.roots, ∀ r e,
    fs.entry true root = .ok (r, e) → ¬ r <+: a
  single : ∀ x ∈ b.inputs fs, ∀ y ∈ b.inputs fs, place? fs out x = place? fs out y →
    fs.entry true x.path = fs.entry true y.path

/-! ### Sources of a separate run -/

/-- Every source is a file at or below one of the scan paths. -/
theorem exists_file_of_mem_inputs (htree : fs.WellFormed) (hx : x ∈ b.inputs fs) :
    ∃ root ∈ b.roots, ∃ r e a c, fs.entry true root = .ok (r, e) ∧
      fs.entry true x.path = .ok (a, .file c) ∧ r <+: a := by
  obtain ⟨root, hroot, hmem⟩ := List.mem_flatMap.mp hx
  -- the scan path that lists the source is a directory, and the source is below it
  cases hsources : sources fs root with
  | error e =>
    rw [hsources] at hmem
    cases hmem
  | ok files =>
    rw [hsources] at hmem
    obtain ⟨r, e, hentry⟩ := exists_entry_of_sources hsources
    obtain ⟨a, c, hfile, hbelow⟩ := exists_file_of_mem_sources htree hentry hsources hmem
    exact ⟨root, hroot, r, e, a, c, hentry, hfile, hbelow⟩

theorem mem_inputs (hroot : root ∈ b.roots) (hsources : sources fs root = .ok files)
    (hx : x ∈ files) : x ∈ b.inputs fs :=
  List.mem_flatMap.mpr ⟨root, hroot, by rw [hsources]; exact hx⟩

namespace Separate

/-- Nothing is written in a scan path. -/
theorem not_written (h : b.Separate fs out) {r : Address} {e : Entry} (hroot : root ∈ b.roots)
    (hentry : fs.entry true root = .ok (r, e)) (ha : b.Written fs out a) : ¬ r <+: a := by
  obtain ⟨x, hx, hplace⟩ := ha
  exact h.outside x hx a hplace root hroot r e hentry

/-- A source reads in the end as it did before. -/
theorem readText_eq (h : b.Separate last out) (hlast : last.WellFormed) (htree : fs.WellFormed)
    (hgrows : FileSystem.Evolves (b.Written last out) fs last) (hx : x ∈ b.inputs last)
    (hread : fs.readText x.path = .ok text) : last.readText x.path = .ok text := by
  obtain ⟨root, hroot, r, e, a', c, hentry, hfile, hbelow⟩ := exists_file_of_mem_inputs hlast hx
  obtain ⟨a, hfile'⟩ := exists_entry_of_readText hread
  -- the path leads to one address in both file systems, and that is not written to
  obtain ⟨c', hfile''⟩ := hgrows.entry_file htree hfile'
  rw [hfile''] at hfile
  cases hfile
  exact readText_of_entry (hgrows.entry_of_not_written htree hfile' fun hwritten =>
    h.not_written hroot hentry hwritten hbelow)

/-- Sources that share a target have the same text. -/
theorem ownText?_eq (h : b.Separate fs out) (hx : x ∈ b.inputs fs) (hy : y ∈ b.inputs fs)
    (hplace : place? fs out x = place? fs out y) : b.ownText? fs x = b.ownText? fs y := by
  have hentry := h.single x hx y hy hplace
  have hread : fs.readText x.path = fs.readText y.path := by
    rw [FileSystem.readText, FileSystem.readText, FileSystem.read, FileSystem.read, hentry]
  rw [ownText?, ownText?, hread]

/-- **An output directory beside the scan paths** is separate from them if no links are in it and no
two sources have the same relative path. -/
theorem of_disjoint {o : Address} (htree : fs.WellFormed)
    (hscanned : ∀ root ∈ b.roots, fs.isDirectory root = true) (hplace : fs.place? out = some o)
    (hlinks : ∀ a, o <+: a → fs.linkAt? a = none)
    (hdisjoint : ∀ root ∈ b.roots, ∀ r, fs.entry true root = .ok (r, .directory) →
      ¬ r <+: o ∧ ¬ o <+: r)
    (hrelative : ∀ x ∈ b.inputs fs, ∀ y ∈ b.inputs fs, x.relative = y.relative → x = y) :
    b.Separate fs out := by
  have happart := Apart.of_disjoint htree hscanned hplace hlinks hdisjoint
  constructor
  · -- the scan paths are directories, so what is below them is clear of the output directory
    intro x hx a ha root hroot r e hentry
    obtain ⟨r', hdirectory⟩ := exists_entry_of_isDirectory (hscanned root hroot)
    rw [hdirectory] at hentry
    cases hentry
    exact happart.outside x hx a ha root hroot r hdirectory
  · intro x hx y hy hsame
    rw [hrelative x hx y hy ((happart.place?_eq_iff hplace hlinks hx hy).mp hsame)]

/-- **The targets stay separate.** If the scan paths are directories, then a run that goes through
all files leaves the targets as separate as it found them: it finds the same sources again, and
their targets are where they were. -/
theorem after_run {environment : Option FilePath} (h : b.Separate fs out) (htree : fs.WellFormed)
    (hscanned : ∀ root ∈ b.roots, fs.isDirectory root = true)
    (hout : b.outputDirectory? environment = some out)
    (hgone : WentThrough (b.run environment fs)) :
    b.Separate (b.run environment fs).files out := by
  have happart : b.Apart fs out :=
    ⟨htree, hscanned, fun x hx a ha root hroot r hentry =>
      h.outside x hx a ha root hroot r .directory hentry⟩
  have hgrows := (run_mirrored hout happart hgone).evolves
  have hinputs := happart.inputs_eq hgrows
  constructor
  · intro x hx a ha root hroot r e hentry
    rw [hinputs] at hx
    rw [place?, hgrows.place?_eq] at ha
    -- the scan path is the directory that it was at first
    obtain ⟨r', hdirectory⟩ := exists_entry_of_isDirectory (hscanned root hroot)
    rw [hgrows.entry_directory htree hdirectory] at hentry
    cases hentry
    exact h.outside x hx a ha root hroot r .directory hdirectory
  · intro x hx y hy hsame
    rw [hinputs] at hx hy
    rw [place?, place?, hgrows.place?_eq, hgrows.place?_eq] at hsame
    rw [happart.entry_eq hgrows hx, happart.entry_eq hgrows hy]
    exact h.single x hx y hy hsame

end Separate

/-! ### The second run beside the first -/

/-- The state of a second run that is where the first one was in the state `s`: the file system is
the last one, and nothing was written. -/
def again (last : FileSystem) (s : BuildState) : BuildState :=
  { s with files := last, report := { s.report with written := 0 } }

/-- A text that is there is not written. -/
theorem writeIfChanged_of_readText {p : FilePath} (h : fs.readText p = .ok text) :
    writeIfChanged fs p text = (fs, .ok false) := by
  have hholds : fs.holds p text = true := by
    rw [FileSystem.holds, h]
    exact beq_self_eq_true text
  rw [writeIfChanged, if_pos hholds]

/-- A source whose text is at its target is taken without a change to the file system. -/
theorem buildFile_again (hserves : b.Serves s.session) (h : buildFile out s x = (s', .ok ()))
    (hread : ∀ source, s.files.readText x.path = .ok source → last.readText x.path = .ok source)
    (hheld : ∀ text, b.ownText? s.files x = some text →
      last.readText (out.join x.relative) = .ok text) :
    buildFile out (again last s) x = (again last s', .ok ()) := by
  obtain ⟨source, ⟨session, f, r⟩, files, changed, hsource, hinject, -, rfl⟩ :=
    buildFile_eq_ok_iff.mp h
  have hown : b.ownText? s.files x = some (outputText source f r) := by
    rw [ownText?, hsource]
    dsimp only
    rw [← hserves.produced_eq, produced, hinject]
    rfl
  exact buildFile_eq_ok_iff.mpr ⟨source, _, last, false, hread source hsource, hinject,
    writeIfChanged_of_readText (hheld _ hown), rfl⟩

/-- **The rest of a run leads to the last file system**: it writes places of targets only, and a
place that holds the text of its sources is left with it. -/
structure Settled (b : Build) (out : FilePath) (last fs : FileSystem) : Prop where
  evolves : FileSystem.Evolves (b.Written last out) fs last
  keeps : ∀ a text, (∀ y ∈ b.inputs last, place? last out y = some a →
      b.ownText? last y = some text) →
    fs.get? a = some (.file (.text text)) → last.get? a = some (.file (.text text))

theorem Settled.refl (b : Build) (out : FilePath) (last : FileSystem) : b.Settled out last last :=
  ⟨.refl, fun _ _ _ h => h⟩

/-- **One source earlier.** What the source left at its target is there in the end, so the second
run finds it. -/
theorem Settled.before (hafter : b.Settled out last s'.files) (hseparate : b.Separate last out)
    (hlast : last.WellFormed) (htree : s.files.WellFormed) (hserves : b.Serves s.session)
    (hx : x ∈ b.inputs last) (h : buildFile out s x = (s', .ok ())) :
    b.Settled out last s.files ∧ buildFile out (again last s) x = (again last s', .ok ()) := by
  obtain ⟨-, a, text, hplace, hown, hgrows, hentry⟩ := buildFile_eq_ok htree hserves h
  have htree' := hgrows.wellFormed htree
  -- `x` is written to the place it has in the last file system
  have hplace : place? last out x = some a :=
    calc place? last out x
        = place? s'.files out x := hafter.evolves.place?_eq _
      _ = place? s.files out x := hgrows.place?_eq _
      _ = some a := hplace
  have hevolves : FileSystem.Evolves (b.Written last out) s.files last :=
    (hgrows.mono fun _ ha => ⟨x, hx, ha ▸ hplace⟩).trans hafter.evolves
  have hread : ∀ source, s.files.readText x.path = .ok source →
      last.readText x.path = .ok source := fun _ => hseparate.readText_eq hlast htree hevolves hx
  -- all sources with this target have the text that was written
  have hown' : b.ownText? last x = some text := by
    unfold ownText? at hown ⊢
    split at hown
    · next source hsource =>
      rw [hread source hsource]
      exact hown
    · cases hown
  have htext : ∀ y ∈ b.inputs last, place? last out y = some a →
      b.ownText? last y = some text := fun y hy hy' =>
    (hseparate.ownText?_eq hy hx (hy'.trans hplace.symm)).trans hown'
  have hheld := hafter.keeps a text htext (htree'.get?_of_entry hentry)
  refine ⟨⟨hevolves, fun a' text' htext' hget => hafter.keeps a' text' htext' ?_⟩, ?_⟩
  · by_cases hsame : a' = a
    · -- the place held the text that the source writes there
      subst hsame
      rw [Option.some.inj ((htext' x hx hplace).symm.trans hown')]
      exact htree'.get?_of_entry hentry
    · exact hgrows.file_of_not_written hget hsame
  · refine buildFile_again hserves h hread fun text' htext' => ?_
    rw [← Option.some.inj (hown.symm.trans htext')]
    exact readText_of_entry (hafter.evolves.entry_eq htree' hentry hheld
      fun _ _ => Entry.noConfusion)

/-! ### The run -/

/-- Whatever a run writes, the file system has grown. -/
theorem buildFiles_evolves (htree : s.files.WellFormed) (hserves : b.Serves s.session)
    (h : buildFiles out s files = (s', .ok ())) :
    FileSystem.Evolves (fun _ => True) s.files s'.files ∧ b.Serves s'.session := by
  induction files generalizing s with
  | nil =>
    cases h
    exact ⟨.refl, hserves⟩
  | cons x files ih =>
    rw [buildFiles] at h
    split at h
    · next s₁ hfile =>
      -- each file changes what it writes to only
      obtain ⟨hserves₁, a, text, -, -, hgrows, -⟩ := buildFile_eq_ok htree hserves hfile
      obtain ⟨hrest, hserves'⟩ := ih (hgrows.wellFormed htree) hserves₁ h
      exact ⟨(hgrows.mono fun _ _ => trivial).trans hrest, hserves'⟩
    · cases h

theorem buildPaths_evolves (htree : s.files.WellFormed) (hserves : b.Serves s.session)
    (h : buildPaths out s roots = (s', .ok ())) :
    FileSystem.Evolves (fun _ => True) s.files s'.files := by
  induction roots generalizing s with
  | nil =>
    cases h
    exact .refl
  | cons root roots ih =>
    rw [buildPaths] at h
    split at h
    · cases h
    · split at h
      · cases h
      · next s₁ hfiles =>
        obtain ⟨hgrows, hserves₁⟩ := buildFiles_evolves htree hserves hfiles
        exact hgrows.trans
          (ih (s := { s₁ with output := s₁.output ++ ["cargo:rerun-if-changed=" ++ root.text] })
            (hgrows.wellFormed htree) hserves₁ h)

/-- The sources below one scan path. -/
theorem Settled.buildFiles (hafter : b.Settled out last s'.files)
    (hseparate : b.Separate last out) (hlast : last.WellFormed) (htree : s.files.WellFormed)
    (hserves : b.Serves s.session) (hfiles : ∀ x ∈ files, x ∈ b.inputs last)
    (h : Build.buildFiles out s files = (s', .ok ())) :
    b.Settled out last s.files ∧
      Build.buildFiles out (again last s) files = (again last s', .ok ()) := by
  induction files generalizing s with
  | nil =>
    cases h
    exact ⟨hafter, rfl⟩
  | cons x files ih =>
    obtain ⟨hx, hrest⟩ := List.forall_mem_cons.mp hfiles
    rw [Build.buildFiles] at h
    split at h
    · next s₁ hfile =>
      obtain ⟨hserves₁, a, text, -, -, hgrows, -⟩ := buildFile_eq_ok htree hserves hfile
      obtain ⟨hafter₁, hagain⟩ := ih (hgrows.wellFormed htree) hserves₁ hrest h
      obtain ⟨hbefore, hfirst⟩ := hafter₁.before hseparate hlast htree hserves hx hfile
      refine ⟨hbefore, ?_⟩
      rw [Build.buildFiles, hfirst]
      exact hagain
    · cases h

/-- All scan paths. Each of them is there in the end with all its sources, and nothing was written
in it since it was listed. -/
theorem Settled.buildPaths (hafter : b.Settled out last s'.files)
    (hseparate : b.Separate last out) (hlast : last.WellFormed) (htree : s.files.WellFormed)
    (hserves : b.Serves s.session) (hroots : ∀ root ∈ roots, root ∈ b.roots)
    (h : Build.buildPaths out s roots = (s', .ok ())) :
    b.Settled out last s.files ∧
      Build.buildPaths out (again last s) roots = (again last s', .ok ()) := by
  induction roots generalizing s with
  | nil =>
    cases h
    exact ⟨hafter, rfl⟩
  | cons root roots ih =>
    obtain ⟨hroot, hrest⟩ := List.forall_mem_cons.mp hroots
    rw [Build.buildPaths] at h
    -- both scan paths and files are taken from the last one backwards
    split at h
    · cases h
    · next files hsources =>
      split at h
      · cases h
      · next s₁ hfiles =>
        obtain ⟨hgrows, hserves₁⟩ := buildFiles_evolves htree hserves hfiles
        obtain ⟨hafter₁, hagain⟩ := ih
          (s := { s₁ with output := s₁.output ++ ["cargo:rerun-if-changed=" ++ root.text] })
          (hgrows.wellFormed htree) hserves₁ hrest h
        have hlater : FileSystem.Evolves (fun _ => True) s.files last :=
          hgrows.trans (hafter₁.evolves.mono fun _ _ => trivial)
        have hinputs : ∀ x ∈ files, x ∈ b.inputs last := by
          intro x hx
          obtain ⟨files', hsources', hsub⟩ := mem_sources_evolves hlater htree hsources
          exact mem_inputs hroot hsources' (hsub x hx)
        have hsettled : b.Settled out last s₁.files := hafter₁
        obtain ⟨hbefore, hfirst⟩ :=
          hsettled.buildFiles hseparate hlast htree hserves hinputs hfiles
        refine ⟨hbefore, ?_⟩
        -- the second run lists the same sources
        have hsame : sources (again last s).files root = .ok files := by
          obtain ⟨r, e, hentry⟩ := exists_entry_of_sources hsources
          rw [← hsources]
          refine sources_evolves hbefore.evolves htree hentry fun a ha => ?_
          obtain ⟨e', hentry'⟩ : ∃ e', last.entry true root = .ok (r, e') := by
            cases e with
            | directory => exact ⟨_, hlater.entry_directory htree hentry⟩
            | file c =>
              obtain ⟨c', hfile⟩ := hlater.entry_file htree hentry
              exact ⟨_, hfile⟩
            | link target => exact absurd rfl (FileSystem.ne_link_of_entry hentry target)
          exact hseparate.not_written hroot hentry' ha
        rw [Build.buildPaths, hsame]
        dsimp only
        rw [hfirst]
        exact hagain

/-- A run that got through its scan paths tells what it gathered on the way. -/
theorem run_of_buildPaths {environment : Option FilePath}
    (hout : b.outputDirectory? environment = some out)
    (h : buildPaths out { files := fs, session := b.session } b.roots = (s, .ok ())) :
    b.run environment fs =
      { files := s.files, output := s.output, log := s.log, result := b.conclude s
        messages := match b.conclude s with
          | .ok r => [closing out r]
          | .error _ => [] } := by
  unfold session at h
  rw [run, hout]
  dsimp only
  rewrite [h]
  rfl

theorem conclude_again (b : Build) (last : FileSystem) (s : BuildState) :
    b.conclude (again last s) = (b.conclude s).map fun r => { r with written := 0 } := by
  unfold conclude again
  split
  · rfl
  · split <;> rfl

/-- **The scan paths once more.** Where the run over them ended, another one ends in the same state:
it starts in the last file system, finds what it would write and leaves it there. -/
theorem buildPaths_again (htree : fs.WellFormed)
    (h : buildPaths out { files := fs, session := b.session } b.roots = (s, .ok ()))
    (hseparate : b.Separate s.files out) :
    buildPaths out { files := s.files, session := b.session } b.roots =
      (again s.files s, .ok ()) := by
  let start : BuildState := { files := fs, session := b.session }
  have hserves : b.Serves start.session := b.serves_session
  have hgrows := buildPaths_evolves (s := start) htree hserves h
  -- `again` of the first start is the second start: nothing was written before either
  obtain ⟨-, hagain⟩ := (Settled.refl b out s.files).buildPaths (s := start) hseparate
    (hgrows.wellFormed htree) htree hserves (fun _ h => h) h
  exact hagain

/-- Two runs that end their scan paths in the same state tell the same, but for the number of files
written. -/
theorem run_eq_again {environment : Option FilePath}
    (hout : b.outputDirectory? environment = some out)
    (h : buildPaths out { files := fs, session := b.session } b.roots = (s, .ok ()))
    (hagain : buildPaths out { files := s.files, session := b.session } b.roots =
      (again s.files s, .ok ())) :
    b.run environment s.files =
      { b.run environment fs with
        result := (b.run environment fs).result.map fun r => { r with written := 0 } } := by
  rw [run_of_buildPaths hout h, run_of_buildPaths hout hagain, conclude_again]
  -- the closing message names the files that were taken, not those that were written
  cases b.conclude s <;> rfl

/-- **A repeated run writes nothing.** Suppose that a run went through all files, whether it then
succeeded or not, and that the targets are separate from the scan paths and from each other when the
second run starts, as they are if they were so at first (`Separate.after_run`). Then the second run
leaves the file system as it is and tells the same, apart from the number of files written, which is
zero. -/
theorem run_again {environment : Option FilePath} (htree : fs.WellFormed)
    (hout : b.outputDirectory? environment = some out) (hgone : WentThrough (b.run environment fs))
    (hseparate : b.Separate (b.run environment fs).files out) :
    b.run environment (b.run environment fs).files =
      { b.run environment fs with
        result := (b.run environment fs).result.map fun r => { r with written := 0 } } := by
  obtain ⟨s, hpaths, hlast⟩ := exists_buildPaths hout hgone
  rw [hlast] at hseparate ⊢
  exact run_eq_again hout hpaths (buildPaths_again htree hpaths hseparate)

/-- **All later runs write nothing.** Suppose that the scan paths are directories, that the targets
are separate from them and from each other, and that a run goes through all files. Then every later
run leaves the file system as the first one left it, and tells the same apart from the number of
files written. All of this is asked of the file system that the first run starts with. -/
theorem runs_again {environment : Option FilePath} (htree : fs.WellFormed)
    (hscanned : ∀ root ∈ b.roots, fs.isDirectory root = true)
    (hout : b.outputDirectory? environment = some out) (hseparate : b.Separate fs out)
    (hgone : WentThrough (b.run environment fs)) (later : Nat) :
    b.run environment ((fun fs => (b.run environment fs).files)^[later + 1] fs) =
      { b.run environment fs with
        result := (b.run environment fs).result.map fun r => { r with written := 0 } } := by
  obtain ⟨s, hpaths, hlast⟩ := exists_buildPaths hout hgone
  have hafter := hseparate.after_run htree hscanned hout hgone
  rw [hlast] at hafter
  have hsecond := run_eq_again hout hpaths (buildPaths_again htree hpaths hafter)
  rw [← hlast] at hsecond
  -- the first run leads to a file system that no run changes any more
  have hfixed : ∀ n, (fun fs => (b.run environment fs).files)^[n + 1] fs =
      (b.run environment fs).files := by
    intro n
    induction n with
    | zero => rfl
    | succ n ih =>
      rw [Function.iterate_succ_apply', ih, hsecond]
  rw [hfixed, hsecond]

/-- Two scan paths. In each of them a struct is asked for a field, which the first one cannot get.
-/
def mixedSources : FileSystem where
  entries := [
    (["p"], .directory),
    (["p", "bus.rs"], .file (.text "#[fielder(name = \"k\", ty = u8)] struct Bus \x7b\x7d")),
    (["q"], .directory),
    (["q", "car.rs"], .file (.text
      "#[fielder(name = \"k\", ty = u8)] #[derive(Default)] struct Car \x7b\x7d"))]

/-- The sources with what a run makes of them. -/
def mixedMirror : FileSystem where
  entries := mixedSources.entries ++ [
    (["out"], .directory),
    (["out", "bus.rs"], .file (.text "struct Bus \x7b\x7d\n")),
    (["out", "car.rs"], .file (.text
      "#[derive(Default)]\nstruct Car \x7b\n    pub k: u8,\n\x7d\n"))]

/-- A run over two scan paths. -/
def pairScan (out : FilePath) : Build where
  scan := [⟨"p"⟩, ⟨"q"⟩]
  output := some out

theorem pairScan_separate : (pairScan ⟨"out"⟩).Separate mixedSources ⟨"out"⟩ := by
  have hentries : mixedSources.entry true ⟨"p"⟩ = .ok (["p"], .directory) ∧
      mixedSources.entry true ⟨"q"⟩ = .ok (["q"], .directory) := by decide +kernel
  refine .of_disjoint (o := ["out"]) (by decide +kernel) (by decide +kernel) (by decide +kernel)
    (fun a _ => FileSystem.linkAt?_eq_none (by decide) a) ?_ (by decide +kernel)
  intro root hroot r hentry
  -- the two scan paths are `p` and `q`, and neither meets `out`
  have hroots : root = ⟨"p"⟩ ∨ root = ⟨"q"⟩ := by simpa [pairScan, roots] using hroot
  rcases hroots with rfl | rfl
  · rw [hentries.1] at hentry
    cases hentry
    decide
  · rw [hentries.2] at hentry
    cases hentry
    decide

/-- The first run writes both texts and fails because of the first struct. So does the second run,
which writes nothing. -/
theorem run_again_mixed :
    mixedSources.WellFormed ∧ WentThrough ((pairScan ⟨"out"⟩).run none mixedSources) ∧
      (pairScan ⟨"out"⟩).Separate ((pairScan ⟨"out"⟩).run none mixedSources).files ⟨"out"⟩ ∧
      ((pairScan ⟨"out"⟩).run none mixedSources).files = mixedMirror ∧
      ((pairScan ⟨"out"⟩).run none mixedMirror).files = mixedMirror ∧
      ((pairScan ⟨"out"⟩).run none mixedMirror).result = .error (.rejected
        ["p/bus.rs:1:40: fielder: `Bus` needs a zero-argument constructor (`fn new() -> Self`, " ++
          "`Default`, or `#[derive(Default)]`) before field `k` can be injected"]) := by
  have htree : mixedSources.WellFormed := by decide +kernel
  obtain ⟨hfiles, hresult⟩ :
      ((pairScan ⟨"out"⟩).run none mixedSources).files = mixedMirror ∧
      ((pairScan ⟨"out"⟩).run none mixedSources).result = .error (.rejected
        ["p/bus.rs:1:40: fielder: `Bus` needs a zero-argument constructor (`fn new() -> Self`, " ++
          "`Default`, or `#[derive(Default)]`) before field `k` can be injected"]) := by
    decide +kernel
  -- that a source was rejected is told at the end, so the run went through all of them
  have hgone : WentThrough ((pairScan ⟨"out"⟩).run none mixedSources) := by
    intro e he
    rw [hresult] at he
    cases he
    rfl
  have hseparate : (pairScan ⟨"out"⟩).Separate
      ((pairScan ⟨"out"⟩).run none mixedSources).files ⟨"out"⟩ :=
    pairScan_separate.after_run htree (by decide +kernel) rfl hgone
  have hagain := run_again htree rfl hgone hseparate
  rw [hfiles, hresult] at hagain
  exact ⟨htree, hgone, hseparate, hfiles, by rw [hagain]; exact hfiles, by rw [hagain]; rfl⟩

/-- A source below each of two scan paths. In the output directory the place of the first one is a
link to that of the second one. -/
def linkedOutput : FileSystem where
  entries := [
    (["p"], .directory),
    (["p", "a"], .directory),
    (["p", "a", "x.rs"], .file (.text "struct A;")),
    (["q"], .directory),
    (["q", "b"], .directory),
    (["q", "b", "x.rs"], .file (.text "struct B;")),
    (["out"], .directory),
    (["out", "b"], .directory),
    (["out", "a"], .link ⟨"b"⟩)]

/-- Two scan paths, of which the first one is empty and the second one has a directory of its name.
-/
def nestedName : FileSystem where
  entries := [
    (["p"], .directory),
    (["q"], .directory),
    (["q", "p"], .directory),
    (["q", "p", "x.rs"], .file (.text "struct A;"))]

/-- **An output directory outside the scan paths is not enough**, even if no two sources have the
same relative path. Where two targets are one place because of a link, each run writes both texts
there. And if the scan paths lie in the output directory, then a target in one of them is a source
for the second run. -/
theorem run_again_rewrites :
    (linkedOutput.WellFormed ∧ linkedOutput.place? ⟨"out"⟩ = some ["out"] ∧
      linkedOutput.entry true ⟨"p"⟩ = .ok (["p"], .directory) ∧
      linkedOutput.entry true ⟨"q"⟩ = .ok (["q"], .directory) ∧
      (((pairScan ⟨"out"⟩).inputs linkedOutput).map SourceFile.relative).Nodup ∧
      ((pairScan ⟨"out"⟩).run none linkedOutput).result = .ok ⟨2, 2, 0, 0⟩ ∧
      ((pairScan ⟨"out"⟩).run none ((pairScan ⟨"out"⟩).run none linkedOutput).files).result =
        .ok ⟨2, 2, 0, 0⟩) ∧
    (nestedName.WellFormed ∧ nestedName.place? ⟨"."⟩ = some [] ∧
      nestedName.entry true ⟨"p"⟩ = .ok (["p"], .directory) ∧
      nestedName.entry true ⟨"q"⟩ = .ok (["q"], .directory) ∧
      (((pairScan ⟨"."⟩).inputs nestedName).map SourceFile.relative).Nodup ∧
      ((pairScan ⟨"."⟩).run none nestedName).result = .ok ⟨1, 1, 0, 0⟩ ∧
      ((pairScan ⟨"."⟩).run none ((pairScan ⟨"."⟩).run none nestedName).files).result =
        .ok ⟨2, 1, 0, 0⟩) := by
  decide +kernel

end FieldGraft.Build
