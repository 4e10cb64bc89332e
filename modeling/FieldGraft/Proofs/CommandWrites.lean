import FieldGraft.Proofs.CommandReading
import FieldGraft.Proofs.PresentPaths

/-!
# What commands write

A command writes after it has read everything, and only `inject` with a place to write to does so.
In place it writes to files that are there: each of them gets its new text, no directory is made on
the way, and nothing goes wrong (`CommandLine.writeAll_inPlace`). So a command changes all or
nothing (`CommandLine.run_allOrNothing`).
-/

namespace FieldGraft

/-- Whether an error is the verdict of a run that did what was asked for. -/
def CommandError.isVerdict : CommandError → Bool
  | denied => true
  | reported _ => true
  | _ => false

namespace CommandLine

open FileSystem (Evolves)

variable {a : Arguments} {fs fs' : FileSystem} {p : Project} {placement : Placement}
  {o : FileOutcome} {outcomes : List FileOutcome} {source : FilePath} {sources : List FilePath}
  {b : Address} {text new : String}

/-! ### Verdicts -/

/-- A run that comes to its verdict has done what was asked for. -/
def Concluded (r : Result) : Prop :=
  ∀ e, r.outcome = .error e → e.isVerdict = true

/-- The summary complains about nothing but diagnostics. -/
theorem isVerdict_of_report {v : Voice} {e : CommandError}
    (h : (report a v p outcomes).2 = .error e) : e.isVerdict = true := by
  unfold report RunSummary.conclude at h
  dsimp only at h
  split at h
  · cases h
    split <;> rfl
  · split at h <;> cases h

theorem not_verdict_of_runFrom {session : Session} {e : CommandError}
    (h : (p.runFrom fs session sources).1 = .error e) : e.isVerdict = false := by
  -- a source that cannot be read or parsed is no verdict, wherever in the run it comes
  induction sources generalizing session with
  | nil => cases h
  | cons x sources ih =>
    rw [Project.runFrom] at h
    split at h
    · cases h
      rfl
    · split at h
      · cases h
        rfl
      · split at h
        · cases h
        · next hrest =>
          cases h
          exact ih (by rw [hrest])

theorem not_verdict_of_writeOutcome {target : FilePath} {e : CommandError}
    (h : writeOutcome fs o target = (fs', .error e)) : e.isVerdict = false := by
  unfold writeOutcome at h
  split at h
  · cases h
    rfl
  · -- either way of writing may fail
    cases hrendered : o.rendered with
    | none =>
      rw [hrendered] at h
      dsimp only at h
      split at h <;> cases h
      rfl
    | some new =>
      rw [hrendered] at h
      dsimp only at h
      split at h <;> cases h
      rfl

theorem not_verdict_of_writeAll {v : Voice} {target name : FileOutcome → FilePath}
    {e : CommandError}
    (h : (writeAll v target name fs outcomes).outcome = .error e) : e.isVerdict = false := by
  induction outcomes generalizing fs with
  | nil => cases h
  | cons o outcomes ih =>
    rw [writeAll] at h
    split at h
    · next hwrite =>
      cases h
      exact not_verdict_of_writeOutcome hwrite
    · exact ih h

/-- What has been applied stays, whatever the summary says. -/
theorem finish_of_applied {v : Voice} (hverb : a.verb = .inject)
    (happlied : (apply v a.mode fs outcomes).outcome = .ok ()) :
    (finish a v p fs outcomes).files = (apply v a.mode fs outcomes).files ∧
      Concluded (finish a v p fs outcomes) := by
  unfold finish
  rw [hverb]
  dsimp only
  rw [happlied]
  exact ⟨rfl, fun e he => isVerdict_of_report he⟩

/-! ### Rewriting in place -/

/-- **A source is rewritten**: its file is at the address, and it has a new text. -/
def Rewrites (fs : FileSystem) (placement : Placement) (source : FilePath) (b : Address)
    (new : String) : Prop :=
  ∃ text, fs.entry true source = .ok (b, .file (.text text)) ∧
    Project.newText? placement text = some new

/-- Two sources with one file have the same new text. -/
theorem Rewrites.unique {source' : FilePath} {new' : String} (hfs : fs.WellFormed)
    (h : Rewrites fs placement source b new) (h' : Rewrites fs placement source' b new') :
    new = new' := by
  obtain ⟨text, hentry, hnew⟩ := h
  obtain ⟨text', hentry', hnew'⟩ := h'
  have hsame := (hfs.get?_of_entry hentry).symm.trans (hfs.get?_of_entry hentry')
  cases hsame
  exact Option.some.inj (hnew.symm.trans hnew')

/-- **One source rewritten**: its file gets the new text, and nothing else changes. -/
theorem Rewrites.writeOutcome (hfs : fs.WellFormed) (hgrown : Evolves (fun _ => True) fs fs')
    (h : Rewrites fs placement o.source b new) (hrendered : o.rendered = some new) :
    writeOutcome fs' o o.source = (fs'.set b (.file (.text new)), .ok ()) ∧
      fs'.Admits b (.file (.text new)) := by
  obtain ⟨text, hentry, -⟩ := h
  obtain ⟨c, hthere⟩ := hgrown.entry_file hfs hentry
  refine ⟨?_, (FileSystem.admits_of_writeAddress (hgrown.wellFormed hfs)
    (FileSystem.writeAddress_of_file hthere) _).1⟩
  rw [CommandLine.writeOutcome, FileSystem.makeParent_of_file hthere]
  dsimp only
  rw [hrendered]
  dsimp only
  rw [FileSystem.write_of_file hthere]

/-- **All sources rewritten**, whatever has become of the files before. -/
theorem writeAll_inPlace (v : Voice) (name : FileOutcome → FilePath) (hfs : fs.WellFormed)
    (hgrown : Evolves (fun _ => True) fs fs')
    (hall : ∀ o ∈ outcomes, ∃ b new, Rewrites fs placement o.source b new ∧ o.rendered = some new) :
    let r := writeAll v FileOutcome.source name fs' outcomes
    r.outcome = .ok () ∧
      (∀ o ∈ outcomes, ∀ b new, Rewrites fs placement o.source b new →
        r.files.get? b = some (.file (.text new))) ∧
      ∀ b, (∀ o ∈ outcomes, ∀ new, ¬ Rewrites fs placement o.source b new) →
        r.files.get? b = fs'.get? b := by
  induction outcomes generalizing fs' with
  | nil => exact ⟨rfl, fun _ ho => absurd ho List.not_mem_nil, fun _ _ => rfl⟩
  -- the writes so far have moved no source, which `hgrown` says for the rest
  | cons o rest ih =>
    obtain ⟨⟨b, new, hrewrites, hrendered⟩, hrest⟩ := List.forall_mem_cons.mp hall
    obtain ⟨hwrite, hadmits⟩ := hrewrites.writeOutcome hfs hgrown hrendered
    obtain ⟨hok, hheld, hothers⟩ := ih (.step hgrown hadmits fun _ => trivial) hrest
    simp only [writeAll, hwrite]
    refine ⟨hok, List.forall_mem_cons.mpr ⟨?_, hheld⟩, ?_⟩
    · intro b' new' hrewrites'
      -- one of the sources behind may have the same file
      by_cases hagain : ∃ o' ∈ rest, ∃ new'', Rewrites fs placement o'.source b' new''
      · obtain ⟨o', ho', new'', hagain⟩ := hagain
        rw [hheld o' ho' b' new'' hagain, hagain.unique hfs hrewrites']
      · have hb : b' = b := by
          obtain ⟨_, hentry, -⟩ := hrewrites
          obtain ⟨_, hentry', -⟩ := hrewrites'
          exact congrArg Prod.fst (Except.ok.inj (hentry'.symm.trans hentry))
        subst hb
        rw [hothers b' fun o' ho' new'' h => hagain ⟨o', ho', new'', h⟩, hadmits.get?_set,
          if_pos rfl, hrewrites.unique hfs hrewrites']
    · -- an address that is no source's is written neither now nor later
      intro b' hno
      obtain ⟨hfirst, hno⟩ := List.forall_mem_cons.mp hno
      rw [hothers b' hno, hadmits.get?_set, if_neg]
      rintro rfl
      exact hfirst new hrewrites

/-- **The annotated sources are rewritten, and nothing else changes.** -/
structure RewritesAnnotated (fs : FileSystem) (placement : Placement) (sources : List FilePath)
    (fs' : FileSystem) : Prop where
  annotated : ∀ x ∈ sources, ∀ b text, fs.entry true x = .ok (b, .file (.text text)) →
    Project.Annotated text → ∃ new, Project.newText? placement text = some new ∧
      fs'.get? b = some (.file (.text new))
  others : ∀ b, (∀ x ∈ sources, ∀ text, fs.entry true x = .ok (b, .file (.text text)) →
    ¬ Project.Annotated text) → fs'.get? b = fs.get? b

theorem apply_inPlace {v : Voice} (hfs : fs.WellFormed)
    (h : List.Forall₂ (p.Describes fs placement) sources outcomes) :
    (apply v .inPlace fs outcomes).outcome = .ok () ∧
      RewritesAnnotated fs placement sources (apply v .inPlace fs outcomes).files := by
  -- the files that are written are the annotated sources
  have hall : ∀ o ∈ outcomes.filter (fun o => o.rendered.isSome), ∃ b new,
      Rewrites fs placement o.source b new ∧ o.rendered = some new := by
    intro o ho
    obtain ⟨ho, hsome⟩ := List.mem_filter.mp ho
    obtain ⟨new, hnew⟩ := Option.isSome_iff_exists.mp hsome
    obtain ⟨-, -, -, text, hread, hrendered⟩ := Project.describes_of_mem h ho
    obtain ⟨b, hentry⟩ := FileSystem.exists_entry_of_readText hread
    exact ⟨b, new, ⟨text, hentry, hrendered.symm.trans hnew⟩, hnew⟩
  obtain ⟨hok, hheld, hothers⟩ := writeAll_inPlace v FileOutcome.shown hfs .refl hall
  refine ⟨hok, ?_, ?_⟩
  · intro x hx b text hentry hannotated
    obtain ⟨new, hnew⟩ := (Project.exists_newText?_iff placement).mpr hannotated
    obtain ⟨o, ho, hsource, -, text', hread, hrendered⟩ := Project.exists_outcome h hx
    -- the outcome is that of the text at the address
    cases (FileSystem.readText_of_entry hentry).symm.trans hread
    have hmem : o ∈ outcomes.filter (fun o => o.rendered.isSome) :=
      List.mem_filter.mpr ⟨ho, by rw [hrendered, hnew]; rfl⟩
    exact ⟨new, hnew, hheld o hmem b new ⟨text, hsource ▸ hentry, hnew⟩⟩
  · -- what is written is annotated, so the rest keeps its content
    intro b hno
    refine hothers b ?_
    rintro o ho new ⟨text, hentry, hnew⟩
    have hannotated := (Project.exists_newText?_iff placement).mp ⟨new, hnew⟩
    exact hno o.source (Project.describes_of_mem h (List.mem_filter.mp ho).1).1 text hentry
      hannotated

/-! ### All or nothing -/

/-- Without a place to write to nothing is written. -/
theorem finish_unapplied {v : Voice} (h : a.verb = .check ∨ a.mode = .preview) :
    (finish a v p fs outcomes).files = fs := by
  unfold finish
  rcases hverb : a.verb with _ | _
  · rfl
  · rw [h.resolve_left (by simp [hverb])]
    rfl

/-- **A command changes all or nothing.** `check` and a preview change nothing. If the
configuration, a path or a source is at fault, the command fails and has changed nothing either,
wherever the faulty source stands. Otherwise rewriting in place comes to its verdict: the sources
that carry annotations have their new texts, whatever the diagnostics, and nothing else has
changed. -/
theorem run_allOrNothing (a : Arguments) (d : Desk) (fs : FileSystem) :
    (a.verb = .check ∨ a.mode = .preview → (run a d fs).files = fs) ∧
    (InputFault a fs → (run a d fs).files = fs ∧ ∃ e, (run a d fs).outcome = .error e) ∧
    (fs.WellFormed → a.verb = .inject → a.mode = .inPlace → ¬ InputFault a fs →
      ∃ p sources, (Project.find fs a.config).1 = .ok p ∧ p.collect fs a.paths = .ok sources ∧
        Concluded (run a d fs) ∧
        RewritesAnnotated fs (placementIn a p) sources (run a d fs).files) := by
  -- the command is what it gathers, and then what it does with the outcomes
  have hrun := run_eq_of_gather a d fs
  refine ⟨fun hreads => ?_, fun hfault => ?_, fun hfs hverb hmode hsound => ?_⟩
  · split at hrun
    · exact hrun.1
    · exact hrun.1.trans (finish_unapplied hreads)
  · obtain ⟨e, he⟩ := gather_eq_error_iff.mpr hfault
    rw [he] at hrun
    exact ⟨hrun.1, e, hrun.2⟩
  · cases hgather : gather a fs with
    | error e => exact absurd (gather_eq_error_iff.mp ⟨e, hgather⟩) hsound
    | ok found =>
      obtain ⟨p, outcomes⟩ := found
      obtain ⟨hfind, sources, hcollect, houtcomes⟩ := gather_eq_ok_iff.mp hgather
      rw [hgather] at hrun
      obtain ⟨hfiles, houtcome⟩ := hrun
      obtain ⟨hok, hrewrites⟩ := apply_inPlace (v := d.voice) hfs (Project.run_describes houtcomes)
      obtain ⟨hkept, hverdict⟩ := finish_of_applied (v := d.voice) (p := p) hverb (by rwa [hmode])
      rw [hmode] at hkept
      refine ⟨p, sources, hfind, hcollect, fun e he => hverdict e (houtcome ▸ he), ?_⟩
      rw [hfiles, hkept]
      exact hrewrites

/-- A struct that asks for a field which it cannot have without a constructor. -/
def refusedBus : FileSystem where
  entries := [(["bus.rs"], .file (.text "#[fielder(name = \"k\", ty = u8)] struct Bus \x7b\x7d"))]

/-- A command that rewrites it. -/
def rewriteBus : Arguments where
  verb := .inject
  paths := [⟨"bus.rs"⟩]
  mode := .inPlace

/-- A command that shows its messages only. -/
def plainDesk : Desk where
  voice := { plain := true }
  filter := ⟨[], none, []⟩
  logColored := false

/-- The file is rewritten though the command fails because of the diagnostic. With a path that is
not there it is left as it was. -/
theorem run_allOrNothing_refused :
    refusedBus.WellFormed ∧ ¬ InputFault rewriteBus refusedBus ∧
      (run rewriteBus plainDesk refusedBus).outcome = .error (.reported 1) ∧
      (run rewriteBus plainDesk refusedBus).files.get? ["bus.rs"] =
        some (.file (.text "struct Bus \x7b\x7d\n")) ∧
      (run { rewriteBus with paths := [⟨"bus.rs"⟩, ⟨"gone"⟩] } plainDesk refusedBus).files =
        refusedBus := by
  have htree : refusedBus.WellFormed := by decide +kernel
  have hfind : (Project.find refusedBus none).1 =
      .ok { root := Project.workingPath refusedBus } := by
    decide +kernel
  have hcollect : Project.collect { root := Project.workingPath refusedBus } refusedBus
      [⟨"bus.rs"⟩] = .ok [⟨"bus.rs"⟩] := by
    decide +kernel
  have hentry : refusedBus.entry true ⟨"bus.rs"⟩ = .ok (["bus.rs"],
      .file (.text "#[fielder(name = \"k\", ty = u8)] struct Bus \x7b\x7d")) := by
    decide +kernel
  have hnew : Project.newText? .prepend "#[fielder(name = \"k\", ty = u8)] struct Bus \x7b\x7d" =
      some "struct Bus \x7b\x7d\n" := by
    decide +kernel
  have hsound : ¬ InputFault rewriteBus refusedBus := by
    intro hfault
    have hgathered : (gather rewriteBus refusedBus).isOk = true := by decide +kernel
    obtain ⟨e, he⟩ := gather_eq_error_iff.mpr hfault
    rw [he] at hgathered
    cases hgathered
  -- the third part applies to this tree, and it speaks of these sources
  obtain ⟨p, sources, hfind', hcollect', -, hrewrites⟩ :=
    (run_allOrNothing rewriteBus plainDesk refusedBus).2.2 htree rfl rfl hsound
  cases hfind.symm.trans hfind'
  cases hcollect.symm.trans hcollect'
  refine ⟨htree, hsound, by decide +kernel, ?_, ?_⟩
  · obtain ⟨new, hnew', hheld⟩ := hrewrites.annotated _ List.mem_cons_self _ _ hentry
      ((Project.exists_newText?_iff _).mp ⟨_, hnew⟩)
    cases hnew.symm.trans hnew'
    exact hheld
  · -- the missing path is found before anything is written
    have hmissing : refusedBus.exists? ⟨"gone"⟩ = false := by decide +kernel
    exact ((run_allOrNothing _ plainDesk refusedBus).2.1
      (.path hfind (by decide) hmissing)).1

end CommandLine

end FieldGraft
