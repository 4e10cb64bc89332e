import FieldGraft.CommandLine
import FieldGraft.Proofs.AnnotationErasure
import FieldGraft.Proofs.SessionTexts

/-!
# What commands read

A command reads everything that it needs before it writes anything: `CommandLine.gather` is what it
has read by then, and what follows is `CommandLine.finish` (`CommandLine.run_of_gather`).

* `CommandLine.InputFault` — the configuration, a path or a source is at fault. Exactly then there
  is nothing to go on with (`CommandLine.gather_eq_error_iff`).
* `Project.Describes` — the outcome of a source depends on its text alone, wherever it stands in the
  list: the session takes one source after the other, but it makes the same of each
  (`Project.run_describes`).
-/

namespace FieldGraft

namespace Project

variable {p : Project} {fs : FileSystem} {session : Session} {placement : Placement}
  {sources roots : List FilePath} {outcomes : List FileOutcome}

/-! ### The outcomes of sources -/

/-- The new text of a source text, if it carries annotations. -/
def newText? (placement : Placement) (text : String) : Option String :=
  match ({ host := .source .commandLine, placement } : Session).injectText text with
  | .ok (_, f, r) => if r.annotated then some f.render else none
  | .error _ => none

/-- **A text carries annotations**: it is a source text in which a type has an attribute that
requests fields. -/
def Annotated (text : String) : Prop :=
  ∃ f, File.ofText text = .ok f ∧ ¬ Unannotated (Item.typeAttrsList f.items)

/-- A text gets a new one exactly if it carries annotations. -/
theorem exists_newText?_iff (placement : Placement) {text : String} :
    (∃ new, newText? placement text = some new) ↔ Annotated text := by
  rw [← Option.isSome_iff_exists]
  unfold newText? Annotated Session.injectText
  cases hparse : File.ofText text with
  | error e => simp
  | ok f =>
    -- a session as a run begins it; which types carry annotations does not depend on its rounds
    let first : Session := { host := .source .commandLine, placement }
    have hcount : (first.injectFile f).2.2.annotated = true ↔
        ¬ Unannotated (Item.typeAttrsList f.items) := by
      show (first.injectItems f.items).2.2.annotated = true ↔ _
      rw [unannotated_iff_countP, RoundReport.annotated, first.annotations_eq, decide_eq_true_iff,
        Nat.pos_iff_ne_zero]
    dsimp only
    split
    · next h => simpa using hcount.mp h
    · next h => simpa using fun hno => h (hcount.mpr hno)

/-- The path of a source from the root of the project on, if it lies there. -/
def shownPath (p : Project) (source : FilePath) : FilePath :=
  (source.stripPrefix? p.root).getD source

/-- **The outcome belongs to a source.** -/
structure Describes (p : Project) (fs : FileSystem) (placement : Placement) (source : FilePath)
    (o : FileOutcome) : Prop where
  source_eq : o.source = source
  shown_eq : o.shown = p.shownPath source
  exists_text : ∃ text, fs.readText source = .ok text ∧ o.rendered = newText? placement text

/-- All sessions of a command make the same new text. -/
theorem newText?_eq (hgranted : session.Granted) (hplacement : session.placement = placement)
    {text : String} {session' : Session} {f : File} {r : RoundReport}
    (h : session.injectText text = .ok (session', f, r)) :
    newText? placement text = if r.annotated then some f.render else none := by
  -- what a granted session says of a text is what the first one says, the log apart
  have htold : ({ host := .source .commandLine, placement } : Session).told text =
      .ok (f, r.withoutLog) :=
    (Session.told_granted hgranted ⟨_, rfl⟩ hplacement.symm text).trans
      (Session.told_of_injectText h)
  unfold newText?
  split
  · next hfirst =>
    obtain ⟨hfile, hreport⟩ := Prod.mk.inj (Except.ok.inj
      ((Session.told_of_injectText hfirst).symm.trans htold))
    obtain ⟨-, -, -, hannotations⟩ := RoundReport.withoutLog_eq hreport
    rw [RoundReport.annotated, RoundReport.annotated, ← hannotations, ← hfile]
  · next hfirst =>
    -- the text was taken, so the first session cannot have refused it
    rw [Session.told, hfirst] at htold
    cases htold

/-- **Every source has its outcome.** -/
theorem runFrom_describes (hgranted : session.Granted) (hplacement : session.placement = placement)
    (h : (p.runFrom fs session sources).1 = .ok outcomes) :
    List.Forall₂ (p.Describes fs placement) sources outcomes := by
  induction sources generalizing session outcomes with
  | nil =>
    cases h
    exact .nil
  | cons x sources ih =>
    rw [runFrom] at h
    split at h
    · cases h
    · next text hread =>
      split at h
      · cases h
      · next session' f r hinject =>
        split at h
        · next rest log hrest =>
          cases h
          -- later sources are read by the session this one leaves, which is granted as well
          exact .cons ⟨rfl, rfl, text, hread, (newText?_eq hgranted hplacement hinject).symm⟩
            (ih (hgranted.after_injectText hinject)
              ((Session.placement_of_injectText hinject).trans hplacement) (by rw [hrest]))
        · cases h

theorem run_describes (h : (p.run fs placement sources).1 = .ok outcomes) :
    List.Forall₂ (p.Describes fs placement) sources outcomes :=
  runFrom_describes ⟨_, rfl⟩ rfl h

theorem exists_outcome {source : FilePath}
    (h : List.Forall₂ (p.Describes fs placement) sources outcomes) (hsource : source ∈ sources) :
    ∃ o ∈ outcomes, p.Describes fs placement source o := by
  induction h with
  | nil => exact absurd hsource List.not_mem_nil
  | cons hfirst _ ih =>
    rcases List.mem_cons.mp hsource with rfl | hsource
    · exact ⟨_, List.mem_cons_self, hfirst⟩
    · obtain ⟨o, ho, hdescribes⟩ := ih hsource
      exact ⟨o, List.mem_cons_of_mem _ ho, hdescribes⟩

theorem describes_of_mem {o : FileOutcome}
    (h : List.Forall₂ (p.Describes fs placement) sources outcomes) (ho : o ∈ outcomes) :
    o.source ∈ sources ∧ p.Describes fs placement o.source o := by
  induction h with
  | nil => exact absurd ho List.not_mem_nil
  | cons hfirst _ ih =>
    rcases List.mem_cons.mp ho with rfl | ho
    · exact ⟨hfirst.source_eq ▸ List.mem_cons_self, hfirst.source_eq ▸ hfirst⟩
    · exact (ih ho).imp_left (List.mem_cons_of_mem _)

/-! ### Faults -/

/-- A source that cannot be read, or that is no source text. -/
inductive SourceFault (fs : FileSystem) (source : FilePath) : Prop
  | unreadable {cause : FileError} (h : fs.readText source = .error cause)
  | unparsable {text : String} {cause : SourceError} (h : fs.readText source = .ok text)
      (hparse : File.ofText text = .error cause)

/-- **One faulty source is enough**, wherever it stands. -/
theorem runFrom_eq_error_iff :
    (∃ e, (p.runFrom fs session sources).1 = .error e) ↔ ∃ x ∈ sources, SourceFault fs x := by
  induction sources generalizing session with
  | nil => simp [runFrom]
  | cons x sources ih =>
    rw [List.exists_mem_cons_iff, runFrom]
    cases hread : fs.readText x with
    | error e => exact iff_of_true ⟨_, rfl⟩ (.inl (.unreadable hread))
    | ok text =>
      cases hparse : File.ofText text with
      | error e =>
        -- whether a text is taken does not depend on the session
        have hinject : session.injectText text = .error e := by
          rw [Session.injectText, hparse]
        dsimp only
        rw [hinject]
        exact iff_of_true ⟨_, rfl⟩ (.inl (.unparsable hread hparse))
      | ok f =>
        have hinject : session.injectText text = .ok (session.injectFile f) := by
          rw [Session.injectText, hparse]
        -- this source is fine, so a fault must lie with a later one
        have hsound : ¬ SourceFault fs x := by
          rintro (⟨h⟩ | ⟨h, hno⟩)
          · rw [hread] at h
            cases h
          · rw [hread] at h
            cases h
            rw [hparse] at hno
            cases hno
        dsimp only
        rw [hinject, or_iff_right hsound, ← @ih (session.injectFile f).1]
        dsimp only
        split
        · next hrest => simp [hrest]
        · next hrest => simp [hrest]

/-- A path that is not there is enough. -/
theorem belowAll_eq_error_iff :
    (∃ e, p.belowAll fs roots = .error e) ↔ ∃ root ∈ roots, fs.exists? root = false := by
  induction roots with
  | nil => simp [belowAll]
  | cons root roots ih =>
    rw [List.exists_mem_cons_iff, ← ih, belowAll]
    by_cases hexists : fs.exists? root = true
    · rw [if_pos hexists]
      split
      · next hrest => simp [hexists, hrest]
      · next hrest => simp [hexists, hrest]
    · rw [if_neg hexists]
      exact iff_of_true ⟨_, rfl⟩ (.inl (Bool.eq_false_iff.mpr hexists))

theorem collect_eq_error_iff {given : List FilePath} :
    (∃ e, p.collect fs given = .error e) ↔ ∃ root ∈ p.roots given, fs.exists? root = false := by
  rw [← belowAll_eq_error_iff (p := p), collect]
  split
  · next h => simp [h]
  · next h => simp [h]

end Project

namespace CommandLine

variable {a : Arguments} {fs : FileSystem} {p : Project} {outcomes : List FileOutcome}
  {d : Desk} {e : CommandError}

/-- The placement of a command in its project. -/
def placementIn (a : Arguments) (p : Project) : Placement :=
  a.placement.getD p.config.placement

/-- What a command reads: its project and the outcomes of the sources. -/
def gather (a : Arguments) (fs : FileSystem) : Except CommandError (Project × List FileOutcome) :=
  match (Project.find fs a.config).1 with
  | .error e => .error e
  | .ok p =>
    match p.collect fs a.paths with
    | .error e => .error e
    | .ok sources =>
      match (p.run fs (placementIn a p) sources).1 with
      | .error e => .error e
      | .ok outcomes => .ok (p, outcomes)

/-- **The input of a command is at fault.** -/
inductive InputFault (a : Arguments) (fs : FileSystem) : Prop
  | config {cause : CommandError} (h : (Project.find fs a.config).1 = .error cause)
  | path {found : Project} {root : FilePath} (hfind : (Project.find fs a.config).1 = .ok found)
      (hroot : root ∈ found.roots a.paths) (h : fs.exists? root = false)
  | source {found : Project} {sources : List FilePath} {source : FilePath}
      (hfind : (Project.find fs a.config).1 = .ok found)
      (hcollect : found.collect fs a.paths = .ok sources) (hsource : source ∈ sources)
      (h : Project.SourceFault fs source)

theorem gather_eq_ok_iff : gather a fs = .ok (p, outcomes) ↔
    (Project.find fs a.config).1 = .ok p ∧ ∃ sources, p.collect fs a.paths = .ok sources ∧
      (p.run fs (placementIn a p) sources).1 = .ok outcomes := by
  constructor
  · intro h
    unfold gather at h
    split at h
    · -- the stages go one after the other, and a failure of one is the failure of all
      cases h
    · next q hfind =>
      split at h
      · cases h
      · next sources hcollect =>
        split at h
        · cases h
        · next hrun =>
          cases h
          exact ⟨hfind, sources, hcollect, hrun⟩
  · rintro ⟨hfind, sources, hcollect, hrun⟩
    simp only [gather, hfind, hcollect, hrun]

/-- **Without a fault in the input there is everything to go on with.** -/
theorem gather_eq_error_iff : (∃ e, gather a fs = .error e) ↔ InputFault a fs := by
  unfold gather
  cases hfind : (Project.find fs a.config).1 with
  | error e => exact iff_of_true ⟨_, rfl⟩ (.config hfind)
  | ok p =>
    cases hcollect : p.collect fs a.paths with
    | error e =>
      obtain ⟨root, hroot, hmissing⟩ := Project.collect_eq_error_iff.mp ⟨e, hcollect⟩
      simp only [hcollect]
      exact iff_of_true ⟨_, rfl⟩ (.path hfind hroot hmissing)
    | ok sources =>
      simp only [hcollect]
      -- the first stage that fails names the fault
      cases hrun : (p.run fs (placementIn a p) sources).1 with
      | error e =>
        obtain ⟨x, hx, hfault⟩ := Project.runFrom_eq_error_iff.mp ⟨e, hrun⟩
        exact iff_of_true ⟨_, rfl⟩ (.source hfind hcollect hx hfault)
      | ok outcomes =>
        refine iff_of_false (fun ⟨_, hno⟩ => nomatch hno) ?_
        -- each fault would have been met on the way
        rintro (h | ⟨hfind', hroot, h⟩ | ⟨hfind', hcollect', hx, h⟩)
        · rw [hfind] at h
          cases h
        · cases hfind.symm.trans hfind'
          obtain ⟨e, hno⟩ := Project.collect_eq_error_iff.mpr ⟨_, hroot, h⟩
          rw [hcollect] at hno
          cases hno
        · cases hfind.symm.trans hfind'
          cases hcollect.symm.trans hcollect'
          obtain ⟨e, hno⟩ := Project.runFrom_eq_error_iff.mpr ⟨_, hx, h⟩
          rw [Project.run] at hrun
          rw [hrun] at hno
          cases hno

/-! ### What a command does with it -/

/-- Without sources there is nothing to write and nothing to complain about. -/
theorem finish_nil (a : Arguments) (v : Voice) (p : Project) (fs : FileSystem) :
    (finish a v p fs []).files = fs ∧ (finish a v p fs []).outcome = .ok () := by
  have hreport : (report a v p []).2 = .ok () := by
    cases hdeny : (a.denyWarnings || p.config.denyWarnings) <;>
      simp [report, RunSummary.conclude, RunSummary.failed, RunSummary.count, RunSummary.rows,
        Diagnostic.count, hdeny]
  unfold finish
  cases a.verb with
  | check => exact ⟨rfl, hreport⟩
  | inject => cases a.mode <;> exact ⟨rfl, hreport⟩

/-- **A command reads first.** If it lacks something, it fails and has changed nothing; otherwise it
goes on with what it has read. -/
theorem run_eq_of_gather (a : Arguments) (d : Desk) (fs : FileSystem) :
    match gather a fs with
    | .error e => (run a d fs).files = fs ∧ (run a d fs).outcome = .error e
    | .ok (p, outcomes) => (run a d fs).files = (finish a d.voice p fs outcomes).files ∧
        (run a d fs).outcome = (finish a d.voice p fs outcomes).outcome := by
  -- nothing is touched on the file system before the outcomes are known
  unfold gather run
  rcases hfind : Project.find fs a.config with ⟨found, log⟩
  cases found with
  | error e => exact ⟨rfl, rfl⟩
  | ok p =>
    dsimp only
    unfold runIn placementIn
    cases hcollect : p.collect fs a.paths with
    | error e => exact ⟨rfl, rfl⟩
    | ok sources =>
      cases sources with
      | nil =>
        -- without sources the command ends here, as it would with no outcomes
        obtain ⟨hfiles, houtcome⟩ := finish_nil a d.voice p fs
        exact ⟨hfiles.symm, houtcome.symm⟩
      | cons x sources =>
        dsimp only
        rcases p.run fs (a.placement.getD p.config.placement) (x :: sources) with ⟨outcomes, log⟩
        cases outcomes with
        | error e => exact ⟨rfl, rfl⟩
        | ok outcomes => exact ⟨rfl, rfl⟩

end CommandLine

end FieldGraft
