import FieldGraft.Proofs.CommandWrites

/-!
# What targets hold

Below a directory every source gets a target, and the targets are written in the order of the
sources. A source with annotations has its new text ready by then. One without is copied when its
turn comes, so its target holds what its file holds at that time: another source may have its target
there, and a file that is copied onto itself is emptied first (`FileSystem.copy_eq_ok`).

`CommandLine.Delivered` says what the targets of the sources so far hold. Each turn preserves it
(`Delivered.step`), so a command ends with it (`CommandLine.run_targets`).
-/

namespace FieldGraft

namespace FileSystem

variable {fs fs' : FileSystem} {source destination : FilePath}

/-- **A copy** holds the content of the source, unless source and destination are one file. -/
theorem copy_eq_ok (hfs : fs.WellFormed) (h : fs.copy source destination = .ok fs') :
    ∃ s b c, fs.entry true source = .ok (s, .file c) ∧ fs.place? destination = some b ∧
      Evolves (· = b) fs fs' ∧
      fs'.entry true destination = .ok (b, .file (if s = b then .text "" else c)) := by
  unfold copy at h
  split at h
  · next s c hentry =>
    split at h
    · next b haddress =>
      -- the destination is emptied, and then it gets what the source holds by now
      obtain ⟨hplace, hgrown, hthere⟩ := set_of_writeAddress hfs haddress (.text "")
      have hs : (fs.set b (.file (.text ""))).get? s =
          some (.file (if s = b then .text "" else c)) := by
        rw [(admits_of_writeAddress hfs haddress _).1.get?_set]
        split
        · rfl
        · exact hfs.get?_of_entry hentry
      dsimp only at h
      rw [hs] at h
      cases h
      obtain ⟨-, hgrown', hfinal⟩ := set_of_writeAddress (hgrown.wellFormed hfs)
        (writeAddress_of_file hthere) (if s = b then .text "" else c)
      exact ⟨s, b, c, hentry, hplace, hgrown.trans hgrown', hfinal⟩
    · cases h
  · cases h
  · cases h

end FileSystem

namespace CommandLine

open FileSystem (Evolves exists_entry_of_readText readText_of_entry)

variable {a : Arguments} {fs fs' fs'' : FileSystem} {p : Project} {placement : Placement}
  {o : FileOutcome} {outcomes : List FileOutcome} {directory x : FilePath}
  {sources done rest : List FilePath} {s b : Address} {text : String} {c : Content}

/-! ### Targets -/

/-- The target of a source below a directory. -/
def targetIn (p : Project) (directory source : FilePath) : FilePath :=
  targetBelow directory (p.shownPath source)

/-- The place to which a source is written. -/
def targetPlace? (fs : FileSystem) (p : Project) (directory source : FilePath) : Option Address :=
  fs.place? (targetIn p directory source)

/-- **The text that belongs to a source text**: the new one if it carries annotations, and otherwise
the text itself. -/
def ownText (placement : Placement) (text : String) : String :=
  (Project.newText? placement text).getD text

/-- The content that is written for an outcome when the file of the source holds `c`. -/
def contentFor (o : FileOutcome) (s b : Address) (c : Content) : Content :=
  match o.rendered with
  | some new => .text new
  | none => if s = b then .text "" else c

/-- **One outcome written** to the place of its target. -/
theorem writeOutcome_eq_ok {target : FilePath} (hfs : fs.WellFormed)
    (hentry : fs.entry true o.source = .ok (s, .file c))
    (h : writeOutcome fs o target = (fs', .ok ())) :
    ∃ b, fs.place? target = some b ∧ Evolves (· = b) fs fs' ∧
      fs'.entry true target = .ok (b, .file (contentFor o s b c)) := by
  unfold writeOutcome at h
  have hmade := FileSystem.makeParent_evolves hfs target
  split at h
  · cases h
  · next made hparent =>
    rw [hparent] at hmade
    have htree := hmade.wellFormed hfs
    have hthere := hmade.entry_of_not_written hfs hentry id
    -- making directories has changed neither the places nor the source
    suffices ∃ b, made.place? target = some b ∧ Evolves (· = b) made fs' ∧
        fs'.entry true target = .ok (b, .file (contentFor o s b c)) by
      obtain ⟨b, hplace, hgrown, hfinal⟩ := this
      exact ⟨b, (hmade.place?_eq target).symm.trans hplace,
        (hmade.mono fun _ => False.elim).trans hgrown, hfinal⟩
    unfold contentFor
    cases hrendered : o.rendered with
    | some new =>
      rw [hrendered] at h
      dsimp only at h
      split at h
      · next hwrite =>
        cases h
        exact FileSystem.write_eq_ok htree hwrite
      · cases h
    | none =>
      rw [hrendered] at h
      dsimp only at h
      split at h
      · next hcopy =>
        cases h
        -- what is copied is the source as it was, since it has not been written
        obtain ⟨s', b, c', hentry', hplace, hgrown, hfinal⟩ := FileSystem.copy_eq_ok htree hcopy
        cases hthere.symm.trans hentry'
        exact ⟨b, hplace, hgrown, hfinal⟩
      · cases h

/-! ### Turn by turn -/

/-- **What the target of a source holds** in a file system. The source has its file at `s` and its
place at `b`; the text was there before, and `earlier` says that a source before has its place at
`s`. -/
structure Holds (fs : FileSystem) (placement : Placement) (s b : Address) (text : String)
    (earlier : Prop) (c : Content) : Prop where
  rendered : ∀ new, Project.newText? placement text = some new → c = .text new
  emptied : Project.newText? placement text = none → s = b → c = .text ""
  overwritten : Project.newText? placement text = none → s ≠ b → earlier →
    fs.get? s = some (.file c)
  copied : Project.newText? placement text = none → s ≠ b → ¬ earlier → c = .text text

/-- **The targets of the sources so far**: only they have been written, and each of them holds what
its turn put there. -/
structure Delivered (p : Project) (placement : Placement) (directory : FilePath) (fs : FileSystem)
    (done : List FilePath) (fs' : FileSystem) : Prop where
  grown : Evolves (fun b => ∃ x ∈ done, targetPlace? fs p directory x = some b) fs fs'
  held : ∀ before x after, done = before ++ x :: after → ∃ s b text c,
    fs.entry true x = .ok (s, .file (.text text)) ∧ targetPlace? fs p directory x = some b ∧
      fs'.entry true (targetIn p directory x) = .ok (b, .file c) ∧
      Holds fs' placement s b text (∃ y ∈ before, targetPlace? fs p directory y = some s) c

/-- **One more turn.** The new target is at no place of those before, so these hold what they
held. -/
theorem Delivered.step (h : Delivered p placement directory fs done fs') (hfs : fs.WellFormed)
    (hdescribes : p.Describes fs placement x o)
    (hfresh : ∀ y ∈ done, targetPlace? fs p directory y ≠ targetPlace? fs p directory x)
    (hwrite : writeOutcome fs' o (targetIn p directory x) = (fs'', .ok ())) :
    Delivered p placement directory fs (done ++ [x]) fs'' := by
  obtain ⟨rfl, -, text, hread, hrendered⟩ := hdescribes
  obtain ⟨s, hentry⟩ := exists_entry_of_readText hread
  have htree := h.grown.wellFormed hfs
  -- the file may have a new content by now, but it is a file still
  obtain ⟨c, hthere⟩ := h.grown.entry_file hfs hentry
  obtain ⟨b, hplace, hgrown, hfinal⟩ := writeOutcome_eq_ok htree hthere hwrite
  have hplace : targetPlace? fs p directory o.source = some b :=
    (h.grown.place?_eq _).symm.trans hplace
  have hkept : ∀ {b' c'}, fs'.get? b' = some (.file c') → b' ≠ b →
      fs''.get? b' = some (.file c') := fun hget hne => hgrown.file_of_not_written hget hne
  refine ⟨(h.grown.mono fun _ ⟨y, hy, hat⟩ => ⟨y, List.mem_append_left _ hy, hat⟩).trans
    (hgrown.mono fun _ heq => ⟨o.source, List.mem_concat_self, heq ▸ hplace⟩), ?_⟩
  intro before y after hsplit
  rcases List.eq_nil_or_concat after with rfl | ⟨after, z, rfl⟩
  · -- the source whose turn it was
    obtain ⟨rfl, hy⟩ := List.append_inj' hsplit rfl
    cases hy
    refine ⟨s, b, text, _, hentry, hplace, hfinal, ?_⟩
    rw [contentFor, hrendered]
    refine ⟨fun new hnew => by rw [hnew], fun hnone hsame => ?_, fun hnone hne _ => ?_,
      fun hnone hne hno => ?_⟩
    · rw [hnone]
      exact if_pos hsame
    · rw [hnone]
      exact (hkept (htree.get?_of_entry hthere) hne).trans (by simp only [if_neg hne])
    · -- nothing has been written to its file
      rw [hnone]
      cases hthere.symm.trans (h.grown.entry_of_not_written hfs hentry hno)
      exact if_neg hne
  · -- a source before
    rw [List.concat_eq_append, ← List.cons_append, ← List.append_assoc] at hsplit
    obtain ⟨rfl, -⟩ := List.append_inj' hsplit rfl
    obtain ⟨s', b', text', c', hentry', hplace', hthere', hholds⟩ := h.held before y after rfl
    have hne : b' ≠ b := by
      rintro rfl
      exact hfresh y (by simp) (hplace'.trans hplace.symm)
    refine ⟨s', b', text', c', hentry', hplace',
      hgrown.entry_of_not_written htree hthere' hne, { hholds with overwritten := ?_ }⟩
    intro hnone hother hearlier
    refine hkept (hholds.overwritten hnone hother hearlier) ?_
    rintro rfl
    obtain ⟨z, hz, hat⟩ := hearlier
    exact hfresh z (List.mem_append_left _ hz) (hat.trans hplace.symm)

/-- **All turns.** -/
theorem Delivered.writeAll {v : Voice} {name : FileOutcome → FilePath} (hfs : fs.WellFormed)
    (h : Delivered p placement directory fs done fs')
    (hrest : List.Forall₂ (p.Describes fs placement) rest outcomes)
    (hdistinct : ((done ++ rest).map (targetPlace? fs p directory)).Nodup)
    (hok : (writeAll v (fun o => targetBelow directory o.shown) name fs' outcomes).outcome =
      .ok ()) :
    Delivered p placement directory fs (done ++ rest)
      (writeAll v (fun o => targetBelow directory o.shown) name fs' outcomes).files := by
  induction hrest generalizing done fs' with
  | nil => rwa [List.append_nil]
  | @cons x o rest outcomes hdescribes _ ih =>
    unfold CommandLine.writeAll at hok ⊢
    split at hok
    · cases hok
    · next made hwrite =>
      -- no target so far has the place of this one
      have hfresh : ∀ y ∈ done, targetPlace? fs p directory y ≠ targetPlace? fs p directory x := by
        intro y hy heq
        rw [List.map_append, List.nodup_append] at hdistinct
        exact hdistinct.2.2 _ (List.mem_map_of_mem hy) _
          (List.mem_map_of_mem List.mem_cons_self) heq
      rw [hdescribes.shown_eq] at hwrite
      have hnext := h.step hfs hdescribes hfresh hwrite
      rw [List.append_cons] at hdistinct ⊢
      exact ih hnext hdistinct hok

/-! ### What became of the texts -/

theorem ownText_of_newText? {new : String} (h : Project.newText? placement text = some new) :
    ownText placement text = new := by
  rw [ownText, h, Option.getD_some]

theorem newText?_of_not_annotated (h : ¬ Project.Annotated text) :
    Project.newText? placement text = none :=
  Option.eq_none_iff_forall_ne_some.mpr fun new hnew =>
    h ((Project.exists_newText?_iff placement).mp ⟨new, hnew⟩)

theorem ownText_of_not_annotated (h : ¬ Project.Annotated text) :
    ownText placement text = text := by
  rw [ownText, newText?_of_not_annotated h, Option.getD_none]

/-- What the target of one source holds. -/
theorem Delivered.held_of_entry {before after : List FilePath}
    (h : Delivered p placement directory fs (before ++ x :: after) fs')
    (hentry : fs.entry true x = .ok (s, .file (.text text))) :
    ∃ b c, targetPlace? fs p directory x = some b ∧
      fs'.entry true (targetIn p directory x) = .ok (b, .file c) ∧
      Holds fs' placement s b text (∃ y ∈ before, targetPlace? fs p directory y = some s) c := by
  obtain ⟨s', b, text', c, hentry', hplace, hthere, hholds⟩ := h.held before x after rfl
  cases hentry.symm.trans hentry'
  exact ⟨b, c, hplace, hthere, hholds⟩

/-- A source with annotations has its new text in its target. -/
theorem Delivered.readText_rendered {new : String} (hx : x ∈ done)
    (h : Delivered p placement directory fs done fs') (hread : fs.readText x = .ok text)
    (hnew : Project.newText? placement text = some new) :
    fs'.readText (targetIn p directory x) = .ok new := by
  obtain ⟨before, after, rfl⟩ := List.append_of_mem hx
  obtain ⟨s, hentry⟩ := exists_entry_of_readText hread
  obtain ⟨b, c, -, hthere, hholds⟩ := h.held_of_entry hentry
  rw [hholds.rendered new hnew] at hthere
  exact readText_of_entry hthere

/-- **A source without annotations is in its target** unless it was emptied there, or its file is
the target of a source before it, which holds something else. -/
theorem Delivered.readText_copied_iff {before after : List FilePath} (hfs : fs.WellFormed)
    (h : Delivered p placement directory fs (before ++ x :: after) fs')
    (hdistinct : ((before ++ x :: after).map (targetPlace? fs p directory)).Nodup)
    (hentry : fs.entry true x = .ok (s, .file (.text text))) (hplain : ¬ Project.Annotated text) :
    fs'.readText (targetIn p directory x) = .ok text ↔
      (targetPlace? fs p directory x = some s → text = "") ∧
        ∀ y ∈ before, targetPlace? fs p directory y = some s →
          fs'.readText (targetIn p directory y) = .ok text := by
  have hnone : Project.newText? placement text = none := newText?_of_not_annotated hplain
  obtain ⟨b, c, hplace, hthere, hholds⟩ := h.held_of_entry hentry
  by_cases hsame : s = b
  · -- no other source has the same place
    subst hsame
    rw [hholds.emptied hnone rfl] at hthere
    rw [readText_of_entry hthere]
    refine ⟨fun heq => ⟨fun _ => (Except.ok.inj heq).symm, fun y hy hat => ?_⟩,
      fun hkept => by rw [hkept.1 hplace]⟩
    rw [List.map_append, List.map_cons, List.nodup_append] at hdistinct
    exact absurd (hat.trans hplace.symm)
      (hdistinct.2.2 _ (List.mem_map_of_mem hy) _ List.mem_cons_self)
  · have hother : targetPlace? fs p directory x ≠ some s := by
      rw [hplace]
      exact fun heq => hsame (Option.some.inj heq).symm
    rw [and_iff_right fun heq => absurd heq hother]
    by_cases hearlier : ∃ y ∈ before, targetPlace? fs p directory y = some s
    · -- the target before was copied as it is still
      have hcopied : ∀ y ∈ before, targetPlace? fs p directory y = some s →
          fs'.readText (targetIn p directory y) = fs'.readText (targetIn p directory x) := by
        intro y hy hat
        obtain ⟨first, more, rfl⟩ := List.append_of_mem hy
        obtain ⟨s', b', text', c', -, hplace', hthere', -⟩ :=
          h.held first y (more ++ x :: after) (by simp)
        cases hat.symm.trans hplace'
        have hget := (h.grown.wellFormed hfs).get?_of_entry hthere'
        -- the earlier target is the source's own file, which this one was copied from
        cases hget.symm.trans (hholds.overwritten hnone hsame hearlier)
        rw [FileSystem.readText, FileSystem.readText, FileSystem.read, FileSystem.read, hthere,
          hthere']
      constructor
      · intro heq y hy hat
        exact (hcopied y hy hat).trans heq
      · intro hall
        obtain ⟨y, hy, hat⟩ := hearlier
        exact (hcopied y hy hat).symm.trans (hall y hy hat)
    · rw [hholds.copied hnone hsame hearlier] at hthere
      exact iff_of_true (readText_of_entry hthere) fun y hy hat => absurd ⟨y, hy, hat⟩ hearlier

/-- **Every target holds the text of its source** exactly if no source without annotations is
spoilt: one that is its own target is empty, and a target before it that is its file has the same
text. -/
theorem Delivered.readText_iff (hfs : fs.WellFormed)
    (h : Delivered p placement directory fs sources fs')
    (hdistinct : (sources.map (targetPlace? fs p directory)).Nodup) :
    (∀ x ∈ sources, ∀ text, fs.readText x = .ok text →
        fs'.readText (targetIn p directory x) = .ok (ownText placement text)) ↔
      ∀ before x after, sources = before ++ x :: after → ∀ s text,
        fs.entry true x = .ok (s, .file (.text text)) → ¬ Project.Annotated text →
          (targetPlace? fs p directory x = some s → text = "") ∧
            ∀ y ∈ before, targetPlace? fs p directory y = some s →
              ∀ text', fs.readText y = .ok text' → ownText placement text' = text := by
  constructor
  · rintro hall before x after rfl s text hentry hplain
    have hx := hall x (by simp) text (readText_of_entry hentry)
    rw [ownText_of_not_annotated hplain] at hx
    obtain ⟨hempty, hbefore⟩ := (h.readText_copied_iff hfs hdistinct hentry hplain).mp hx
    refine ⟨hempty, fun y hy hat text' hread => ?_⟩
    have hy' := hall y (List.mem_append_left _ hy) text' hread
    exact Except.ok.inj (hy'.symm.trans (hbefore y hy hat))
  · intro hkept
    -- by the number of sources before
    suffices ∀ n before x after, before.length = n → sources = before ++ x :: after → ∀ text,
        fs.readText x = .ok text →
          fs'.readText (targetIn p directory x) = .ok (ownText placement text) by
      intro x hx text hread
      obtain ⟨before, after, hsplit⟩ := List.append_of_mem hx
      exact this _ before x after rfl hsplit text hread
    intro n
    induction n using Nat.strongRecOn with
    | ind n ih =>
      rintro before x after rfl rfl text hread
      by_cases hplain : Project.Annotated text
      · obtain ⟨new, hnew⟩ := (Project.exists_newText?_iff placement).mpr hplain
        rw [ownText_of_newText? hnew]
        exact h.readText_rendered (by simp) hread hnew
      · -- what is copied was a target before, and `ih` knows that one
        obtain ⟨s, hentry⟩ := exists_entry_of_readText hread
        rw [ownText_of_not_annotated hplain]
        obtain ⟨hempty, hbefore⟩ := hkept before x after rfl s text hentry hplain
        refine (h.readText_copied_iff hfs hdistinct hentry hplain).mpr ⟨hempty, fun y hy hat => ?_⟩
        obtain ⟨first, more, rfl⟩ := List.append_of_mem hy
        obtain ⟨s', b', text', c', hentry', -⟩ := h.held first y (more ++ x :: after) (by simp)
        have hread' := readText_of_entry hentry'
        rw [← hbefore y hy hat text' hread']
        exact ih first.length (by simp) first y (more ++ x :: after) rfl (by simp) text' hread'

/-! ### A whole command -/

/-- A run that comes to its verdict wrote all targets without an error. -/
theorem applied_of_concluded {d : Desk} {outcomes : List FileOutcome} (hverb : a.verb = .inject)
    (hmode : a.mode = .below directory) (hgather : gather a fs = .ok (p, outcomes))
    (hdone : Concluded (run a d fs)) :
    (apply d.voice (.below directory) fs outcomes).outcome = .ok () := by
  have hrun := run_eq_of_gather a d fs
  rw [hgather] at hrun
  cases happlied : (apply d.voice (.below directory) fs outcomes).outcome with
  | ok _ => rfl
  | error e =>
    -- the error would end the run, but it is no verdict
    have hfinish : (finish a d.voice p fs outcomes).outcome = .error e := by
      unfold finish
      rw [hverb, hmode]
      dsimp only
      rw [happlied]
      exact happlied
    have hverdict := not_verdict_of_writeAll happlied
    rw [hdone e (hrun.2.trans hfinish)] at hverdict
    cases hverdict

/-- **A run that comes to its verdict has written all targets.** -/
theorem delivered_of_concluded {d : Desk} (hfs : fs.WellFormed) (hverb : a.verb = .inject)
    (hmode : a.mode = .below directory) (hfind : (Project.find fs a.config).1 = .ok p)
    (hcollect : p.collect fs a.paths = .ok sources) (hdone : Concluded (run a d fs))
    (hdistinct : (sources.map (targetPlace? fs p directory)).Nodup) :
    Delivered p (placementIn a p) directory fs sources (run a d fs).files := by
  have hrun := run_eq_of_gather a d fs
  cases houtcomes : (p.run fs (placementIn a p) sources).1 with
  -- the run would have ended with this error, which is no verdict
  | error e =>
    have hgather : gather a fs = .error e := by
      simp only [gather, hfind, hcollect, houtcomes]
    rw [hgather] at hrun
    have hverdict := not_verdict_of_runFrom houtcomes
    rw [hdone e hrun.2] at hverdict
    cases hverdict
  | ok outcomes =>
    have hgather := gather_eq_ok_iff.mpr ⟨hfind, sources, hcollect, houtcomes⟩
    have happlied := applied_of_concluded hverb hmode hgather hdone
    rw [hgather] at hrun
    obtain ⟨hkept, -⟩ := finish_of_applied (v := d.voice) (p := p) hverb (by rwa [hmode])
    rw [hrun.1, hkept, hmode]
    have hstart : Delivered p (placementIn a p) directory fs [] fs :=
      ⟨.refl, fun before x after hno => by simp at hno⟩
    exact hstart.writeAll hfs (Project.run_describes houtcomes) hdistinct happlied

/-- **What a command leaves below its directory**, if it comes to its verdict and the targets are
different places. Each of them holds what its turn put there, and other files are as they were. A
source with annotations has its new text in its target. Each source has its text there, the new one
or its own, exactly if none without annotations is spoilt: one that is its own target is emptied,
and one whose file is the target of a source before it is copied too late. -/
theorem run_targets {d : Desk} (hfs : fs.WellFormed) (hverb : a.verb = .inject)
    (hmode : a.mode = .below directory) (hfind : (Project.find fs a.config).1 = .ok p)
    (hcollect : p.collect fs a.paths = .ok sources) (hdone : Concluded (run a d fs))
    (hdistinct : (sources.map (targetPlace? fs p directory)).Nodup) :
    Delivered p (placementIn a p) directory fs sources (run a d fs).files ∧
    (∀ x ∈ sources, ∀ text new, fs.readText x = .ok text →
      Project.newText? (placementIn a p) text = some new →
        (run a d fs).files.readText (targetIn p directory x) = .ok new) ∧
    (∀ s c, fs.get? s = some (.file c) →
      (∀ x ∈ sources, targetPlace? fs p directory x ≠ some s) →
        (run a d fs).files.get? s = some (.file c)) ∧
    ((∀ x ∈ sources, ∀ text, fs.readText x = .ok text →
        (run a d fs).files.readText (targetIn p directory x) =
          .ok (ownText (placementIn a p) text)) ↔
      ∀ before x after, sources = before ++ x :: after → ∀ s text,
        fs.entry true x = .ok (s, .file (.text text)) → ¬ Project.Annotated text →
          (targetPlace? fs p directory x = some s → text = "") ∧
            ∀ y ∈ before, targetPlace? fs p directory y = some s →
              ∀ text', fs.readText y = .ok text' → ownText (placementIn a p) text' = text) := by
  have hdelivered := delivered_of_concluded hfs hverb hmode hfind hcollect hdone hdistinct
  refine ⟨hdelivered, fun x hx text new hread hnew => hdelivered.readText_rendered hx hread hnew,
    fun s c hget hno => ?_, hdelivered.readText_iff hfs hdistinct⟩
  exact hdelivered.grown.file_of_not_written hget fun ⟨x, hx, hat⟩ => hno x hx hat

/-- A source without annotations in the working directory. -/
def plainFile : FileSystem where
  entries := [(["x.rs"], .file (.text "struct A;"))]

/-- A command that writes all sources below the working directory. -/
def mirrorHere : Arguments where
  verb := .inject
  paths := [⟨"x.rs"⟩]
  mode := .below ⟨"."⟩

/-- The source is its own target: the command succeeds, and the file is empty. -/
theorem run_targets_emptied :
    plainFile.WellFormed ∧ Concluded (run mirrorHere plainDesk plainFile) ∧
      targetIn { root := Project.workingPath plainFile } ⟨"."⟩ ⟨"x.rs"⟩ = ⟨"./x.rs"⟩ ∧
      ¬ Project.Annotated "struct A;" ∧
      (run mirrorHere plainDesk plainFile).files.readText ⟨"./x.rs"⟩ = .ok "" := by
  let p : Project := { root := Project.workingPath plainFile }
  have htree : plainFile.WellFormed := by decide +kernel
  have hfind : (Project.find plainFile none).1 = .ok p := by decide +kernel
  have hcollect : p.collect plainFile [⟨"x.rs"⟩] = .ok [⟨"x.rs"⟩] := by decide +kernel
  have hentry : plainFile.entry true ⟨"x.rs"⟩ = .ok (["x.rs"], .file (.text "struct A;")) := by
    decide +kernel
  have hplace : targetPlace? plainFile p ⟨"."⟩ ⟨"x.rs"⟩ = some ["x.rs"] := by decide +kernel
  have htarget : targetIn p ⟨"."⟩ ⟨"x.rs"⟩ = ⟨"./x.rs"⟩ := by decide +kernel
  have hnone : Project.newText? .prepend "struct A;" = none := by decide +kernel
  have hdone : Concluded (run mirrorHere plainDesk plainFile) := by
    have hok : (run mirrorHere plainDesk plainFile).outcome = .ok () := by decide +kernel
    intro e he
    rw [hok] at he
    cases he
  -- the tree has one source, so no two targets meet
  have hdistinct : ([⟨"x.rs"⟩].map (targetPlace? plainFile p ⟨"."⟩)).Nodup :=
    List.nodup_singleton _
  obtain ⟨hdelivered, -, -, -⟩ := run_targets htree rfl rfl hfind hcollect hdone hdistinct
  have hone : Delivered p .prepend ⟨"."⟩ plainFile ([] ++ ⟨"x.rs"⟩ :: [])
      (run mirrorHere plainDesk plainFile).files := hdelivered
  obtain ⟨b, c, hplace', hthere, hholds⟩ := hone.held_of_entry hentry
  cases hplace.symm.trans hplace'
  rw [htarget, hholds.emptied hnone rfl] at hthere
  refine ⟨htree, hdone, htarget, ?_, readText_of_entry hthere⟩
  intro hannotated
  obtain ⟨new, hnew⟩ := (Project.exists_newText?_iff .prepend).mpr hannotated
  rw [hnone] at hnew
  cases hnew

end CommandLine

end FieldGraft
