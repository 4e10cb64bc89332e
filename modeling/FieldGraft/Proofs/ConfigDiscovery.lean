import FieldGraft.Proofs.OuterPaths
import FieldGraft.Config

/-!
# Looking for a configuration

A configuration is looked for in a directory and in those around it. The search is described by a
relation with one rule for each kind of turn (`Config.Searches`): it ends in a directory with a
configuration, in one with a boundary file, or where nothing is around a directory any more.

* `Config.searches_discover` — the search ends after no more turns than the path has components,
  and its answer is the one that is computed.
* `Config.Searches.reaches` — the directory in which it ends is the first one that ends it.
* `Config.discover_nearest` — so the nearest directory with either file decides alone. Its
  configuration is taken as it is, be it faulty or not.
* `Config.load_eq_error_iff` and `Config.discover_faulty` — a configuration file that is no text, or
  whose text has no settings, is an error that names the file, and the search ends with this error.
-/

namespace FieldGraft

namespace Config

/-- What comes of a search: nothing, a configuration with its path, or an error. -/
abbrev Discovery := Except ConfigError (Option (FilePath × Config))

/-- The directory holds a configuration file. -/
def HoldsConfig (fs : FileSystem) (d : FilePath) : Prop :=
  ∃ c, fs.Holds d "fielder.toml" (.file c)

/-- The directory holds a boundary file, or anything else under its name. -/
def HoldsBoundary (fs : FileSystem) (d : FilePath) : Prop :=
  ∃ e, fs.Holds d "Cargo.toml" e

/-- The search does not go on from the directory to the one around it. -/
def Ends (fs : FileSystem) (d : FilePath) : Prop :=
  HoldsConfig fs d ∨ HoldsBoundary fs d

/-- What comes of loading the configuration file in a directory. -/
def loadedFrom (fs : FileSystem) (d : FilePath) : Discovery :=
  (load fs (d.join fileName)).map fun c => some (d.join fileName, c)

/-- **A search from a directory**: after a number of turns it ends with an answer. -/
inductive Searches (fs : FileSystem) : FilePath → Nat → Discovery → Prop
  | found {d} (h : HoldsConfig fs d) : Searches fs d 0 (loadedFrom fs d)
  | bounded {d} (h : ¬ HoldsConfig fs d) (hbound : HoldsBoundary fs d) :
      Searches fs d 0 (.ok none)
  | outermost {d} (h : ¬ Ends fs d) (hd : d.parent? = none) : Searches fs d 0 (.ok none)
  | outward {d q n r} (h : ¬ Ends fs d) (hd : d.parent? = some q) (hq : Searches fs q n r) :
      Searches fs d (n + 1) r

/-! ### One directory -/

variable {fs : FileSystem} {d : FilePath} {outer : List FilePath}

theorem isFile_iff : fs.isFile (d.join fileName) = true ↔ HoldsConfig fs d := by
  have hname : IsFileName "fielder.toml" := by decide
  unfold FileSystem.isFile HoldsConfig fileName
  simp only [FileSystem.holds_iff hname]
  split
  · next a c hentry => exact iff_of_true rfl ⟨c, a, hentry⟩
  · next hno =>
    refine iff_of_false Bool.false_ne_true ?_
    rintro ⟨c, a, hentry⟩
    exact hno a c hentry

theorem exists?_iff : fs.exists? (d.join boundaryName) = true ↔ HoldsBoundary fs d := by
  have hname : IsFileName "Cargo.toml" := by decide
  unfold FileSystem.exists? HoldsBoundary boundaryName
  simp only [FileSystem.holds_iff hname]
  split
  · next found hentry => exact iff_of_true rfl ⟨found.2, found.1, hentry⟩
  · next e hentry =>
    refine iff_of_false Bool.false_ne_true ?_
    rintro ⟨e, a, hfound⟩
    rw [hentry] at hfound
    cases hfound

/-- **The directory holds a faulty configuration file**, with the error that says so: its bytes are
no text, or no settings can be read from its text. -/
inductive Faulty (fs : FileSystem) (d : FilePath) : ConfigError → Prop
  | unreadable {bytes} (h : fs.Holds d "fielder.toml" (.file (.binary bytes))) :
      Faulty fs d (.unreadable (d.join fileName) .notText)
  | invalid {text} (h : fs.Holds d "fielder.toml" (.file (.text text)))
      (hnone : ofText? text = none) : Faulty fs d (.invalid (d.join fileName))

theorem Faulty.holdsConfig {e : ConfigError} (h : Faulty fs d e) : HoldsConfig fs d := by
  cases h with
  | unreadable h => exact ⟨_, h⟩
  | invalid h _ => exact ⟨_, h⟩

/-- What a text comes to as the configuration of a directory. -/
theorem load_of_holds {text : String} (h : fs.Holds d "fielder.toml" (.file (.text text))) :
    load fs (d.join fileName) =
      (ofText? text).elim (.error (.invalid (d.join fileName))) Except.ok := by
  obtain ⟨a, hentry⟩ := (FileSystem.holds_iff (by decide)).mp h
  rw [load, show fs.readText (d.join fileName) = _ from FileSystem.readText_of_entry hentry]
  dsimp only
  cases ofText? text <;> rfl

theorem load_of_holds_binary {bytes : List UInt8}
    (h : fs.Holds d "fielder.toml" (.file (.binary bytes))) :
    load fs (d.join fileName) = .error (.unreadable (d.join fileName) .notText) := by
  obtain ⟨a, hentry⟩ := (FileSystem.holds_iff (by decide)).mp h
  rw [load, FileSystem.readText, FileSystem.read,
    show fs.entry true (d.join fileName) = _ from hentry]

/-- **A configuration file is read or is faulty.** Settings come of a text from which they can be
read and of nothing else. -/
theorem load_eq_ok_iff (h : HoldsConfig fs d) {c : Config} :
    load fs (d.join fileName) = .ok c ↔
      ∃ text, fs.Holds d "fielder.toml" (.file (.text text)) ∧ ofText? text = some c := by
  constructor
  · intro hload
    obtain ⟨content, hcontent⟩ := h
    -- the file holds a text, or what is no text
    cases content with
    | binary bytes =>
      rw [load_of_holds_binary hcontent] at hload
      cases hload
    | text text =>
      rw [load_of_holds hcontent] at hload
      cases hread : ofText? text with
      | none =>
        rw [hread] at hload
        cases hload
      | some c' =>
        rw [hread] at hload
        cases hload
        exact ⟨text, hcontent, hread⟩
  · rintro ⟨text, hcontent, hread⟩
    rw [load_of_holds hcontent, hread]
    rfl

/-- The error of a configuration file tells what is wrong with it and names it. -/
theorem load_eq_error_iff (h : HoldsConfig fs d) {e : ConfigError} :
    load fs (d.join fileName) = .error e ↔ Faulty fs d e := by
  constructor
  · intro hload
    -- bytes that are no text cannot be loaded, and a text is parsed
    obtain ⟨content, hcontent⟩ := h
    cases content with
    | binary bytes =>
      rw [load_of_holds_binary hcontent] at hload
      cases hload
      exact .unreadable hcontent
    | text text =>
      rw [load_of_holds hcontent] at hload
      cases hread : ofText? text with
      | none =>
        rw [hread] at hload
        cases hload
        exact .invalid hcontent hread
      | some c =>
        rw [hread] at hload
        cases hload
  · intro hfaulty
    cases hfaulty with
    | unreadable hcontent => exact load_of_holds_binary hcontent
    | invalid hcontent hread =>
      rw [load_of_holds hcontent, hread]
      rfl

theorem discoverIn_of_config (h : HoldsConfig fs d) :
    discoverIn fs (d :: outer) = loadedFrom fs d := by
  rw [discoverIn, if_pos (isFile_iff.mpr h), loadedFrom]
  cases load fs (d.join fileName) <;> rfl

theorem discoverIn_of_boundary (h : ¬ HoldsConfig fs d) (hbound : HoldsBoundary fs d) :
    discoverIn fs (d :: outer) = .ok none := by
  rw [discoverIn, if_neg (mt isFile_iff.mp h), if_pos (exists?_iff.mpr hbound)]

theorem discoverIn_of_not_ends (h : ¬ Ends fs d) :
    discoverIn fs (d :: outer) = discoverIn fs outer := by
  rw [Ends, not_or] at h
  rw [discoverIn, if_neg (mt isFile_iff.mp h.1), if_neg (mt exists?_iff.mp h.2)]

/-! ### The whole search -/

/-- **The search ends** after no more turns than there are components to take away, with the answer
that is computed. -/
theorem searches_discover (fs : FileSystem) (d : FilePath) :
    ∃ turns ≤ d.depth, Searches fs d turns (discover fs d) := by
  obtain ⟨outer, houter⟩ := d.exists_ancestors
  -- a directory with one of the files ends the search, whatever is around it
  by_cases hconfig : HoldsConfig fs d
  · rw [discover, houter, discoverIn_of_config hconfig]
    exact ⟨0, Nat.zero_le _, .found hconfig⟩
  by_cases hbound : HoldsBoundary fs d
  · rw [discover, houter, discoverIn_of_boundary hconfig hbound]
    exact ⟨0, Nat.zero_le _, .bounded hconfig hbound⟩
  have hends : ¬ Ends fs d := not_or.mpr ⟨hconfig, hbound⟩
  -- otherwise the search is that from the path around it, which has one component less
  cases hparent : d.parent? with
  | none =>
    rw [discover, FilePath.ancestors_of_parent?_eq_none hparent, discoverIn_of_not_ends hends]
    exact ⟨0, Nat.zero_le _, .outermost hends hparent⟩
  | some q =>
    have hdepth := FilePath.depth_of_parent? hparent
    obtain ⟨turns, hturns, hq⟩ := searches_discover fs q
    rw [discover, FilePath.ancestors_of_parent? hparent, discoverIn_of_not_ends hends]
    exact ⟨turns + 1, hdepth ▸ Nat.succ_le_succ hturns, .outward hends hparent hq⟩
termination_by d.depth
decreasing_by omega

/-- **Where a search ends**: in a directory that decides it, or with the outermost path, and none of
those passed on the way decides it. -/
theorem Searches.reaches {turns : Nat} {r : Discovery} (h : Searches fs d turns r) :
    ∃ q, d.outer? turns = some q ∧
      (∀ i < turns, ∀ q', d.outer? i = some q' → ¬ Ends fs q') ∧
      (HoldsConfig fs q ∧ r = loadedFrom fs q ∨
        ¬ HoldsConfig fs q ∧ r = .ok none ∧ (HoldsBoundary fs q ∨ turns = d.depth)) := by
  -- the number of turns counts the directories passed
  induction h with
  | @found d h => exact ⟨d, rfl, fun _ hi => absurd hi (Nat.not_lt_zero _), .inl ⟨h, rfl⟩⟩
  | @bounded d h hbound =>
    exact ⟨d, rfl, fun _ hi => absurd hi (Nat.not_lt_zero _), .inr ⟨h, rfl, .inl hbound⟩⟩
  | @outermost d h hd =>
    exact ⟨d, rfl, fun _ hi => absurd hi (Nat.not_lt_zero _),
      .inr ⟨mt .inl h, rfl, .inr (FilePath.depth_eq_zero hd).symm⟩⟩
  | @outward d q turns r h hd _ ih =>
    obtain ⟨last, hlast, hpassed, hend⟩ := ih
    have houter : ∀ i, d.outer? (i + 1) = q.outer? i := fun i => by
      rw [FilePath.outer?, hd, Option.bind_some]
    refine ⟨last, (houter turns).trans hlast, fun i hi q' hq' => ?_, ?_⟩
    · -- the directory itself was passed, and then those that the rest of the search passed
      cases i with
      | zero =>
        cases hq'
        exact h
      | succ i => exact hpassed i (Nat.lt_of_succ_lt_succ hi) q' ((houter i).symm.trans hq')
    · rwa [FilePath.depth_of_parent? hd, Nat.add_right_cancel_iff]

/-- **The first directory that ends the search decides it**, with its configuration if it holds one
and with nothing otherwise. -/
theorem discover_of_first {start : FilePath} {j : Nat} (hd : start.outer? j = some d)
    (hends : Ends fs d) (hfirst : ∀ i < j, ∀ d', start.outer? i = some d' → ¬ Ends fs d') :
    (HoldsConfig fs d → discover fs start = loadedFrom fs d) ∧
      (¬ HoldsConfig fs d → discover fs start = .ok none) := by
  obtain ⟨turns, -, hsearch⟩ := searches_discover fs start
  obtain ⟨last, hlast, hpassed, hend⟩ := hsearch.reaches
  -- the search ends neither before the directory nor behind it
  have hturns : j = turns := by
    rcases Nat.lt_trichotomy j turns with hlt | heq | hlt
    · exact absurd hends (hpassed j hlt d hd)
    · exact heq
    · have hlastEnds := hfirst turns hlt last hlast
      have hdepth := FilePath.le_depth_of_outer? hd
      rcases hend with ⟨hconfig, -⟩ | ⟨-, -, hbound | heq⟩
      · exact absurd (.inl hconfig) hlastEnds
      · exact absurd (.inr hbound) hlastEnds
      · omega
  subst hturns
  cases hd.symm.trans hlast
  rcases hend with ⟨hconfig, hanswer⟩ | ⟨hconfig, hanswer, -⟩
  · exact ⟨fun _ => hanswer, fun hno => absurd hconfig hno⟩
  · exact ⟨fun hyes => absurd hyes hconfig, fun _ => hanswer⟩

/-- **A faulty configuration is an error.** If no directory on the way ends the search and the next
one holds a faulty configuration file, then the search ends with the error of this file. What lies
farther out is not looked at. -/
theorem discover_faulty {start : FilePath} {j : Nat} {e : ConfigError}
    (hd : start.outer? j = some d)
    (hfirst : ∀ i < j, ∀ d', start.outer? i = some d' → ¬ Ends fs d') (h : Faulty fs d e) :
    discover fs start = .error e := by
  have hconfig := h.holdsConfig
  have hload := (load_eq_error_iff hconfig).mpr h
  rw [(discover_of_first hd (.inl hconfig) hfirst).1 hconfig, loadedFrom, hload]
  rfl

/-- **The nearest directory decides.** Take any file system and any path to start from, which is
relative or absolute. The paths around it are what is left of it without its last components, and
there are as many as it has components, the root aside. The search ends after at most that many
turns. If some of the directories hold a configuration file or a boundary file, then the first one
of them decides: with a configuration file in it the answer is what comes of loading that file, an
error if it is faulty, and otherwise there is none. There is none either if no directory holds one
of the two. So no configuration is used that lies around a directory with a boundary file. -/
theorem discover_nearest (fs : FileSystem) (start : FilePath) :
    (∀ n, (start.outer? n).isSome = true ↔ n ≤ start.depth) ∧
    (∀ n d, start.outer? n = some d → d.components = start.components.rdrop n) ∧
    (∃ turns ≤ start.depth, Searches fs start turns (discover fs start)) ∧
    (∀ j d, start.outer? j = some d → Ends fs d →
      (∀ i < j, ∀ d', start.outer? i = some d' → ¬ Ends fs d') →
        (HoldsConfig fs d → discover fs start = loadedFrom fs d) ∧
        (¬ HoldsConfig fs d → discover fs start = .ok none)) ∧
    ((∀ j d, start.outer? j = some d → ¬ Ends fs d) → discover fs start = .ok none) ∧
    ∀ k d, start.outer? k = some d → HoldsBoundary fs d →
      discover fs start = .ok none ∨ ∃ i ≤ k, ∃ d', start.outer? i = some d' ∧
        HoldsConfig fs d' ∧ discover fs start = loadedFrom fs d' := by
  obtain ⟨turns, hturns, hsearch⟩ := searches_discover fs start
  obtain ⟨last, hlast, hpassed, hend⟩ := hsearch.reaches
  refine ⟨fun n => FilePath.isSome_outer?_iff, fun n d => FilePath.components_outer?,
    ⟨turns, hturns, hsearch⟩, fun j d hj hd hfirst => discover_of_first hj hd hfirst,
    fun hnone => ?_, fun k d hk hd => ?_⟩
  · -- no directory ends the search, so it comes to the outermost one
    rcases hend with ⟨hconfig, -⟩ | ⟨-, hanswer, -⟩
    · exact absurd (.inl hconfig) (hnone turns last hlast)
    · exact hanswer
  · -- the search does not go past the boundary
    have hle : turns ≤ k := Nat.le_of_not_lt fun hlt => hpassed k hlt d hk (.inr hd)
    rcases hend with ⟨hconfig, hanswer⟩ | ⟨-, hanswer, -⟩
    · exact .inr ⟨turns, hle, last, hlast, hconfig, hanswer⟩
    · exact .inl hanswer

/-- A faulty file is not passed over for a good one that lies farther out, and a boundary file hides
both of them. -/
example :
    let fs : FileSystem := { entries := [
      (["fielder.toml"], .file (.text "")),
      (["a"], .directory),
      (["a", "fielder.toml"], .file (.text "fielder")),
      (["a", "b"], .directory),
      (["a", "b", "Cargo.toml"], .directory)] }
    discover fs ⟨"a/c"⟩ = .error (.invalid ⟨"a/fielder.toml"⟩) ∧
      discover fs ⟨"a/b/c"⟩ = .ok none := by
  decide +kernel

end Config

end FieldGraft
