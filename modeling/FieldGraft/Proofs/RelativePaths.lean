import FieldGraft.Proofs.PathResolution
import Mathlib.Data.List.Basic

/-!
# Paths below a path

Joining works on the spelling of a path, and so does taking a path off the front of another one.
Here both are read on segments: names that are joined to a path come behind its segments
(`FilePath.segments_join`, `FilePath.segments_joinAll`), and what is left of the result without the
path are the names (`FilePath.stripPrefix?_joinAll`).

A path that leads on from a directory without links ends at the address with the names behind it
(`FileSystem.place?_join`).
-/

namespace FieldGraft

theorem IsFileName.ne_empty {name : String} (h : IsFileName name) : name ≠ "" := by
  rintro rfl
  exact absurd h.named (by decide)

namespace FilePath

variable {p q root : FilePath} {name : String} {names : List String}

/-! ### Segments -/

theorem segments_ne_nil (p : FilePath) : p.segments ≠ [] := by
  unfold segments
  simp [Text.pieces_ne_nil]

/-- Only the empty text has nothing but an empty segment. -/
theorem segments_ne_blank (hp : p.text ≠ "") : p.segments ≠ [""] := by
  intro heq
  unfold segments at heq
  cases htext : p.text.toList with
  | nil => exact hp (String.toList_eq_nil_iff.mp htext)
  | cons c cs =>
    obtain ⟨piece, pieces, hpieces⟩ :=
      List.exists_cons_of_ne_nil (Text.pieces_ne_nil (fun c => c == '/') cs)
    -- a first character makes a second segment or is part of the first one
    rw [htext, Text.pieces, hpieces] at heq
    split at heq <;> simp at heq

/-- A path is absolute if it starts with an empty segment and goes on. -/
theorem isAbsolute_iff (hp : p.text ≠ "") : p.isAbsolute = true ↔ p.segments.head? = some "" := by
  unfold isAbsolute parts
  split
  · next s rest heq => rw [heq]; exact iff_of_true rfl rfl
  · next rest heq => rw [heq]; exact iff_of_false (by simp) (by simp)
  · next hroot _ =>
    refine iff_of_false (by simp) fun hhead => ?_
    -- the segments after the first one are missing
    obtain ⟨rest, hrest⟩ := List.head?_eq_some_iff.mp hhead
    cases rest with
    | nil => exact segments_ne_blank hp hrest
    | cons s rest => exact hroot s rest hrest

/-- A name is one segment. -/
theorem segments_name (hname : '/' ∉ name.toList) : (FilePath.mk name).segments = [name] := by
  have hwhole : ∀ c ∈ name.toList, (c == '/') = false := by
    intro c hc
    rw [beq_eq_false_iff_ne]
    rintro rfl
    exact hname hc
  rw [segments, Text.pieces_of_forall hwhole, List.map_singleton, String.ofList_toList]

/-- A slash divides the segments of a text. -/
theorem segments_slash {r : FilePath} (h : p.text.toList = q.text.toList ++ '/' :: r.text.toList) :
    p.segments = q.segments ++ r.segments := by
  rw [segments, h, Text.pieces_append_sep (by rfl), List.map_append]
  rfl

/-- Names divided by slashes. -/
theorem segments_intercalate (hne : names ≠ []) (hnames : ∀ s ∈ names, '/' ∉ s.toList) :
    (FilePath.mk ("/".intercalate names)).segments = names := by
  induction names with
  | nil => exact absurd rfl hne
  | cons s names ih =>
    obtain ⟨hs, hnames⟩ := List.forall_mem_cons.mp hnames
    cases names with
    | nil => exact segments_name hs
    | cons s' names =>
      have hslash := segments_slash (p := ⟨"/".intercalate (s :: s' :: names)⟩) (q := ⟨s⟩)
        (r := ⟨"/".intercalate (s' :: names)⟩) (by simp [String.intercalate_cons_cons])
      rw [hslash, segments_name hs, ih (List.cons_ne_nil _ _) hnames]
      rfl

/-- A slash at the end stands before an empty segment. -/
theorem segments_of_slash {cs : List Char} (h : p.text.toList = cs ++ ['/']) :
    p.segments = (FilePath.mk (String.ofList cs)).segments ++ [""] :=
  segments_slash (r := ⟨""⟩) (by rw [h, String.toList_ofList]; rfl)

/-! ### Joining -/

theorem join_text_ne (hp : p.text ≠ "") (hq : q.isAbsolute = false) : (p.join q).text ≠ "" := by
  rw [join, if_neg (by simp [hq])]
  split <;> simp [hp]

/-- **A relative path below a path.** Its segments come behind those of the path, of which an empty
one at the end is left out. -/
theorem segments_join (p : FilePath) (hq : q.isAbsolute = false) :
    ∃ segs blanks, p.segments = segs ++ blanks ∧ Blank blanks ∧ (p.text ≠ "" → segs ≠ []) ∧
      (p.join q).segments = segs ++ q.segments ∧ (p.join q).isAbsolute = p.isAbsolute := by
  have hblank : Blank [""] := fun s hs => by rw [List.mem_singleton.mp hs]; rfl
  have hempty : (FilePath.mk "").segments = [""] := by decide
  -- the front of the path stays what it is
  have habsolute : ∀ {segs blanks}, p.text ≠ "" → segs ≠ [] → p.segments = segs ++ blanks →
      (p.join q).segments = segs ++ q.segments → (p.join q).isAbsolute = p.isAbsolute := by
    intro segs blanks hp hsegs hbefore hafter
    obtain ⟨s, rest, rfl⟩ := List.exists_cons_of_ne_nil hsegs
    rw [Bool.eq_iff_iff, isAbsolute_iff hp, isAbsolute_iff (join_text_ne hp hq), hbefore, hafter]
    rfl
  -- a slash is put between the two unless there is one, or nothing to divide
  by_cases hp : p.text = ""
  · obtain rfl : p = ⟨""⟩ := by
      cases p
      exact congrArg _ hp
    have hjoin : (FilePath.mk "").join q = q := by
      rw [join, if_neg (by simp [hq]), if_pos (.inl rfl)]
      simp
    rw [hjoin, hq]
    exact ⟨[], [""], hempty, hblank, fun hne => absurd rfl hne, rfl, by decide⟩
  · by_cases hslash : p.text.toList.getLast? = some '/'
    · -- the slash at the end stands before an empty segment, which gives way to `q`
      obtain ⟨xs, hxs⟩ := List.getLast?_eq_some_iff.mp hslash
      have hbefore := segments_of_slash hxs
      have hafter : (p.join q).segments =
          (FilePath.mk (String.ofList xs)).segments ++ q.segments := by
        rw [join, if_neg (by simp [hq]), if_pos (.inr hslash)]
        exact segments_slash (by simp [hxs])
      exact ⟨_, [""], hbefore, hblank, fun _ => segments_ne_nil _, hafter,
        habsolute hp (segments_ne_nil _) hbefore hafter⟩
    · have hafter : (p.join q).segments = p.segments ++ q.segments := by
        rw [join, if_neg (by simp [hq]), if_neg (by simp [hp, hslash])]
        exact segments_slash (by simp)
      exact ⟨_, [], (List.append_nil _).symm, fun _ hs => absurd hs List.not_mem_nil,
        fun _ => segments_ne_nil _, hafter,
        habsolute hp (segments_ne_nil _) (List.append_nil _).symm hafter⟩

/-- Names put behind a path one after the other. -/
def joinAll (p : FilePath) (names : List String) : FilePath :=
  names.foldl (fun p name => p.join ⟨name⟩) p

theorem isAbsolute_segment (hne : name ≠ "") (hwhole : '/' ∉ name.toList) :
    (FilePath.mk name).isAbsolute = false := by
  rw [Bool.eq_false_iff, ne_eq, isAbsolute_iff hne, segments_name hwhole]
  simpa using hne

theorem isAbsolute_name (hname : IsFileName name) : (FilePath.mk name).isAbsolute = false :=
  isAbsolute_segment hname.ne_empty hname.whole

theorem segments_joinAll (p : FilePath) (hne : names ≠ [])
    (hnames : ∀ s ∈ names, IsFileName s) :
    ∃ segs blanks, p.segments = segs ++ blanks ∧ Blank blanks ∧ (p.text ≠ "" → segs ≠ []) ∧
      (p.joinAll names).segments = segs ++ names := by
  induction names generalizing p with
  | nil => exact absurd rfl hne
  | cons name names ih =>
    obtain ⟨hname, hnames⟩ := List.forall_mem_cons.mp hnames
    obtain ⟨segs, blanks, hsegs, hblanks, hsome, hjoin, -⟩ :=
      segments_join p (isAbsolute_name hname)
    rw [segments_name hname.whole] at hjoin
    refine ⟨segs, blanks, hsegs, hblanks, hsome, ?_⟩
    cases names with
    | nil => exact hjoin
    | cons name' names =>
      obtain ⟨segs', blanks', hsegs', hblanks', -, hjoin'⟩ :=
        ih (p.join ⟨name⟩) (List.cons_ne_nil _ _) hnames
      -- the name at the end counts, so nothing is left out behind it
      have hnil : blanks' = [] := by
        rcases List.eq_nil_or_concat blanks' with hnil | ⟨init, s, hconcat⟩
        · exact hnil
        · rw [hjoin, hconcat, List.concat_eq_append, ← List.append_assoc] at hsegs'
          obtain ⟨-, hlast⟩ := List.append_inj' hsegs' rfl
          have hs := hblanks' s (by simp [hconcat])
          rw [← List.singleton_inj.mp hlast, hname.named] at hs
          cases hs
      rw [hnil, List.append_nil, hjoin] at hsegs'
      show ((p.join ⟨name⟩).joinAll (name' :: names)).segments = _
      rw [hjoin', ← hsegs', List.append_assoc]
      rfl

/-! ### Leaving the front out -/

theorem isBlankSegment_iff {s : String} :
    isBlankSegment s = true ↔ Component.ofSegment? s = none := by
  rw [isBlankSegment, Option.isNone_iff_eq_none]

/-- After as many segments as count in `core` there are blank ones of it left, and what follows. -/
theorem dropNamed_append (core rest : List String) :
    ∃ blanks, Blank blanks ∧
      dropNamed (core.filterMap Component.ofSegment?).length (core ++ rest) = blanks ++ rest := by
  induction core with
  | nil =>
    refine ⟨[], fun _ hs => absurd hs List.not_mem_nil, ?_⟩
    cases rest <;> rfl
  | cons s core ih =>
    cases hs : Component.ofSegment? s with
    | none =>
      rw [List.filterMap_cons_none hs, List.cons_append]
      cases hlength : (core.filterMap Component.ofSegment?).length with
      | zero =>
        -- nothing counts
        refine ⟨s :: core, List.forall_mem_cons.mpr ⟨hs, ?_⟩, rfl⟩
        exact List.filterMap_eq_nil_iff.mp (List.length_eq_zero_iff.mp hlength)
      | succ count =>
        rw [hlength] at ih
        rw [dropNamed, if_pos (isBlankSegment_iff.mpr hs)]
        exact ih
    | some c =>
      have hcounts : ¬ isBlankSegment s = true := by
        simp [isBlankSegment_iff, hs]
      rw [List.filterMap_cons_some hs, List.cons_append, List.length_cons, dropNamed,
        if_neg hcounts]
      exact ih

theorem trim_names {blanks : List String} (hblanks : Blank blanks)
    (hnames : ∀ s ∈ names, Component.ofSegment? s ≠ none) : trim (blanks ++ names) = names := by
  have hdrop : ∀ {names : List String}, (∀ s ∈ names, Component.ofSegment? s ≠ none) →
      names.dropWhile isBlankSegment = names := by
    intro names hnames
    cases names with
    | nil => rfl
    | cons s names =>
      exact List.dropWhile_cons_of_neg fun hs =>
        hnames s List.mem_cons_self (isBlankSegment_iff.mp hs)
  have hfront : (blanks ++ names).dropWhile isBlankSegment = names := by
    rw [List.dropWhile_append_of_pos fun s hs => isBlankSegment_iff.mpr (hblanks s hs)]
    exact hdrop hnames
  rw [trim, hfront, trimRight, hdrop fun s hs => hnames s (List.mem_reverse.mp hs),
    List.reverse_reverse]

/-- The front component is read off the first segments, and the others follow it. -/
theorem parts_eq (p : FilePath) : p.parts =
    match p.segments with
    | "" :: s :: rest => (some .root, s :: rest)
    | "." :: rest => (some .current, rest)
    | body => (none, body) := rfl

/-- **Two paths with the same segments at the front** have the same front component, and what of
these segments is not part of it. If there is none, then something counts. -/
theorem parts_append {segs tail tail' : List String} (hsegs : segs ≠ [])
    (hp : p.segments = segs ++ tail) (hq : q.segments = segs ++ tail')
    (htail : segs ++ tail ≠ [""]) (htail' : segs ++ tail' ≠ [""]) :
    ∃ front core, p.parts = (front, core ++ tail) ∧ q.parts = (front, core ++ tail') ∧
      (front = none → core.filterMap Component.ofSegment? ≠ []) := by
  rw [parts_eq, parts_eq, hp, hq]
  obtain ⟨s, rest, rfl⟩ := List.exists_cons_of_ne_nil hsegs
  by_cases hroot : s = ""
  · subst hroot
    refine ⟨some .root, rest, ?_, ?_, fun hno => nomatch hno⟩
    · cases hall : rest ++ tail with
      | nil =>
        rw [List.cons_append, hall] at htail
        exact absurd rfl htail
      | cons s' rest' =>
        rw [List.cons_append, hall]
        rfl
    · cases hall : rest ++ tail' with
      | nil =>
        rw [List.cons_append, hall] at htail'
        exact absurd rfl htail'
      | cons s' rest' =>
        rw [List.cons_append, hall]
        rfl
  · by_cases hcurrent : s = "."
    · subst hcurrent
      exact ⟨some .current, rest, rfl, rfl, fun hno => nomatch hno⟩
    · -- the first segment is no front component, so it counts
      refine ⟨none, s :: rest, ?_, ?_, fun _ => ?_⟩
      · rw [List.cons_append]
        split
        · next heq => exact absurd (List.cons.inj heq).1 hroot
        · next heq => exact absurd (List.cons.inj heq).1 hcurrent
        · rfl
      · rw [List.cons_append]
        split
        · next heq => exact absurd (List.cons.inj heq).1 hroot
        · next heq => exact absurd (List.cons.inj heq).1 hcurrent
        · rfl
      · intro hnone
        have hs := List.filterMap_eq_nil_iff.mp hnone s List.mem_cons_self
        unfold Component.ofSegment? at hs
        rw [if_neg (by simp [hroot, hcurrent])] at hs
        split at hs <;> cases hs

theorem filterMap_names (hnames : ∀ s ∈ names, IsFileName s) :
    names.filterMap Component.ofSegment? = names.map .name := by
  rw [← List.filterMap_eq_map]
  exact List.filterMap_congr fun s hs => (hnames s hs).named

/-- **What follows a path in the path of something below it are the names.** -/
theorem stripPrefix?_joinAll (hroot : root.text ≠ "") (hne : names ≠ [])
    (hnames : ∀ s ∈ names, IsFileName s) :
    (root.joinAll names).stripPrefix? root = some ⟨"/".intercalate names⟩ := by
  obtain ⟨segs, blanks, hsegs, hblanks, hsome, hjoin⟩ := root.segments_joinAll hne hnames
  have hnamed : ∀ s ∈ names, Component.ofSegment? s ≠ none := fun s hs => by
    rw [(hnames s hs).named]
    simp
  have hmore : segs ++ names ≠ [""] := by
    intro heq
    obtain ⟨name, hname⟩ := List.exists_mem_of_ne_nil names hne
    have hempty : name = "" := List.mem_singleton.mp (heq ▸ List.mem_append_right segs hname)
    exact (hnames name hname).ne_empty hempty
  obtain ⟨front, core, hparts, hparts', hcounts⟩ := parts_append (hsome hroot) hsegs hjoin
    (hsegs ▸ segments_ne_blank hroot) hmore
  have hlead : root.components = front.toList ++ core.filterMap Component.ofSegment? := by
    rw [components, hparts, List.filterMap_append,
      List.filterMap_eq_nil_iff.mpr hblanks, List.append_nil]
  have hwhole : (root.joinAll names).components = root.components ++ names.map .name := by
    rw [components, hparts', hlead, List.filterMap_append, filterMap_names hnames,
      List.append_assoc]
  have hleads : ¬ root.components.isEmpty = true := by
    rw [hlead, List.isEmpty_iff, List.append_eq_nil_iff]
    rintro ⟨hfront, hcore⟩
    cases front with
    | none => exact hcounts rfl hcore
    | some c => cases hfront
  -- as many segments are dropped as count, so blank ones of the path may be left before the names
  obtain ⟨left, hleft, hdrop⟩ := dropNamed_append core names
  rw [stripPrefix?, hparts']
  dsimp only
  rw [if_neg hleads, if_pos (by rw [hwhole]; simp), hlead, List.length_append,
    Nat.add_sub_cancel_left, hdrop, trim_names hleft hnamed]
  rfl

/-! ### Names and their spelling -/

theorem intercalate_inj {names' : List String} (hne : names ≠ []) (hne' : names' ≠ [])
    (hnames : ∀ s ∈ names, IsFileName s) (hnames' : ∀ s ∈ names', IsFileName s) :
    FilePath.mk ("/".intercalate names) = ⟨"/".intercalate names'⟩ ↔ names = names' := by
  refine ⟨fun heq => ?_, fun heq => by rw [heq]⟩
  rw [← segments_intercalate hne fun s hs => (hnames s hs).whole, heq,
    segments_intercalate hne' fun s hs => (hnames' s hs).whole]

theorem isAbsolute_intercalate (hne : names ≠ []) (hnames : ∀ s ∈ names, IsFileName s) :
    (FilePath.mk ("/".intercalate names)).isAbsolute = false := by
  have hsegments := segments_intercalate hne fun s hs => (hnames s hs).whole
  obtain ⟨name, rest, rfl⟩ := List.exists_cons_of_ne_nil hne
  have hname := (hnames name List.mem_cons_self).ne_empty
  have hsome : "/".intercalate (name :: rest) ≠ "" := by
    intro hempty
    rw [hempty] at hsegments
    exact hname (List.cons.inj hsegments).1.symm
  have habsolute := isAbsolute_iff (p := ⟨"/".intercalate (name :: rest)⟩) hsome
  rw [Bool.eq_false_iff, ne_eq, habsolute, hsegments]
  simpa using hname

end FilePath

/-! ### Places below a place -/

namespace FileSystem

variable {fs : FileSystem} {links : Address → Option FilePath} {n : Nat} {here there : Address}
  {names : List String} {out : FilePath}

theorem placeFrom_blanks {follow : Address → FilePath → List String → Option Address}
    {blanks : List String} (hblanks : FilePath.Blank blanks) (here : Address) :
    placeFrom links follow here blanks = some here := by
  induction blanks with
  | nil => rfl
  | cons s blanks ih =>
    obtain ⟨hs, hblanks⟩ := List.forall_mem_cons.mp hblanks
    rw [placeFrom, hs]
    exact ih hblanks

/-- One budget, given what links do with it. -/
theorem placeFrom_append {follow : Address → FilePath → List String → Option Address}
    {segs blanks rest : List String} {a : Address} (hblanks : FilePath.Blank blanks)
    (hfollow : ∀ {here target segs}, follow here target (segs ++ blanks) = some there →
      follow here target (segs ++ rest) = some a)
    (hon : placeFrom links follow there rest = some a)
    (h : placeFrom links follow here (segs ++ blanks) = some there) :
    placeFrom links follow here (segs ++ rest) = some a := by
  induction segs generalizing here with
  | nil =>
    rw [List.nil_append, placeFrom_blanks hblanks] at h
    cases h
    exact hon
  | cons s segs ih =>
    rw [List.cons_append, placeFrom] at h ⊢
    -- a blank segment, one upwards, and a name, which may be that of a link
    split at h
    · exact ih h
    · exact ih h
    · split at h
      · exact ih h
      · exact hfollow h

/-- Segments behind a path go on from its place. -/
theorem placeUpTo_append {segs blanks rest : List String} {a : Address}
    (hblanks : FilePath.Blank blanks) (hon : ∀ n, placeUpTo links n there rest = some a)
    (h : placeUpTo links n here (segs ++ blanks) = some there) :
    placeUpTo links n here (segs ++ rest) = some a := by
  induction n generalizing here segs with
  | zero => exact placeFrom_append hblanks (fun hno => nomatch hno) (hon 0) h
  | succ n ih =>
    refine placeFrom_append hblanks (fun hgo => ?_) (hon (n + 1)) h
    -- what the link spells comes before the segments that are left
    rw [← List.append_assoc] at hgo ⊢
    exact ih hgo

/-- Names lead straight down where there are no links. -/
theorem placeUpTo_names (hlinks : ∀ a, here <+: a → links a = none)
    (hnames : ∀ s ∈ names, IsFileName s) (n : Nat) :
    placeUpTo links n here names = some (here ++ names) := by
  induction names generalizing here with
  | nil =>
    rw [List.append_nil]
    cases n <;> rfl
  | cons s names ih =>
    obtain ⟨hs, hnames⟩ := List.forall_mem_cons.mp hnames
    have hlink := hlinks _ (List.prefix_append here [s])
    rw [placeUpTo_of_no_link hs.toIsEntryName hlink,
      ih (fun a ha => hlinks a ((List.prefix_append _ _).trans ha)) hnames, List.append_assoc]
    rfl

/-- **The place of names below a path.** -/
theorem place?_join {o : Address} (hplace : fs.place? out = some o)
    (hlinks : ∀ a, o <+: a → fs.linkAt? a = none) (hne : names ≠ [])
    (hnames : ∀ s ∈ names, IsFileName s) :
    fs.place? (out.join ⟨"/".intercalate names⟩) = some (o ++ names) := by
  obtain ⟨segs, blanks, hsegs, hblanks, -, hjoin, habsolute⟩ :=
    FilePath.segments_join out (FilePath.isAbsolute_intercalate hne hnames)
  rw [place?, hsegs] at hplace
  rw [place?, start, habsolute, hjoin,
    FilePath.segments_intercalate hne fun s hs => (hnames s hs).whole]
  exact placeUpTo_append hblanks (placeUpTo_names hlinks hnames) hplace

end FileSystem

end FieldGraft
