import FieldGraft.Proofs.TargetContents

/-!
# Where targets are

The target of a source below a directory is spelled with the names in the path that is shown for the
source: what it starts from and the steps up are left out. So different sources may well have one
target (`CommandLine.targetIn_same_iff`).

* `FilePath.resolved` — the address that a path spells from a directory if there are no links.
* `FilePath.components_joinAll`, `FilePath.components_stripPrefix?` — what joining names and taking
  a path off the front do to the components.
-/

namespace FieldGraft

namespace Component

/-- The text of a name. -/
def name? : Component → Option String
  | name s => some s
  | _ => none

/-- One step from an address. -/
def step (here : Address) : Component → Address
  | root => []
  | current => here
  | parent => here.dropLast
  | name s => here ++ [s]

end Component

namespace FilePath

variable {p q base : FilePath} {s : String} {body : List String} {front : Option Component}
  {here : Address}

/-- The names in a path. -/
def names (p : FilePath) : List String :=
  p.components.filterMap Component.name?

/-- **The address that a path spells** from a directory: every step up undoes the name before it. -/
def resolved (here : Address) (p : FilePath) : Address :=
  p.components.foldl Component.step here

/-! ### Components -/

theorem filterMap_blank (h : Blank body) : body.filterMap Component.ofSegment? = [] :=
  List.filterMap_eq_nil_iff.mpr h

theorem filterMap_trimRight (body : List String) :
    (trimRight body).filterMap Component.ofSegment? = body.filterMap Component.ofSegment? := by
  obtain ⟨blanks, hblanks, htrim⟩ := exists_trimRight body
  conv_rhs => rw [htrim, List.filterMap_append, filterMap_blank hblanks, List.append_nil]

theorem filterMap_trim (body : List String) :
    (trim body).filterMap Component.ofSegment? = body.filterMap Component.ofSegment? := by
  have hblanks : Blank (body.takeWhile isBlankSegment) := fun s hs =>
    isBlankSegment_iff.mp (List.mem_takeWhile_imp hs)
  rw [trim, filterMap_trimRight]
  conv_rhs => rw [← List.takeWhile_append_dropWhile (p := isBlankSegment) (l := body),
    List.filterMap_append, filterMap_blank hblanks, List.nil_append]

theorem filterMap_dropNamed (count : Nat) (body : List String) :
    (dropNamed count body).filterMap Component.ofSegment? =
      (body.filterMap Component.ofSegment?).drop count := by
  induction body generalizing count with
  | nil => cases count <;> rfl
  | cons s body ih =>
    cases count with
    | zero => rfl
    | succ count =>
      rw [dropNamed]
      -- a blank segment is no component and is not counted
      cases hs : Component.ofSegment? s with
      | none => rw [if_pos (isBlankSegment_iff.mpr hs), ih, List.filterMap_cons_none hs]
      | some c =>
        rw [if_neg (by simp [isBlankSegment_iff, hs]), ih, List.filterMap_cons_some hs,
          List.drop_succ_cons]

theorem trim_subset (body : List String) : trim body ⊆ body := fun _ hs =>
  (List.dropWhile_suffix _).subset (trimRight_subset _ hs)

theorem dropNamed_subset (count : Nat) (body : List String) : dropNamed count body ⊆ body := by
  induction body generalizing count with
  | nil => cases count <;> exact List.Subset.refl _
  | cons s body ih =>
    cases count with
    | zero => exact List.Subset.refl _
    | succ count =>
      rw [dropNamed]
      split
      · exact List.subset_cons_of_subset s (ih _)
      · exact List.subset_cons_of_subset s (ih _)

theorem head?_trim (hs : (trim body).head? = some s) : Component.ofSegment? s ≠ none := by
  unfold trim at hs
  obtain ⟨blanks, -, htrim⟩ := exists_trimRight (body.dropWhile isBlankSegment)
  obtain ⟨rest, hrest⟩ := List.head?_eq_some_iff.mp hs
  rw [hrest] at htrim
  intro hblank
  have hnot := List.head?_dropWhile_not isBlankSegment body
  rw [htrim, List.cons_append, List.head?_cons] at hnot
  simp [isBlankSegment_iff.mpr hblank] at hnot

/-- A path whose first segment counts has no front component. -/
theorem parts_of_head (hp : p.segments = s :: body) (hs : Component.ofSegment? s ≠ none) :
    p.parts = (none, s :: body) := by
  rw [parts_eq, hp]
  split
  · next heq => exact absurd (congrArg Component.ofSegment? (List.cons.inj heq).1) hs
  · next heq => exact absurd (congrArg Component.ofSegment? (List.cons.inj heq).1) hs
  · rfl

/-- The front component is the root, a dot or none; without one the first segment counts. -/
theorem parts_cases (p : FilePath) :
    p.parts.1 = none ∧ (∀ s, (trimRight p.parts.2).head? = some s → Component.ofSegment? s ≠ none) ∨
      p.parts.1 = some .root ∨ p.parts.1 = some .current := by
  rw [parts_eq]
  split
  · exact .inr (.inl rfl)
  · exact .inr (.inr rfl)
  · next hroot hcurrent =>
    -- a front that is neither a root nor a dot is no front, so the first segment is a component
    refine .inl ⟨rfl, fun s hs hblank => ?_⟩
    obtain ⟨blanks, -, htrim⟩ := exists_trimRight p.segments
    obtain ⟨rest, hrest⟩ := List.head?_eq_some_iff.mp hs
    rw [hrest, List.cons_append] at htrim
    -- only an empty segment and a dot are no components
    have hs : s = "" ∨ s = "." := by
      by_contra hno
      unfold Component.ofSegment? at hblank
      rw [if_neg hno] at hblank
      split at hblank <;> cases hblank
    rcases hs with rfl | rfl
    · cases hmore : rest ++ blanks with
      | nil =>
        -- nothing is left of a single empty segment
        rw [htrim, hmore] at hrest
        cases hrest
      | cons s' more => exact hroot s' more (by rw [htrim, hmore])
    · exact hcurrent _ htrim

/-- The components of a path put together from its parts. -/
theorem components_ofParts (hbody : FileSystem.Segmented body)
    (hfront : front = none ∧ (∀ s, body.head? = some s → Component.ofSegment? s ≠ none) ∨
      front = some .root ∨ front = some .current) :
    (ofParts front body).components = front.toList ++ body.filterMap Component.ofSegment? := by
  have hsegments := segments_ofParts front hbody
  unfold components
  -- the segments are those of the body behind the front
  rcases hfront with ⟨rfl, hhead⟩ | rfl | rfl
  · cases body with
    | nil => rfl
    | cons s body =>
      rw [parts_of_head (by simpa [frontSegments] using hsegments) (hhead s rfl)]
  · rw [parts_eq, hsegments]
    cases body with
    | nil => rfl
    | cons s body => rfl
  · rw [parts_eq, hsegments, if_neg (by simp)]
    rfl

/-- **What follows a path are the remaining components.** -/
theorem components_stripPrefix? (h : p.stripPrefix? base = some q) :
    p.components = base.components ++ q.components := by
  have hsegmented := segmented_parts p
  unfold stripPrefix? at h
  dsimp only at h
  split at h
  · next hlead =>
    -- the empty path is a prefix of every path
    cases h
    have hbody : FileSystem.Segmented (trimRight p.parts.2) := fun s hs =>
      hsegmented s (trimRight_subset _ hs)
    rw [components_ofParts hbody p.parts_cases, filterMap_trimRight, List.isEmpty_iff.mp hlead]
    rfl
  · next hlead =>
    split at h
    · -- the base is a prefix, and its components are dropped
      next hprefix =>
      cases h
      obtain ⟨rest, hrest⟩ := List.isPrefixOf_iff_prefix.mp hprefix
      have hfront : p.parts.1.toList.length ≤ base.components.length := by
        -- the front is one component at most, and the base has one at least
        have hone : p.parts.1.toList.length ≤ 1 := by cases p.parts.1 <;> simp
        have hsome : base.components.length ≠ 0 := fun hno =>
          hlead (List.isEmpty_iff.mpr (List.length_eq_zero_iff.mp hno))
        omega
      have hbody : FileSystem.Segmented
          (trim (dropNamed (base.components.length - p.parts.1.toList.length) p.parts.2)) :=
        fun s hs => hsegmented s (dropNamed_subset _ _ (trim_subset _ hs))
      have hwhole : p.components =
          p.parts.1.toList ++ p.parts.2.filterMap Component.ofSegment? := rfl
      have hrest' : rest = p.components.drop base.components.length := by
        rw [← hrest, List.drop_left]
      rw [components_ofParts hbody (.inl ⟨rfl, fun s => head?_trim⟩), filterMap_trim,
        filterMap_dropNamed, ← hrest, hrest', hwhole, List.drop_append,
        List.drop_eq_nil_of_le hfront]
      rfl
    · cases h

/-- A name put behind a path is its last component. -/
theorem components_join_name (hs : Component.ofSegment? s = some (.name s))
    (hwhole : '/' ∉ s.toList) : (p.join ⟨s⟩).components = p.components ++ [.name s] := by
  have hne : s ≠ "" := by
    rintro rfl
    -- a blank is no name
    cases hs
  have hsegments := segments_name hwhole
  obtain ⟨segs, blanks, hp, hblanks, hsome, hjoin, -⟩ :=
    segments_join p (isAbsolute_segment hne hwhole)
  rw [hsegments] at hjoin
  by_cases hempty : p.text = ""
  · -- behind the empty path the name stands alone
    obtain rfl : p = ⟨""⟩ := by
      cases p
      exact congrArg _ hempty
    have hself : (FilePath.mk "").join ⟨s⟩ = ⟨s⟩ := by
      rw [join, isAbsolute_segment hne hwhole]
      simp
    rw [hself, components, parts_of_head hsegments (by simp [hs])]
    simp [hs, show (FilePath.mk "").components = [] from rfl]
  · -- behind any other path the name is a segment of its own
    obtain ⟨front, core, hparts, hparts', -⟩ := parts_append (hsome hempty) hp hjoin
      (hp ▸ segments_ne_blank hempty) (by
        intro heq
        have hlast : s = "" := List.mem_singleton.mp (heq ▸ List.mem_concat_self)
        exact hne hlast)
    rw [components, components, hparts, hparts', List.filterMap_append, List.filterMap_append,
      filterMap_blank hblanks]
    simp [hs]

/-- Components after the front are names and steps up. -/
theorem mem_components {c : Component} (hc : c ∈ p.parts.2.filterMap Component.ofSegment?) :
    c = .parent ∨ ∃ s, c = .name s ∧ Component.ofSegment? s = some (.name s) ∧ '/' ∉ s.toList := by
  obtain ⟨s, hs, hsegment⟩ := List.mem_filterMap.mp hc
  rcases Component.ofSegment?_cases s with hnone | hparent | hname
  · rw [hnone] at hsegment
    cases hsegment
  · exact .inl (Option.some.inj (hsegment.symm.trans hparent))
  · refine .inr ⟨s, Option.some.inj (hsegment.symm.trans hname), hname, ?_⟩
    exact segmented_parts p s hs

/-- The front component is no name. -/
theorem names_eq (p : FilePath) :
    p.names = (p.parts.2.filterMap Component.ofSegment?).filterMap Component.name? := by
  unfold names components
  rw [List.filterMap_append]
  rcases p.parts_cases with ⟨h, -⟩ | h | h <;> rw [h] <;> rfl

theorem of_mem_names (hs : s ∈ p.names) :
    Component.ofSegment? s = some (.name s) ∧ '/' ∉ s.toList := by
  rw [names_eq] at hs
  obtain ⟨c, hc, hname⟩ := List.mem_filterMap.mp hs
  rcases mem_components hc with rfl | ⟨s', rfl, hs'⟩
  · cases hname
  · cases hname
    exact hs'

/-- **Names put behind a path** are its last components. -/
theorem components_joinAll {ns : List String}
    (hns : ∀ s ∈ ns, Component.ofSegment? s = some (.name s) ∧ '/' ∉ s.toList) (p : FilePath) :
    (p.joinAll ns).components = p.components ++ ns.map .name := by
  induction ns generalizing p with
  | nil => exact (List.append_nil _).symm
  | cons s ns ih =>
    obtain ⟨⟨hs, hwhole⟩, hns⟩ := List.forall_mem_cons.mp hns
    show ((p.join ⟨s⟩).joinAll ns).components = _
    rw [ih hns, components_join_name hs hwhole, List.append_assoc]
    rfl

/-! ### Addresses -/

theorem resolved_of_components (h : p.components = base.components ++ q.components)
    (here : Address) : p.resolved here = q.resolved (base.resolved here) := by
  rw [resolved, h, List.foldl_append]
  rfl

theorem map_name_filterMap {cs : List Component} (h : ∀ c ∈ cs, ∃ s, c = .name s) :
    (cs.filterMap Component.name?).map .name = cs := by
  induction cs with
  | nil => rfl
  | cons c cs ih =>
    obtain ⟨⟨s, rfl⟩, hcs⟩ := List.forall_mem_cons.mp h
    rw [List.filterMap_cons_some (show Component.name? (.name s) = some s from rfl), List.map_cons,
      ih hcs]

theorem foldl_names (ns : List String) (here : Address) :
    (ns.map Component.name).foldl Component.step here = here ++ ns := by
  induction ns generalizing here with
  | nil => exact (List.append_nil _).symm
  | cons s ns ih =>
    rw [List.map_cons, List.foldl_cons, ih]
    simp [Component.step]

/-- **A path without steps up** spells the names in it. -/
theorem resolved_eq (h : .parent ∉ p.components) (here : Address) :
    p.resolved here = (if p.isAbsolute then [] else here) ++ p.names := by
  have htail : p.parts.2.filterMap Component.ofSegment? = p.names.map .name := by
    rw [names_eq, map_name_filterMap]
    intro c hc
    rcases mem_components hc with rfl | ⟨s, rfl, -⟩
    · exact absurd (List.mem_append_right _ hc) h
    · exact ⟨s, rfl⟩
  rw [resolved, components, htail, List.foldl_append, foldl_names, isAbsolute]
  rcases p.parts_cases with ⟨hfront, -⟩ | hfront | hfront <;> rw [hfront] <;> rfl

end FilePath

namespace Project

variable {p : Project} {fs : FileSystem} {given roots sources found : List FilePath}
  {x root : FilePath} {c : Component}

/-! ### Collected sources -/

theorem dropRepeated_subset (found : List FilePath) : dropRepeated found ⊆ found := by
  induction found with
  | nil => exact List.Subset.refl _
  | cons y found ih =>
    unfold dropRepeated
    split
    · exact List.cons_subset_cons y (List.nil_subset _)
    · next q more hrest =>
      rw [hrest] at ih
      split
      · exact List.cons_subset_cons y (List.Subset.trans (List.subset_cons_self q more) ih)
      · exact List.cons_subset_cons y ih

theorem exists_takes_of_belowAll (h : p.belowAll fs roots = .ok found) (hx : x ∈ found) :
    ∃ root ∈ roots, p.takes root x = true := by
  induction roots generalizing found with
  | nil =>
    cases h
    exact absurd hx List.not_mem_nil
  | cons root roots ih =>
    rw [belowAll] at h
    split at h
    · split at h
      · -- the sources below the first root come before the others
        next rest hrest =>
        cases h
        rcases List.mem_append.mp hx with hx | hx
        · exact ⟨root, List.mem_cons_self, (List.mem_filter.mp hx).2⟩
        · obtain ⟨root', hroot', htakes⟩ := ih hrest hx
          exact ⟨root', List.mem_cons_of_mem _ hroot', htakes⟩
      · cases h
    · cases h

/-- **Every source is taken** below one of the paths. -/
theorem exists_takes_of_collect (h : p.collect fs given = .ok sources) (hx : x ∈ sources) :
    ∃ root ∈ p.roots given, p.takes root x = true := by
  unfold collect at h
  split at h
  · next found hfound =>
    cases h
    exact exists_takes_of_belowAll hfound (List.mem_mergeSort.mp (dropRepeated_subset _ hx))
  · cases h

/-- Below the path there are no steps up, since they start with a dot. -/
theorem plain_of_takes (htakes : p.takes root x = true) (hroot : .parent ∉ root.components) :
    .parent ∉ x.components := by
  have hplain : .parent ∉ ((x.stripPrefix? root).getD x).components := by
    intro hparent
    unfold takes at htakes
    -- the component `..` starts with a dot, so the path would be hidden
    have hhidden : isHidden ((x.stripPrefix? root).getD x) = true :=
      List.any_eq_true.mpr ⟨_, hparent, by decide⟩
    simp [hhidden] at htakes
  cases hstrip : x.stripPrefix? root with
  | none =>
    rw [hstrip] at hplain
    exact hplain
  -- the components of the path are those of the root and those below it
  | some q =>
    rw [hstrip] at hplain
    rw [FilePath.components_stripPrefix? hstrip, List.mem_append]
    exact fun h => h.elim hroot hplain

theorem mem_components_of_shownPath (hc : c ∈ (p.shownPath x).components) : c ∈ x.components := by
  unfold shownPath at hc
  cases hstrip : x.stripPrefix? p.root with
  | none =>
    rw [hstrip] at hc
    exact hc
  | some q =>
    rw [hstrip] at hc
    rw [FilePath.components_stripPrefix? hstrip]
    exact List.mem_append_right _ hc

end Project

namespace CommandLine

variable {p : Project} {fs : FileSystem} {given sources : List FilePath}
  {directory x y : FilePath} {here : Address}

/-! ### Targets -/

theorem targetBelow_eq (directory shown : FilePath) :
    targetBelow directory shown = directory.joinAll shown.names := by
  have hnames : (shown.components.filterMap fun c =>
      match c with
      | .name s => some (FilePath.mk s)
      | _ => none) = shown.names.map FilePath.mk := by
    rw [FilePath.names, List.map_filterMap]
    exact List.filterMap_congr fun c _ => by cases c <;> rfl
  calc targetBelow directory shown
      = (shown.components.filterMap fun c =>
          match c with
          | .name s => some (FilePath.mk s)
          | _ => none).foldl FilePath.join directory := rfl
    _ = directory.joinAll shown.names := by rw [hnames, List.foldl_map]; rfl

/-- Where the path that is shown for a source starts. -/
def shownStart (p : Project) (here : Address) (source : FilePath) : Address :=
  if (p.shownPath source).isAbsolute then []
  else if (source.stripPrefix? p.root).isSome then p.root.resolved here
  else here

/-- A source without steps up in its shown path lies where that starts, under the names in it. -/
theorem resolved_eq_shown (h : .parent ∉ (p.shownPath x).components) (here : Address) :
    x.resolved here = shownStart p here x ++ (p.shownPath x).names := by
  have hresolved : x.resolved here = (p.shownPath x).resolved
      (if (x.stripPrefix? p.root).isSome then p.root.resolved here else here) := by
    unfold Project.shownPath
    cases hstrip : x.stripPrefix? p.root with
    | none => rfl
    | some q => exact FilePath.resolved_of_components (FilePath.components_stripPrefix? hstrip) here
  rw [hresolved, FilePath.resolved_eq h, shownStart]

theorem components_targetIn (p : Project) (directory x : FilePath) :
    (targetIn p directory x).components =
      directory.components ++ (p.shownPath x).names.map .name := by
  rw [targetIn, targetBelow_eq, FilePath.components_joinAll fun s => FilePath.of_mem_names]

/-- **Two sources have one target** exactly if the names in their shown paths agree. -/
theorem same_targetIn_iff : (targetIn p directory x).same (targetIn p directory y) = true ↔
    (p.shownPath x).names = (p.shownPath y).names := by
  rw [FilePath.same, beq_iff_eq, components_targetIn, components_targetIn, List.append_right_inj]
  exact (List.map_injective_iff.mpr fun _ _ heq => Component.name.inj heq).eq_iff

/-- **Targets below a directory.** They are below it, and those of two sources are the same exactly
if the names in the shown paths agree. If no path to look below has a step up, then for two sources
whose shown paths start at one place this means that they are the same file. But two whose shown
paths start at different places are different files if they have the same target. -/
theorem collect_targets (hcollect : p.collect fs given = .ok sources) (directory : FilePath)
    (here : Address) :
    (∀ x ∈ sources, directory.components <+: (targetIn p directory x).components) ∧
    (∀ x ∈ sources, ∀ y ∈ sources, (targetIn p directory x).same (targetIn p directory y) = true ↔
      (p.shownPath x).names = (p.shownPath y).names) ∧
    ((∀ root ∈ p.roots given, .parent ∉ root.components) → ∀ x ∈ sources, ∀ y ∈ sources,
      (shownStart p here x = shownStart p here y →
        ((targetIn p directory x).same (targetIn p directory y) = true ↔
          x.resolved here = y.resolved here)) ∧
      (shownStart p here x ≠ shownStart p here y →
        (targetIn p directory x).same (targetIn p directory y) = true →
          x.resolved here ≠ y.resolved here)) := by
  refine ⟨fun x _ => ?_, fun x _ y _ => same_targetIn_iff, fun hroots x hx y hy => ?_⟩
  · rw [components_targetIn]
    exact List.prefix_append _ _
  · have hplain : ∀ x ∈ sources, .parent ∉ (p.shownPath x).components := by
      intro x hx hparent
      obtain ⟨root, hroot, htakes⟩ := Project.exists_takes_of_collect hcollect hx
      exact Project.plain_of_takes htakes (hroots root hroot)
        (Project.mem_components_of_shownPath hparent)
    rw [same_targetIn_iff, resolved_eq_shown (hplain x hx), resolved_eq_shown (hplain y hy)]
    -- a file is where its shown path starts, and the names below
    refine ⟨fun hstart => ?_, fun hstart hnames heq => ?_⟩
    · rw [hstart, List.append_right_inj]
    · rw [hnames, List.append_left_inj] at heq
      exact hstart heq

/-- A directory in the working directory and one of the same name beside that. -/
def siblings : FileSystem where
  entries := [
    (["p"], .directory),
    (["p", "a"], .directory),
    (["p", "a", "x.rs"], .file (.text "struct A;")),
    (["a"], .directory),
    (["a", "x.rs"], .file (.text "struct B;"))]
  workingDirectory := ["p"]

/-- A command that writes the sources in both. -/
def mirrorSiblings : Arguments where
  verb := .inject
  paths := [⟨"../a"⟩, ⟨"a"⟩]
  mode := .below ⟨"out"⟩

/-- Two files have one target. The command succeeds, and what was written first is lost. -/
theorem collect_targets_siblings :
    let p : Project := { root := ⟨"/p"⟩ }
    let x : FilePath := ⟨"../a/x.rs"⟩
    let y : FilePath := ⟨"a/x.rs"⟩
    p.collect siblings mirrorSiblings.paths = .ok [x, y] ∧
      x.resolved ["p"] ≠ y.resolved ["p"] ∧
      (targetIn p ⟨"out"⟩ x).same (targetIn p ⟨"out"⟩ y) = true ∧
      (run mirrorSiblings plainDesk siblings).outcome = .ok () ∧
      siblings.changes (run mirrorSiblings plainDesk siblings).files =
        [(["p", "out", "a", "x.rs"], .text "struct A;")] := by
  intro p x y
  have hfind : (Project.find siblings none).1 = .ok p := by decide +kernel
  have hcollect : p.collect siblings mirrorSiblings.paths = .ok [x, y] := by
    -- the walk finds both files, and their order is that of their paths
    have hfound : p.belowAll siblings (p.roots mirrorSiblings.paths) = .ok [x, y] := by
      decide +kernel
    have hsorted : [x, y].mergeSort FilePath.notAfter = [x, y] :=
      List.mergeSort_of_pairwise (List.pairwise_pair.mpr (by decide +kernel))
    rw [Project.collect, hfound]
    dsimp only
    rw [hsorted]
    decide +kernel
  -- neither file is annotated, so both are copied
  have houtcomes : (p.run siblings .prepend [x, y]).1 =
      .ok [⟨x, x, [], [], none⟩, ⟨y, y, [], [], none⟩] := by
    decide +kernel
  have hrun := run_eq_of_gather mirrorSiblings plainDesk siblings
  rw [gather_eq_ok_iff.mpr ⟨hfind, _, hcollect, houtcomes⟩] at hrun
  obtain ⟨hfiles, houtcome⟩ := hrun
  have hsame := (collect_targets hcollect ⟨"out"⟩ ["p"]).2.1 x (by decide) y (by decide)
  refine ⟨hcollect, by decide +kernel, hsame.mpr (by decide +kernel), ?_, ?_⟩
  · rw [houtcome]
    decide +kernel
  · rw [hfiles]
    decide +kernel

end CommandLine

end FieldGraft
