import FieldGraft.Proofs.PathOrder
import FieldGraft.Proofs.SourceScans
import FieldGraft.Proofs.TargetPaths

/-!
# What a command collects

In a file system without links the paths of a walk are the names on the way down
(`FileSystem.mem_walk_iff`), so a project collects what has the extension of sources and no hidden
or excluded name below a root, once and in order (`Project.collect_exactly`). A directory may have
that extension as well. It is collected like a file and cannot be read.
-/

namespace FieldGraft

namespace FileSystem

variable {fs : FileSystem} {here r a : Address} {names : List String} {e : Entry} {v : Visit}
  {n : Nat} {root path x y : FilePath}

/-! ### Trees without links -/

/-- **Nothing in a file system is a link.** -/
def Unlinked (fs : FileSystem) : Prop :=
  ∀ x ∈ fs.entries, x.2.isLink = false

instance : Decidable fs.Unlinked :=
  inferInstanceAs (Decidable (∀ x ∈ fs.entries, x.2.isLink = false))

theorem Unlinked.ne_link (hlinks : fs.Unlinked) (h : fs.get? a = some e) (target : FilePath) :
    e ≠ .link target := by
  rintro rfl
  have hnone := linkAt?_eq_none hlinks a
  rw [linkAt?, h] at hnone
  cases hnone

/-- What lies deeper lies in directories. -/
theorem WellFormed.get?_append (hfs : fs.WellFormed) (h : fs.get? (here ++ names) = some e)
    (hne : names ≠ []) : fs.get? here = some .directory := by
  induction names using List.reverseRecOn generalizing e with
  | nil => exact absurd rfl hne
  | append_singleton init s ih =>
    have hinit := hfs.get?_dropLast h
    rw [← List.append_assoc, List.dropLast_concat] at hinit
    by_cases hnil : init = []
    · rwa [hnil, List.append_nil] at hinit
    · exact ih hinit hnil

/-- The first name on the way leads to a directory or, if it is the last one, to the entry. -/
theorem WellFormed.exists_first (hfs : fs.WellFormed) {s : String}
    (h : fs.get? (here ++ s :: names) = some e) :
    ∃ e', fs.get? (here ++ [s]) = some e' ∧ (names ≠ [] → e' = .directory) := by
  rw [List.append_cons] at h
  by_cases hnil : names = []
  · rw [hnil, List.append_nil] at h
    exact ⟨e, h, absurd hnil⟩
  · exact ⟨_, hfs.get?_append h hnil, fun _ => rfl⟩

/-- In a tree without links a path leads to the address that it spells. -/
theorem Leads.address_eq (hlinks : fs.Unlinked) {last : Bool} {segs : List String}
    {d : Destination} (h : Leads fs last n here segs d) :
    d.address = (segs.filterMap Component.ofSegment?).foldl Component.step here := by
  -- without links a path leads where its own names say
  induction h with
  | done n here => rfl
  | blank hs _ ih => rw [List.filterMap_cons_none hs, ih]
  | up hs _ ih =>
    rw [List.filterMap_cons_some hs, ih]
    rfl
  | down hs _ _ ih =>
    rw [List.filterMap_cons_some hs.named, ih]
    rfl
  | file hs _ =>
    rw [List.filterMap_cons_some hs.named]
    rfl
  | vacant hs _ =>
    rw [List.filterMap_cons_some hs.named]
    rfl
  | stop _ hget => exact absurd rfl (hlinks.ne_link hget _)
  | follow _ hget => exact absurd rfl (hlinks.ne_link hget _)

theorem address_eq_of_entry (hlinks : fs.Unlinked) {last : Bool}
    (h : fs.entry last path = .ok (a, e)) : a = path.resolved fs.workingDirectory := by
  obtain ⟨-, hleads⟩ := resolve_eq_ok_iff.mp (entry_eq_ok_iff.mp h)
  have haddress := hleads.address_eq hlinks
  rw [show a = Destination.address (.occupied a e) from rfl, haddress, FilePath.resolved,
    FilePath.components, start, FilePath.isAbsolute, FilePath.parts_eq]
  -- the front component says where the path starts
  split
  · next heq => rw [heq]; rfl
  · next heq => rw [heq]; rfl
  · rfl

/-- **Paths that denote the same lead to the same.** -/
theorem entry_eq_of_same (hfs : fs.WellFormed) (hlinks : fs.Unlinked) {b : Address} {e' : Entry}
    (hx : fs.entry true x = .ok (a, e)) (hy : fs.entry true y = .ok (b, e'))
    (hsame : y.same x = true) : fs.entry true y = .ok (a, e) := by
  have hab : b = a := by
    rw [address_eq_of_entry hlinks hx, address_eq_of_entry hlinks hy, FilePath.resolved,
      FilePath.resolved, beq_iff_eq.mp hsame]
  subst hab
  have hget := (hfs.get?_of_entry hy).symm.trans (hfs.get?_of_entry hx)
  rw [hy, Option.some.inj hget]

/-! ### Walks -/

/-- **What lies at or below a path**: the entry that names lead to on the way down from there. -/
def Below (fs : FileSystem) (root : FilePath) (names : List String) (e : Entry) : Prop :=
  ∃ r top, fs.entry true root = .ok (r, top) ∧ fs.get? (r ++ names) = some e

/-- The names in a tree are names of files. -/
theorem WellFormed.isFileName (hfs : fs.WellFormed) (h : fs.get? (r ++ names) = some e) :
    ∀ s ∈ names, IsFileName s := by
  induction names using List.reverseRecOn generalizing e with
  | nil => exact fun _ hs => absurd hs List.not_mem_nil
  -- the last name is that of an entry, and the others lead to one
  | append_singleton init s ih =>
    rw [← List.append_assoc] at h
    obtain ⟨here, s', heq, hs', -⟩ := hfs.spot _ (mem_entries_of_get? h (by simp))
    obtain ⟨-, hlast⟩ := List.append_inj' heq rfl
    have hinit := hfs.get?_dropLast h
    rw [List.dropLast_concat] at hinit
    intro t ht
    rcases List.mem_append.mp ht with ht | ht
    · exact ih hinit t ht
    · rw [List.mem_singleton.mp ht, List.singleton_inj.mp hlast]
      exact hs'

/-- The path with the names leads to the entry. -/
theorem entry_joinAll (hfs : fs.WellFormed) (hlinks : fs.Unlinked) {top : Entry}
    (hroot : fs.entry true root = .ok (r, top)) (h : fs.get? (r ++ names) = some e) :
    fs.entry true (root.joinAll names) = .ok (r ++ names, e) := by
  induction names generalizing root r top with
  | nil =>
    have htop := (hfs.get?_of_entry hroot).symm.trans (List.append_nil r ▸ h)
    rw [List.append_nil, ← Option.some.inj htop]
    exact hroot
  -- what is below is reached through the first name
  | cons s names ih =>
    have hs := hfs.isFileName h s List.mem_cons_self
    have hdirectory := hfs.get?_append h (List.cons_ne_nil _ _)
    have htop := (hfs.get?_of_entry hroot).symm.trans hdirectory
    rw [Option.some.inj htop] at hroot
    obtain ⟨e', he', -⟩ := hfs.exists_first h
    rw [List.append_cons] at h ⊢
    exact ih (entry_join hroot hs he' (hlinks.ne_link he')) h

/-- An entry of a directory leaves less depth for what lies below it. -/
theorem countBelow_lt_of_get? {s : String} (h : fs.get? (here ++ [s]) = some e) :
    fs.countBelow (here ++ [s]) < fs.countBelow here :=
  countBelow_lt (mem_entries_of_get? h (by simp))

/-- An entry that is no link is visited as it is. -/
theorem visitEntry_of_ne_link (h : ∀ target, e ≠ .link target) (active : Address → Bool)
    (path : FilePath) (a : Address) :
    fs.visitEntry .followed active path a e = some (a, e) := by
  cases e with
  | file c => rfl
  | directory => rfl
  | link target => exact absurd rfl (h target)

theorem mem_children (hfs : fs.WellFormed) {s : String} :
    (s, e) ∈ fs.children here ↔ fs.get? (here ++ [s]) = some e :=
  mem_children_iff.trans ⟨hfs.get?_of_mem, fun h => mem_entries_of_get? h (by simp)⟩

/-- One level of a walk: the entries of the directory, and what is found in the directories among
them. -/
theorem mem_walkBelow_succ (hfs : fs.WellFormed) (hlinks : fs.Unlinked) (n : Nat)
    (outer : List Address) (path : FilePath) (here : Address) :
    v ∈ fs.walkBelow .followed (n + 1) outer path here ↔
      ∃ s e, fs.get? (here ++ [s]) = some e ∧ (v = ⟨path.join ⟨s⟩, e⟩ ∨ e = .directory ∧
        v ∈ fs.walkBelow .followed n ((here ++ [s]) :: outer) (path.join ⟨s⟩) (here ++ [s])) := by
  rw [walkBelow, List.mem_flatMap]
  -- a child is visited by itself, and a directory among them level by level
  constructor
  · rintro ⟨⟨s, e⟩, hx, hv⟩
    have hget := (mem_children hfs).mp hx
    refine ⟨s, e, hget, ?_⟩
    dsimp only at hv
    rw [visitEntry_of_ne_link (hlinks.ne_link hget)] at hv
    cases e with
    | file c => exact .inl (List.mem_singleton.mp hv)
    | link target => exact .inl (List.mem_singleton.mp hv)
    | directory => exact (List.mem_cons.mp hv).imp_right fun hv => ⟨rfl, hv⟩
  · rintro ⟨s, e, hget, hv⟩
    refine ⟨(s, e), (mem_children hfs).mpr hget, ?_⟩
    dsimp only
    rw [visitEntry_of_ne_link (hlinks.ne_link hget)]
    obtain hv | ⟨rfl, hv⟩ := hv
    · cases e with
      | file c => exact List.mem_singleton.mpr hv
      | link target => exact List.mem_singleton.mpr hv
      | directory => exact List.mem_cons.mpr (.inl hv)
    · exact List.mem_cons.mpr (.inr hv)

/-- **A walk finds what lies deeper.** -/
theorem mem_walkBelow_iff (hfs : fs.WellFormed) (hlinks : fs.Unlinked) {outer : List Address}
    (hn : fs.countBelow here ≤ n) : v ∈ fs.walkBelow .followed n outer path here ↔
      ∃ s names, v.path = path.joinAll (s :: names) ∧
        fs.get? (here ++ s :: names) = some v.entry := by
  -- the bound counts what is below the directory, and every level takes an entry off it
  induction n generalizing here path outer with
  | zero =>
    refine iff_of_false List.not_mem_nil ?_
    rintro ⟨s, names, -, hget⟩
    obtain ⟨e', he', -⟩ := hfs.exists_first hget
    have := countBelow_lt_of_get? he'
    omega
  | succ n ih =>
    rw [mem_walkBelow_succ hfs hlinks]
    constructor
    · rintro ⟨s, e, hget, rfl | ⟨rfl, hv⟩⟩
      · exact ⟨s, [], rfl, hget⟩
      · have hdepth := countBelow_lt_of_get? hget
        obtain ⟨t, names, hpath, hdeep⟩ := (ih (by omega)).mp hv
        rw [← List.append_cons] at hdeep
        exact ⟨s, t :: names, hpath, hdeep⟩
    · rintro ⟨s, names, hpath, hget⟩
      obtain ⟨e', he', hmore⟩ := hfs.exists_first hget
      have hdepth := countBelow_lt_of_get? he'
      refine ⟨s, e', he', ?_⟩
      cases names with
      | nil =>
        rw [he'] at hget
        obtain ⟨at', found⟩ := v
        exact .inl (by rw [show at' = _ from hpath, Option.some.inj hget]; rfl)
      | cons t names =>
        rw [List.append_cons] at hget
        have hdirectory := hmore (List.cons_ne_nil _ _)
        exact .inr ⟨hdirectory, (ih (by omega)).mpr ⟨t, names, hpath, hget⟩⟩

theorem exists_entry_of_exists? (h : fs.exists? root = true) :
    ∃ r top, fs.entry true root = .ok (r, top) := by
  unfold exists? at h
  split at h
  · next found hentry => exact ⟨found.1, found.2, hentry⟩
  · cases h

/-- **A walk finds what lies at or below a path.** -/
theorem mem_walk_iff (hfs : fs.WellFormed) (hlinks : fs.Unlinked) (hroot : fs.exists? root = true) :
    v ∈ fs.walk .followed root ↔
      ∃ names, v.path = root.joinAll names ∧ fs.Below root names v.entry := by
  obtain ⟨r, top, hentry⟩ := exists_entry_of_exists? hroot
  have htop := hfs.get?_of_entry hentry
  have hbelow : ∀ {names e}, fs.Below root names e ↔ fs.get? (r ++ names) = some e := by
    intro names e
    refine ⟨?_, fun h => ⟨r, top, hentry, h⟩⟩
    rintro ⟨r', top', hentry', h⟩
    cases hentry.symm.trans hentry'
    exact h
  -- without links, following makes no difference
  have hplain : fs.entry false root = .ok (r, top) := by
    rcases entry_unfollowed hentry with hplain | ⟨a, target, hlink⟩
    · exact hplain
    · exact absurd rfl (hlinks.ne_link (hfs.get?_of_entry hlink) target)
  -- the visit of the path itself
  have hself : v = ⟨root, top⟩ ↔ v.path = root.joinAll [] ∧ fs.get? (r ++ []) = some v.entry := by
    rw [List.append_nil, htop]
    constructor
    · rintro rfl
      exact ⟨rfl, rfl⟩
    · rintro ⟨hpath, he⟩
      obtain ⟨at', found⟩ := v
      rw [Option.some.inj he]
      exact congrArg (Visit.mk · found) hpath
  simp only [hbelow]
  rw [walk, hplain]
  cases top with
  | link target => exact absurd rfl (hlinks.ne_link htop target)
  | file c =>
    dsimp only
    rw [List.mem_singleton, hself]
    refine ⟨fun h => ⟨[], h⟩, ?_⟩
    rintro ⟨names, hpath, hget⟩
    -- a file has nothing below it
    by_cases hnil : names = []
    · rw [hnil] at hpath hget
      exact ⟨hpath, hget⟩
    · rw [hfs.get?_append hget hnil] at htop
      cases htop
  | directory =>
    dsimp only
    rw [List.mem_cons, hself, mem_walkBelow_iff hfs hlinks (fs.le_walkDepth r)]
    constructor
    · rintro (h | ⟨s, names, h⟩)
      · exact ⟨[], h⟩
      · exact ⟨s :: names, h⟩
    · rintro ⟨names, h⟩
      cases names with
      | nil => exact .inl h
      | cons s names => exact .inr ⟨s, names, h⟩

end FileSystem

namespace Project

variable {p : Project} {fs : FileSystem} {given : List FilePath} {root x : FilePath}
  {names : List String} {e : Entry}

/-! ### What is taken -/

/-- What is left of a path without a root that it lies at or below are the names. -/
theorem exists_stripPrefix?_joinAll (hnames : ∀ s ∈ names, IsFileName s) (root : FilePath) :
    ∃ q, (root.joinAll names).stripPrefix? root = some q ∧ q.components = names.map .name := by
  have hwhole : (root.joinAll names).components = root.components ++ names.map .name :=
    FilePath.components_joinAll (fun s hs => ⟨(hnames s hs).named, (hnames s hs).whole⟩) root
  obtain ⟨q, hq⟩ : ∃ q, (root.joinAll names).stripPrefix? root = some q := by
    unfold FilePath.stripPrefix?
    dsimp only
    split
    · exact ⟨_, rfl⟩
    · rw [if_pos (by rw [hwhole]; simp)]
      exact ⟨_, rfl⟩
  have hboth := (FilePath.components_stripPrefix? hq).symm.trans hwhole
  exact ⟨q, hq, List.append_cancel_left hboth⟩

/-- **A name that a project passes over**: a hidden or an excluded one. -/
def Skips (p : Project) (name : String) : Prop :=
  name.toList.head? = some '.' ∨ name ∈ p.config.exclude

/-- **A path below a root is taken** iff it has the extension of sources and no name is passed over.
-/
theorem takes_joinAll (hnames : ∀ s ∈ names, IsFileName s) :
    p.takes root (root.joinAll names) = true ↔
      (root.joinAll names).extension? = some "rs" ∧ ∀ s ∈ names, ¬ p.Skips s := by
  obtain ⟨q, hq, hcomponents⟩ := exists_stripPrefix?_joinAll hnames root
  unfold takes
  rw [hq]
  dsimp only [Option.getD_some]
  -- hidden and excluded are asked of the names below the root
  have hhidden : isHidden q = false ↔ ∀ s ∈ names, s.toList.head? ≠ some '.' := by
    rw [isHidden, hcomponents, List.any_map, List.any_eq_false]
    simp [Component.text]
  have hexcluded : p.config.isExcluded q = false ↔ ∀ s ∈ names, s ∉ p.config.exclude := by
    rw [Config.isExcluded, hcomponents, List.any_map, List.any_eq_false]
    simp [Component.text]
  rw [Bool.and_eq_true, Bool.and_eq_true, Bool.not_eq_true', Bool.not_eq_true', hhidden, hexcluded,
    FilePath.isSource, beq_iff_eq, and_assoc, ← forall₂_and]
  simp only [Skips, not_or, ne_eq]

/-- **A path is listed** below a root: the entry lies there under names that are not passed over,
and the path has the extension of sources. -/
structure Lists (p : Project) (fs : FileSystem) (root x : FilePath) (e : Entry) : Prop where
  exists_names : ∃ names, x = root.joinAll names ∧ fs.Below root names e ∧ ∀ s ∈ names, ¬ p.Skips s
  extension : x.extension? = some "rs"

theorem mem_below_iff (hfs : fs.WellFormed) (hlinks : fs.Unlinked)
    (hroot : fs.exists? root = true) :
    x ∈ p.below fs root ↔ ∃ e, p.Lists fs root x e := by
  rw [below, List.mem_filter, List.mem_map]
  constructor
  · rintro ⟨⟨v, hv, rfl⟩, htakes⟩
    obtain ⟨names, hpath, hbelow⟩ := (FileSystem.mem_walk_iff hfs hlinks hroot).mp hv
    obtain ⟨r, top, hentry, hget⟩ := hbelow
    rw [hpath, takes_joinAll (hfs.isFileName hget)] at htakes
    exact ⟨v.entry, ⟨names, hpath, ⟨r, top, hentry, hget⟩, htakes.2⟩, hpath ▸ htakes.1⟩
  · rintro ⟨e, ⟨names, rfl, ⟨r, top, hentry, hget⟩, hskips⟩, hextension⟩
    refine ⟨⟨⟨root.joinAll names, e⟩, ?_, rfl⟩, ?_⟩
    · exact (FileSystem.mem_walk_iff hfs hlinks hroot).mpr ⟨names, rfl, r, top, hentry, hget⟩
    · exact (takes_joinAll (hfs.isFileName hget)).mpr ⟨hextension, hskips⟩

/-- A listed path leads to the entry. -/
theorem Lists.exists_entry (hfs : fs.WellFormed) (hlinks : fs.Unlinked)
    (h : p.Lists fs root x e) : ∃ a, fs.entry true x = .ok (a, e) := by
  obtain ⟨names, rfl, ⟨r, top, hentry, hget⟩, -⟩ := h.exists_names
  exact ⟨r ++ names, FileSystem.entry_joinAll hfs hlinks hentry hget⟩

/-- If all roots are there, what is below any of them is found. -/
theorem exists_belowAll {roots : List FilePath} (hroots : ∀ root ∈ roots, fs.exists? root = true) :
    ∃ found, p.belowAll fs roots = .ok found ∧
      ∀ x, x ∈ found ↔ ∃ root ∈ roots, x ∈ p.below fs root := by
  induction roots with
  | nil => exact ⟨[], rfl, by simp⟩
  | cons root roots ih =>
    obtain ⟨hroot, hroots⟩ := List.forall_mem_cons.mp hroots
    obtain ⟨found, hfound, hmem⟩ := ih hroots
    refine ⟨p.below fs root ++ found, ?_, fun x => ?_⟩
    · rw [belowAll, if_pos hroot, hfound]
    · rw [List.mem_append, hmem, List.exists_mem_cons_iff]

/-- **A project collects exactly what is listed below its roots**: files, and directories as well,
in strictly rising order. So reading fails on a source if one of them is a directory, and only then
are not all of them files. -/
theorem collect_exactly (hfs : fs.WellFormed) (hlinks : fs.Unlinked)
    (hroots : ∀ root ∈ p.roots given, fs.exists? root = true) :
    ∃ sources, p.collect fs given = .ok sources ∧
      sources.Pairwise (fun x y => x.order y = .lt) ∧
      (∀ x ∈ sources, ∃ root ∈ p.roots given, ∃ e, p.Lists fs root x e) ∧
      (∀ root ∈ p.roots given, ∀ x e, p.Lists fs root x e →
        ∃ y ∈ sources, y.same x = true ∧ ∃ a, fs.entry true y = .ok (a, e)) ∧
      ((∀ x ∈ sources, fs.isFile x = true) ↔
        ∀ root ∈ p.roots given, ∀ x, ¬ p.Lists fs root x .directory) ∧
      ∀ x ∈ sources, fs.isFile x = true ∨ fs.readText x = .error .isDirectory := by
  obtain ⟨found, hfound, hmem⟩ := exists_belowAll (p := p) hroots
  have hcollect : p.collect fs given =
      .ok (dropRepeated (found.mergeSort FilePath.notAfter)) := by
    rw [collect, hfound]
  have hsorted := FilePath.pairwise_mergeSort found
  -- sorting and dropping what repeats neither adds a path nor loses one
  have hsame : ∀ x, x ∈ found.mergeSort FilePath.notAfter ↔ x ∈ found := fun _ =>
    List.mem_mergeSort
  generalize found.mergeSort FilePath.notAfter = sorted at hcollect hsorted hsame
  have hlisted : ∀ x ∈ dropRepeated sorted, ∃ root ∈ p.roots given, ∃ e, p.Lists fs root x e := by
    intro x hx
    obtain ⟨root, hroot, hbelow⟩ := (hmem x).mp ((hsame x).mp (dropRepeated_subset sorted hx))
    exact ⟨root, hroot, (mem_below_iff hfs hlinks (hroots root hroot)).mp hbelow⟩
  have hcovers : ∀ root ∈ p.roots given, ∀ x e, p.Lists fs root x e →
      ∃ y ∈ dropRepeated sorted, y.same x = true ∧ ∃ a, fs.entry true y = .ok (a, e) := by
    intro root hroot x e hx
    have hbelow := (mem_below_iff hfs hlinks (hroots root hroot)).mpr ⟨e, hx⟩
    obtain ⟨y, hy, heq⟩ :=
      exists_same_dropRepeated ((hsame x).mpr ((hmem x).mpr ⟨root, hroot, hbelow⟩))
    obtain ⟨a, hentry⟩ := hx.exists_entry hfs hlinks
    obtain ⟨_, _, e', hlists⟩ := hlisted y hy
    obtain ⟨b, hentry'⟩ := hlists.exists_entry hfs hlinks
    exact ⟨y, hy, heq, a, FileSystem.entry_eq_of_same hfs hlinks hentry hentry' heq⟩
  -- a source is a file or a directory, and which of them its entry says
  have hkinds : ∀ x ∈ dropRepeated sorted, fs.isFile x = true ∨
      (∃ a, fs.entry true x = .ok (a, .directory)) ∧
        ∃ root ∈ p.roots given, p.Lists fs root x .directory := by
    intro x hx
    obtain ⟨root, hroot, e, hlists⟩ := hlisted x hx
    obtain ⟨a, hentry⟩ := hlists.exists_entry hfs hlinks
    cases e with
    | file c => exact .inl (by rw [FileSystem.isFile, hentry])
    | directory => exact .inr ⟨⟨a, hentry⟩, root, hroot, hlists⟩
    | link target => exact absurd rfl (FileSystem.ne_link_of_entry hentry target)
  refine ⟨_, hcollect, pairwise_dropRepeated hsorted, hlisted, hcovers,
    ⟨fun hfiles root hroot x hx => ?_, fun hnone x hx => ?_⟩, fun x hx => ?_⟩
  · obtain ⟨y, hy, -, a, hentry⟩ := hcovers root hroot x _ hx
    have hfile := hfiles y hy
    rw [FileSystem.isFile, hentry] at hfile
    cases hfile
  · obtain hfile | ⟨-, root, hroot, hlists⟩ := hkinds x hx
    · exact hfile
    · exact absurd hlists (hnone root hroot x)
  · obtain hfile | ⟨⟨a, hentry⟩, -⟩ := hkinds x hx
    · exact .inl hfile
    · refine .inr ?_
      rw [FileSystem.readText, FileSystem.read, hentry]

/-- A directory with the name of a source, with a source in it. -/
def sourceLike : FileSystem where
  entries := [
    (["src"], .directory),
    (["src", "dir.rs"], .directory),
    (["src", "dir.rs", "a.rs"], .file (.text "struct A;")),
    (["src", "dir.rs", ".b.rs"], .file (.text "struct B;")),
    (["src", "target"], .directory),
    (["src", "target", "c.rs"], .file (.text "struct C;")),
    (["src", "notes.md"], .file (.text ""))]

/-- The directory is collected along with the file in it, which two roots lead to, and a run over
both fails. -/
theorem collect_exactly_sourceLike :
    let p : Project := { root := ⟨"/"⟩ }
    let given : List FilePath := [⟨"src"⟩, ⟨"src/dir.rs/a.rs"⟩]
    (sourceLike.WellFormed ∧ sourceLike.Unlinked ∧
      ∀ root ∈ p.roots given, sourceLike.exists? root = true) ∧
    p.collect sourceLike given = .ok [⟨"src/dir.rs"⟩, ⟨"src/dir.rs/a.rs"⟩] ∧
    sourceLike.readText ⟨"src/dir.rs"⟩ = .error .isDirectory ∧
    ¬ (∀ root ∈ p.roots given, ∀ x, ¬ p.Lists sourceLike root x .directory) ∧
    (p.run sourceLike .prepend [⟨"src/dir.rs"⟩, ⟨"src/dir.rs/a.rs"⟩]).1 =
      .error (.unreadable ⟨"src/dir.rs"⟩ .isDirectory) := by
  intro p given
  have hfs : sourceLike.WellFormed := by decide +kernel
  have hlinks : sourceLike.Unlinked := by decide +kernel
  have hroots : ∀ root ∈ p.roots given, sourceLike.exists? root = true := by decide +kernel
  have hcollect : p.collect sourceLike given = .ok [⟨"src/dir.rs"⟩, ⟨"src/dir.rs/a.rs"⟩] := by
    have hfound : p.belowAll sourceLike (p.roots given) =
        .ok [⟨"src/dir.rs"⟩, ⟨"src/dir.rs/a.rs"⟩, ⟨"src/dir.rs/a.rs"⟩] := by
      decide +kernel
    have hsorted : [⟨"src/dir.rs"⟩, ⟨"src/dir.rs/a.rs"⟩, ⟨"src/dir.rs/a.rs"⟩].mergeSort
        FilePath.notAfter = [⟨"src/dir.rs"⟩, ⟨"src/dir.rs/a.rs"⟩, ⟨"src/dir.rs/a.rs"⟩] :=
      List.mergeSort_of_pairwise (by decide +kernel)
    rw [collect, hfound]
    dsimp only
    rw [hsorted]
    decide +kernel
  -- the directory is listed, as its name is that of a source
  obtain ⟨sources, hsources, -, -, -, hfiles, hreads⟩ := collect_exactly hfs hlinks hroots
  cases hcollect.symm.trans hsources
  have hnofile : sourceLike.isFile ⟨"src/dir.rs"⟩ = false := by decide +kernel
  refine ⟨⟨hfs, hlinks, hroots⟩, hcollect, ?_, fun hnone => ?_, by decide +kernel⟩
  · refine (hreads _ List.mem_cons_self).resolve_left ?_
    rw [hnofile]
    exact Bool.false_ne_true
  · have hfile := hfiles.mpr hnone _ List.mem_cons_self
    rw [hnofile] at hfile
    cases hfile

end Project

end FieldGraft
