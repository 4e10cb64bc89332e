import FieldGraft.Build
import FieldGraft.Proofs.FileGrowth
import FieldGraft.Proofs.RelativePaths

/-!
# What lies below a scan path

A scan lists a directory tree with its links. Of what it finds only the paths of files matter
(`FileSystem.filesBelow`, `Build.sources_eq`).

* `FileSystem.filesBelow_fuel` — the bound on the depth of a walk is never reached, since every step
  down takes one of the entries below.
* `FileSystem.mem_filesBelow` — a path that is found leads to a file below the scanned directory.
* `Build.sources_evolves` — new directories hold no files, and files written outside the scanned
  directory are not found, so the sources are the same in the file system that has them. Wherever
  files are written, sources stay sources (`Build.mem_sources_evolves`).
-/

namespace FieldGraft

namespace FileSystem

variable {fs : FileSystem} {path p : FilePath} {here a r : Address} {name : String} {e : Entry}
  {c : Content} {m n : Nat}

/-- **The name of an entry, put behind the path of its directory, leads to the entry.** -/
theorem entry_join (hentry : fs.entry true path = .ok (here, .directory)) (hname : IsFileName name)
    (hget : fs.get? (here ++ [name]) = some e) (hlink : ∀ target, e ≠ .link target) :
    fs.entry true (path.join ⟨name⟩) = .ok (here ++ [name], e) := by
  obtain ⟨hne, hleads⟩ := resolve_eq_ok_iff.mp (entry_eq_ok_iff.mp hentry)
  have hrelative := FilePath.isAbsolute_name hname
  obtain ⟨segs, blanks, hsegs, hblanks, -, hjoin, habsolute⟩ :=
    FilePath.segments_join path hrelative
  -- the path leads to the directory, and the name is one step more
  rw [hsegs] at hleads
  rw [entry_eq_ok_iff, resolve_eq_ok_iff, start, habsolute, hjoin,
    FilePath.segments_name hname.whole]
  refine ⟨FilePath.join_text_ne hne hrelative, hleads.append hblanks (by simp) fun n => ?_⟩
  cases e with
  | file c => exact .file hname.toIsEntryName hget
  | directory => exact .down hname.toIsEntryName hget (.done _ _)
  | link target => exact absurd rfl (hlink target)

/-! ### The files below a directory -/

/-- An entry as one of a directory. -/
def childOf (here : Address) (x : Address × Entry) : Option (String × Entry) :=
  match x.1.getLast? with
  | some name => if x.1.dropLast = here then some (name, x.2) else none
  | none => none

theorem children_eq (fs : FileSystem) (here : Address) :
    fs.children here = fs.entries.filterMap (childOf here) := rfl

theorem childOf_eq_some_iff {x : Address × Entry} :
    childOf here x = some (name, e) ↔ x = (here ++ [name], e) := by
  obtain ⟨b, old⟩ := x
  unfold childOf
  rcases List.eq_nil_or_concat b with rfl | ⟨init, s, rfl⟩
  · simp
  · simp only [List.concat_eq_append, List.getLast?_concat, List.dropLast_concat]
    split
    · next heq => simp [heq]
    · next hne =>
      simp only [reduceCtorEq, Prod.mk.injEq, false_iff, not_and]
      intro heq
      exact absurd (List.append_inj_left' heq rfl) hne

theorem childOf_eq_none {x : Address × Entry} (h : x.1.dropLast ≠ here) :
    childOf here x = none := by
  unfold childOf
  split
  · exact if_neg h
  · rfl

theorem mem_children_iff : (name, e) ∈ fs.children here ↔ (here ++ [name], e) ∈ fs.entries := by
  rw [children_eq, List.mem_filterMap]
  constructor
  · rintro ⟨x, hx, hchild⟩
    rwa [childOf_eq_some_iff.mp hchild] at hx
  · exact fun h => ⟨_, h, childOf_eq_some_iff.mpr rfl⟩

/-- The paths of the files below a directory, through directories only. -/
def filesBelow (fs : FileSystem) : Nat → FilePath → Address → List FilePath
  | 0, _, _ => []
  | n + 1, path, here => (fs.children here).flatMap fun x =>
    match x.2 with
    | .directory => filesBelow fs n (path.join ⟨x.1⟩) (here ++ [x.1])
    | .file _ => [path.join ⟨x.1⟩]
    | .link _ => []

/-- **A walk finds these files.** -/
theorem walkBelow_files (fs : FileSystem) (n : Nat) (outer : List Address) (path : FilePath)
    (here : Address) :
    ((fs.walkBelow .listed n outer path here).filter Visit.isFile).map Visit.path =
      fs.filesBelow n path here := by
  induction n generalizing outer path here with
  | zero => rfl
  | succ n ih =>
    rw [walkBelow, filesBelow, List.filter_flatMap, List.map_flatMap]
    refine List.flatMap_congr fun x _ => ?_
    obtain ⟨name, e⟩ := x
    cases e with
    | file c => rfl
    | link target => rfl
    | directory =>
      -- the directory itself is visited first, and it is no file
      show ((_ :: _).filter Visit.isFile).map Visit.path = _
      rw [List.filter_cons_of_neg (by simp [Visit.isFile])]
      exact ih _ _ _

/-- How many entries lie below an address. -/
def countBelow (fs : FileSystem) (here : Address) : Nat :=
  fs.entries.countP (fun x => here.isPrefixOf x.1 && x.1 != here)

theorem countBelow_le (fs : FileSystem) (here : Address) : fs.countBelow here ≤ fs.entries.length :=
  List.countP_le_length

/-- An entry below is not below itself. -/
theorem countBelow_lt (h : (here ++ [name], e) ∈ fs.entries) :
    fs.countBelow (here ++ [name]) < fs.countBelow here := by
  -- what is below the entry is below the address, and the entry itself is the one more
  have hmono : ∀ x : Address × Entry,
      ((here ++ [name]).isPrefixOf x.1 && x.1 != here ++ [name]) = true →
        (here.isPrefixOf x.1 && x.1 != here) = true := by
    intro x hx
    obtain ⟨hbelow, -⟩ := Bool.and_eq_true_iff.mp hx
    obtain ⟨tail, htail⟩ := List.isPrefixOf_iff_prefix.mp hbelow
    rw [List.append_assoc] at htail
    rw [← htail]
    simp
  obtain ⟨before, after, heq⟩ := List.append_of_mem h
  have hbefore := List.countP_mono_left (l := before) fun x _ => hmono x
  have hafter := List.countP_mono_left (l := after) fun x _ => hmono x
  unfold countBelow
  rw [heq, List.countP_append, List.countP_append, List.countP_cons_of_neg (by simp),
    List.countP_cons_of_pos (by simp)]
  omega

theorem children_eq_nil (h : fs.countBelow here = 0) : fs.children here = [] := by
  rw [List.eq_nil_iff_forall_not_mem]
  rintro ⟨name, e⟩ hx
  have hlt := countBelow_lt (mem_children_iff.mp hx)
  omega

theorem filesBelow_eq_nil (h : fs.children here = []) (n : Nat) (path : FilePath) :
    fs.filesBelow n path here = [] := by
  cases n with
  | zero => rfl
  | succ n => rw [filesBelow, h, List.flatMap_nil]

/-- **The depth of a walk is bounded by the entries below**, so more fuel changes nothing. -/
theorem filesBelow_fuel (hm : fs.countBelow here ≤ m) (hn : fs.countBelow here ≤ n)
    (path : FilePath) : fs.filesBelow m path here = fs.filesBelow n path here := by
  induction m generalizing n path here with
  | zero =>
    -- without fuel there is nothing to find
    have hnone := children_eq_nil (Nat.le_zero.mp hm)
    rw [filesBelow_eq_nil hnone, filesBelow_eq_nil hnone]
  | succ m ih =>
    cases n with
    | zero =>
      have hnone := children_eq_nil (Nat.le_zero.mp hn)
      rw [filesBelow_eq_nil hnone, filesBelow_eq_nil hnone]
    | succ n =>
      rw [filesBelow, filesBelow]
      refine List.flatMap_congr fun x hx => ?_
      obtain ⟨name, e⟩ := x
      have hlt := countBelow_lt (mem_children_iff.mp hx)
      cases e with
      | directory =>
        dsimp only
        exact ih (by omega) (by omega) _
      | file c => rfl
      | link target => rfl

theorem le_walkDepth (fs : FileSystem) (here : Address) : fs.countBelow here ≤ fs.walkDepth :=
  calc fs.countBelow here ≤ fs.entries.length := fs.countBelow_le here
    _ ≤ fs.entries.length + 1 := Nat.le_succ _
    _ ≤ (fs.entries.length + 1) * (fs.entries.length + 1) :=
      Nat.le_mul_of_pos_left _ (Nat.succ_pos _)

/-- **A path that is found leads to a file below the directory**, and spells the names on the way.
-/
theorem mem_filesBelow (hfs : fs.WellFormed) (hentry : fs.entry true path = .ok (here, .directory))
    (h : p ∈ fs.filesBelow n path here) :
    ∃ names c, names ≠ [] ∧ (∀ s ∈ names, IsFileName s) ∧ p = path.joinAll names ∧
      fs.entry true p = .ok (here ++ names, .file c) := by
  induction n generalizing path here with
  | zero => cases h
  | succ n ih =>
    rw [filesBelow, List.mem_flatMap] at h
    obtain ⟨⟨name, e⟩, hx, hp⟩ := h
    have hmem := mem_children_iff.mp hx
    have hget : fs.get? (here ++ [name]) = some e := hfs.get?_of_mem hmem
    -- in a tree an entry has the name of a file
    have hname : IsFileName name := by
      obtain ⟨here', s, heq, hs, -⟩ := hfs.spot _ hmem
      obtain ⟨-, hlast⟩ := List.append_inj' heq rfl
      rw [List.singleton_inj.mp hlast]
      exact hs
    cases e with
    | directory =>
      obtain ⟨names, c, -, hnames, rfl, hfile⟩ :=
        ih (entry_join hentry hname hget fun _ => Entry.noConfusion) hp
      rw [List.append_assoc] at hfile
      exact ⟨name :: names, c, List.cons_ne_nil _ _, List.forall_mem_cons.mpr ⟨hname, hnames⟩,
        rfl, hfile⟩
    | file c =>
      rw [List.mem_singleton.mp hp]
      exact ⟨[name], c, List.cons_ne_nil _ _, List.forall_mem_singleton.mpr hname, rfl,
        entry_join hentry hname hget fun _ => Entry.noConfusion⟩
    | link target => cases hp

/-! ### Growing file systems -/

/-- An entry elsewhere is not listed. -/
theorem filterMap_setEntry (h : a.dropLast ≠ here) (e : Entry) (xs : List (Address × Entry)) :
    (setEntry a e xs).filterMap (childOf here) = xs.filterMap (childOf here) := by
  have hnone : ∀ e, childOf here (a, e) = none := fun e => childOf_eq_none h
  induction xs with
  | nil => simp [setEntry, hnone]
  | cons x xs ih =>
    rw [setEntry]
    split
    · next hx =>
      subst hx
      rw [List.filterMap_cons_none (hnone e), List.filterMap_cons_none (hnone x.2)]
    · rw [List.filterMap_cons, List.filterMap_cons, ih]

theorem setEntry_of_not_mem {xs : List (Address × Entry)} (h : a ∉ xs.map Prod.fst) (e : Entry) :
    setEntry a e xs = xs ++ [(a, e)] := by
  induction xs with
  | nil => rfl
  | cons x xs ih =>
    rw [List.map_cons, List.mem_cons, not_or] at h
    rw [setEntry, if_neg (Ne.symm h.1), ih h.2]
    rfl

theorem not_mem_keys (h : fs.get? a = none) : a ∉ fs.entries.map Prod.fst := by
  intro hmem
  obtain ⟨x, hx, rfl⟩ := List.mem_map.mp hmem
  unfold get? at h
  split at h
  · cases h
  · rw [List.lookup_eq_none_iff] at h
    exact absurd rfl (bne_iff_ne.mp (h x hx))

/-- **A new directory holds no files.** -/
theorem filesBelow_set_directory (hfs : fs.WellFormed) (hadmits : fs.Admits a .directory) (n : Nat)
    (path : FilePath) (here : Address) :
    (fs.set a .directory).filesBelow n path here = fs.filesBelow n path here := by
  have hvacant : fs.get? a = none := by
    rcases hadmits.fits with ⟨hnone, -⟩ | ⟨-, c, hc⟩
    · exact hnone
    · cases hc
  -- in a tree nothing lies below a vacant address
  have hempty : fs.children a = [] := by
    rw [List.eq_nil_iff_forall_not_mem]
    rintro ⟨name, e⟩ hx
    obtain ⟨here', s, heq, -, hdirectory⟩ := hfs.spot _ (mem_children_iff.mp hx)
    obtain ⟨rfl, -⟩ := List.append_inj' heq rfl
    rw [hvacant] at hdirectory
    cases hdirectory
  have hchildren : ∀ here, (fs.set a .directory).children here =
      fs.children here ++ (childOf here (a, .directory)).toList := by
    intro here
    rw [children_eq, set, setEntry_of_not_mem (not_mem_keys hvacant), List.filterMap_append]
    cases hchild : childOf here (a, .directory) <;> simp [children_eq, hchild]
  induction n generalizing path here with
  | zero => rfl
  | succ n ih =>
    -- the new directory is listed last, and no file is found in it
    have hnew : (childOf here (a, .directory)).toList.flatMap (fun x =>
        match x.2 with
        | .directory => (fs.set a .directory).filesBelow n (path.join ⟨x.1⟩) (here ++ [x.1])
        | .file _ => [path.join ⟨x.1⟩]
        | .link _ => []) = [] := by
      cases hchild : childOf here (a, .directory) with
      | none => rfl
      | some x =>
        obtain ⟨name, e⟩ := x
        obtain ⟨ha, rfl⟩ := Prod.mk.inj (childOf_eq_some_iff.mp hchild)
        rw [Option.toList_some, List.flatMap_singleton]
        dsimp only
        rw [ih, ← ha, filesBelow_eq_nil hempty]
    rw [filesBelow, filesBelow, hchildren, List.flatMap_append, hnew, List.append_nil]
    refine List.flatMap_congr fun x _ => ?_
    obtain ⟨name, e⟩ := x
    cases e with
    | directory => exact ih _ _
    | file c => rfl
    | link target => rfl

/-- **A file outside a directory is not below it.** -/
theorem filesBelow_set_outside (hout : ¬ r <+: a) (hbelow : r <+: here) (e : Entry) (n : Nat)
    (path : FilePath) : (fs.set a e).filesBelow n path here = fs.filesBelow n path here := by
  induction n generalizing path here with
  | zero => rfl
  | succ n ih =>
    -- it is not listed here, since its directory would be below `r`
    have hne : a.dropLast ≠ here := by
      rintro rfl
      exact hout (hbelow.trans (List.dropLast_prefix a))
    rw [filesBelow, filesBelow, children_eq, set, filterMap_setEntry hne]
    refine List.flatMap_congr fun x _ => ?_
    obtain ⟨name, e⟩ := x
    cases e with
    | directory => exact ih (hbelow.trans (List.prefix_append _ _)) _
    | file c => rfl
    | link target => rfl

theorem Evolves.filesBelow_eq {fs' : FileSystem} {written : Address → Prop}
    (h : Evolves written fs fs') (hfs : fs.WellFormed) (hout : ∀ a, written a → ¬ r <+: a) (n : Nat)
    (path : FilePath) : fs'.filesBelow n path r = fs.filesBelow n path r := by
  induction h with
  | refl => rfl
  | @step fs' a e hbefore hadmits hwritten ih =>
    rw [← ih]
    by_cases he : e = .directory
    · subst he
      exact filesBelow_set_directory (hbefore.wellFormed hfs) hadmits n path r
    · exact filesBelow_set_outside (hout a (hwritten he)) List.prefix_rfl e n path

/-! ### Scans -/

/-- **What a scan of a directory finds.** A link in the place of the directory is gone through. -/
theorem walk_files (h : fs.entry true path = .ok (r, .directory)) :
    ((fs.walk .listed path).filter Visit.isFile).map Visit.path =
      fs.filesBelow fs.walkDepth path r := by
  -- the first visit is the directory or the link to it
  have hwalk : ∃ first : Visit, first.isFile = false ∧
      fs.walk .listed path = first :: fs.walkBelow .listed fs.walkDepth [r] path r := by
    rcases entry_unfollowed h with hentry | ⟨a, target, hentry⟩
    · refine ⟨⟨path, .directory⟩, rfl, ?_⟩
      rw [walk, hentry]
    · refine ⟨⟨path, .link target⟩, rfl, ?_⟩
      rw [walk, hentry]
      dsimp only
      rw [h]
  obtain ⟨first, hfirst, heq⟩ := hwalk
  rw [heq, List.filter_cons_of_neg (by simp [hfirst]), walkBelow_files]

/-- Whether a path leads to a file, and not through a link at its end. -/
def isPlainFile (fs : FileSystem) (p : FilePath) : Bool :=
  match fs.entry false p with
  | .ok (_, .file _) => true
  | _ => false

/-- **What a scan of a file finds**: the file, unless a link stands in its place. -/
theorem walk_file (h : fs.entry true path = .ok (r, .file c)) :
    ((fs.walk .listed path).filter Visit.isFile).map Visit.path =
      if fs.isPlainFile path then [path] else [] := by
  rcases entry_unfollowed h with hentry | ⟨a, target, hentry⟩
  · rw [walk, isPlainFile, hentry]
    rfl
  · rw [walk, isPlainFile, hentry]
    dsimp only
    rw [h]
    rfl

theorem Evolves.isPlainFile_eq {fs' : FileSystem} {written : Address → Prop}
    (h : Evolves written fs fs') (hfs : fs.WellFormed)
    (hentry : fs.entry true path = .ok (r, .file c)) :
    fs'.isPlainFile path = fs.isPlainFile path := by
  rcases entry_unfollowed hentry with hplain | ⟨a, target, hlink⟩
  · obtain ⟨c', hc'⟩ := h.exists_file (hfs.get?_of_entry hplain)
    rw [isPlainFile, isPlainFile, hplain, h.entry_eq hfs hplain hc' fun hno => nomatch hno]
  · have hkept := h.keeps.link a target (hfs.get?_of_entry hlink)
    rw [isPlainFile, isPlainFile, hlink, h.entry_eq hfs hlink hkept fun hno => nomatch hno]

/-- **Files that were found are found again**: they stay, and so do the directories around them. -/
theorem Evolves.mem_filesBelow {fs' : FileSystem} {written : Address → Prop}
    (h : Evolves written fs fs') (hfs : fs.WellFormed) (hp : p ∈ fs.filesBelow n path here) :
    p ∈ fs'.filesBelow n path here := by
  induction n generalizing path here with
  | zero => cases hp
  | succ n ih =>
    rw [filesBelow, List.mem_flatMap] at hp ⊢
    obtain ⟨⟨name, e⟩, hx, hp⟩ := hp
    -- what was there is there, as nothing is removed
    have hget : fs.get? (here ++ [name]) = some e := hfs.get?_of_mem (mem_children_iff.mp hx)
    have hchild : ∀ {e'}, fs'.get? (here ++ [name]) = some e' →
        (name, e') ∈ fs'.children here := fun hget' =>
      mem_children_iff.mpr (mem_entries_of_get? hget' (by simp))
    cases e with
    | directory => exact ⟨_, hchild (h.keeps.directory _ hget), ih hp⟩
    | file c =>
      obtain ⟨c', hc'⟩ := h.exists_file hget
      exact ⟨_, hchild hc', hp⟩
    | link target => cases hp

end FileSystem

namespace Build

variable {fs fs' : FileSystem} {root : FilePath} {r : Address} {e : Entry} {c : Content}

/-- The source with the path of a file. -/
def sourceAt? (root path : FilePath) : Option SourceFile :=
  sourceOf? root ⟨path, .file (.text "")⟩

theorem filterMap_sourceOf? (root : FilePath) (visits : List Visit) :
    visits.filterMap (sourceOf? root) =
      ((visits.filter Visit.isFile).map Visit.path).filterMap (sourceAt? root) := by
  induction visits with
  | nil => rfl
  | cons v visits ih =>
    obtain ⟨path, e⟩ := v
    cases e with
    | file c =>
      rw [List.filter_cons_of_pos rfl, List.map_cons, List.filterMap_cons, List.filterMap_cons, ih]
      rfl
    | directory =>
      rw [List.filter_cons_of_neg (by simp [Visit.isFile]), List.filterMap_cons_none rfl, ih]
    | link target =>
      rw [List.filter_cons_of_neg (by simp [Visit.isFile]), List.filterMap_cons_none rfl, ih]

/-- **The sources below a directory.** -/
theorem sources_eq (h : fs.entry true root = .ok (r, .directory)) :
    sources fs root = .ok (((fs.filesBelow fs.walkDepth root r).filterMap
      (sourceAt? root)).mergeSort (fun a b => a.relative.notAfter b.relative)) := by
  have hexists : fs.exists? root = true := by
    rw [FileSystem.exists?, h]
  rw [sources, if_pos hexists, filterMap_sourceOf?, FileSystem.walk_files h]

/-- A scan path that is a file is the only source below it, if it is one. -/
theorem sources_eq_of_file (h : fs.entry true root = .ok (r, .file c)) :
    sources fs root = .ok (((if fs.isPlainFile root then [root] else []).filterMap
      (sourceAt? root)).mergeSort (fun a b => a.relative.notAfter b.relative)) := by
  have hexists : fs.exists? root = true := by
    rw [FileSystem.exists?, h]
  rw [sources, if_pos hexists, filterMap_sourceOf?, FileSystem.walk_file h]

theorem path_of_sourceAt? {p : FilePath} {x : SourceFile} (h : sourceAt? root p = some x) :
    x.path = p := by
  unfold sourceAt? sourceOf? at h
  split at h
  · split at h
    · split at h
      · cases h
      · rw [← Option.some.inj h]
    · cases h
  · cases h

/-- **Sources lead to files below the scanned directory**, and their relative paths spell the names
on the way from there. -/
theorem exists_names_of_mem_sources (hfs : fs.WellFormed)
    (h : fs.entry true root = .ok (r, .directory)) {files : List SourceFile}
    (hsources : sources fs root = .ok files) {x : SourceFile} (hx : x ∈ files) :
    ∃ names c, names ≠ [] ∧ (∀ s ∈ names, IsFileName s) ∧
      x.relative = ⟨"/".intercalate names⟩ ∧ fs.entry true x.path = .ok (r ++ names, .file c) := by
  rw [sources_eq h] at hsources
  cases hsources
  obtain ⟨p, hp, hsource⟩ := List.mem_filterMap.mp (List.mem_mergeSort.mp hx)
  obtain ⟨names, c, hne, hnames, rfl, hfile⟩ := FileSystem.mem_filesBelow hfs h hp
  have hroot : root.text ≠ "" :=
    (FileSystem.resolve_eq_ok_iff.mp (FileSystem.entry_eq_ok_iff.mp h)).1
  -- the path from the root on is the one without the root in front
  have hx : x = ⟨root.joinAll names, ⟨"/".intercalate names⟩⟩ := by
    unfold sourceAt? sourceOf? at hsource
    rw [FilePath.stripPrefix?_joinAll hroot hne hnames] at hsource
    dsimp only at hsource
    split at hsource
    · split at hsource
      · cases hsource
      · exact (Option.some.inj hsource).symm
    · cases hsource
  rw [hx]
  exact ⟨names, c, hne, hnames, rfl, hfile⟩

theorem exists_entry_of_sources {files : List SourceFile} (h : sources fs root = .ok files) :
    ∃ r e, fs.entry true root = .ok (r, e) := by
  unfold sources at h
  split at h
  · next hexists =>
    unfold FileSystem.exists? at hexists
    split at hexists
    · next found hentry => exact ⟨found.1, found.2, hentry⟩
    · cases hexists
  · cases h

/-- **Sources are files at or below what the scan path leads to.** -/
theorem exists_file_of_mem_sources (hfs : fs.WellFormed) (h : fs.entry true root = .ok (r, e))
    {files : List SourceFile} (hsources : sources fs root = .ok files) {x : SourceFile}
    (hx : x ∈ files) : ∃ a c, fs.entry true x.path = .ok (a, .file c) ∧ r <+: a := by
  cases e with
  | directory =>
    obtain ⟨names, c, -, -, -, hfile⟩ := exists_names_of_mem_sources hfs h hsources hx
    exact ⟨r ++ names, c, hfile, List.prefix_append r names⟩
  | file c =>
    rw [sources_eq_of_file h] at hsources
    cases hsources
    -- a file is its own and only source
    obtain ⟨p, hp, hsource⟩ := List.mem_filterMap.mp (List.mem_mergeSort.mp hx)
    have hroot : p = root := by
      split at hp
      · exact List.mem_singleton.mp hp
      · cases hp
    rw [path_of_sourceAt? hsource, hroot]
    exact ⟨r, c, h, List.prefix_rfl⟩
  | link target => exact absurd rfl (FileSystem.ne_link_of_entry h target)

/-- The walks through two file systems have different bounds, and both may go on to a common one. -/
theorem filesBelow_common (fs fs' : FileSystem) (root : FilePath) (r : Address) :
    ∃ depth, fs.filesBelow fs.walkDepth root r = fs.filesBelow depth root r ∧
      fs'.filesBelow fs'.walkDepth root r = fs'.filesBelow depth root r :=
  ⟨fs.walkDepth + fs'.walkDepth,
    FileSystem.filesBelow_fuel (fs.le_walkDepth r)
      (Nat.le_trans (fs.le_walkDepth r) (Nat.le_add_right _ _)) root,
    FileSystem.filesBelow_fuel (fs'.le_walkDepth r)
      (Nat.le_trans (fs'.le_walkDepth r) (Nat.le_add_left _ _)) root⟩

/-- A scan path that is a file stays what it is, whatever is written. -/
theorem sources_evolves_of_file {written : Address → Prop}
    (hgrows : FileSystem.Evolves written fs fs') (hfs : fs.WellFormed)
    (h : fs.entry true root = .ok (r, .file c)) : sources fs' root = sources fs root := by
  obtain ⟨c', h'⟩ := hgrows.entry_file hfs h
  rw [sources_eq_of_file h, sources_eq_of_file h', hgrows.isPlainFile_eq hfs h]

/-- **A file system that grew elsewhere has the same sources below a scan path.** -/
theorem sources_evolves {written : Address → Prop} (hgrows : FileSystem.Evolves written fs fs')
    (hfs : fs.WellFormed) (h : fs.entry true root = .ok (r, e))
    (hout : ∀ a, written a → ¬ r <+: a) : sources fs' root = sources fs root := by
  cases e with
  | directory =>
    obtain ⟨depth, hdepth, hdepth'⟩ := filesBelow_common fs fs' root r
    rw [sources_eq h, sources_eq (hgrows.entry_directory hfs h), hdepth, hdepth',
      hgrows.filesBelow_eq hfs hout depth root]
  | file c => exact sources_evolves_of_file hgrows hfs h
  | link target => exact absurd rfl (FileSystem.ne_link_of_entry h target)

/-- **Sources that were found are found again** in a file system that grew, wherever it did. -/
theorem mem_sources_evolves {written : Address → Prop}
    (hgrows : FileSystem.Evolves written fs fs') (hfs : fs.WellFormed) {files : List SourceFile}
    (hsources : sources fs root = .ok files) :
    ∃ files', sources fs' root = .ok files' ∧ ∀ x ∈ files, x ∈ files' := by
  obtain ⟨r, e, h⟩ := exists_entry_of_sources hsources
  cases e with
  | directory =>
    obtain ⟨depth, hdepth, hdepth'⟩ := filesBelow_common fs fs' root r
    rw [sources_eq h, hdepth] at hsources
    cases hsources
    refine ⟨_, sources_eq (hgrows.entry_directory hfs h), fun x hx => ?_⟩
    obtain ⟨p, hp, hsource⟩ := List.mem_filterMap.mp (List.mem_mergeSort.mp hx)
    rw [List.mem_mergeSort, hdepth']
    exact List.mem_filterMap.mpr ⟨p, hgrows.mem_filesBelow hfs hp, hsource⟩
  | file c =>
    -- the file itself is all there is to find
    exact ⟨files, (sources_evolves_of_file hgrows hfs h).trans hsources, fun _ hx => hx⟩
  | link target => exact absurd rfl (FileSystem.ne_link_of_entry h target)

end Build

end FieldGraft
