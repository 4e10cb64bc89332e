import FieldGraft.Proofs.TargetPaths

/-!
# The directories around a path

Taking the last component of a path away again and again gives the paths around it, as far as the
spelling of the path goes. That works on the text; here it is read on components.

* `FilePath.components_parent?` — one component is taken away, and neither the root nor an empty
  path has one.
* `FilePath.outer?` — what is left without the last `n` components. There is such a path as long as
  there are components (`FilePath.isSome_outer?_iff`), which are no more than the characters of the
  path (`FilePath.depth_le_length`).
* `FileSystem.Holds` — what a directory holds under a name, which is what the name joined to the
  path of the directory leads to (`FileSystem.holds_iff`).
-/

namespace FieldGraft

/-- Every word takes a character. -/
theorem Text.length_wordsBy_le (sep : Char → Bool) (cs : List Char) :
    (wordsBy sep cs).length ≤ cs.length := by
  induction cs with
  | nil => exact Nat.le_refl 0
  | cons c cs ih =>
    rw [List.length_cons]
    by_cases hc : sep c = true
    · rw [wordsBy_cons_sep hc]
      omega
    · -- the character goes to the first piece and may make it a word
      obtain ⟨p, ps, hpieces⟩ := List.exists_cons_of_ne_nil (pieces_ne_nil sep cs)
      have hcons : pieces sep (c :: cs) = (c :: p) :: ps := by rw [pieces, if_neg hc, hpieces]
      have hfirst : (ps.filter (fun p => !p.isEmpty)).length ≤ (wordsBy sep cs).length := by
        rw [wordsBy, hpieces]
        exact ((List.sublist_cons_self p ps).filter _).length_le
      rw [wordsBy, hcons, List.filter_cons_of_pos (by rfl), List.length_cons]
      omega

theorem Component.ne_root_of_ofSegment? {s : String} {c : Component} (h : ofSegment? s = some c) :
    c ≠ .root := by
  rintro rfl
  rcases ofSegment?_cases s with hs | hs | hs <;> rw [hs] at h <;> cases h

namespace FilePath

variable {p q : FilePath} {n : Nat}

/-! ### Taking components away -/

/-- The last of the segments that are left is not blank. -/
theorem trimRight_eq_nil_or_concat (body : List String) : trimRight body = [] ∨
    ∃ inner s c, trimRight body = inner ++ [s] ∧ Component.ofSegment? s = some c := by
  rcases List.eq_nil_or_concat (trimRight body) with hnil | ⟨inner, s, hconcat⟩
  · exact .inl hnil
  · rw [List.concat_eq_append] at hconcat
    -- a list whose blanks at the end were dropped ends with none
    have hself : trimRight (inner ++ [s]) = inner ++ [s] := by
      rw [← hconcat]
      exact List.rdropWhile_idempotent isBlankSegment body
    have hs : ¬ isBlankSegment s = true := by
      simpa using List.rdropWhile_eq_self_iff.mp hself (by simp)
    obtain ⟨c, hc⟩ := Option.ne_none_iff_exists'.mp (mt isBlankSegment_iff.mpr hs)
    exact .inr ⟨inner, s, c, hconcat, hc⟩

/-- **The last component is taken away.** The root stays, and so does an empty path. -/
theorem components_parent? (p : FilePath) :
    p.parent? = none ∧ (p.components = [] ∨ p.components = [.root]) ∨
      ∃ q c, p.parent? = some q ∧ c ≠ .root ∧ p.components = q.components ++ [c] := by
  have hcomponents : p.components = p.parts.1.toList ++
      (trimRight p.parts.2).filterMap Component.ofSegment? := by
    rw [components, filterMap_trimRight]
  rcases trimRight_eq_nil_or_concat p.parts.2 with hnil | ⟨inner, s, c, hbody, hs⟩
  · -- nothing but the front is left, of which a dot is taken away
    rw [hnil, List.filterMap_nil, List.append_nil] at hcomponents
    have hparent : p.parent? = if p.parts.1 = some .current then some ⟨""⟩ else none := by
      unfold parent?
      dsimp only
      rw [hnil]
    rw [hcomponents, hparent]
    rcases p.parts_cases with ⟨hfront, -⟩ | hfront | hfront <;> rw [hfront]
    · exact .inl ⟨rfl, .inl rfl⟩
    · exact .inl ⟨rfl, .inr rfl⟩
    · exact .inr ⟨⟨""⟩, .current, rfl, by decide, rfl⟩
  · -- without its last component a path is its front and the others
    have hparent : p.parent? = some (ofParts p.parts.1 (trimRight inner)) := by
      unfold parent?
      dsimp only
      rw [hbody, List.dropLast_concat]
      cases inner <;> rfl
    have hinner : FileSystem.Segmented (trimRight inner) := fun x hx =>
      segmented_parts p x (trimRight_subset _
        (hbody ▸ List.mem_append_left _ (trimRight_subset inner hx)))
    refine .inr ⟨_, c, hparent, Component.ne_root_of_ofSegment? hs, ?_⟩
    rw [hcomponents, hbody, List.filterMap_append, List.filterMap_cons_some hs,
      List.filterMap_nil, components_ofParts hinner, filterMap_trimRight, List.append_assoc]
    refine p.parts_cases.imp_left fun hplain => ⟨hplain.1, fun x hx => hplain.2 x ?_⟩
    -- what is first in the shorter list is first in the longer one
    obtain ⟨rest, hrest⟩ := List.head?_eq_some_iff.mp hx
    obtain ⟨blanks, -, htrim⟩ := exists_trimRight inner
    rw [hbody, htrim, hrest]
    rfl

/-- The number of components that can be taken away. -/
def depth (p : FilePath) : Nat :=
  p.components.countP (· != .root)

theorem depth_eq_zero (h : p.parent? = none) : p.depth = 0 := by
  rcases p.components_parent? with ⟨-, hp | hp⟩ | ⟨q, c, hparent, -⟩
  · rw [depth, hp]
    rfl
  · rw [depth, hp]
    rfl
  · rw [h] at hparent
    cases hparent

theorem components_of_parent? (h : p.parent? = some q) :
    ∃ c, c ≠ .root ∧ p.components = q.components ++ [c] := by
  rcases p.components_parent? with ⟨hnone, -⟩ | ⟨q', c, hparent, hc, hp⟩
  · rw [h] at hnone
    cases hnone
  · cases h.symm.trans hparent
    exact ⟨c, hc, hp⟩

theorem depth_of_parent? (h : p.parent? = some q) : p.depth = q.depth + 1 := by
  obtain ⟨c, hc, hp⟩ := components_of_parent? h
  rw [depth, depth, hp, List.countP_append, List.countP_singleton, if_pos (bne_iff_ne.mpr hc)]

/-- **What is left without the last `n` components.** -/
def outer? : Nat → FilePath → Option FilePath
  | 0, p => some p
  | n + 1, p => p.parent?.bind (outer? n)

/-- As many components can be taken away as there are. -/
theorem isSome_outer?_iff : (p.outer? n).isSome = true ↔ n ≤ p.depth := by
  induction n generalizing p with
  | zero => exact iff_of_true rfl (Nat.zero_le _)
  | succ n ih =>
    rw [outer?]
    cases hparent : p.parent? with
    | none =>
      rw [depth_eq_zero hparent]
      exact iff_of_false Bool.false_ne_true (Nat.not_succ_le_zero n)
    | some q =>
      rw [Option.bind_some, ih, depth_of_parent? hparent, Nat.add_le_add_iff_right]

theorem le_depth_of_outer? (h : p.outer? n = some q) : n ≤ p.depth :=
  isSome_outer?_iff.mp (h ▸ rfl)

/-- The components in front of those that are taken away stay. -/
theorem components_outer? (h : p.outer? n = some q) : q.components = p.components.rdrop n := by
  induction n generalizing p with
  | zero =>
    cases h
    exact (List.rdrop_zero _).symm
  | succ n ih =>
    rw [outer?] at h
    obtain ⟨p', hparent, hp'⟩ := Option.bind_eq_some_iff.mp h
    obtain ⟨c, -, hp⟩ := components_of_parent? hparent
    rw [hp, List.rdrop_concat_succ, ih hp']

/-- **A path has no more components than characters**, the root aside. -/
theorem depth_le_length (p : FilePath) : p.depth ≤ p.text.length := by
  have hwords : p.segments.countP (· != "") =
      (Text.wordsBy (fun c => c == '/') p.text.toList).length := by
    rw [segments, List.countP_map, Text.wordsBy, ← List.countP_eq_length_filter]
    refine List.countP_congr fun piece _ => ?_
    rw [Function.comp_apply, bne_iff_ne, ne_eq, String.ofList_eq_empty_iff]
    simp
  have hbody : (p.parts.2.filterMap Component.ofSegment?).countP (· != .root) ≤
      p.parts.2.countP (· != "") := by
    refine (List.countP_le_length).trans ?_
    -- each component comes from a segment that is not empty
    rw [List.length_filterMap_eq_countP]
    refine List.countP_mono_left fun s _ hs => ?_
    rw [bne_iff_ne]
    rintro rfl
    cases hs
  have hfront : p.parts.1.toList.countP (· != .root) ≤
      (frontSegments p.parts.1).countP (· != "") := by
    rcases p.parts_cases with ⟨h, -⟩ | h | h <;> rw [h] <;> decide
  calc p.depth
      = p.parts.1.toList.countP (· != .root) +
          (p.parts.2.filterMap Component.ofSegment?).countP (· != .root) := by
        rw [depth, components, List.countP_append]
    _ ≤ (frontSegments p.parts.1).countP (· != "") + p.parts.2.countP (· != "") :=
        Nat.add_le_add hfront hbody
    _ = p.segments.countP (· != "") := by rw [← List.countP_append, ← segments_parts]
    _ ≤ p.text.length := by
        rw [hwords, ← String.length_toList]
        exact Text.length_wordsBy_le _ _

theorem ancestorsUpTo_of_depth_le {fuel : Nat} (h : p.depth ≤ fuel) :
    ancestorsUpTo fuel p = ancestorsUpTo p.depth p := by
  induction fuel generalizing p with
  | zero => rw [Nat.le_zero.mp h]
  | succ fuel ih =>
    cases hparent : p.parent? with
    | none => rw [depth_eq_zero hparent, ancestorsUpTo, ancestorsUpTo, hparent]
    | some q =>
      rw [depth_of_parent? hparent] at h ⊢
      rw [ancestorsUpTo, ancestorsUpTo, hparent]
      dsimp only
      rw [ih (Nat.le_of_succ_le_succ h)]

/-- The characters of a path are enough to go all the way up. -/
theorem ancestors_eq (p : FilePath) : p.ancestors = ancestorsUpTo p.depth p :=
  ancestorsUpTo_of_depth_le p.depth_le_length

theorem ancestors_of_parent?_eq_none (h : p.parent? = none) : p.ancestors = [p] := by
  rw [ancestors_eq, depth_eq_zero h, ancestorsUpTo]

theorem ancestors_of_parent? (h : p.parent? = some q) : p.ancestors = p :: q.ancestors := by
  rw [ancestors_eq, depth_of_parent? h, ancestorsUpTo, h, ancestors_eq]

end FilePath

namespace FileSystem

variable {fs : FileSystem} {last : Bool} {n : Nat} {here : Address} {d : Destination}
  {directory : FilePath} {name : String} {e : Entry}

/-! ### What directories hold -/

/-- **A way can be changed at its end**: what follows a front may give way to segments that lead
to the same. -/
theorem Leads.change_end {segs rest rest' : List String} (hrest : rest ≠ []) (hrest' : rest' ≠ [])
    (hend : ∀ {n here d}, Leads fs last n here rest d → Leads fs last n here rest' d)
    (h : Leads fs last n here (segs ++ rest) d) : Leads fs last n here (segs ++ rest') d := by
  -- the way is gone once more, up to where the end begins
  generalize hall : segs ++ rest = all at h
  induction h generalizing segs with
  | done n here => exact absurd (List.append_eq_nil_iff.mp hall).2 hrest
  | @blank n here s tail d hs h ih =>
    rcases List.append_eq_cons_iff.mp hall with ⟨rfl, rfl⟩ | ⟨inner, rfl, rfl⟩
    · exact hend (.blank hs h)
    · exact .blank hs (ih rfl)
  | @up n here s tail d hs h ih =>
    rcases List.append_eq_cons_iff.mp hall with ⟨rfl, rfl⟩ | ⟨inner, rfl, rfl⟩
    · exact hend (.up hs h)
    · exact .up hs (ih rfl)
  | @down n here s tail d hs hget h ih =>
    rcases List.append_eq_cons_iff.mp hall with ⟨rfl, rfl⟩ | ⟨inner, rfl, rfl⟩
    · exact hend (.down hs hget h)
    · exact .down hs hget (ih rfl)
  | @file n here s c hs hget =>
    obtain ⟨rfl, rfl⟩ := eq_nil_of_append_eq_singleton hrest hall
    exact hend (.file hs hget)
  | @vacant n here s hs hget =>
    obtain ⟨rfl, rfl⟩ := eq_nil_of_append_eq_singleton hrest hall
    exact hend (.vacant hs hget)
  | @stop n here s target hs hget hlast =>
    obtain ⟨rfl, rfl⟩ := eq_nil_of_append_eq_singleton hrest hall
    exact hend (.stop hs hget hlast)
  | @follow n here s tail d target hs hget hgo h ih =>
    rcases List.append_eq_cons_iff.mp hall with ⟨rfl, rfl⟩ | ⟨inner, rfl, rfl⟩
    · exact hend (.follow hs hget hgo h)
    · -- the target of the link comes in front of what is left
      have hnext := ih (List.append_assoc _ _ _)
      rw [List.append_assoc] at hnext
      exact .follow hs hget (.inl (by simp [hrest'])) hnext

/-- Segments that count for nothing may stand in front. -/
theorem leads_blanks_iff {blanks rest : List String} (hblanks : FilePath.Blank blanks) :
    Leads fs last n here (blanks ++ rest) d ↔ Leads fs last n here rest d := by
  induction blanks with
  | nil => rfl
  | cons s blanks ih =>
    obtain ⟨hs, hblanks⟩ := List.forall_mem_cons.mp hblanks
    rw [List.cons_append, ← ih hblanks]
    generalize blanks ++ rest = tail
    -- a blank segment leaves only the rule for blanks
    refine ⟨fun h => ?_, .blank hs⟩
    cases h with
    | blank _ h => exact h
    | up hno => rw [hs] at hno; cases hno
    | down hno => rw [hno.named] at hs; cases hs
    | file hno => rw [hno.named] at hs; cases hs
    | vacant hno => rw [hno.named] at hs; cases hs
    | stop hno => rw [hno.named] at hs; cases hs
    | follow hno => rw [hno.named] at hs; cases hs

/-- **What a directory holds under a name**: the name, followed from the end of the path of the
directory, leads to the entry. A link counts as what it leads to, so one that leads nowhere counts
as nothing. -/
def Holds (fs : FileSystem) (directory : FilePath) (name : String) (e : Entry) : Prop :=
  ∃ a, Leads fs true linkLimit (fs.start directory) (directory.segments ++ [name]) (.occupied a e)

/-- **A name joined to the path of a directory** leads to what the directory holds under it. -/
theorem holds_iff (hname : IsFileName name) :
    fs.Holds directory name e ↔ ∃ a, fs.entry true (directory.join ⟨name⟩) = .ok (a, e) := by
  obtain ⟨segs, blanks, hsegments, hblanks, -, hjoin, habsolute⟩ :=
    FilePath.segments_join directory (FilePath.isAbsolute_name hname)
  rw [FilePath.segments_name hname.whole] at hjoin
  -- a name has no `/` in front, so the joined path starts where the directory does
  have hstart : fs.start (directory.join ⟨name⟩) = fs.start directory := by
    rw [start, start, habsolute]
  have htext : (directory.join ⟨name⟩).text ≠ "" := by
    intro hempty
    have hblank : (directory.join ⟨name⟩).segments = [""] := by
      rw [FilePath.segments, hempty]
      rfl
    have hlast := congrArg List.getLast? (hblank.symm.trans hjoin)
    exact hname.ne_empty (by simpa using hlast.symm)
  -- blanks between the directory and the name are not walked
  have hways : ∀ a, Leads fs true linkLimit (fs.start directory) (directory.segments ++ [name])
      (.occupied a e) ↔
        Leads fs true linkLimit (fs.start directory) (segs ++ [name]) (.occupied a e) := by
    intro a
    rw [hsegments, List.append_assoc]
    exact ⟨Leads.change_end (by simp) (by simp) (leads_blanks_iff hblanks).mp,
      Leads.change_end (by simp) (by simp) (leads_blanks_iff hblanks).mpr⟩
  refine exists_congr fun a => ?_
  rw [hways, entry_eq_ok_iff, resolve_eq_ok_iff, hstart, hjoin, and_iff_right htext]

end FileSystem

end FieldGraft
