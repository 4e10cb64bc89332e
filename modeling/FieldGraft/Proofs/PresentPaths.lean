import FieldGraft.Proofs.FileGrowth
import FieldGraft.Proofs.RelativePaths
import Mathlib.Data.List.DropRight

/-!
# Paths that are there

A file that is written goes with the directories on the way to it, which are made if they are not
there. Where the file is there already, nothing is made: its path without the last component leads
to a directory (`FileSystem.makeParent_of_file`), and a directory that is there is not made again
(`FileSystem.makeDirectories_of_directory`). So writing it changes its content and nothing else
(`FileSystem.write_of_file`).

* `FileSystem.Leads.split` — the front of a path that leads somewhere leads to a directory, from
  which the rest goes on.
* `FilePath.exists_parent` — taking the last component away works on the spelling; it leaves the
  segments before that component, up to blank ones.
-/

namespace FieldGraft

namespace FilePath

variable {p : FilePath} {s : String} {segs body inner : List String}

/-! ### Taking the last component away -/

/-- What is trimmed off is blank. -/
theorem exists_trimRight (body : List String) :
    ∃ blanks, Blank blanks ∧ body = trimRight body ++ blanks :=
  ⟨body.rtakeWhile isBlankSegment, fun _ hs => isBlankSegment_iff.mp (List.mem_rtakeWhile_imp hs),
    (List.rdropWhile_append_rtakeWhile).symm⟩

theorem trimRight_subset (body : List String) : trimRight body ⊆ body :=
  (List.rdropWhile_prefix isBlankSegment body).subset

theorem trimRight_concat (hs : Component.ofSegment? s ≠ none) (inner : List String) :
    trimRight (inner ++ [s]) = inner ++ [s] :=
  List.rdropWhile_concat_neg _ _ s fun hblank => hs (isBlankSegment_iff.mp hblank)

/-- The segment in which a front component is spelled. -/
def frontSegments : Option Component → List String
  | some .root => [""]
  | some .current => ["."]
  | _ => []

theorem blank_frontSegments (front : Option Component) : Blank (frontSegments front) := by
  unfold frontSegments
  split <;> simp [Blank, Component.ofSegment?]

/-- The front component and the segments after it make up the path. -/
theorem segments_parts (p : FilePath) : p.segments = frontSegments p.parts.1 ++ p.parts.2 := by
  rw [parts_eq]
  split
  · next heq => rw [heq]; rfl
  · next heq => rw [heq]; rfl
  · rfl

/-- The segments behind the front hold no slash. -/
theorem segmented_parts (p : FilePath) : FileSystem.Segmented p.parts.2 := fun s hs =>
  FileSystem.segmented_segments p s (by rw [segments_parts]; exact List.mem_append_right _ hs)

/-- The segments of a path put together from its parts. Without segments and without a dot there is
an empty one. -/
theorem segments_ofParts (front : Option Component) (hbody : FileSystem.Segmented body) :
    (ofParts front body).segments = frontSegments front ++
      if body = [] ∧ front ≠ some .current then [""] else body := by
  by_cases hnil : body = []
  · subst hnil
    match front with
    | some .root | some .current | some .parent | none => decide
    | some (.name _) => exact (by decide : (FilePath.mk "").segments = [""])
  · rw [if_neg fun hno => hnil hno.1]
    have hrest := segments_intercalate hnil hbody
    -- the front decides how many segments stand before the body
    match front with
    | some .root =>
      rw [segments_slash (p := ofParts (some .root) body) (q := ⟨""⟩)
        (r := ⟨"/".intercalate body⟩) (by simp [ofParts]), hrest]
      rfl
    | some .current =>
      rw [segments_slash (p := ofParts (some .current) body) (q := ⟨"."⟩)
        (r := ⟨"/".intercalate body⟩) (by simp [ofParts, hnil]), hrest]
      rfl
    | some .parent | some (.name _) | none => exact hrest

/-- Up to blank ones these are the given segments behind that of the front. -/
theorem exists_blanks_ofParts (front : Option Component) (hbody : FileSystem.Segmented body) :
    ∃ blanks, Blank blanks ∧
      (ofParts front body).segments = frontSegments front ++ body ++ blanks := by
  rw [segments_ofParts front hbody]
  split
  · next hnil =>
    refine ⟨[""], fun x hx => ?_, by rw [hnil.1, List.append_nil]⟩
    rw [List.mem_singleton.mp hx]
    rfl
  · exact ⟨[], fun x hx => absurd hx List.not_mem_nil, by rw [List.append_nil]⟩

/-- Without a front and without segments the text is empty. -/
theorem text_ofParts_nil {front : Option Component} (hfront : frontSegments front = []) :
    (ofParts front []).text = "" := by
  unfold frontSegments at hfront
  split at hfront
  · cases hfront
  · cases hfront
  · next hroot hcurrent =>
    unfold ofParts
    split
    · exact absurd rfl hroot
    · exact absurd rfl hcurrent
    · rfl

/-- **The path without its last component**, where that is spelled at the end: its segments are
those in front of the component, up to blank ones. -/
theorem exists_parent (hp : p.segments = segs ++ [s]) (hs : Component.ofSegment? s ≠ none) :
    ∃ q front blanks blanks', p.parent? = some q ∧ segs = front ++ blanks ∧
      q.segments = front ++ blanks' ∧ Blank blanks ∧ Blank blanks' ∧
      (q.text ≠ "" → front ≠ []) := by
  have hsplit := segments_parts p
  rw [hp] at hsplit
  -- the component is behind the front, whose segment is blank
  obtain ⟨inner, hbody⟩ : ∃ inner, p.parts.2 = inner ++ [s] := by
    rcases List.eq_nil_or_concat p.parts.2 with hnil | ⟨inner, s', hconcat⟩
    · rw [hnil, List.append_nil] at hsplit
      exact absurd (blank_frontSegments _ s (hsplit ▸ List.mem_concat_self)) hs
    · rw [List.concat_eq_append] at hconcat
      rw [hconcat, ← List.append_assoc] at hsplit
      rw [hconcat, ← (List.append_inj' hsplit rfl).2]
      exact ⟨inner, rfl⟩
  rw [hbody, ← List.append_assoc] at hsplit
  have hsegs := (List.append_inj' hsplit rfl).1
  have hparent : p.parent? = some (ofParts p.parts.1 (trimRight inner)) := by
    unfold parent?
    dsimp only
    rw [hbody, trimRight_concat hs, List.dropLast_concat]
    cases inner <;> rfl
  have hinner : FileSystem.Segmented (trimRight inner) := fun x hx =>
    segmented_parts p x (hbody ▸ List.mem_append_left _ (trimRight_subset inner hx))
  obtain ⟨blanks, hblanks, htrim⟩ := exists_trimRight inner
  obtain ⟨blanks', hblanks', hq⟩ := exists_blanks_ofParts p.parts.1 hinner
  refine ⟨_, frontSegments p.parts.1 ++ trimRight inner, blanks, blanks', hparent, ?_, hq, hblanks,
    hblanks', fun htext hnil => ?_⟩
  · rw [List.append_assoc, ← htrim, hsegs]
  · obtain ⟨hfront, hnil⟩ := List.append_eq_nil_iff.mp hnil
    rw [hnil] at htext
    exact htext (text_ofParts_nil hfront)

/-- The paths around a path start with the path itself. -/
theorem exists_ancestors (p : FilePath) : ∃ outer, p.ancestors = p :: outer := by
  unfold ancestors
  cases p.text.length with
  | zero => exact ⟨[], rfl⟩
  | succ fuel =>
    rw [ancestorsUpTo]
    split
    · exact ⟨_, rfl⟩
    · exact ⟨[], rfl⟩

end FilePath

namespace FileSystem

variable {fs : FileSystem} {last : Bool} {n : Nat} {here there a : Address} {s : String}
  {segs rest blanks : List String} {d : Destination} {p q : FilePath} {c : Content}

/-! ### The front of a path -/

/-- **The front of a path leads to a directory**, and the rest goes on from there. -/
theorem Leads.split (h : Leads fs last n here (segs ++ rest) d) (hrest : rest ≠ []) :
    ∃ m there, Leads fs true n here segs (.occupied there .directory) ∧
      Leads fs last m there rest d := by
  generalize hall : segs ++ rest = all at h
  -- the way ends at a file, a vacancy or a link with one segment, which is not split
  induction h generalizing segs with
  | done n here => exact absurd (List.append_eq_nil_iff.mp hall).2 hrest
  | @blank n here s tail d hs h ih =>
    rcases List.append_eq_cons_iff.mp hall with ⟨rfl, rfl⟩ | ⟨inner, rfl, rfl⟩
    · exact ⟨n, here, .done n here, .blank hs h⟩
    · obtain ⟨m, there, hfront, hback⟩ := ih rfl
      exact ⟨m, there, .blank hs hfront, hback⟩
  | @up n here s tail d hs h ih =>
    rcases List.append_eq_cons_iff.mp hall with ⟨rfl, rfl⟩ | ⟨inner, rfl, rfl⟩
    · exact ⟨n, here, .done n here, .up hs h⟩
    · obtain ⟨m, there, hfront, hback⟩ := ih rfl
      exact ⟨m, there, .up hs hfront, hback⟩
  | @down n here s tail d hs hget h ih =>
    rcases List.append_eq_cons_iff.mp hall with ⟨rfl, rfl⟩ | ⟨inner, rfl, rfl⟩
    · exact ⟨n, here, .done n here, .down hs hget h⟩
    · obtain ⟨m, there, hfront, hback⟩ := ih rfl
      exact ⟨m, there, .down hs hget hfront, hback⟩
  | @file n here s c hs hget =>
    obtain ⟨rfl, rfl⟩ := eq_nil_of_append_eq_singleton hrest hall
    exact ⟨n, here, .done n here, .file hs hget⟩
  | @vacant n here s hs hget =>
    obtain ⟨rfl, rfl⟩ := eq_nil_of_append_eq_singleton hrest hall
    exact ⟨n, here, .done n here, .vacant hs hget⟩
  | @stop n here s target hs hget hlast =>
    obtain ⟨rfl, rfl⟩ := eq_nil_of_append_eq_singleton hrest hall
    exact ⟨n, here, .done n here, .stop hs hget hlast⟩
  | @follow n here s tail d target hs hget hgo h ih =>
    rcases List.append_eq_cons_iff.mp hall with ⟨rfl, rfl⟩ | ⟨inner, rfl, rfl⟩
    · exact ⟨n + 1, here, .done _ here, .follow hs hget hgo h⟩
    · -- the target of the link comes in front of what is left
      obtain ⟨m, there, hfront, hback⟩ := ih (List.append_assoc _ _ _)
      exact ⟨m, there, .follow hs hget (.inr rfl) hfront, hback⟩

/-- Segments that count for nothing lead nowhere else. -/
theorem Leads.of_blank (hblanks : FilePath.Blank blanks) (n : Nat) (here : Address) :
    Leads fs last n here blanks (.occupied here .directory) := by
  induction blanks with
  | nil => exact .done n here
  | cons s blanks ih =>
    obtain ⟨hs, hblanks⟩ := List.forall_mem_cons.mp hblanks
    exact .blank hs (ih hblanks)

/-- Where segments lead is a matter of the function. -/
theorem Leads.unique {d' : Destination} (h : Leads fs last n here segs d)
    (h' : Leads fs last n here segs d') : d = d' :=
  Except.ok.inj ((leads_iff.mpr h).symm.trans (leads_iff.mpr h'))

/-- **Blank segments at the end of the path to a directory make no difference.** -/
theorem leads_append_blanks_iff (hblanks : FilePath.Blank blanks) :
    Leads fs true n here (segs ++ blanks) (.occupied there .directory) ↔
      Leads fs true n here segs (.occupied there .directory) := by
  by_cases hnil : blanks = []
  · rw [hnil, List.append_nil]
  · constructor
    · intro h
      obtain ⟨m, there', hfront, hback⟩ := h.split hnil
      cases hback.unique (.of_blank hblanks m there')
      exact hfront
    · intro h
      rw [← List.append_nil segs] at h
      exact h.append (fun _ hs => absurd hs List.not_mem_nil) hnil fun n =>
        .of_blank hblanks n there

/-- What leads on to a file is a name. -/
theorem Leads.isEntryName (h : Leads fs true n here [s] (.occupied a (.file c))) :
    IsEntryName s := by
  cases h with
  | blank _ h => cases h
  | up _ h => cases h
  | down hs _ _ => exact hs
  | file hs _ => exact hs
  | follow hs _ _ _ => exact hs

/-- Where a name leads there is something, if the way goes on to a directory. -/
theorem Leads.exists_of_name (h : Leads fs true n here [s] (.occupied a .directory))
    (hs : Component.ofSegment? s = some (.name s)) :
    s.utf8ByteSize ≤ 255 ∧ ∃ e, fs.get? (here ++ [s]) = some e := by
  cases h with
  | blank hno _ => rw [hs] at hno; cases hno
  | up hno _ => rw [hs] at hno; cases hno
  | down hs hget _ => exact ⟨hs.short, _, hget⟩
  | follow hs hget _ _ => exact ⟨hs.short, _, hget⟩

/-- **The path to a file** leads to a directory and from there by a name to the file. -/
theorem exists_front_of_file (h : fs.entry true p = .ok (a, .file c)) :
    ∃ segs s there, p.segments = segs ++ [s] ∧ IsEntryName s ∧
      Leads fs true linkLimit (fs.start p) segs (.occupied there .directory) := by
  obtain ⟨-, hleads⟩ := resolve_eq_ok_iff.mp (entry_eq_ok_iff.mp h)
  obtain ⟨segs, s, hsegs⟩ := (List.eq_nil_or_concat p.segments).resolve_left p.segments_ne_nil
  rw [List.concat_eq_append] at hsegs
  rw [hsegs] at hleads
  obtain ⟨m, there, hfront, hback⟩ := hleads.split (List.cons_ne_nil _ _)
  exact ⟨segs, s, there, hsegs, hback.isEntryName, hfront⟩

/-! ### What is there already -/

/-- **A directory that is there is not made.** -/
theorem makeDirectory_of_directory (h : fs.entry true p = .ok (a, .directory)) :
    fs.makeDirectory p = .error .alreadyExists := by
  obtain ⟨hne, hleads⟩ := resolve_eq_ok_iff.mp (entry_eq_ok_iff.mp h)
  have hsegments : p.segments = (p.segments.reverse.dropWhile (fun s => s == "")).reverse ++
      p.segments.rtakeWhile (fun s => s == "") := List.rdropWhile_append_rtakeWhile.symm
  have hblanks : FilePath.Blank (p.segments.rtakeWhile (fun s => s == "")) := by
    intro s hs
    rw [beq_iff_eq.mp (List.mem_rtakeWhile_imp (p := fun s => s == "") hs)]
    rfl
  rw [hsegments, leads_append_blanks_iff hblanks] at hleads
  rw [makeDirectory, if_neg hne, holder]
  generalize (p.segments.reverse.dropWhile (fun s => s == "")).reverse = body at hleads ⊢
  -- a path of blanks only is that of a directory that is there
  cases hlast : body.getLast? with
  | none => rfl
  | some s =>
    obtain ⟨front, rfl⟩ := List.getLast?_eq_some_iff.mp hlast
    -- the front leads to the directory that holds the last one
    obtain ⟨m, here, hfront, hback⟩ := hleads.split (List.cons_ne_nil _ _)
    have hholder : fs.resolveSegments true p.isAbsolute front = .ok (.occupied here .directory) :=
      leads_iff.mpr hfront
    rw [List.dropLast_concat]
    dsimp only
    rw [hholder]
    dsimp only
    rcases Component.ofSegment?_cases s with hs | hs | hs
    · rw [hs]
    · rw [hs]
    · -- a name needs an entry at its address, which the way down has met
      obtain ⟨hshort, e, he⟩ := hback.exists_of_name hs
      rw [hs]
      simp only [he, if_neg (Nat.not_lt.mpr hshort)]

/-- **A directory that is there is not made again**, nor are those around it. -/
theorem makeDirectories_of_directory (h : fs.entry true p = .ok (a, .directory)) :
    fs.makeDirectories p = (fs, .ok ()) := by
  obtain ⟨outer, houter⟩ := p.exists_ancestors
  rw [makeDirectories, houter, makeDirectoriesOf, makeDirectory_of_directory h]
  dsimp only
  rw [isDirectory, h]
  exact ite_self _

/-- The empty path stands for a directory that need not be made. -/
theorem makeDirectories_empty (fs : FileSystem) : fs.makeDirectories ⟨""⟩ = (fs, .ok ()) := rfl

/-- **No directory is made on the way to a file that is there.** -/
theorem makeParent_of_file (h : fs.entry true p = .ok (a, .file c)) :
    fs.makeParent p = (fs, .ok ()) := by
  obtain ⟨segs, s, there, hsegs, hs, hleads⟩ := exists_front_of_file h
  obtain ⟨q, front, blanks, blanks', hparent, rfl, hq, hblanks, hblanks', hfront⟩ :=
    FilePath.exists_parent hsegs (by rw [hs.named]; simp)
  have hmake : fs.makeDirectories q = (fs, .ok ()) := by
    by_cases htext : q.text = ""
    · obtain rfl : q = ⟨""⟩ := by
        cases q
        exact congrArg _ htext
      exact fs.makeDirectories_empty
    · refine makeDirectories_of_directory (a := there) (entry_eq_ok_iff.mpr ?_)
      have hp : p.text ≠ "" := (resolve_eq_ok_iff.mp (entry_eq_ok_iff.mp h)).1
      -- both paths start with the same segment
      have habsolute : q.isAbsolute = p.isAbsolute := by
        obtain ⟨x, rest, rfl⟩ := List.exists_cons_of_ne_nil (hfront htext)
        rw [Bool.eq_iff_iff, FilePath.isAbsolute_iff htext, FilePath.isAbsolute_iff hp, hq, hsegs]
        rfl
      rw [resolve_eq_ok_iff, start, habsolute, hq, leads_append_blanks_iff hblanks',
        ← leads_append_blanks_iff hblanks]
      exact ⟨htext, hleads⟩
  rw [makeParent, hparent]
  dsimp only
  rw [hmake]

/-- The path to a file leads to where it is written. -/
theorem writeAddress_of_file (h : fs.entry true p = .ok (a, .file c)) :
    fs.writeAddress p = .ok a := by
  obtain ⟨segs, s, -, hsegs, hs, -⟩ := exists_front_of_file h
  have hslash : ¬ p.text.toList.getLast? = some '/' := by
    intro hslash
    obtain ⟨cs, hcs⟩ := List.getLast?_eq_some_iff.mp hslash
    have hlast := FilePath.segments_of_slash hcs
    rw [hsegs] at hlast
    -- the last segment is a name and not empty
    have hempty := List.singleton_inj.mp (List.append_inj' hlast rfl).2
    have hnamed := hs.named
    rw [hempty] at hnamed
    cases hnamed
  rw [writeAddress, if_neg hslash, entry_eq_ok_iff.mp h]

/-- **Writing to a file that is there changes its content.** -/
theorem write_of_file (h : fs.entry true p = .ok (a, .file c)) (new : Content) :
    fs.write p new = .ok (fs.set a (.file new)) := by
  rw [write, writeAddress_of_file h]

end FileSystem

end FieldGraft
