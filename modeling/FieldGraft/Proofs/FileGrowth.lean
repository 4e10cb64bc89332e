import FieldGraft.Proofs.PathResolution

/-!
# File systems that grow

What is done to a file system on the way to a written file comes down to one kind of step: an entry
is put at an address of a directory, a directory where there was nothing, a file where there was
nothing or a file (`FileSystem.Admits`). `FileSystem.Evolves` is any number of such steps, with the
addresses at which files are put.

* A tree stays a tree, its directories and links stay, and files that are not written to keep their
  content (`Evolves.wellFormed`, `Evolves.keeps`, `Evolves.file_of_not_written`). So paths lead
  where they led, and their places are the same (`Evolves.place?_eq`).
* Making directories and writing a file are such steps (`makeParent_evolves`, `write_eq_ok`).
-/

namespace FieldGraft.FileSystem

variable {fs fs' fs'' : FileSystem} {a b : Address} {e : Entry} {c : Content} {p : FilePath}
  {written written' : Address → Prop}

/-! ### Putting one entry -/

/-- **An entry may be put at an address.** -/
structure Admits (fs : FileSystem) (a : Address) (e : Entry) : Prop where
  spot : fs.Spot a
  fits : fs.get? a = none ∧ e = .directory ∨
    (fs.get? a = none ∨ ∃ old, fs.get? a = some (.file old)) ∧ ∃ c, e = .file c

namespace Admits

theorem vacant_or_file (h : fs.Admits a e) :
    fs.get? a = none ∨ ∃ old, fs.get? a = some (.file old) := by
  rcases h.fits with ⟨hnone, -⟩ | ⟨hbefore, -⟩
  · exact .inl hnone
  · exact hbefore

theorem ne_directory (h : fs.Admits a e) : fs.get? a ≠ some .directory := by
  rcases h.vacant_or_file with hnone | ⟨old, hold⟩
  · simp [hnone]
  · simp [hold]

theorem ne_link (h : fs.Admits a e) (target : FilePath) : fs.get? a ≠ some (.link target) := by
  rcases h.vacant_or_file with hnone | ⟨old, hold⟩
  · simp [hnone]
  · simp [hold]

theorem not_link (h : fs.Admits a e) (target : FilePath) : e ≠ .link target := by
  rcases h.fits with ⟨-, rfl⟩ | ⟨-, c, rfl⟩
  · exact Entry.noConfusion
  · exact Entry.noConfusion

theorem get?_set (h : fs.Admits a e) (b : Address) :
    (fs.set a e).get? b = if b = a then some e else fs.get? b :=
  FileSystem.get?_set fs h.spot.ne_nil e b

theorem get?_directory (h : fs.Admits a e) (hb : fs.get? b = some .directory) :
    (fs.set a e).get? b = some .directory := by
  rw [h.get?_set, if_neg, hb]
  rintro rfl
  exact h.ne_directory hb

theorem keeps (h : fs.Admits a e) : Keeps fs (fs.set a e) where
  directory := fun _ hb => h.get?_directory hb
  link := by
    intro b target hb
    rw [h.get?_set, if_neg, hb]
    rintro rfl
    exact h.ne_link target hb

theorem linkAt?_eq (h : fs.Admits a e) : (fs.set a e).linkAt? = fs.linkAt? := by
  funext b
  refine Option.ext fun target => ?_
  rw [linkAt?_eq_some_iff, linkAt?_eq_some_iff, h.get?_set]
  by_cases hb : b = a
  · -- neither the old nor the new entry is a link
    subst hb
    rw [if_pos rfl, Option.some_inj]
    exact iff_of_false (h.not_link target) (h.ne_link target)
  · rw [if_neg hb]

end Admits

/-- An address has its old place among the keys, or a new one at the end. -/
theorem keys_setEntry (a : Address) (e : Entry) (xs : List (Address × Entry)) :
    (setEntry a e xs).map Prod.fst =
      if a ∈ xs.map Prod.fst then xs.map Prod.fst else xs.map Prod.fst ++ [a] := by
  induction xs with
  | nil => rfl
  | cons x xs ih =>
    rw [setEntry]
    split
    · next hx => simp [hx]
    · next hx =>
      have hne : a ≠ x.1 := fun heq => hx heq.symm
      rw [List.map_cons, ih, List.map_cons]
      simp only [List.mem_cons, hne, false_or]
      split <;> rfl

theorem mem_setEntry {x : Address × Entry} {xs : List (Address × Entry)}
    (h : x ∈ setEntry a e xs) : x = (a, e) ∨ x ∈ xs := by
  induction xs with
  | nil => exact .inl (List.mem_singleton.mp h)
  | cons y ys ih =>
    rw [setEntry] at h
    split at h
    · rcases List.mem_cons.mp h with h | h
      · exact .inl h
      · exact .inr (List.mem_cons_of_mem _ h)
    · rcases List.mem_cons.mp h with rfl | h
      · exact .inr List.mem_cons_self
      · exact (ih h).imp_right (List.mem_cons_of_mem _)

/-- **A tree stays a tree.** -/
theorem Admits.wellFormed (h : fs.Admits a e) (hfs : fs.WellFormed) : (fs.set a e).WellFormed where
  nodup := by
    show ((setEntry a e fs.entries).map Prod.fst).Nodup
    rw [keys_setEntry]
    split
    · exact hfs.nodup
    · next hnew =>
      -- the address is a new key, at the end
      rw [List.nodup_append]
      refine ⟨hfs.nodup, by simp, ?_⟩
      rintro b hb b' hb' rfl
      rw [List.mem_singleton.mp hb'] at hb
      exact hnew hb
  spot := by
    intro x hx
    -- an entry has its directory in the old tree, which the new one keeps
    have hspot : fs.Spot x.1 := by
      rcases mem_setEntry hx with rfl | hx
      · exact h.spot
      · exact hfs.spot x hx
    obtain ⟨here, s, heq, hs, hhere⟩ := hspot
    exact ⟨here, s, heq, hs, h.get?_directory hhere⟩
  working := h.get?_directory hfs.working

/-! ### Any number of steps -/

/-- **A file system grows**: directories are made, and files are put at written addresses. -/
inductive Evolves (written : Address → Prop) (fs : FileSystem) : FileSystem → Prop
  | refl : Evolves written fs fs
  | step {fs' : FileSystem} {a : Address} {e : Entry} (h : Evolves written fs fs')
      (hadmits : fs'.Admits a e)
      (hwritten : e ≠ .directory → written a) : Evolves written fs (fs'.set a e)

namespace Evolves

theorem trans (h₁ : Evolves written fs fs') (h₂ : Evolves written fs' fs'') :
    Evolves written fs fs'' := by
  induction h₂ with
  | refl => exact h₁
  | step _ hadmits hwritten ih => exact .step ih hadmits hwritten

theorem mono (h : Evolves written fs fs') (himp : ∀ a, written a → written' a) :
    Evolves written' fs fs' := by
  induction h with
  | refl => exact .refl
  | step _ hadmits hwritten ih => exact .step ih hadmits fun he => himp _ (hwritten he)

theorem wellFormed (h : Evolves written fs fs') (hfs : fs.WellFormed) : fs'.WellFormed := by
  induction h with
  | refl => exact hfs
  | step _ hadmits _ ih => exact hadmits.wellFormed ih

theorem keeps (h : Evolves written fs fs') : Keeps fs fs' := by
  induction h with
  | refl => exact ⟨fun _ h => h, fun _ _ h => h⟩
  | step _ hadmits _ ih =>
    exact ⟨fun a ha => hadmits.keeps.directory a (ih.directory a ha),
      fun a target ha => hadmits.keeps.link a target (ih.link a target ha)⟩

theorem workingDirectory_eq (h : Evolves written fs fs') :
    fs'.workingDirectory = fs.workingDirectory := by
  induction h with
  | refl => rfl
  | step _ _ _ ih => exact ih

/-- Links are neither made nor removed, so places stay. -/
theorem place?_eq (h : Evolves written fs fs') (p : FilePath) : fs'.place? p = fs.place? p := by
  induction h with
  | refl => rfl
  | step _ hadmits _ ih => exact (place?_congr hadmits.linkAt?_eq rfl p).trans ih

theorem start_eq (h : Evolves written fs fs') (p : FilePath) : fs'.start p = fs.start p := by
  rw [start, start, h.workingDirectory_eq]

/-- A file that is not written to keeps its content. -/
theorem file_of_not_written (h : Evolves written fs fs') (ha : fs.get? a = some (.file c))
    (hno : ¬ written a) : fs'.get? a = some (.file c) := by
  induction h with
  | refl => exact ha
  | @step fs' b e _ hadmits hwritten ih =>
    rw [hadmits.get?_set, if_neg, ih]
    rintro rfl
    -- neither a directory nor a file was put there
    rcases hadmits.fits with ⟨hnone, -⟩ | ⟨-, c, rfl⟩
    · rw [hnone] at ih
      cases ih
    · exact hno (hwritten Entry.noConfusion)

/-- A file stays a file, whatever is written to it. -/
theorem exists_file (h : Evolves written fs fs') (ha : fs.get? a = some (.file c)) :
    ∃ c', fs'.get? a = some (.file c') := by
  induction h with
  | refl => exact ⟨c, ha⟩
  | @step fs' b e _ hadmits _ ih =>
    obtain ⟨c', hc'⟩ := ih
    rw [hadmits.get?_set]
    split
    · next hab =>
      subst hab
      rcases hadmits.fits with ⟨hnone, -⟩ | ⟨-, c'', rfl⟩
      · rw [hnone] at hc'
        cases hc'
      · exact ⟨c'', rfl⟩
    · exact ⟨c', hc'⟩

/-- **A path still leads to its address**, and to what is there now. -/
theorem entry_eq (h : Evolves written fs fs') (hfs : fs.WellFormed) {last : Bool} {old : Entry}
    (hentry : fs.entry last p = .ok (a, old)) (he : fs'.get? a = some e)
    (hlast : last = true → ∀ target, e ≠ .link target) : fs'.entry last p = .ok (a, e) := by
  obtain ⟨hne, hleads⟩ := resolve_eq_ok_iff.mp (entry_eq_ok_iff.mp hentry)
  rw [entry_eq_ok_iff, resolve_eq_ok_iff, h.start_eq]
  exact ⟨hne, hleads.of_keeps hfs h.keeps (hfs.get?_start p) he hlast⟩

/-- A path to a directory leads there still. -/
theorem entry_directory (h : Evolves written fs fs') (hfs : fs.WellFormed)
    (hentry : fs.entry true p = .ok (a, .directory)) : fs'.entry true p = .ok (a, .directory) :=
  h.entry_eq hfs hentry (h.keeps.directory a (hfs.get?_of_entry hentry))
    fun _ _ => Entry.noConfusion

/-- A path to a file leads there still, though the content may be another one. -/
theorem entry_file (h : Evolves written fs fs') (hfs : fs.WellFormed)
    (hentry : fs.entry true p = .ok (a, .file c)) :
    ∃ c', fs'.entry true p = .ok (a, .file c') := by
  obtain ⟨c', hc'⟩ := h.exists_file (hfs.get?_of_entry hentry)
  exact ⟨c', h.entry_eq hfs hentry hc' fun _ _ => Entry.noConfusion⟩

/-- A file that is not written to is read as before. -/
theorem entry_of_not_written (h : Evolves written fs fs') (hfs : fs.WellFormed)
    (hentry : fs.entry true p = .ok (a, .file c)) (hno : ¬ written a) :
    fs'.entry true p = .ok (a, .file c) :=
  h.entry_eq hfs hentry (h.file_of_not_written (hfs.get?_of_entry hentry) hno)
    fun _ _ => Entry.noConfusion

end Evolves

/-! ### Directories on the way to a file -/

theorem Segmented.dropLast {segs : List String} (h : Segmented segs) : Segmented segs.dropLast :=
  fun s hs => h s (List.dropLast_subset _ hs)

theorem holder_spot (hfs : fs.WellFormed) {s : String}
    (h : fs.holder p = .ok (a, some (.name s))) (hshort : s.utf8ByteSize ≤ 255) :
    fs.Spot (a ++ [s]) := by
  unfold holder at h
  dsimp only at h
  -- what is left of the segments holds no slash either
  have hbody : Segmented (p.segments.reverse.dropWhile (fun s => s == "")).reverse := by
    intro x hx
    refine segmented_segments p x (List.mem_reverse.mp ?_)
    exact (List.dropWhile_suffix _).subset (List.mem_reverse.mp hx)
  generalize (p.segments.reverse.dropWhile (fun s => s == "")).reverse = body at h hbody
  cases hlast : body.getLast? with
  | none =>
    rw [hlast] at h
    cases h
  | some x =>
    rw [hlast] at h
    dsimp only at h
    split at h
    · next here hresolve =>
      -- the last segment is the name, and the others lead to a directory
      obtain ⟨rfl, hname⟩ := Prod.mk.inj (Except.ok.inj h)
      have hx : x = s := by
        rcases Component.ofSegment?_cases x with hx | hx | hx <;> rw [hx] at hname <;> cases hname
        rfl
      subst hx
      have hmem : x ∈ body := List.mem_of_getLast? hlast
      exact ⟨here, x, rfl, ⟨⟨hname, hshort⟩, hbody x hmem⟩,
        hfs.tells_of_resolveSegments hbody.dropLast hresolve⟩
    all_goals cases h

theorem makeDirectory_eq_ok (hfs : fs.WellFormed) (h : fs.makeDirectory p = .ok fs') :
    ∃ a, fs.Admits a .directory ∧ fs' = fs.set a .directory := by
  unfold makeDirectory at h
  split at h
  · cases h
  · split at h
    · cases h
    · next a s hholder =>
      split at h
      · cases h
      · next hshort =>
        split at h
        · cases h
        · next hnone =>
          -- only here is the directory made
          cases h
          exact ⟨_, ⟨holder_spot hfs hholder (Nat.le_of_not_lt hshort), .inl ⟨hnone, rfl⟩⟩, rfl⟩
    · cases h

/-- Nothing is written when directories are made, whether or not all of them can be. -/
theorem makeDirectoriesOf_evolves (hfs : fs.WellFormed) (ps : List FilePath) :
    Evolves (fun _ => False) fs (fs.makeDirectoriesOf ps).1 := by
  have hmake : ∀ {fs fs' : FileSystem} {p}, fs.WellFormed → fs.makeDirectory p = .ok fs' →
      Evolves (fun _ => False) fs fs' := by
    intro fs fs' p hfs hmade
    obtain ⟨a, hadmits, rfl⟩ := makeDirectory_eq_ok hfs hmade
    exact .step .refl hadmits fun hno => absurd rfl hno
  induction ps with
  | nil => exact .refl
  | cons p outer ih =>
    rw [makeDirectoriesOf]
    split
    · -- it is there
      exact .refl
    · split
      · next hmade => exact hmake hfs hmade
      · -- the directories around it first
        split
        · next houter =>
          rw [houter] at ih
          exact ih
        · next houter =>
          rw [houter] at ih
          split
          · next hmade => exact ih.trans (hmake (ih.wellFormed hfs) hmade)
          · exact ih
      · exact .refl

theorem makeParent_evolves (hfs : fs.WellFormed) (p : FilePath) :
    Evolves (fun _ => False) fs (fs.makeParent p).1 := by
  unfold makeParent
  split
  · exact .refl
  · next parent _ =>
    have hmade := makeDirectoriesOf_evolves hfs parent.ancestors
    unfold makeDirectories
    split
    · next heq =>
      rw [heq] at hmade
      exact hmade
    · next heq =>
      rw [heq] at hmade
      exact hmade

/-! ### Files -/

/-- A path to write to leads to a spot for a file. -/
theorem admits_of_writeAddress (hfs : fs.WellFormed) (h : fs.writeAddress p = .ok a)
    (c : Content) : fs.Admits a (.file c) ∧ ∃ d, fs.resolve true p = .ok d ∧ d.address = a := by
  unfold writeAddress at h
  split at h
  · split at h <;> cases h
  · split at h
    · next hvacant =>
      cases h
      obtain ⟨hnone, hspot⟩ := hfs.tells_of_resolve hvacant
      exact ⟨⟨hspot, .inr ⟨.inl hnone, c, rfl⟩⟩, _, hvacant, rfl⟩
    · next old hfile =>
      -- a file in a tree has a spot already
      cases h
      have hold : fs.get? a = some (.file old) := hfs.tells_of_resolve hfile
      have hne : a ≠ [] := by
        rintro rfl
        cases hold
      exact ⟨⟨hfs.spot _ (mem_entries_of_get? hold hne), .inr ⟨.inr ⟨old, hold⟩, c, rfl⟩⟩, _,
        hfile, rfl⟩
    · cases h
    · cases h

/-- **A file is written at the place of its path**, and the path leads to it. -/
theorem set_of_writeAddress (hfs : fs.WellFormed) (h : fs.writeAddress p = .ok a) (c : Content) :
    fs.place? p = some a ∧ Evolves (· = a) fs (fs.set a (.file c)) ∧
      (fs.set a (.file c)).entry true p = .ok (a, .file c) := by
  obtain ⟨hadmits, d, hresolve, rfl⟩ := admits_of_writeAddress hfs h c
  obtain ⟨hne, hleads⟩ := resolve_eq_ok_iff.mp hresolve
  have hnew : (fs.set d.address (.file c)).get? d.address = some (.file c) := by
    rw [hadmits.get?_set, if_pos rfl]
  refine ⟨hleads.place_eq, .step .refl hadmits fun _ => rfl, ?_⟩
  -- the path took its way through directories and links, and these are kept
  rw [entry_eq_ok_iff, resolve_eq_ok_iff]
  exact ⟨hne, hleads.of_keeps hfs hadmits.keeps (hfs.get?_start p) hnew
    fun _ _ => Entry.noConfusion⟩

theorem write_eq_ok (hfs : fs.WellFormed) (h : fs.write p c = .ok fs') :
    ∃ a, fs.place? p = some a ∧ Evolves (· = a) fs fs' ∧ fs'.entry true p = .ok (a, .file c) := by
  unfold write at h
  split at h
  · next a haddress =>
    cases h
    exact ⟨a, set_of_writeAddress hfs haddress c⟩
  · cases h

end FieldGraft.FileSystem
