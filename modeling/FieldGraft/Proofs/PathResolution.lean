import FieldGraft.FileSystem

/-!
# Where paths lead

Following a path through a file system is a function with a budget of links. Here it gets a relation
with one rule for each kind of step (`FileSystem.Leads`), which the function computes
(`FileSystem.leads_iff`), so that what paths do is shown by induction on the way they take.

* `FileSystem.WellFormed` — a directory tree. In it a path that leads to an entry leads to the one
  that its address holds, and a vacant address that it leads to is one where an entry fits
  (`Leads.tells`).
* `FileSystem.place?` — the address that a path spells if everything that is no link is taken for a
  directory. It depends on the links alone (`place?_congr`), and it is where the path leads
  (`Leads.place_eq`).
* `Leads.of_keeps` — a path still leads where it did if directories and links are kept.
* `Leads.append` — a path that leads to a directory goes on from there.
-/

namespace FieldGraft

/-- No piece holds a separator. -/
theorem Text.not_sep_of_mem_pieces {sep : Char → Bool} {cs piece : List Char} {c : Char}
    (hpiece : piece ∈ pieces sep cs) (hc : c ∈ piece) : sep c = false := by
  induction cs generalizing piece with
  | nil =>
    rw [pieces, List.mem_singleton] at hpiece
    rw [hpiece] at hc
    cases hc
  | cons x cs ih =>
    -- the pieces of the rest, the first of which `x` may be added to
    obtain ⟨q, qs, hpieces⟩ := List.exists_cons_of_ne_nil (pieces_ne_nil sep cs)
    rw [hpieces] at ih
    rw [pieces, hpieces] at hpiece
    split at hpiece
    · rcases List.mem_cons.mp hpiece with rfl | hmem
      · cases hc
      · exact ih hmem hc
    · next hx =>
      rcases List.mem_cons.mp hpiece with rfl | hmem
      · rcases List.mem_cons.mp hc with rfl | hc
        · exact Bool.eq_false_iff.mpr hx
        · exact ih List.mem_cons_self hc
      · exact ih (List.mem_cons_of_mem _ hmem) hc

/-- A segment that names an entry. -/
structure IsEntryName (s : String) : Prop where
  named : Component.ofSegment? s = some (.name s)
  short : s.utf8ByteSize ≤ 255

/-- A name that an entry of a directory may have. -/
structure IsFileName (s : String) : Prop extends IsEntryName s where
  whole : '/' ∉ s.toList

instance : DecidablePred IsEntryName := fun s =>
  decidable_of_iff (Component.ofSegment? s = some (.name s) ∧ s.utf8ByteSize ≤ 255)
    ⟨fun ⟨hnamed, hshort⟩ => ⟨hnamed, hshort⟩, fun h => ⟨h.named, h.short⟩⟩

instance : DecidablePred IsFileName := fun s =>
  decidable_of_iff (IsEntryName s ∧ '/' ∉ s.toList)
    ⟨fun ⟨hname, hwhole⟩ => ⟨hname, hwhole⟩, fun h => ⟨h.toIsEntryName, h.whole⟩⟩

/-- A segment counts for nothing, goes up or is a name. -/
theorem Component.ofSegment?_cases (s : String) :
    ofSegment? s = none ∨ ofSegment? s = some .parent ∨ ofSegment? s = some (.name s) := by
  unfold ofSegment?
  split
  · exact .inl rfl
  · split
    · exact .inr (.inl rfl)
    · exact .inr (.inr rfl)

/-- Every segment counts for nothing. -/
def FilePath.Blank (segs : List String) : Prop :=
  ∀ s ∈ segs, Component.ofSegment? s = none

/-- The address of a destination. -/
def Destination.address : Destination → Address
  | .occupied a _ => a
  | .vacant a => a

/-- Whether an entry is a link. -/
def Entry.isLink : Entry → Bool
  | .link _ => true
  | _ => false

namespace FileSystem

/-! ### The way of a path -/

/-- Where a link in a directory starts to lead. -/
def linkStart (here : Address) (target : FilePath) : Address :=
  if target.isAbsolute then [] else here

/-- **A path leads somewhere**: its segments, followed from a directory through at most `n` links,
end at a destination. -/
inductive Leads (fs : FileSystem) (last : Bool) :
    Nat → Address → List String → Destination → Prop
  | done (n here) : Leads fs last n here [] (.occupied here .directory)
  | blank {n here s rest d} (hs : Component.ofSegment? s = none)
      (h : Leads fs last n here rest d) : Leads fs last n here (s :: rest) d
  | up {n here s rest d} (hs : Component.ofSegment? s = some .parent)
      (h : Leads fs last n here.dropLast rest d) : Leads fs last n here (s :: rest) d
  | down {n here s rest d} (hs : IsEntryName s)
      (hget : fs.get? (here ++ [s]) = some .directory)
      (h : Leads fs last n (here ++ [s]) rest d) : Leads fs last n here (s :: rest) d
  | file {n here s c} (hs : IsEntryName s) (hget : fs.get? (here ++ [s]) = some (.file c)) :
      Leads fs last n here [s] (.occupied (here ++ [s]) (.file c))
  | vacant {n here s} (hs : IsEntryName s) (hget : fs.get? (here ++ [s]) = none) :
      Leads fs last n here [s] (.vacant (here ++ [s]))
  | stop {n here s target} (hs : IsEntryName s)
      (hget : fs.get? (here ++ [s]) = some (.link target)) (hlast : last = false) :
      Leads fs last n here [s] (.occupied (here ++ [s]) (.link target))
  | follow {n here s rest d target} (hs : IsEntryName s)
      (hget : fs.get? (here ++ [s]) = some (.link target)) (hlast : rest ≠ [] ∨ last = true)
      (h : Leads fs last n (linkStart here target) (target.segments ++ rest) d) :
      Leads fs last (n + 1) here (s :: rest) d

variable {fs fs' : FileSystem} {last : Bool} {n : Nat} {here a : Address} {s : String}
  {rest segs : List String} {d : Destination} {e : Entry} {p : FilePath}

/-- A single segment is all that follows a front, if something does. -/
theorem eq_nil_of_append_eq_singleton (hrest : rest ≠ []) (h : segs ++ rest = [s]) :
    segs = [] ∧ rest = [s] := by
  rcases List.append_eq_singleton_iff.mp h with h | ⟨-, hnil⟩
  · exact h
  · exact absurd hnil hrest

/-- Where a link leads within a budget, which it uses up by one. -/
def followUpTo (fs : FileSystem) (last : Bool) :
    Nat → Address → FilePath → List String → Except FileError Destination
  | 0, _, _, _ => .error .tooManyLinks
  | n + 1, here, target, rest =>
    fs.descendUpTo last n (linkStart here target) (target.segments ++ rest)

theorem descendUpTo_eq (fs : FileSystem) (last : Bool) (n : Nat) :
    fs.descendUpTo last n = fs.descend last (fs.followUpTo last n) := by
  cases n <;> rfl

/-- One budget, given what links do with it. -/
theorem leads_of_descend
    (hfollow : ∀ {here target rest d}, fs.followUpTo last n here target rest = .ok d →
      ∃ m, n = m + 1 ∧ Leads fs last m (linkStart here target) (target.segments ++ rest) d)
    (h : fs.descend last (fs.followUpTo last n) here segs = .ok d) :
    Leads fs last n here segs d := by
  induction segs generalizing here with
  | nil =>
    cases h
    exact .done n here
  | cons s rest ih =>
    rw [descend] at h
    -- a segment is blank, goes up, or names an entry
    rcases Component.ofSegment?_cases s with hs | hs | hs
    · rw [hs] at h
      exact .blank hs (ih h)
    · rw [hs] at h
      exact .up hs (ih h)
    · rw [hs] at h
      dsimp only at h
      split at h
      · cases h
      next hshort =>
      have hname : IsEntryName s := ⟨hs, Nat.le_of_not_lt hshort⟩
      split at h
      · next hget =>
        cases rest with
        | nil => cases h; exact .vacant hname hget
        | cons s' rest => cases h
      · next hget => exact .down hname hget (ih h)
      · next c hget =>
        cases rest with
        | nil => cases h; exact .file hname hget
        | cons s' rest => cases h
      · next target hget =>
        -- a link in the last place is only followed on demand
        cases rest with
        | nil =>
          cases last with
          | false => cases h; exact .stop hname hget rfl
          | true =>
            obtain ⟨m, rfl, hleads⟩ := hfollow h
            exact .follow hname hget (.inr rfl) hleads
        | cons s' rest =>
          obtain ⟨m, rfl, hleads⟩ := hfollow h
          exact .follow hname hget (.inl (List.cons_ne_nil _ _)) hleads

theorem leads_of_descendUpTo (h : fs.descendUpTo last n here segs = .ok d) :
    Leads fs last n here segs d := by
  induction n generalizing here segs d with
  | zero =>
    rw [descendUpTo_eq] at h
    exact leads_of_descend (fun hno => by cases hno) h
  | succ n ih =>
    rw [descendUpTo_eq] at h
    exact leads_of_descend (fun hgo => ⟨n, rfl, ih hgo⟩) h

/-- A segment that names an entry: what happens depends on the entry. -/
theorem descendUpTo_cons (fs : FileSystem) (last : Bool) (n : Nat) (here : Address)
    (hs : IsEntryName s) (rest : List String) :
    fs.descendUpTo last n here (s :: rest) =
      match fs.get? (here ++ [s]) with
      | none => if rest.isEmpty then .ok (.vacant (here ++ [s])) else .error .notFound
      | some .directory => fs.descendUpTo last n (here ++ [s]) rest
      | some (.file c) =>
        if rest.isEmpty then .ok (.occupied (here ++ [s]) (.file c)) else .error .notDirectory
      | some (.link target) =>
        if rest.isEmpty && !last then .ok (.occupied (here ++ [s]) (.link target))
        else fs.followUpTo last n here target rest := by
  rw [descendUpTo_eq, descend, hs.named]
  exact if_neg (Nat.not_lt.mpr hs.short)

theorem Leads.descendUpTo_eq (h : Leads fs last n here segs d) :
    fs.descendUpTo last n here segs = .ok d := by
  induction h with
  | done n here => rw [FileSystem.descendUpTo_eq, descend]
  | blank hs _ ih =>
    rw [FileSystem.descendUpTo_eq] at ih ⊢
    rw [descend, hs]
    exact ih
  | up hs _ ih =>
    rw [FileSystem.descendUpTo_eq] at ih ⊢
    rw [descend, hs]
    exact ih
  | down hs hget _ ih =>
    rw [descendUpTo_cons _ _ _ _ hs, hget]
    exact ih
  | file hs hget =>
    rw [descendUpTo_cons _ _ _ _ hs, hget]
    rfl
  | vacant hs hget =>
    rw [descendUpTo_cons _ _ _ _ hs, hget]
    rfl
  | stop hs hget hlast =>
    rw [descendUpTo_cons _ _ _ _ hs, hget, hlast]
    rfl
  | @follow n here s rest d target hs hget hlast _ ih =>
    -- the function asks whether the link is in the last place and stays there
    have hgo : ¬ (rest.isEmpty && !last) = true := by
      rcases hlast with hrest | hlast
      · simp [hrest]
      · simp [hlast]
    rw [descendUpTo_cons _ _ _ _ hs, hget]
    dsimp only
    rw [if_neg hgo]
    exact ih

/-- **The relation is what the function computes.** -/
theorem leads_iff : fs.descendUpTo last n here segs = .ok d ↔ Leads fs last n here segs d :=
  ⟨leads_of_descendUpTo, Leads.descendUpTo_eq⟩

/-! ### Trees -/

/-- An entry may be put at the address: it names an entry of a directory. -/
def Spot (fs : FileSystem) (a : Address) : Prop :=
  ∃ here s, a = here ++ [s] ∧ IsFileName s ∧ fs.get? here = some .directory

/-- **A directory tree.** No address has two entries, every entry lies in a directory, and the
working directory is there. -/
structure WellFormed (fs : FileSystem) : Prop where
  nodup : (fs.entries.map Prod.fst).Nodup
  spot : ∀ x ∈ fs.entries, fs.Spot x.1
  working : fs.get? fs.workingDirectory = some .directory

instance : Decidable (fs.Spot a) :=
  decidable_of_iff (∃ s ∈ a.getLast?, IsFileName s ∧ fs.get? a.dropLast = some .directory) <| by
    constructor
    · rintro ⟨s, hs, hname, hhere⟩
      obtain ⟨here, rfl⟩ := List.getLast?_eq_some_iff.mp hs
      rw [List.dropLast_concat] at hhere
      exact ⟨here, s, rfl, hname, hhere⟩
    · rintro ⟨here, s, rfl, hname, hhere⟩
      exact ⟨s, by simp, hname, by rwa [List.dropLast_concat]⟩

instance : Decidable fs.WellFormed :=
  decidable_of_iff ((fs.entries.map Prod.fst).Nodup ∧ (∀ x ∈ fs.entries, fs.Spot x.1) ∧
      fs.get? fs.workingDirectory = some .directory)
    ⟨fun ⟨hnodup, hspot, hworking⟩ => ⟨hnodup, hspot, hworking⟩,
      fun h => ⟨h.nodup, h.spot, h.working⟩⟩

@[simp] theorem get?_nil (fs : FileSystem) : fs.get? [] = some .directory := rfl

theorem Spot.ne_nil (h : fs.Spot a) : a ≠ [] := by
  obtain ⟨here, s, rfl, -⟩ := h
  simp

theorem mem_entries_of_get? (h : fs.get? a = some e) (ha : a ≠ []) : (a, e) ∈ fs.entries := by
  rw [get?, if_neg ha, List.lookup_eq_some_iff] at h
  obtain ⟨before, after, heq, -⟩ := h
  simp [heq]

theorem WellFormed.get?_of_mem (hfs : fs.WellFormed) (h : (a, e) ∈ fs.entries) :
    fs.get? a = some e := by
  rw [get?, if_neg (hfs.spot _ h).ne_nil, List.lookup_eq_some_iff]
  obtain ⟨before, after, heq⟩ := List.append_of_mem h
  refine ⟨before, after, heq, fun x hx => ?_⟩
  -- the address occurs once
  have hnodup := hfs.nodup
  rw [heq, List.map_append, List.map_cons, List.nodup_append] at hnodup
  exact bne_iff_ne.mpr fun hax =>
    hnodup.2.2 x.1 (List.mem_map_of_mem hx) a List.mem_cons_self hax.symm

theorem WellFormed.get?_dropLast (hfs : fs.WellFormed) (h : fs.get? a = some e) :
    fs.get? a.dropLast = some .directory := by
  by_cases ha : a = []
  · rw [ha]
    rfl
  · obtain ⟨here, s, heq, -, hhere⟩ := hfs.spot _ (mem_entries_of_get? h ha)
    have heq : a = here ++ [s] := heq
    rw [heq, List.dropLast_concat]
    exact hhere

/-- A destination tells what is there. -/
def Tells (fs : FileSystem) : Destination → Prop
  | .occupied a e => fs.get? a = some e
  | .vacant a => fs.get? a = none ∧ fs.Spot a

/-- No segment holds a slash. -/
def Segmented (segs : List String) : Prop :=
  ∀ s ∈ segs, '/' ∉ s.toList

theorem segmented_segments (p : FilePath) : Segmented p.segments := by
  intro s hs
  obtain ⟨piece, hpiece, rfl⟩ := List.mem_map.mp hs
  rw [String.toList_ofList]
  intro hslash
  have hsep := Text.not_sep_of_mem_pieces hpiece hslash
  cases hsep

/-- **What a path leads to is there**, and what is vacant can be filled. -/
theorem Leads.tells (hfs : fs.WellFormed) (hhere : fs.get? here = some .directory)
    (hsegs : Segmented segs) (h : Leads fs last n here segs d) : fs.Tells d := by
  -- every step but the last leads to a directory, from which the way goes on
  induction h with
  | done n here => exact hhere
  | blank _ _ ih => exact ih hhere ((List.forall_mem_cons.mp hsegs).2)
  | up _ _ ih => exact ih (hfs.get?_dropLast hhere) ((List.forall_mem_cons.mp hsegs).2)
  | down _ hget _ ih => exact ih hget ((List.forall_mem_cons.mp hsegs).2)
  | file _ hget => exact hget
  | @vacant n here s hs hget => exact ⟨hget, here, s, rfl, ⟨hs, hsegs s List.mem_cons_self⟩, hhere⟩
  | stop _ hget _ => exact hget
  | @follow n here s rest d target _ _ _ _ ih =>
    -- a link starts at the root or in its own directory, and spells segments without slashes
    refine ih ?_ ?_
    · unfold linkStart
      split
      · rfl
      · exact hhere
    · exact List.forall_mem_append.mpr
        ⟨segmented_segments target, (List.forall_mem_cons.mp hsegs).2⟩

/-! ### Places -/

/-- The link at an address. -/
def linkAt? (fs : FileSystem) (a : Address) : Option FilePath :=
  match fs.get? a with
  | some (.link target) => some target
  | _ => none

theorem linkAt?_eq_some_iff {target : FilePath} :
    fs.linkAt? a = some target ↔ fs.get? a = some (.link target) := by
  unfold linkAt?
  cases fs.get? a with
  | none => simp
  | some e => cases e <;> simp

/-- A file system without links. -/
theorem linkAt?_eq_none (h : ∀ x ∈ fs.entries, x.2.isLink = false) (a : Address) :
    fs.linkAt? a = none := by
  cases hlink : fs.linkAt? a with
  | none => rfl
  | some target =>
    have hget := linkAt?_eq_some_iff.mp hlink
    have hne : a ≠ [] := by
      rintro rfl
      cases hget
    have hmem := h _ (mem_entries_of_get? hget hne)
    cases hmem

/-- Follows segments where everything that is no link is taken for a directory. -/
def placeFrom (links : Address → Option FilePath)
    (follow : Address → FilePath → List String → Option Address) :
    Address → List String → Option Address
  | here, [] => some here
  | here, s :: rest =>
    match Component.ofSegment? s with
    | none => placeFrom links follow here rest
    | some .parent => placeFrom links follow here.dropLast rest
    | some _ =>
      match links (here ++ [s]) with
      | none => placeFrom links follow (here ++ [s]) rest
      | some target => follow here target rest

def placeUpTo (links : Address → Option FilePath) : Nat → Address → List String → Option Address
  | 0 => placeFrom links (fun _ _ _ => none)
  | n + 1 => placeFrom links fun here target rest =>
    placeUpTo links n (linkStart here target) (target.segments ++ rest)

/-- Where a path starts. -/
def start (fs : FileSystem) (p : FilePath) : Address :=
  if p.isAbsolute then [] else fs.workingDirectory

/-- **The address that a path spells**, with links followed, whatever else is there. -/
def place? (fs : FileSystem) (p : FilePath) : Option Address :=
  placeUpTo fs.linkAt? linkLimit (fs.start p) p.segments

theorem place?_congr (hlinks : fs'.linkAt? = fs.linkAt?)
    (hworking : fs'.workingDirectory = fs.workingDirectory) (p : FilePath) :
    fs'.place? p = fs.place? p := by
  rw [place?, place?, start, start, hlinks, hworking]

/-- What is no link is gone through. -/
theorem placeUpTo_of_no_link {links : Address → Option FilePath} (hs : IsEntryName s)
    (hlink : links (here ++ [s]) = none) (n : Nat) (rest : List String) :
    placeUpTo links n here (s :: rest) = placeUpTo links n (here ++ [s]) rest := by
  cases n <;> rw [placeUpTo, placeFrom, hs.named] <;> simp only [hlink]

/-- **A path leads to its place.** -/
theorem Leads.place_eq (h : Leads fs true n here segs d) :
    placeUpTo fs.linkAt? n here segs = some d.address := by
  induction h with
  | done n here => cases n <;> rfl
  | @blank n here s rest d hs _ ih =>
    rw [← ih]
    cases n <;> rw [placeUpTo, placeFrom, hs]
  | @up n here s rest d hs _ ih =>
    rw [← ih]
    cases n <;> rw [placeUpTo, placeFrom, hs]
  | down hs hget _ ih => rw [placeUpTo_of_no_link hs (by rw [linkAt?, hget]), ih]
  | @file n here s c hs hget =>
    rw [placeUpTo_of_no_link hs (by rw [linkAt?, hget])]
    cases n <;> rfl
  | @vacant n here s hs hget =>
    rw [placeUpTo_of_no_link hs (by rw [linkAt?, hget])]
    cases n <;> rfl
  | stop _ _ hlast => cases hlast
  | @follow n here s rest d target hs hget _ _ ih =>
    have hlink : fs.linkAt? (here ++ [s]) = some target := by rw [linkAt?, hget]
    rw [placeUpTo, placeFrom, hs.named]
    simp only [hlink]
    exact ih

/-! ### Later file systems -/

/-- Directories and links are kept. -/
structure Keeps (fs fs' : FileSystem) : Prop where
  directory : ∀ a, fs.get? a = some .directory → fs'.get? a = some .directory
  link : ∀ a target, fs.get? a = some (.link target) → fs'.get? a = some (.link target)

/-- **A path still leads to its address**, and to what is there now. -/
theorem Leads.of_keeps (hfs : fs.WellFormed) (hkeeps : Keeps fs fs')
    (hhere : fs.get? here = some .directory) (h : Leads fs last n here segs d)
    (he : fs'.get? d.address = some e) (hlast : last = true → ∀ target, e ≠ .link target) :
    Leads fs' last n here segs (.occupied d.address e) := by
  -- the last step of a path to a file or to a vacant address
  have hfinal : ∀ {n here s}, IsEntryName s → fs'.get? (here ++ [s]) = some e →
      Leads fs' last n here [s] (.occupied (here ++ [s]) e) := by
    intro n here s hs hget
    cases e with
    | file c => exact .file hs hget
    | directory => exact .down hs hget (.done _ _)
    | link target =>
      -- a link may be where the path ends only if the last one is not followed
      cases last with
      | false => exact .stop hs hget rfl
      | true => exact absurd rfl (hlast rfl target)
  induction h with
  | done n here =>
    -- the path ends at a directory, which is there still
    rw [Destination.address, hkeeps.directory here hhere] at he
    cases he
    exact .done n here
  | blank hs _ ih => exact .blank hs (ih hhere he)
  | up hs _ ih => exact .up hs (ih (hfs.get?_dropLast hhere) he)
  | down hs hget _ ih => exact .down hs (hkeeps.directory _ hget) (ih hget he)
  | file hs _ => exact hfinal hs he
  | vacant hs _ => exact hfinal hs he
  | stop hs _ _ => exact hfinal hs he
  | @follow n here s rest d target hs hget hgo _ ih =>
    refine .follow hs (hkeeps.link _ _ hget) hgo (ih ?_ he)
    unfold linkStart
    split
    · rfl
    · exact hhere

/-! ### Longer paths -/

/-- A segment that counts is not one of the blank ones at the end. -/
theorem exists_of_append_blanks {segs blanks tail : List String}
    (hblanks : FilePath.Blank blanks) (h : segs ++ blanks = s :: tail)
    (hs : Component.ofSegment? s ≠ none) : ∃ inner, segs = s :: inner ∧ tail = inner ++ blanks := by
  rcases List.append_eq_cons_iff.mp h with ⟨-, hall⟩ | hsegs
  · exact absurd (hblanks s (hall ▸ List.mem_cons_self)) hs
  · exact hsegs

/-- **A path that leads to a directory goes on from there.** Segments that count for nothing at its
end may be left out. -/
theorem Leads.append {segs blanks rest : List String} {there : Address}
    (h : Leads fs last n here (segs ++ blanks) (.occupied there .directory))
    (hblanks : FilePath.Blank blanks) (hrest : rest ≠ [])
    (hon : ∀ n, Leads fs last n there rest d) : Leads fs last n here (segs ++ rest) d := by
  generalize hall : segs ++ blanks = all at h
  generalize hthere : Destination.occupied there .directory = found at h
  induction h generalizing segs blanks with
  | done n here =>
    -- the end of the path is reached, and `rest` goes on from it
    cases hthere
    obtain ⟨rfl, -⟩ := List.append_eq_nil_iff.mp hall
    exact hon n
  | @blank n here s tail found hs _ ih =>
    -- the segment may be the first one of those that are left out
    rcases List.append_eq_cons_iff.mp hall with ⟨rfl, rfl⟩ | ⟨inner, rfl, rfl⟩
    · exact ih (List.forall_mem_cons.mp hblanks).2 rfl hthere
    · exact .blank hs (ih hblanks rfl hthere)
  | @up n here s tail found hs _ ih =>
    obtain ⟨inner, rfl, rfl⟩ := exists_of_append_blanks hblanks hall (by rw [hs]; simp)
    exact .up hs (ih hblanks rfl hthere)
  | @down n here s tail found hs hget _ ih =>
    obtain ⟨inner, rfl, rfl⟩ := exists_of_append_blanks hblanks hall (by rw [hs.named]; simp)
    exact .down hs hget (ih hblanks rfl hthere)
  | file _ _ => cases hthere
  | vacant _ _ => cases hthere
  | stop _ _ _ => cases hthere
  | @follow n here s tail found target hs hget _ _ ih =>
    obtain ⟨inner, rfl, rfl⟩ := exists_of_append_blanks hblanks hall (by rw [hs.named]; simp)
    -- the target comes in front of what is left, so the induction is over all segments
    have hnext := ih hblanks (List.append_assoc _ _ _) hthere
    rw [List.append_assoc] at hnext
    exact .follow hs hget (.inl (by simp [hrest])) hnext

/-- A path to an entry, with a link at its end left alone: it leads to the entry or to a link. -/
theorem Leads.unfollowed {there : Address}
    (h : Leads fs true n here segs (.occupied there e)) :
    Leads fs false n here segs (.occupied there e) ∨
      ∃ a target, Leads fs false n here segs (.occupied a (.link target)) := by
  generalize hthere : Destination.occupied there e = found at h
  induction h with
  | done n here => exact .inl (.done n here)
  | blank hs _ ih =>
    rcases ih hthere with h | ⟨a, target, h⟩
    · exact .inl (.blank hs h)
    · exact .inr ⟨a, target, .blank hs h⟩
  | up hs _ ih =>
    rcases ih hthere with h | ⟨a, target, h⟩
    · exact .inl (.up hs h)
    · exact .inr ⟨a, target, .up hs h⟩
  | down hs hget _ ih =>
    rcases ih hthere with h | ⟨a, target, h⟩
    · exact .inl (.down hs hget h)
    · exact .inr ⟨a, target, .down hs hget h⟩
  | file hs hget => exact .inl (.file hs hget)
  | vacant _ _ => cases hthere
  | stop _ _ hlast => cases hlast
  | @follow n here s rest d target hs hget _ _ ih =>
    -- only a link in the last place is left alone
    by_cases hrest : rest = []
    · subst hrest
      exact .inr ⟨_, target, .stop hs hget rfl⟩
    · rcases ih hthere with h | ⟨a, target, h⟩
      · exact .inl (.follow hs hget (.inl hrest) h)
      · exact .inr ⟨a, target, .follow hs hget (.inl hrest) h⟩

/-- A path whose links are all followed leads to no link. -/
theorem Leads.ne_link (h : Leads fs true n here segs (.occupied a e)) (target : FilePath) :
    e ≠ .link target := by
  generalize hfound : Destination.occupied a e = found at h
  induction h with
  | done n here => cases hfound; exact Entry.noConfusion
  | blank _ _ ih => exact ih hfound
  | up _ _ ih => exact ih hfound
  | down _ _ _ ih => exact ih hfound
  | file _ _ => cases hfound; exact Entry.noConfusion
  | vacant _ _ => cases hfound
  | stop _ _ hlast => cases hlast
  | follow _ _ _ _ ih => exact ih hfound

/-! ### Paths from their start -/

theorem resolve_eq_ok_iff : fs.resolve last p = .ok d ↔
    p.text ≠ "" ∧ Leads fs last linkLimit (fs.start p) p.segments d := by
  unfold resolve
  split
  · next hempty => simp [hempty]
  · next hsome =>
    rw [resolveSegments, leads_iff]
    exact (and_iff_right hsome).symm

theorem entry_eq_ok_iff :
    fs.entry last p = .ok (a, e) ↔ fs.resolve last p = .ok (.occupied a e) := by
  unfold entry
  cases fs.resolve last p with
  | error e => simp
  | ok d => cases d <;> simp

theorem ne_link_of_entry (h : fs.entry true p = .ok (a, e)) (target : FilePath) :
    e ≠ .link target :=
  (resolve_eq_ok_iff.mp (entry_eq_ok_iff.mp h)).2.ne_link target

/-- With a link at its end left alone a path leads to the same entry or to the link. -/
theorem entry_unfollowed (h : fs.entry true p = .ok (a, e)) :
    fs.entry false p = .ok (a, e) ∨ ∃ b target, fs.entry false p = .ok (b, .link target) := by
  obtain ⟨hne, hleads⟩ := resolve_eq_ok_iff.mp (entry_eq_ok_iff.mp h)
  rcases hleads.unfollowed with hstays | ⟨b, target, hlink⟩
  · exact .inl (entry_eq_ok_iff.mpr (resolve_eq_ok_iff.mpr ⟨hne, hstays⟩))
  · exact .inr ⟨b, target, entry_eq_ok_iff.mpr (resolve_eq_ok_iff.mpr ⟨hne, hlink⟩)⟩

theorem WellFormed.get?_start (hfs : fs.WellFormed) (p : FilePath) :
    fs.get? (fs.start p) = some .directory := by
  unfold start
  split
  · rfl
  · exact hfs.working

/-- Segments from the start of a path, which need not be all of its own. -/
theorem WellFormed.tells_of_resolveSegments (hfs : fs.WellFormed) (hsegs : Segmented segs)
    (h : fs.resolveSegments last p.isAbsolute segs = .ok d) : fs.Tells d :=
  (leads_iff.mp h).tells hfs (hfs.get?_start p) hsegs

theorem WellFormed.tells_of_resolve (hfs : fs.WellFormed) (h : fs.resolve last p = .ok d) :
    fs.Tells d :=
  (resolve_eq_ok_iff.mp h).2.tells hfs (hfs.get?_start p) (segmented_segments p)

theorem WellFormed.get?_of_entry (hfs : fs.WellFormed) (h : fs.entry last p = .ok (a, e)) :
    fs.get? a = some e :=
  hfs.tells_of_resolve (entry_eq_ok_iff.mp h)

theorem readText_of_entry {text : String} (h : fs.entry true p = .ok (a, .file (.text text))) :
    fs.readText p = .ok text := by
  rw [readText, read, h]

theorem exists_entry_of_readText {text : String} (h : fs.readText p = .ok text) :
    ∃ a, fs.entry true p = .ok (a, .file (.text text)) := by
  unfold readText read at h
  cases hentry : fs.entry true p with
  | error e =>
    rw [hentry] at h
    cases h
  | ok found =>
    obtain ⟨a, e⟩ := found
    rw [hentry] at h
    cases e with
    | file c =>
      cases c with
      | text s =>
        cases h
        exact ⟨a, rfl⟩
      | binary bytes => cases h
    | directory => cases h
    | link target => cases h

end FileSystem

end FieldGraft
