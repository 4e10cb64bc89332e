/-!
# Blank characters

Annotation texts are read with the `White_Space` property of the Unicode standard: it separates
modifier keywords, it is what a type text is normalised over, and it may stand between tokens.

* `isBlank` is the property.
* `words` cuts a text at its blanks; `wordsBy_append_sep` is the equation that all else about words
  follows from, `wordsBy_word_append` among it.
-/

namespace FieldGraft.Text

/-- The characters with the `White_Space` property. -/
def isBlank (c : Char) : Bool :=
  let n := c.toNat
  (0x09 ≤ n && n ≤ 0x0d) || n == 0x20 || n == 0x85 || n == 0xa0 || n == 0x1680 ||
    (0x2000 ≤ n && n ≤ 0x200a) || n == 0x2028 || n == 0x2029 || n == 0x202f || n == 0x205f ||
    n == 0x3000

/-- Splits at every character satisfying `sep`; empty pieces are kept. -/
def pieces (sep : Char → Bool) : List Char → List (List Char)
  | [] => [[]]
  | c :: cs =>
    if sep c then [] :: pieces sep cs
    else match pieces sep cs with
      | [] => [[c]]
      | p :: ps => (c :: p) :: ps

/-- The non-empty pieces between separators. -/
def wordsBy (sep : Char → Bool) (cs : List Char) : List (List Char) :=
  (pieces sep cs).filter (fun p => !p.isEmpty)

/-- The words of a text: its maximal runs of non-blank characters. -/
def words (cs : List Char) : List (List Char) :=
  wordsBy isBlank cs

@[simp] theorem wordsBy_nil (sep : Char → Bool) : wordsBy sep [] = [] := rfl

/-- A text has at least one piece. -/
theorem pieces_ne_nil (sep : Char → Bool) (cs : List Char) : pieces sep cs ≠ [] := by
  induction cs with
  | nil => simp [pieces]
  | cons c cs ih =>
    simp only [pieces]
    split
    · simp
    · split <;> simp

/-- A separator ends the pieces of the text before it. -/
theorem pieces_append_sep {sep : Char → Bool} {c : Char} (h : sep c = true) (xs ys : List Char) :
    pieces sep (xs ++ c :: ys) = pieces sep xs ++ pieces sep ys := by
  induction xs with
  | nil => simp [pieces, h]
  | cons x xs ih =>
    by_cases hx : sep x = true
    · simp [pieces, hx, ih]
    · obtain ⟨p, ps, hp⟩ := List.exists_cons_of_ne_nil (pieces_ne_nil sep xs)
      simp [pieces, hx, ih, hp]

/-- The words of a text are those before a separator and those after it. -/
theorem wordsBy_append_sep {sep : Char → Bool} {c : Char} (h : sep c = true) (xs ys : List Char) :
    wordsBy sep (xs ++ c :: ys) = wordsBy sep xs ++ wordsBy sep ys := by
  simp [wordsBy, pieces_append_sep h]

/-- A separator at the front contributes nothing. -/
theorem wordsBy_cons_sep {sep : Char → Bool} {c : Char} (h : sep c = true) (cs : List Char) :
    wordsBy sep (c :: cs) = wordsBy sep cs :=
  wordsBy_append_sep h [] cs

@[simp] theorem words_nil : words [] = [] := rfl

/-- A text without separators is a single piece. -/
theorem pieces_of_forall {sep : Char → Bool} {cs : List Char} (h : ∀ c ∈ cs, sep c = false) :
    pieces sep cs = [cs] := by
  induction cs with
  | nil => rfl
  | cons c cs ih =>
    obtain ⟨hc, hcs⟩ := List.forall_mem_cons.mp h
    simp [pieces, hc, ih hcs]

/-- A text without separators is a single word. -/
theorem wordsBy_of_forall {sep : Char → Bool} {cs : List Char} (hne : cs ≠ [])
    (h : ∀ c ∈ cs, sep c = false) : wordsBy sep cs = [cs] := by
  simp [wordsBy, pieces_of_forall h, hne]

/-- Separators at the front contribute nothing. -/
theorem wordsBy_append_seps {sep : Char → Bool} {gap : List Char}
    (hgap : ∀ c ∈ gap, sep c = true) (cs : List Char) :
    wordsBy sep (gap ++ cs) = wordsBy sep cs := by
  induction gap with
  | nil => rfl
  | cons c gap ih =>
    obtain ⟨hc, hrest⟩ := List.forall_mem_cons.mp hgap
    rw [List.cons_append, wordsBy_cons_sep hc, ih hrest]

/-- A word ends where separators follow. -/
theorem wordsBy_word_append {sep : Char → Bool} {w gap : List Char} (hne : w ≠ [])
    (hw : ∀ c ∈ w, sep c = false) (hgap : ∀ c ∈ gap, sep c = true) (hopen : gap ≠ [])
    (cs : List Char) : wordsBy sep (w ++ (gap ++ cs)) = w :: wordsBy sep cs := by
  obtain ⟨c, gap, rfl⟩ := List.exists_cons_of_ne_nil hopen
  obtain ⟨hc, hrest⟩ := List.forall_mem_cons.mp hgap
  rw [List.cons_append, wordsBy_append_sep hc, wordsBy_of_forall hne hw,
    wordsBy_append_seps hrest, List.singleton_append]

/-- A word goes on up to the next separator. -/
theorem wordsBy_append_of_forall {sep : Char → Bool} {w : List Char}
    (hw : ∀ c ∈ w, sep c = false) {c : Char} (hc : sep c = false) (cs : List Char) :
    ∃ p ps, wordsBy sep (c :: cs) = p :: ps ∧ wordsBy sep (w ++ c :: cs) = (w ++ p) :: ps := by
  have hpieces : ∀ {w : List Char} {p : List Char} {ps : List (List Char)},
      (∀ c ∈ w, sep c = false) → pieces sep (c :: cs) = p :: ps →
      pieces sep (w ++ c :: cs) = (w ++ p) :: ps := by
    intro w p ps hw hp
    induction w with
    | nil => exact hp
    | cons d w ih =>
      obtain ⟨hd, hw⟩ := List.forall_mem_cons.mp hw
      rw [List.cons_append, pieces, hd, if_neg Bool.false_ne_true, ih hw]
      rfl
  obtain ⟨p, ps, hcs⟩ := List.exists_cons_of_ne_nil (pieces_ne_nil sep cs)
  have hp : pieces sep (c :: cs) = (c :: p) :: ps := by
    rw [pieces, hc, if_neg Bool.false_ne_true, hcs]
  refine ⟨c :: p, ps.filter (fun p => !p.isEmpty), ?_, ?_⟩
  · rw [wordsBy, hp, List.filter_cons_of_pos (by rfl)]
  · rw [wordsBy, hpieces hw hp, List.filter_cons_of_pos (by cases w <;> rfl)]

end FieldGraft.Text
