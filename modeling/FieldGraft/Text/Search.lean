/-!
# Finding and replacing text

The few operations on character lists that path texts and annotation texts need: joining,
recognising a lead, replacing an inner text, and looking at what follows the last `::`.
-/

namespace FieldGraft.Text

/-- Writes `glue` between the pieces. -/
def join (glue : List Char) : List (List Char) → List Char
  | [] => []
  | [p] => p
  | p :: q :: ps => p ++ glue ++ join glue (q :: ps)

theorem join_cons {glue p : List Char} {ps : List (List Char)} (h : ps ≠ []) :
    join glue (p :: ps) = p ++ (glue ++ join glue ps) := by
  obtain ⟨q, qs, rfl⟩ := List.exists_cons_of_ne_nil h
  rw [join, List.append_assoc]

/-- The rest of `cs` after `lead`, if `cs` starts with it. -/
def dropLead? : (lead cs : List Char) → Option (List Char)
  | [], cs => some cs
  | _ :: _, [] => none
  | l :: ls, c :: cs => if l = c then dropLead? ls cs else none

/-- What follows a lead is the text with the lead taken off the front. -/
theorem eq_append_of_dropLead? {lead cs rest : List Char} (h : dropLead? lead cs = some rest) :
    cs = lead ++ rest := by
  induction lead generalizing cs with
  | nil => simpa [dropLead?] using h
  | cons l ls ih =>
    cases cs with
    | nil => simp [dropLead?] at h
    | cons c cs =>
      by_cases hlc : l = c
      · simp [dropLead?, hlc] at h
        simp [hlc, ih h]
      · simp [dropLead?, hlc] at h

/-- A lead can always be taken off again. -/
@[simp] theorem dropLead?_append (lead rest : List Char) :
    dropLead? lead (lead ++ rest) = some rest := by
  induction lead with
  | nil => rfl
  | cons l ls ih => simp [dropLead?, ih]

/-- Whether `cs` starts with the text `lead`. -/
def startsWith (cs : List Char) (lead : String) : Bool :=
  (dropLead? lead.toList cs).isSome

/-- Replaces, from left to right and without overlap, the occurrences of `old` by `new`, looking
at no more than `fuel` places. -/
def replaceUpTo (old new : List Char) : Nat → List Char → List Char
  | 0, cs => cs
  | _ + 1, [] => []
  | fuel + 1, c :: cs =>
    match dropLead? old (c :: cs) with
    | some rest => new ++ replaceUpTo old new fuel rest
    | none => c :: replaceUpTo old new fuel cs

/-- Every occurrence of `old` becomes `new`. A text has no more places than characters. -/
def replace (old new cs : List Char) : List Char :=
  replaceUpTo old new cs.length cs

section Replace

variable {old new cs : List Char}

/-- Every two fuels that cover the text replace alike. -/
theorem replaceUpTo_congr (hold : old ≠ []) {fuel fuel' : Nat} (h : cs.length ≤ fuel)
    (h' : cs.length ≤ fuel') : replaceUpTo old new fuel cs = replaceUpTo old new fuel' cs := by
  induction fuel generalizing fuel' cs with
  | zero =>
    rw [List.eq_nil_of_length_eq_zero (Nat.le_zero.mp h)]
    cases fuel' <;> rfl
  | succ fuel ih =>
    cases cs with
    | nil => cases fuel' <;> rfl
    | cons c cs =>
      obtain ⟨fuel', rfl⟩ : ∃ k, fuel' = k + 1 := ⟨fuel' - 1, by rw [List.length_cons] at h'; omega⟩
      rw [List.length_cons] at h h'
      rw [replaceUpTo, replaceUpTo]
      cases hlead : dropLead? old (c :: cs) with
      | none => simp only [ih (Nat.le_of_succ_le_succ h) (Nat.le_of_succ_le_succ h')]
      | some rest =>
        -- the found word is not empty, so the rest is shorter
        have hlength := congrArg List.length (eq_append_of_dropLead? hlead)
        have hpos := List.length_pos_iff.mpr hold
        rw [List.length_cons, List.length_append] at hlength
        have hrest : replaceUpTo old new fuel rest = replaceUpTo old new fuel' rest :=
          ih (by omega) (by omega)
        simp only [hrest]

/-- Looking at more places than there are changes nothing. -/
theorem replaceUpTo_of_length_le (hold : old ≠ []) {fuel : Nat} (h : cs.length ≤ fuel) :
    replaceUpTo old new fuel cs = replace old new cs :=
  replaceUpTo_congr hold h (Nat.le_refl _)

theorem replace_lead_append (hold : old ≠ []) (rest : List Char) :
    replace old new (old ++ rest) = new ++ replace old new rest := by
  obtain ⟨o, os, rfl⟩ := List.exists_cons_of_ne_nil hold
  have hlead := dropLead?_append (o :: os) rest
  rw [List.cons_append] at hlead
  rw [replace, List.cons_append, List.length_cons, replaceUpTo, hlead]
  dsimp only
  rw [replaceUpTo_of_length_le hold (by rw [List.length_append]; omega)]

theorem replace_cons {c : Char} (h : dropLead? old (c :: cs) = none) :
    replace old new (c :: cs) = c :: replace old new cs := by
  rw [replace, List.length_cons, replaceUpTo, h, replace]

/-- A text without the first character of what is replaced stays. -/
theorem replace_append_of_forall_ne {o : Char} {os w : List Char} (h : ∀ c ∈ w, c ≠ o) :
    replace (o :: os) new (w ++ cs) = w ++ replace (o :: os) new cs := by
  induction w with
  | nil => rfl
  | cons c w ih =>
    obtain ⟨hc, hw⟩ := List.forall_mem_cons.mp h
    have hlead : dropLead? (o :: os) (c :: (w ++ cs)) = none := if_neg (Ne.symm hc)
    rw [List.cons_append, replace_cons hlead, ih hw, List.cons_append]

end Replace

/-- What follows the rightmost `::`, if there is one. -/
def afterLastSeparator? : List Char → Option (List Char)
  | ':' :: ':' :: rest =>
    match afterLastSeparator? (':' :: rest) with
    | some tail => some tail
    | none => some rest
  | _ :: rest => afterLastSeparator? rest
  | [] => none

theorem afterLastSeparator?_of_forall_ne {cs : List Char} (h : ∀ c ∈ cs, c ≠ ':') :
    afterLastSeparator? cs = none := by
  induction cs with
  | nil => rfl
  | cons c cs ih =>
    obtain ⟨hc, hcs⟩ := List.forall_mem_cons.mp h
    rw [afterLastSeparator?, ih hcs]
    rintro rest rfl
    exact absurd rfl hc

/-- Behind a separator the last one is looked for. -/
theorem afterLastSeparator?_append {w cs : List Char} (hw : ∀ c ∈ w, c ≠ ':')
    (hcs : cs.head? ≠ some ':') :
    afterLastSeparator? (w ++ ':' :: ':' :: cs) = some ((afterLastSeparator? cs).getD cs) := by
  induction w with
  | nil =>
    have hone : afterLastSeparator? (':' :: cs) = afterLastSeparator? cs := by
      cases cs with
      | nil => rfl
      | cons c cs =>
        rw [afterLastSeparator?]
        rintro rest - heq
        rw [heq] at hcs
        exact hcs rfl
    rw [List.nil_append, afterLastSeparator?, hone]
    cases afterLastSeparator? cs <;> rfl
  | cons c w ih =>
    obtain ⟨hc, hw⟩ := List.forall_mem_cons.mp hw
    rw [List.cons_append, afterLastSeparator?, ih hw]
    rintro rest rfl
    exact absurd rfl hc

/-- Lower-case hexadecimal digits of a number, without leading zeros. -/
def hex (n : Nat) : String :=
  String.ofList (Nat.toDigits 16 n)

end FieldGraft.Text
