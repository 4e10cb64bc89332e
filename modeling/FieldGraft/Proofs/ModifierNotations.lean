import FieldGraft.Annotation
import Mathlib.Data.List.Forall2

/-!
# Two notations for modifiers

Modifiers are written as an expression: literals joined by `|`, with parentheses. A literal is a
number, or a text of keywords, which is checked on its own. The expression as a whole is checked at
the end.

* `Code.Joins` — an expression of this form, and its literals from left to right. Grouping does not
  matter: `modifierBits_of_joins` joins the literals one by one, and the first fault among them
  wins.
* `Code.Denotes` — an expression that writes given keywords, as one text or by their numbers. Both
  come to `Modifiers.all` of the keywords, and the check of a text and the check at the end refuse
  the same (`readModifiers_of_denotes`).
* `Annotations.Properties.finish_notations` — what becomes of a requested field is the same however
  its modifiers are written, and a text with other words is refused for the first of them.
-/

namespace FieldGraft

/-! ### Sets of flags -/

namespace Modifiers

attribute [ext] Modifiers

theorem bits_lt (m : Modifiers) : m.bits < 32 := by
  obtain ⟨a, b, c, d, e⟩ := m
  revert a b c d e
  decide

theorem ofLowBits_bits (m : Modifiers) : ofLowBits m.bits = m := by
  obtain ⟨a, b, c, d, e⟩ := m
  revert a b c d e
  decide

/-- The flags of both sets have the bits of both numbers. -/
theorem bits_union (a b : Modifiers) : (a.union b).bits = a.bits ||| b.bits := by
  obtain ⟨a₁, a₂, a₃, a₄, a₅⟩ := a
  obtain ⟨b₁, b₂, b₃, b₄, b₅⟩ := b
  revert a₁ a₂ a₃ a₄ a₅ b₁ b₂ b₃ b₄ b₅
  decide +kernel

/-- A number with known bits is accepted unless it asks for two visibilities. -/
theorem ofBits_bits (m : Modifiers) :
    ofBits m.bits = if m.visibilityCount ≤ 1 then .ok m else .error (.conflictingVisibility m) := by
  rw [ofBits, if_pos m.bits_lt, ofLowBits_bits]

/-- The flags of a list of keywords. -/
def all (ks : List (String × Modifiers)) : Modifiers :=
  ks.foldr (fun k m => k.2.union m) none

/-- A flag is set iff one of the keywords sets it. -/
theorem flag_all (flag : Modifiers → Bool) (hnone : flag none = false)
    (hunion : ∀ a b : Modifiers, flag (a.union b) = (flag a || flag b))
    (ks : List (String × Modifiers)) : flag (all ks) = ks.any (fun k => flag k.2) := by
  induction ks with
  | nil => exact hnone
  | cons k ks ih => rw [all, List.foldr_cons, hunion, ← all, ih, List.any_cons]

/-- Neither order nor repetition matters. -/
theorem all_congr {ks ks' : List (String × Modifiers)} (h : ∀ k, k ∈ ks ↔ k ∈ ks') :
    all ks = all ks' := by
  -- each flag of a union says whether some keyword sets it, so the order and repetitions do not
  -- matter
  have hflag : ∀ flag : Modifiers → Bool, flag none = false →
      (∀ a b : Modifiers, flag (a.union b) = (flag a || flag b)) →
      flag (all ks) = flag (all ks') := by
    intro flag hnone hunion
    rw [flag_all flag hnone hunion, flag_all flag hnone hunion, Bool.eq_iff_iff, List.any_eq_true,
      List.any_eq_true]
    exact exists_congr fun k => and_congr_left fun _ => h k
  ext1
  · exact hflag isPublic rfl fun _ _ => rfl
  · exact hflag isPrivate rfl fun _ _ => rfl
  · exact hflag isProtected rfl fun _ _ => rfl
  · exact hflag isStatic rfl fun _ _ => rfl
  · exact hflag isFinal rfl fun _ _ => rfl

/-! ### Texts of keywords -/

/-- Non-empty and without separators. -/
def IsWord (w : String) : Prop :=
  w.toList ≠ [] ∧ ∀ c ∈ w.toList, isSeparator c = false

/-- Blanks and `|`, or nothing. -/
def IsGap (gap : List Char) : Prop :=
  ∀ c ∈ gap, isSeparator c = true

instance (w : String) : Decidable (IsWord w) :=
  decidable_of_iff (w.toList ≠ [] ∧ w.toList.all (fun c => !isSeparator c) = true)
    (by simp [IsWord])

instance (gap : List Char) : Decidable (IsGap gap) :=
  decidable_of_iff (gap.all isSeparator = true) List.all_eq_true

/-- Words with gaps between them, the first one at the front. -/
inductive Apart : List String → List Char → Prop where
  | last {w : String} {gap : List Char} (hw : IsWord w) (hgap : IsGap gap) :
      Apart [w] (w.toList ++ gap)
  | more {w : String} {ws : List String} {gap cs : List Char} (hw : IsWord w) (hgap : IsGap gap)
      (hopen : gap ≠ []) (h : Apart ws cs) : Apart (w :: ws) (w.toList ++ (gap ++ cs))

/-- A text that writes the words with gaps between them, and perhaps around them. -/
inductive WritesApart (ws : List String) : String → Prop where
  | text {lead cs : List Char} (hlead : IsGap lead) (h : Apart ws cs) :
      WritesApart ws (String.ofList (lead ++ cs))

theorem Apart.wordsBy_eq {ws : List String} {cs : List Char} (h : Apart ws cs) :
    Text.wordsBy isSeparator cs = ws.map String.toList := by
  induction h with
  | @last w gap hw hgap =>
    cases gap with
    | nil => rw [List.append_nil, Text.wordsBy_of_forall hw.1 hw.2]; rfl
    | cons c gap =>
      have hwords := Text.wordsBy_word_append hw.1 hw.2 hgap (List.cons_ne_nil c gap) []
      rwa [List.append_nil] at hwords
  | more hw hgap hopen _ ih => rw [Text.wordsBy_word_append hw.1 hw.2 hgap hopen, ih]; rfl

theorem WritesApart.wordsBy_eq {ws : List String} {text : String} (h : WritesApart ws text) :
    Text.wordsBy isSeparator text.toList = ws.map String.toList := by
  obtain ⟨hlead, h⟩ := h
  rw [String.toList_ofList, Text.wordsBy_append_seps hlead, h.wordsBy_eq]

theorem ofKeyword_of_mem {k : String × Modifiers} (hk : k ∈ keywords) :
    ofKeyword k.1.toList = .ok k.2 := by
  have hall : ∀ k ∈ keywords, ofKeyword k.1.toList = .ok k.2 := by decide +kernel
  exact hall k hk

/-- A word that is no keyword is refused. -/
theorem ofKeyword_of_not_mem {w : String} (hw : ∀ k ∈ keywords, k.1 ≠ w) :
    ofKeyword w.toList = .error (.unknownKeyword w) := by
  have hnone : keywords.find? (fun k => k.1.toList == w.toList) = .none := by
    rw [List.find?_eq_none]
    intro k hk heq
    exact hw k hk (String.toList_inj.mp (beq_iff_eq.mp heq))
  rw [ofKeyword, hnone, String.ofList_toList]

/-- Keywords in front contribute their flags, unless what follows them is refused. -/
theorem ofWords_append {ks : List (String × Modifiers)} (hks : ∀ k ∈ ks, k ∈ keywords)
    (ws : List (List Char)) :
    ofWords (ks.map (String.toList ∘ Prod.fst) ++ ws) =
      (ofWords ws).map (fun m => ks.foldr (fun k m => k.2.union m) m) := by
  induction ks with
  | nil => cases h : ofWords ws <;> simp [h, Except.map]
  | cons k ks ih =>
    obtain ⟨hk, hrest⟩ := List.forall_mem_cons.mp hks
    rw [List.map_cons, List.cons_append, ofWords, Function.comp_apply, ofKeyword_of_mem hk,
      ih hrest]
    cases ofWords ws <;> rfl

theorem ofKeywords_of_writesApart {ks : List (String × Modifiers)} {text : String}
    (hks : ∀ k ∈ ks, k ∈ keywords) (h : WritesApart (ks.map Prod.fst) text) :
    ofKeywords text = ofBits (all ks).bits := by
  have hwords := ofWords_append hks []
  rw [List.append_nil] at hwords
  rw [ofKeywords, h.wordsBy_eq, List.map_map, hwords]
  rfl

/-- A text is refused for its first word that is no keyword. -/
theorem ofKeywords_of_unknown {ks : List (String × Modifiers)} {w : String} {ws : List String}
    {text : String} (hks : ∀ k ∈ ks, k ∈ keywords) (hw : ∀ k ∈ keywords, k.1 ≠ w)
    (h : WritesApart (ks.map Prod.fst ++ w :: ws) text) :
    ofKeywords text = .error (.unknownKeyword w) := by
  have hwords := ofWords_append hks (w.toList :: ws.map String.toList)
  rw [ofWords, ofKeyword_of_not_mem hw] at hwords
  rw [ofKeywords, h.wordsBy_eq, List.map_append, List.map_map, List.map_cons, hwords]
  rfl

end Modifiers

/-! ### Expressions -/

/-- **A modifier expression**: literals joined by `|`, with parentheses. The texts are those of its
literals, from left to right. -/
inductive Code.Joins : Code → List String → Prop where
  | literal {pos : Position} (text : String) : Joins (.tree (.leaf pos (.literal text))) [text]
  | bar {pos : Position} {l r : Code} {ls rs : List String} (hl : l.Joins ls) (hr : r.Joins rs) :
      Joins (.node .binary [l, .op pos "|", r]) (ls ++ rs)
  | paren {pos : Position} {e : Code} {ls : List String} (h : e.Joins ls) :
      Joins (.node .paren [.group pos .paren [e]]) ls

namespace Annotations

/-- The bits of a literal. -/
def literalBits (text : String) : Except AnnotationError Nat :=
  modifierBits (.tree (.leaf {} (.literal text)))

/-- The bits of both sides; the left one is read first. -/
def joinBits : Except AnnotationError Nat → Except AnnotationError Nat → Except AnnotationError Nat
  | .error e, _ => .error e
  | .ok _, .error e => .error e
  | .ok a, .ok b => .ok (a ||| b)

@[simp] theorem joinBits_zero (a : Except AnnotationError Nat) : joinBits a (.ok 0) = a := by
  cases a with
  | error e => rfl
  | ok n => exact congrArg Except.ok (Nat.or_zero n)

theorem joinBits_assoc (a b c : Except AnnotationError Nat) :
    joinBits (joinBits a b) c = joinBits a (joinBits b c) := by
  cases a with
  | error e => rfl
  | ok m =>
    cases b with
    | error e => rfl
    | ok n =>
      cases c with
      | error e => rfl
      | ok k => exact congrArg Except.ok (Nat.or_assoc m n k)

/-- The bits of literals, up to the first one at fault. -/
def literalsBits (ls : List String) : Except AnnotationError Nat :=
  ls.foldr (fun text rest => joinBits (literalBits text) rest) (.ok 0)

theorem literalsBits_append (ls rs : List String) :
    literalsBits (ls ++ rs) = joinBits (literalsBits ls) (literalsBits rs) := by
  induction ls with
  -- nothing stands in front, and joining with no bits changes nothing
  | nil =>
    show literalsBits rs = joinBits (.ok 0) (literalsBits rs)
    cases literalsBits rs with
    | error e => rfl
    | ok n => exact congrArg Except.ok (Nat.zero_or n).symm
  | cons text ls ih =>
    -- the first text stands in front of both lists, and joining is associative
    show joinBits (literalBits text) (literalsBits (ls ++ rs)) =
      joinBits (joinBits (literalBits text) (literalsBits ls)) (literalsBits rs)
    rw [ih, joinBits_assoc]

/-- **Grouping does not matter**: the literals of an expression are joined one by one. -/
theorem modifierBits_of_joins {e : Code} {ls : List String} (h : e.Joins ls) :
    modifierBits e = literalsBits ls := by
  induction h with
  | literal text => exact (joinBits_zero (literalBits text)).symm
  | @bar pos l r ls rs hl hr ihl ihr =>
    rw [literalsBits_append, ← ihl, ← ihr, modifierBits]
    cases modifierBits l with
    | error e => rfl
    | ok a => cases modifierBits r <;> rfl
  | paren h ih => rw [modifierBits, ih]

end Annotations

/-! ### Keywords and numbers -/

/-- **An expression that writes keywords**, as one text or each by its number. -/
inductive Code.Denotes (ks : List (String × Modifiers)) : Code → Prop where
  | words {e : Code} {literal text : String} (he : e.Joins [literal])
      (hvalue : Literal.stringValue? literal = some text)
      (htext : Modifiers.WritesApart (ks.map Prod.fst) text) : Denotes ks e
  | numbers {e : Code} {literals : List String} (he : e.Joins literals)
      (hvalues : List.Forall₂ (fun l k => Literal.integerValue? l = some k.2.bits) literals ks) :
      Denotes ks e

namespace Annotations

/-- A text is no number. -/
theorem literalBits_of_stringValue {literal text : String}
    (h : Literal.stringValue? literal = some text) :
    literalBits literal = match Modifiers.ofKeywords text with
      | .ok m => .ok m.bits
      | .error e => .error (.modifiers e) := by
  -- a string literal is no number, whichever kind of quote it has
  have hnumber : Literal.integerValue? literal = none := by
    unfold Literal.stringValue? at h
    unfold Literal.integerValue?
    split at h
    · next hquote => rw [hquote]; rfl
    · next hraw => rw [hraw]; rfl
    · cases h
  rw [literalBits, modifierBits, hnumber]
  dsimp only
  generalize Literal.stringValue? literal = value at h
  subst h
  rfl

theorem literalBits_of_integerValue {literal : String} {m : Modifiers}
    (h : Literal.integerValue? literal = some m.bits) : literalBits literal = .ok m.bits := by
  have hlt : m.bits < 0x10000000000000000 := Nat.lt_trans m.bits_lt (by decide)
  rw [literalBits, modifierBits, h]
  exact if_pos hlt

/-- The numbers of keywords come to the number of all of them. -/
theorem literalsBits_of_numbers {literals : List String} {ks : List (String × Modifiers)}
    (h : List.Forall₂ (fun l k => Literal.integerValue? l = some k.2.bits) literals ks) :
    literalsBits literals = .ok (Modifiers.all ks).bits := by
  induction h with
  | nil => rfl
  | @cons l k ls ks hl _ ih =>
    show joinBits (literalBits l) (literalsBits ls) = .ok (k.2.union (Modifiers.all ks)).bits
    rw [literalBits_of_integerValue hl, ih, Modifiers.bits_union]
    rfl

/-- **What keywords are read as**, in either notation. A text of keywords is checked for itself and
then once more, which finds nothing new. -/
theorem readModifiers_of_denotes {ks : List (String × Modifiers)} {e : Code}
    (hks : ∀ k ∈ ks, k ∈ Modifiers.keywords) (h : e.Denotes ks) (p : Properties)
    (hp : p.modifiers = some e) (default : Modifiers) :
    p.readModifiers default = match Modifiers.ofBits (Modifiers.all ks).bits with
      | .ok m => .ok m
      | .error e => .error (.modifiers e) := by
  rw [Properties.readModifiers, hp]
  dsimp only
  cases h with
  | @numbers literals he hvalues =>
    -- the bits of the numbers are joined, which is what the keywords mean
    have hbits := (modifierBits_of_joins he).trans (literalsBits_of_numbers hvalues)
    generalize modifierBits e = value at hbits
    subst hbits
    rfl
  | @words literal text he hvalue htext =>
    -- the keywords of the text are read as one literal, and nothing is joined to it
    have hbits : modifierBits e = match Modifiers.ofBits (Modifiers.all ks).bits with
        | .ok m => .ok m.bits
        | .error e => .error (.modifiers e) := by
      rw [modifierBits_of_joins he, ← Modifiers.ofKeywords_of_writesApart hks htext,
        ← literalBits_of_stringValue hvalue]
      exact joinBits_zero _
    rw [hbits, Modifiers.ofBits_bits]
    -- `ofBits` refuses more than one visibility at the keywords and at the end alike
    by_cases hcount : (Modifiers.all ks).visibilityCount ≤ 1
    · rw [if_pos hcount]
      dsimp only
      rw [Modifiers.ofBits_bits, if_pos hcount]
    · rw [if_neg hcount]

/-- Only what the modifiers are read as matters for the field. -/
theorem Properties.finish_congr {p q : Properties} {default : Modifiers} (hname : p.name = q.name)
    (hty : p.ty = q.ty) (h : p.readModifiers default = q.readModifiers default) :
    p.finish default = q.finish default := by
  unfold finish
  rw [hname, hty, h]

/-- The properties with another modifier expression. -/
def Properties.withModifiers (p : Properties) (e : Code) : Properties :=
  { p with modifiers := some e }

/-- A text with a word that is no keyword is refused for it. -/
theorem readModifiers_of_unknown {ks : List (String × Modifiers)} {w : String} {ws : List String}
    {e : Code} {literal text : String} (hks : ∀ k ∈ ks, k ∈ Modifiers.keywords)
    (hw : ∀ k ∈ Modifiers.keywords, k.1 ≠ w) (he : e.Joins [literal])
    (hvalue : Literal.stringValue? literal = some text)
    (htext : Modifiers.WritesApart (ks.map Prod.fst ++ w :: ws) text) (p : Properties)
    (hp : p.modifiers = some e) (default : Modifiers) :
    p.readModifiers default = .error (.modifiers (.unknownKeyword w)) := by
  -- the text is read first, so its fault comes before anything else
  have hbits : modifierBits e = .error (.modifiers (.unknownKeyword w)) := by
    rw [modifierBits_of_joins he]
    show joinBits (literalBits literal) (.ok 0) = _
    rw [literalBits_of_stringValue hvalue, Modifiers.ofKeywords_of_unknown hks hw htext]
    rfl
  rw [Properties.readModifiers, hp]
  dsimp only
  rw [hbits]

/-- **Modifier notations agree.** What becomes of a field, be it a request or an error, depends on
the literals of its modifier expression and their order alone. Keywords may be written in one text
or by their numbers, in any order and repeatedly. A text with another word is refused for the first
one that it has. -/
theorem Properties.finish_notations (p : Properties) (default : Modifiers) :
    (∀ {e e' : Code} {ls : List String}, e.Joins ls → e'.Joins ls →
      (p.withModifiers e).finish default = (p.withModifiers e').finish default) ∧
    (∀ {ks ks' : List (String × Modifiers)} {e e' : Code}, (∀ k ∈ ks, k ∈ Modifiers.keywords) →
      (∀ k, k ∈ ks ↔ k ∈ ks') → e.Denotes ks → e'.Denotes ks' →
      (p.withModifiers e).finish default = (p.withModifiers e').finish default) ∧
    (∀ {ks : List (String × Modifiers)} {w : String} {ws : List String} {e : Code}
        {literal text : String}, (∀ k ∈ ks, k ∈ Modifiers.keywords) →
      (∀ k ∈ Modifiers.keywords, k.1 ≠ w) → e.Joins [literal] →
      Literal.stringValue? literal = some text →
      Modifiers.WritesApart (ks.map Prod.fst ++ w :: ws) text → p.name ≠ none → p.ty ≠ none →
      (p.withModifiers e).finish default = .error (.modifiers (.unknownKeyword w))) := by
  refine ⟨fun {e e' ls} he he' => ?_, fun {ks ks' e e'} hks hsame he he' => ?_,
    fun {ks w ws e literal text} hks hw he hvalue htext hname hty => ?_⟩
  · -- the same literals
    refine finish_congr rfl rfl ?_
    unfold withModifiers readModifiers
    dsimp only
    rw [modifierBits_of_joins he, modifierBits_of_joins he']
  · -- the same keywords
    refine finish_congr rfl rfl ?_
    rw [readModifiers_of_denotes hks he _ rfl,
      readModifiers_of_denotes (fun k hk => hks k ((hsame k).mpr hk)) he' _ rfl,
      Modifiers.all_congr hsame]
  · -- the name and the type are there, so the modifiers are to blame
    have hread := readModifiers_of_unknown hks hw he hvalue htext (p.withModifiers e) rfl default
    obtain ⟨name, hname⟩ := Option.ne_none_iff_exists'.mp hname
    obtain ⟨ty, hty⟩ := Option.ne_none_iff_exists'.mp hty
    have hname' : (p.withModifiers e).name = some name := hname
    have hty' : (p.withModifiers e).ty = some ty := hty
    rw [finish, hname', hty']
    dsimp only
    rw [hread]

/-- A literal as an expression. -/
def literalCode (text : String) : Code :=
  .tree (.leaf {} (.literal text))

/-- Two expressions joined by `|`. -/
def barCode (l r : Code) : Code :=
  .node .binary [l, .op {} "|", r]

/-- An expression in parentheses. -/
def parenCode (e : Code) : Code :=
  .node .paren [.group {} .paren [e]]

/-- `1 | (2 | 16)` is `1 | 2 | 16`, the text `final|public final` is `1 | 16`, and the text
`public pub static` is refused for `pub`. -/
theorem Properties.finish_notations_sample :
    let p : Properties := { name := some "x", ty := some ⟨"u8"⟩ }
    let one := literalCode "1"
    let two := literalCode "2"
    let sixteen := literalCode "0x10"
    (p.withModifiers (barCode one (parenCode (barCode two sixteen)))).finish Modifiers.none =
        (p.withModifiers (barCode (barCode one two) sixteen)).finish Modifiers.none ∧
      (p.withModifiers (literalCode "\"final|public final\"")).finish Modifiers.none =
        (p.withModifiers (barCode one sixteen)).finish Modifiers.none ∧
      (p.withModifiers (literalCode "\"public pub static\"")).finish Modifiers.none =
        .error (.modifiers (.unknownKeyword "pub")) := by
  intro p one two sixteen
  have hone : one.Joins ["1"] := .literal "1"
  have htwo : two.Joins ["2"] := .literal "2"
  have hsixteen : sixteen.Joins ["0x10"] := .literal "0x10"
  obtain ⟨hgroup, hkeywords, hunknown⟩ := p.finish_notations Modifiers.none
  -- the words and gaps of both texts below
  have hword : ∀ w ∈ ["public", "final", "pub", "static"], Modifiers.IsWord w := by
    decide +kernel
  have hgap : ∀ gap ∈ [[], [' '], ['|']], Modifiers.IsGap gap := by decide +kernel
  have hright : (barCode one (parenCode (barCode two sixteen))).Joins ["1", "2", "0x10"] :=
    .bar hone (.paren (.bar htwo hsixteen))
  have hleft : (barCode (barCode one two) sixteen).Joins ["1", "2", "0x10"] :=
    .bar (.bar hone htwo) hsixteen
  refine ⟨hgroup hright hleft, ?_, ?_⟩
  · let final : String × Modifiers := ("final", { isFinal := true })
    let pub : String × Modifiers := ("public", { isPublic := true })
    -- `public` and `final` in one text, with `final` written twice
    have htext : Modifiers.WritesApart ["final", "public", "final"] "final|public final" :=
      .text (hgap [] (by decide)) (.more (hword _ (by decide)) (hgap ['|'] (by decide)) (by decide)
        (.more (hword _ (by decide)) (hgap [' '] (by decide)) (by decide)
          (.last (hword _ (by decide)) (hgap [] (by decide)))))
    refine @hkeywords [final, pub, final] [pub, final] _ _ (by decide)
      (by simp [final, pub, or_comm]) (.words (.literal _) (by decide +kernel) htext)
      (.numbers (.bar hone hsixteen) (.cons (by decide +kernel) (.cons (by decide +kernel) .nil)))
  · -- the second word of the text is unknown, and what follows it does not matter
    have htext : Modifiers.WritesApart ["public", "pub", "static"] "public pub static" :=
      .text (hgap [] (by decide)) (.more (hword _ (by decide)) (hgap [' '] (by decide)) (by decide)
        (.more (hword _ (by decide)) (hgap [' '] (by decide)) (by decide)
          (.last (hword _ (by decide)) (hgap [] (by decide)))))
    exact @hunknown [("public", { isPublic := true })] "pub" ["static"] _ _ _ (by decide)
      (by decide) (.literal _) (by decide +kernel) htext (Option.some_ne_none _)
      (Option.some_ne_none _)

end Annotations

end FieldGraft
