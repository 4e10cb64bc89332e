import FieldGraft.Source.TokenStream
import Mathlib.Data.List.TakeWhile

/-!
# Names as tokens

A name token is found at the front of a text by its length. Here names are told by their characters
alone (`Lexeme.IsName`), and both ways between the two are proved.

* `Lexed.next?_of_isName` — a name is lexed as one token, if nothing follows that could belong to it
  or make a literal of it (`Lexeme.EndsName`).
* `lex_isName` — the name tokens of a text are names, those in brackets aside.
* `identifier?_eq_some_iff` — a text is an identifier as it stands iff it is a name and no keyword.
-/

namespace FieldGraft

namespace Lexeme

open Text

/-! ### Characters of names -/

/-- The characters skipped between tokens. -/
def skippedCharacters : List Char :=
  [0x09, 0x0a, 0x0b, 0x0c, 0x0d, 0x20, 0x85, 0xa0, 0x1680, 0x2000, 0x2001, 0x2002, 0x2003, 0x2004,
    0x2005, 0x2006, 0x2007, 0x2008, 0x2009, 0x200a, 0x200e, 0x200f, 0x2028, 0x2029, 0x202f, 0x205f,
    0x3000].map Char.ofNat

theorem mem_skippedCharacters {c : Char} (h : isSkipped c = true) : c ∈ skippedCharacters := by
  have hcode : c.toNat ∈ [0x09, 0x0a, 0x0b, 0x0c, 0x0d, 0x20, 0x85, 0xa0, 0x1680, 0x2000, 0x2001,
      0x2002, 0x2003, 0x2004, 0x2005, 0x2006, 0x2007, 0x2008, 0x2009, 0x200a, 0x200e, 0x200f,
      0x2028, 0x2029, 0x202f, 0x205f, 0x3000] := by
    simp only [isSkipped, isBlank, Bool.or_eq_true, Bool.and_eq_true, decide_eq_true_eq,
      beq_iff_eq] at h
    simp only [List.mem_cons, List.not_mem_nil, or_false]
    omega
  rw [← Char.ofNat_toNat c]
  exact List.mem_map_of_mem hcode

/-- The characters that mean something to the lexer, or nothing: no name holds one of them. -/
def otherCharacters : List Char :=
  skippedCharacters ++ punctuation ++ "()[]\x7b\x7d\"".toList

theorem not_isNameContinue_of_mem {c : Char} (h : c ∈ otherCharacters) :
    isNameContinue c = false := by
  have hall : otherCharacters.all (fun d => !isNameContinue d) = true := by decide +kernel
  exact Bool.not_eq_eq_eq_not.mp (List.all_eq_true.mp hall c h)

/-- Neither these nor digits start a name, nor does a byte order mark. -/
theorem not_isNameStart_of_mem {c : Char} (h : c ∈ otherCharacters ++ "0123456789".toList ++
    [byteOrderMark]) : isNameStart c = false := by
  have hall : (otherCharacters ++ "0123456789".toList ++ [byteOrderMark]).all
      (fun d => !isNameStart d) = true := by decide +kernel
  exact Bool.not_eq_eq_eq_not.mp (List.all_eq_true.mp hall c h)

section Start

variable {c : Char}

theorem isSkipped_of_isNameStart (h : isNameStart c = true) : isSkipped c = false := by
  by_contra hskipped
  have hmem := mem_skippedCharacters (Bool.not_eq_false _ ▸ hskipped)
  rw [not_isNameStart_of_mem (List.mem_append_left _ (List.mem_append_left _
    (List.mem_append_left _ (List.mem_append_left _ hmem))))] at h
  cases h

theorem isDigit_of_isNameStart (h : isNameStart c = true) : isDigit c = false := by
  by_contra hdigit
  have hcode : c.toNat ∈ [0x30, 0x31, 0x32, 0x33, 0x34, 0x35, 0x36, 0x37, 0x38, 0x39] := by
    simp only [isDigit, Bool.not_eq_false, Bool.and_eq_true, decide_eq_true_eq, Char.le_def,
      UInt32.le_iff_toNat_le] at hdigit
    simp only [List.mem_cons, List.not_mem_nil, or_false]
    have hlow : 48 ≤ c.toNat := hdigit.1
    have hhigh : c.toNat ≤ 57 := hdigit.2
    omega
  have hmem : c ∈ "0123456789".toList := by
    rw [← Char.ofNat_toNat c]
    exact List.mem_map_of_mem (f := Char.ofNat) hcode
  rw [not_isNameStart_of_mem (List.mem_append_left _ (List.mem_append_right _ hmem))] at h
  cases h

theorem not_mem_punctuation (h : isNameStart c = true) : punctuation.contains c = false := by
  by_contra hpunct
  have hmem : c ∈ punctuation := List.contains_iff_mem.mp (Bool.not_eq_false _ ▸ hpunct)
  rw [not_isNameStart_of_mem (List.mem_append_left _ (List.mem_append_left _
    (List.mem_append_left _ (List.mem_append_right _ hmem))))] at h
  cases h

end Start

/-! ### Names by their characters -/

/-- A name without `r#`. -/
inductive IsPlainName : List Char → Prop where
  | intro {c : Char} {cs : List Char} (hstart : isNameStart c = true)
      (hrest : ∀ d ∈ cs, isNameContinue d = true) : IsPlainName (c :: cs)

/-- **A name**, raw or not. -/
inductive IsName : List Char → Prop where
  | plain {w : List Char} (h : IsPlainName w) : IsName w
  | raw {w : List Char} (h : IsPlainName w) (hraw : String.ofList w ∉ unrawable) :
      IsName ('r' :: '#' :: w)

namespace IsName

variable {w : List Char}

theorem exists_cons (h : IsName w) : ∃ c x, w = c :: x ∧ isNameStart c = true := by
  cases h with
  | plain h =>
    obtain ⟨hstart, -⟩ := h
    exact ⟨_, _, rfl, hstart⟩
  | raw h hraw => exact ⟨'r', _, rfl, by decide⟩

theorem ne_nil (h : IsName w) : w ≠ [] := by
  obtain ⟨c, x, rfl, -⟩ := h.exists_cons
  exact List.cons_ne_nil c x

theorem of_mem (h : IsName w) {c : Char} (hc : c ∈ w) :
    isNameStart c = true ∨ isNameContinue c = true ∨ c = '#' := by
  have hplain : ∀ {v : List Char}, IsPlainName v → c ∈ v →
      isNameStart c = true ∨ isNameContinue c = true ∨ c = '#' := by
    rintro _ ⟨hstart, hcs⟩ hc
    rcases List.mem_cons.mp hc with rfl | hc
    · exact .inl hstart
    · exact .inr (.inl (hcs c hc))
  -- a raw name may hold the two characters in front of its plain part
  cases h with
  | plain h => exact hplain h hc
  | raw h hraw =>
    rcases List.mem_cons.mp hc with rfl | hc
    · exact .inl (by decide)
    rcases List.mem_cons.mp hc with rfl | hc
    · exact .inr (.inr rfl)
    · exact hplain h hc

/-- But for the hash, no character with a meaning of its own is in a name. -/
theorem not_mem (h : IsName w) {c : Char} (hc : c ∈ otherCharacters) (hhash : c ≠ '#') :
    c ∉ w := by
  intro hmem
  rcases h.of_mem hmem with hstart | hcontinue | rfl
  · rw [not_isNameStart_of_mem (List.mem_append_left _ (List.mem_append_left _ hc))] at hstart
    cases hstart
  · rw [not_isNameContinue_of_mem hc] at hcontinue
    cases hcontinue
  · exact hhash rfl

theorem isBlank_eq_false (h : IsName w) {c : Char} (hc : c ∈ w) : isBlank c = false := by
  by_contra hblank
  have hskipped : isSkipped c = true := by
    rw [Bool.not_eq_false] at hblank
    rw [isSkipped, hblank]
    rfl
  refine h.not_mem (List.mem_append_left _ (List.mem_append_left _
    (mem_skippedCharacters hskipped))) ?_ hc
  rintro rfl
  exact absurd hskipped (by decide)

theorem ne_colon (h : IsName w) {c : Char} (hc : c ∈ w) : c ≠ ':' := by
  rintro rfl
  exact h.not_mem (by decide) (by decide) hc

end IsName

/-- What follows neither goes on with a name nor makes a literal of it. -/
def EndsName (rest : List Char) : Prop :=
  ∀ c ∈ rest.head?, isNameContinue c = false ∧ c ≠ '#' ∧ c ≠ '"' ∧ c ≠ '\''

theorem endsName_nil : EndsName [] := by
  intro c hc
  cases hc

/-- No literal goes on in this way after its letters. -/
def Unquoted (cs : List Char) : Prop :=
  ∀ c ∈ cs.head?, c ≠ '#' ∧ c ≠ '"' ∧ c ≠ '\''

theorem unquoted_of_isNameStart {c : Char} (h : isNameStart c = true) (cs : List Char) :
    Unquoted (c :: cs) := by
  rintro d ⟨⟩
  refine ⟨?_, ?_, ?_⟩ <;> rintro rfl <;> exact absurd h (by decide)

/-- The rest of a name, and what follows it. -/
inductive NameTail : List Char → Prop where
  | intro {cs rest : List Char} (hcs : ∀ d ∈ cs, isNameContinue d = true)
      (hrest : EndsName rest) : NameTail (cs ++ rest)

theorem NameTail.unquoted {x : List Char} (h : NameTail x) : Unquoted x := by
  obtain ⟨hcs, hrest⟩ := h
  rename_i cs rest
  cases cs with
  | nil => exact fun c hc => (hrest c hc).2
  | cons d ds =>
    rintro e ⟨⟩
    have hd := hcs d List.mem_cons_self
    refine ⟨?_, ?_, ?_⟩ <;> rintro rfl <;> exact absurd hd (by decide)

/-- One character further on. -/
theorem NameTail.tail {d : Char} {x : List Char} (h : NameTail (d :: x))
    (hd : isNameContinue d = true) : NameTail x := by
  generalize hwhole : d :: x = whole at h
  obtain ⟨hcs, hrest⟩ := h
  rename_i cs rest
  cases cs with
  | nil =>
    have hhead := (hrest d (by rw [← List.nil_append rest, ← hwhole]; rfl)).1
    rw [hd] at hhead
    cases hhead
  | cons e cs =>
    obtain ⟨-, rfl⟩ := List.cons.inj hwhole
    exact ⟨(List.forall_mem_cons.mp hcs).2, hrest⟩

theorem takeWhile_isNameContinue {cs rest : List Char} (hcs : ∀ d ∈ cs, isNameContinue d = true)
    (hrest : EndsName rest) : (cs ++ rest).takeWhile isNameContinue = cs := by
  rw [List.takeWhile_append_of_pos hcs]
  cases rest with
  | nil => rw [List.takeWhile_nil, List.append_nil]
  | cons c rest =>
    rw [List.takeWhile_cons_of_neg (by rw [(hrest c rfl).1]; exact Bool.false_ne_true),
      List.append_nil]

theorem plainName_append {w rest : List Char} (hw : IsPlainName w) (hrest : EndsName rest) :
    plainName (w ++ rest) = some w.length := by
  obtain ⟨hstart, hcs⟩ := hw
  rw [List.cons_append, plainName, if_pos hstart, runLength, takeWhile_isNameContinue hcs hrest,
    Nat.add_comm, List.length_cons]

/-- A name is found as a whole. -/
theorem anyName_append {w rest : List Char} (hw : IsName w) (hrest : EndsName rest) :
    anyName (w ++ rest) = some w.length := by
  cases hw with
  | plain h =>
    have hplain := plainName_append h hrest
    obtain ⟨hstart, hcs⟩ := h
    unfold anyName
    split
    · next heq =>
      -- what follows an `r` is no hash
      obtain ⟨-, htail⟩ := List.cons.inj heq
      have hunquoted := (NameTail.intro hcs hrest).unquoted
      rw [show _ ++ rest = _ from htail] at hunquoted
      exact absurd rfl (hunquoted '#' rfl).1
    · exact hplain
  | @raw w h hraw =>
    have hcontains : unrawable.contains (String.ofList w) = false := by
      rw [← Bool.not_eq_true, List.contains_iff_mem]
      exact hraw
    have htake : (w ++ rest).take w.length = w := List.take_left
    rw [List.cons_append, List.cons_append, anyName, plainName_append h hrest]
    dsimp only
    rw [htake, hcontains, Nat.add_comm]
    rfl

/-- What is found as a name is one. -/
theorem isPlainName_of_plainName {cs : List Char} {n : Nat} (h : plainName cs = some n) :
    IsPlainName (cs.take n) := by
  cases cs with
  | nil => cases h
  | cons c cs =>
    rw [plainName] at h
    split at h
    · next hstart =>
      have htake : cs.take (runLength isNameContinue cs) = cs.takeWhile isNameContinue :=
        List.prefix_iff_eq_take.mp (List.takeWhile_prefix _) ▸ rfl
      rw [← Option.some.inj h, Nat.add_comm, List.take_succ_cons, htake]
      exact ⟨hstart, fun d hd => List.mem_takeWhile_imp hd⟩
    · cases h

theorem isName_of_anyName {cs : List Char} {n : Nat} (h : anyName cs = some n) :
    IsName (cs.take n) := by
  unfold anyName at h
  -- only behind `r#` is the rest compared with the names that have no raw form
  split at h
  · next cs =>
    split at h
    · next m hm =>
      split at h
      · cases h
      · next hraw =>
        rw [← Option.some.inj h, Nat.add_comm, List.take_succ_cons, List.take_succ_cons]
        rw [List.contains_iff_mem] at hraw
        exact .raw (isPlainName_of_plainName hm) hraw
    · cases h
  · exact .plain (isPlainName_of_plainName h)

/-! ### Names are no literals -/

theorem rawQuoted_eq_none (kind : Quoted) {cs : List Char} (h : Unquoted cs) :
    rawQuoted kind cs = none := by
  cases cs with
  | nil => rfl
  | cons c cs =>
    obtain ⟨hhash, hquote, -⟩ := h c rfl
    have hrun : runLength (· == '#') (c :: cs) = 0 := by
      rw [runLength, List.takeWhile_cons_of_neg (by simpa using hhash), List.length_nil]
    rw [rawQuoted, hrun, List.drop_zero]
    split
    · next heq => exact absurd (List.cons.inj heq).1 hquote
    · rfl

/-- Two letters of a quoted literal need a quote or a hash behind them. -/
theorem quotedLiteral_eq_none {c : Char} {x : List Char} (hstart : isNameStart c = true)
    (hx : NameTail x) : quotedLiteral (c :: x) = none := by
  have hunquoted := hx.unquoted
  -- the forms: a quote at once, and one behind `r`, `b`, `br`, `c` or `cr`
  unfold quotedLiteral
  split
  · next heq =>
    rw [(List.cons.inj heq).1] at hstart
    exact absurd hstart (by decide)
  · next heq =>
    obtain ⟨-, rfl⟩ := List.cons.inj heq
    rw [rawQuoted_eq_none _ hunquoted]
    rfl
  · next heq =>
    obtain ⟨-, rfl⟩ := List.cons.inj heq
    exact absurd rfl (hunquoted '"' rfl).2.1
  · next heq =>
    obtain ⟨-, rfl⟩ := List.cons.inj heq
    rw [rawQuoted_eq_none _ (hx.tail (by decide)).unquoted]
    rfl
  · next heq =>
    obtain ⟨-, rfl⟩ := List.cons.inj heq
    exact absurd rfl (hunquoted '"' rfl).2.1
  · next heq =>
    obtain ⟨-, rfl⟩ := List.cons.inj heq
    rw [rawQuoted_eq_none _ (hx.tail (by decide)).unquoted]
    rfl
  · rfl

theorem characterLiteral_eq_none {c : Char} {x : List Char} (hstart : isNameStart c = true)
    (hx : Unquoted x) : characterLiteral (c :: x) = none := by
  unfold characterLiteral
  split
  · next heq =>
    rw [(List.cons.inj heq).1] at hstart
    exact absurd hstart (by decide)
  · next heq =>
    obtain ⟨-, rfl⟩ := List.cons.inj heq
    exact absurd rfl (hx '\'' rfl).2.2
  · rfl

/-- The letters among the hexadecimal digits stand for ten and more. -/
theorem ten_le_hexValue {c : Char} (hdigit : isDigit c = false) (hhex : isHexDigit c = true) :
    10 ≤ hexValue c := by
  unfold hexValue
  rw [hdigit, if_neg Bool.false_ne_true]
  split
  · omega
  · next hlower =>
    split
    · omega
    · next hupper =>
      rw [isHexDigit, hdigit, Bool.false_or, Bool.or_eq_true] at hhex
      simp only [Bool.and_eq_true, decide_eq_true_eq] at hlower hupper hhex
      exact absurd hhex (not_or.mpr ⟨hlower, hupper⟩)

/-- Letters are no decimal digits. -/
theorem integerRun_eq_none {c : Char} (hdigit : isDigit c = false) (x : List Char) :
    integerRun 10 false (c :: x) = none := by
  rw [integerRun, hdigit, if_neg Bool.false_ne_true]
  split
  · next hhex =>
    rw [if_neg (Nat.not_lt.mpr (ten_le_hexValue hdigit hhex)), if_neg Bool.false_ne_true]
  · split
    · rfl
    · rfl

theorem number_eq_none {c : Char} (hdigit : isDigit c = false) (x : List Char) :
    number (c :: x) = none := by
  have hfloat : floatDigits (c :: x) = none := by
    unfold floatDigits
    exact if_pos (by rw [hdigit]; rfl)
  have hinteger : integerDigits (c :: x) = none := by
    unfold integerDigits
    split
    · next heq => rw [(List.cons.inj heq).1] at hdigit; cases hdigit
    · next heq => rw [(List.cons.inj heq).1] at hdigit; cases hdigit
    · next heq => rw [(List.cons.inj heq).1] at hdigit; cases hdigit
    · exact integerRun_eq_none hdigit x
  rw [number, hfloat, hinteger]
  rfl

/-- A name has one of these two forms. -/
theorem IsName.cases_append {w rest : List Char} (hw : IsName w) (hrest : EndsName rest) :
    ∃ c x, isNameStart c = true ∧ NameTail x ∧
      (w ++ rest = c :: x ∨ w ++ rest = 'r' :: '#' :: c :: x) := by
  cases hw with
  | plain h =>
    obtain ⟨hstart, hcs⟩ := h
    exact ⟨_, _, hstart, ⟨hcs, hrest⟩, .inl rfl⟩
  | raw h hraw =>
    obtain ⟨hstart, hcs⟩ := h
    exact ⟨_, _, hstart, ⟨hcs, hrest⟩, .inr rfl⟩

/-- **A name is no literal**, whatever ends it. -/
theorem literal_eq_none {w rest : List Char} (hw : IsName w) (hrest : EndsName rest) :
    literal (w ++ rest) = none := by
  obtain ⟨c, x, hstart, hx, heq | heq⟩ := hw.cases_append hrest
  · -- a plain name starts no literal, nor does a raw one, whose front looks like a raw string's
    rw [heq, literal, quotedLiteral_eq_none hstart hx, characterLiteral_eq_none hstart hx.unquoted]
    exact number_eq_none (isDigit_of_isNameStart hstart) x
  · have hraw : rawQuoted .text ('#' :: c :: x) = none := by
      -- behind the single hash a name starts, which is no quote
      obtain ⟨hhash, hquote, -⟩ := unquoted_of_isNameStart hstart x c rfl
      have hrun : runLength (· == '#') ('#' :: c :: x) = 1 := by
        rw [runLength, List.takeWhile_cons_of_pos (by rfl),
          List.takeWhile_cons_of_neg (by simpa using hhash), List.length_singleton]
      rw [rawQuoted, hrun, List.drop_one, List.tail_cons]
      split
      · next heq => exact absurd (List.cons.inj heq).1 hquote
      · rfl
    have hquoted : quotedLiteral ('r' :: '#' :: c :: x) = none := by
      show (rawQuoted .text ('#' :: c :: x)).map (· + 1) = none
      rw [hraw]
      rfl
    rw [heq, literal, hquoted]
    exact number_eq_none (by decide) _

/-! ### Names among the tokens -/

/-- Comments start with a slash, and so does nothing else. -/
theorem startsWith_eq_false {c d : Char} (hne : c ≠ d) (x lead : List Char) :
    startsWith (c :: x) (String.ofList (d :: lead)) = false := by
  rw [startsWith, String.toList_ofList, dropLead?, if_neg (Ne.symm hne)]
  rfl

theorem plainComment_eq_none {c : Char} (h : c ≠ '/') (x : List Char) :
    plainComment (c :: x) = none := by
  have hline : startsWith (c :: x) "//" = false := startsWith_eq_false h x ['/']
  have hempty : startsWith (c :: x) "/**/" = false := startsWith_eq_false h x ['*', '*', '/']
  have hblock : startsWith (c :: x) "/*" = false := startsWith_eq_false h x ['*']
  rw [plainComment, hline, hempty, hblock]
  rfl

theorem docComment_eq_none {c : Char} (h : c ≠ '/') (x : List Char) :
    docComment (c :: x) = none := by
  have hline : startsWith (c :: x) "//!" = false := startsWith_eq_false h x ['/', '!']
  have hblock : startsWith (c :: x) "/*!" = false := startsWith_eq_false h x ['*', '!']
  have houter : startsWith (c :: x) "///" = false := startsWith_eq_false h x ['/', '/']
  have hstars : startsWith (c :: x) "/**" = false := startsWith_eq_false h x ['*', '*']
  rw [docComment, hline, hblock, houter, hstars]
  rfl

theorem startsPunct_eq_false {c : Char} (h : punctuation.contains c = false) (x : List Char) :
    startsPunct (c :: x) = false := by
  unfold startsPunct
  split
  · rfl
  · rfl
  · next heq =>
    obtain ⟨rfl, -⟩ := List.cons.inj heq
    exact h
  · rfl

/-- No literal starts like a name and what ends it: behind its letters stands a quote or a hash. -/
theorem not_literalStarts {w rest : List Char} (hw : IsName w) (hrest : EndsName rest) :
    literalStarts.any (startsWith (w ++ rest)) = false := by
  have hforms : ∀ lead ∈ literalStarts, lead.toList ∈ [['r', '"'], ['r', '#', '"'],
      ['r', '#', '#'], ['b', '"'], ['b', '\''], ['b', 'r', '"'], ['b', 'r', '#'], ['c', '"'],
      ['c', 'r', '"'], ['c', 'r', '#']] := by decide +kernel
  rw [List.any_eq_false]
  intro lead hlead hstarts
  obtain ⟨y, hy⟩ := Option.isSome_iff_exists.mp hstarts
  have hfront := eq_append_of_dropLead? hy
  have hform := hforms lead hlead
  simp only [List.mem_cons, List.not_mem_nil, or_false] at hform
  -- a plain name, and then a raw one, against each of the forms
  obtain ⟨c, x, hstart, hx, heq | heq⟩ := hw.cases_append hrest
  · have hsecond : ∀ q z, x = q :: z → q ≠ '#' ∧ q ≠ '"' ∧ q ≠ '\'' :=
      fun q z h => hx.unquoted q (h ▸ rfl)
    have hthird : ∀ q z, x = 'r' :: q :: z → q ≠ '#' ∧ q ≠ '"' ∧ q ≠ '\'' := by
      rintro q z rfl
      exact (hx.tail (by decide)).unquoted q rfl
    rw [heq] at hfront
    rcases hform with h | h | h | h | h | h | h | h | h | h <;> rw [h] at hfront <;> grind
  · have hthird := unquoted_of_isNameStart hstart x c rfl
    rw [heq] at hfront
    rcases hform with h | h | h | h | h | h | h | h | h | h <;> rw [h] at hfront <;> grind

theorem name_append {w rest : List Char} (hw : IsName w) (hrest : EndsName rest) :
    name (w ++ rest) = some w.length := by
  rw [name, not_literalStarts hw hrest, if_neg Bool.false_ne_true, anyName_append hw hrest]

end Lexeme

open Lexeme

namespace Lexed

/-- **A name is one token**, whatever ends it. -/
theorem next?_of_isName {w rest : List Char} (hw : IsName w) (hrest : EndsName rest) :
    next? (w ++ rest) = some (.token (.ident (String.ofList w)), w.length) := by
  have hliteral := literal_eq_none hw hrest
  have hname := name_append hw hrest
  have htake : (w ++ rest).take w.length = w := List.take_left
  obtain ⟨c, x, hstart, heq⟩ : ∃ c x, Text.isNameStart c = true ∧ w ++ rest = c :: x := by
    obtain ⟨c, x, hstart, -, heq | heq⟩ := hw.cases_append hrest
    · exact ⟨c, x, hstart, heq⟩
    · exact ⟨'r', _, by decide, heq⟩
  -- so nothing that starts with another character is read
  have hother : ∀ d, Text.isNameStart d = false → c ≠ d := by
    rintro d hd rfl
    rw [hstart] at hd
    cases hd
  have hopens : opens? c = none := by
    unfold opens?
    split <;> first | rfl | exact absurd rfl (hother _ (by decide))
  have hcloses : closes? c = none := by
    unfold closes?
    split <;> first | rfl | exact absurd rfl (hother _ (by decide))
  have htoken : token? (c :: x) = some (.token (.ident (String.ofList w)), w.length) := by
    rw [heq] at hliteral hname htake
    rw [token?, hliteral]
    · dsimp only
      rw [startsPunct_eq_false (not_mem_punctuation hstart), if_neg Bool.false_ne_true, hname,
        Option.map_some, htake]
    · exact hother _ (by decide)
  rw [heq, next?, isSkipped_of_isNameStart hstart, if_neg Bool.false_ne_true,
    plainComment_eq_none (hother _ (by decide)), docComment_eq_none (hother _ (by decide)), hopens,
    hcloses]
  exact htoken

theorem isName_of_token? {cs : List Char} {text : String} {n : Nat}
    (h : token? cs = some (.token (.ident text), n)) : IsName text.toList := by
  unfold token? at h
  split at h
  · simp at h
  · split at h
    · cases h
    · simp at h
    · split at h
      · simp at h
      · -- neither a literal nor punctuation: the text is the name at the front
        obtain ⟨m, hm, hpair⟩ := Option.map_eq_some_iff.mp h
        simp only [Prod.mk.injEq, Lexed.token.injEq, Token.ident.injEq] at hpair
        obtain ⟨rfl, -⟩ := hpair
        rw [String.toList_ofList]
        unfold name at hm
        split at hm
        · cases hm
        · exact isName_of_anyName hm

/-- A token that is a name holds one. -/
theorem isName_of_next? {cs : List Char} {text : String} {n : Nat}
    (h : next? cs = some (.token (.ident text), n)) : IsName text.toList := by
  unfold next? at h
  split at h
  · cases h
  · split at h
    · simp at h
    · split at h
      · simp at h
      · split at h
        · split at h <;> simp at h
        · split at h
          · simp at h
          · simp at h
          · exact isName_of_token? h

end Lexed

/-! ### Steps of the assembly -/

section Steps

variable {fuel n : Nat} {pos : Position} {c : Char} {cs : List Char} {opened : List OpenGroup}
  {done : List TokenTree}

/-- One step of the assembly. -/
theorem assemble_cons :
    assemble (fuel + 1) pos (c :: cs) opened done =
      (Lexed.next? (c :: cs)).bind fun (lexed, n) =>
        let pos' := pos.after ((c :: cs).take n)
        let rest := (c :: cs).drop n
        match lexed with
        | .skipped => assemble fuel pos' rest opened done
        | .doc inner text =>
          assemble fuel pos' rest opened ((docTrees pos inner text).reverse ++ done)
        | .opening d => assemble fuel pos' rest (⟨pos, d, done⟩ :: opened) []
        | .closing d =>
          match opened with
          | [] => none
          | g :: outer =>
            if g.delim = d then
              assemble fuel pos' rest outer (.group g.pos d done.reverse :: g.before)
            else none
        | .token t => assemble fuel pos' rest opened (.leaf pos t :: done) := by
  -- evaluation stops where the front of the text is lexed
  conv => lhs; whnf
  cases Lexed.next? (c :: cs) <;> rfl

theorem assemble_skipped (h : isSkipped c = true) :
    assemble (fuel + 1) pos (c :: cs) opened done =
      assemble fuel (pos.after [c]) cs opened done := by
  have hnext : Lexed.next? (c :: cs) = some (.skipped, 1) := by
    rw [Lexed.next?, if_pos h]
  rw [assemble_cons, hnext]
  rfl

theorem assemble_token {t : Token} (hcs : cs ≠ []) (h : Lexed.next? cs = some (.token t, n)) :
    assemble (fuel + 1) pos cs opened done =
      assemble fuel (pos.after (cs.take n)) (cs.drop n) opened (.leaf pos t :: done) := by
  obtain ⟨c, cs, rfl⟩ := List.exists_cons_of_ne_nil hcs
  rw [assemble_cons, h]
  rfl

end Steps

/-! ### Names of a text -/

/-- If the tree is a name, it is one by its characters. -/
def TokenTree.Named : TokenTree → Prop
  | .leaf _ (.ident text) => IsName text.toList
  | _ => True

theorem docTrees_named (pos : Position) (inner : Bool) (text : String) :
    ∀ t ∈ docTrees pos inner text, t.Named := by
  intro t ht
  unfold docTrees at ht
  cases inner <;> simp at ht <;> rcases ht with rfl | rfl | rfl <;> trivial

/-- What is assembled holds names only, if all that stands before does. -/
theorem assemble_named {fuel : Nat} {pos : Position} {cs : List Char} {opened : List OpenGroup}
    {done ts : List TokenTree} (h : assemble fuel pos cs opened done = some ts)
    (hopened : ∀ g ∈ opened, ∀ t ∈ g.before, t.Named) (hdone : ∀ t ∈ done, t.Named) :
    ∀ t ∈ ts, t.Named := by
  -- with the lexer's own cases; a name enters where a token is an identifier
  induction fuel, pos, cs, opened, done using assemble.induct with
  | case1 => cases h
  | case2 =>
    cases h
    simpa using hdone
  | case3 => cases h
  | case4 fuel pos c cs opened done hnext =>
    rw [assemble_cons, hnext] at h
    cases h
  | case5 fuel pos c cs opened done n _ _ hnext ih =>
    rw [assemble_cons, hnext] at h
    exact ih h hopened hdone
  | case6 fuel pos c cs opened done n _ _ inner text hnext ih =>
    -- a documentation comment
    rw [assemble_cons, hnext] at h
    refine ih h hopened fun t ht => ?_
    rcases List.mem_append.mp ht with ht | ht
    · exact docTrees_named pos inner text t (List.mem_reverse.mp ht)
    · exact hdone t ht
  | case7 fuel pos c cs opened done n _ _ d hnext ih =>
    -- what stands before an open group waits with it
    rw [assemble_cons, hnext] at h
    exact ih h (List.forall_mem_cons.mpr ⟨hdone, hopened⟩) (fun _ ht => nomatch ht)
  | case8 fuel pos c cs done n d hnext =>
    rw [assemble_cons, hnext] at h
    cases h
  | case9 fuel pos c cs done n _ _ g outer hnext ih =>
    -- the group is closed
    rw [assemble_cons, hnext, Option.bind_some] at h
    dsimp only at h
    rw [if_pos rfl] at h
    obtain ⟨hbefore, houter⟩ := List.forall_mem_cons.mp hopened
    exact ih h houter (List.forall_mem_cons.mpr ⟨trivial, hbefore⟩)
  | case10 fuel pos c cs done n d g outer hdelim hnext =>
    rw [assemble_cons, hnext, Option.bind_some] at h
    dsimp only at h
    rw [if_neg hdelim] at h
    cases h
  | case11 fuel pos c cs opened done n _ _ token hnext ih =>
    -- a token
    rw [assemble_cons, hnext] at h
    refine ih h hopened (List.forall_mem_cons.mpr ⟨?_, hdone⟩)
    cases token with
    | ident text => exact Lexed.isName_of_next? hnext
    | punct | lifetime | literal => trivial

/-- **The name tokens of a text are names.** -/
theorem lex_isName {text : String} {ts : List TokenTree} (h : lex text = some ts)
    {pos : Position} {name : String} (hmem : .leaf pos (.ident name) ∈ ts) :
    IsName name.toList := by
  have hnamed : ∀ t ∈ ts, t.Named := by
    unfold lex at h
    split at h
    · cases h
      exact fun _ ht => nomatch ht
    · split at h <;> exact assemble_named h (fun _ hg => nomatch hg) (fun _ ht => nomatch ht)
  exact hnamed _ hmem

/-- A text that starts with no byte order mark is lexed from its first column on. -/
theorem lex_ofList {c : Char} (h : c ≠ byteOrderMark) (cs : List Char) :
    lex (String.ofList (c :: cs)) = lexAt ⟨1, 0⟩ (c :: cs) := by
  unfold lex
  rw [String.toList_ofList]
  dsimp only
  rw [if_neg h]

theorem ne_byteOrderMark {c : Char} (h : Text.isNameStart c = true) : c ≠ byteOrderMark := by
  rintro rfl
  rw [not_isNameStart_of_mem (List.mem_append_right _ List.mem_cons_self)] at h
  cases h

/-- A name alone is its own token. -/
theorem lex_of_isName {w : List Char} (h : IsName w) :
    lex (String.ofList w) = some [.leaf ⟨1, 0⟩ (.ident (String.ofList w))] := by
  have hnext : Lexed.next? w = some (.token (.ident (String.ofList w)), w.length) := by
    have hwhole := Lexed.next?_of_isName h endsName_nil
    rwa [List.append_nil] at hwhole
  have hat : lexAt ⟨1, 0⟩ w = some [.leaf ⟨1, 0⟩ (.ident (String.ofList w))] := by
    obtain ⟨k, hk⟩ : ∃ k, w.length = k + 1 :=
      Nat.exists_eq_succ_of_ne_zero (fun h0 => h.ne_nil (List.eq_nil_of_length_eq_zero h0))
    rw [lexAt, assemble_token h.ne_nil hnext, List.drop_length, hk]
    rfl
  obtain ⟨c, x, rfl, hstart⟩ := h.exists_cons
  rw [lex_ofList (ne_byteOrderMark hstart), hat]

/-- **A text is an identifier as it stands** iff it is a name and no keyword. -/
theorem identifier?_eq_some_iff {s : String} {pos : Position} :
    identifier? s = some (s, pos) ↔
      IsName s.toList ∧ isKeyword s = false ∧ pos = ⟨1, 0⟩ := by
  have hlex (hname : IsName s.toList) : lex s = some [.leaf ⟨1, 0⟩ (.ident s)] := by
    have hwhole := lex_of_isName hname
    rwa [String.ofList_toList] at hwhole
  constructor
  · intro h
    have hmem : ∃ at', lex s = some [.leaf at' (.ident s)] ∧ isKeyword s = false ∧ at' = pos := by
      unfold identifier? at h
      split at h
      · next heq =>
        split at h
        · cases h
        · next hkeyword =>
          cases h
          exact ⟨_, heq, Bool.not_eq_true _ ▸ hkeyword, rfl⟩
      · cases h
    obtain ⟨_, hlexed, hkeyword, rfl⟩ := hmem
    have hname := lex_isName hlexed List.mem_cons_self
    rw [hlex hname] at hlexed
    cases hlexed
    exact ⟨hname, hkeyword, rfl⟩
  · rintro ⟨hname, hkeyword, rfl⟩
    rw [identifier?, hlex hname]
    exact if_neg (by rw [hkeyword]; exact Bool.false_ne_true)

end FieldGraft
