import Mathlib.Data.List.Forall2
import FieldGraft.Proofs.NameTokens
import FieldGraft.Source.Literal

/-!
# Texts between quotes

A generated literal is read as the text that it was made from, and it is one token
(`Literal.denotes_quote`). Two functions read it, one for its value and one for its length. They
meet the same pieces, each of which spells one character (`Literal.Spells`), so there is one lemma
about a piece for each of them, and one about the pieces that are written (`Literal.exists_pieces`).
-/

namespace FieldGraft

namespace Text

/-! ### Hexadecimal numbers -/

theorem digitChar_hex : ∀ d < 16, isHexDigit d.digitChar = true ∧ d.digitChar ≠ '_' ∧
    hexValue d.digitChar = d := by
  decide

theorem toList_hex (n : Nat) : (hex n).toList = Nat.toDigits 16 n := by
  rw [hex, String.toList_ofList]

theorem mem_hex {n : Nat} {c : Char} (hc : c ∈ (hex n).toList) :
    isHexDigit c = true ∧ c ≠ '_' := by
  rw [toList_hex] at hc
  induction n using Nat.strongRecOn with
  | ind n ih =>
    rw [Nat.toDigits_eq_if (by decide)] at hc
    -- a number below sixteen is one digit; a larger one is its front and a last digit
    split at hc
    · next hn =>
      rw [List.mem_singleton.mp hc]
      exact ⟨(digitChar_hex n hn).1, (digitChar_hex n hn).2.1⟩
    · next hn =>
      rcases List.mem_append.mp hc with hc | hc
      · exact ih (n / 16) (by omega) hc
      · have hdigit := digitChar_hex (n % 16) (Nat.mod_lt _ (by decide))
        rw [List.mem_singleton.mp hc]
        exact ⟨hdigit.1, hdigit.2.1⟩

/-- The digits of a number are read as the number. -/
theorem hexDigitsValue_hex (n : Nat) : Lexeme.hexDigitsValue (hex n).toList = n := by
  rw [toList_hex]
  induction n using Nat.strongRecOn with
  | ind n ih =>
    rw [Nat.toDigits_eq_if (by decide)]
    split
    · next hn =>
      obtain ⟨-, hne, hvalue⟩ := digitChar_hex n hn
      simp [Lexeme.hexDigitsValue, hne, hvalue]
    · next hn =>
      obtain ⟨-, hne, hvalue⟩ := digitChar_hex (n % 16) (Nat.mod_lt _ (by decide))
      -- the front has the value of the quotient
      have hfront := ih (n / 16) (by omega)
      unfold Lexeme.hexDigitsValue at hfront ⊢
      rw [List.foldl_append, hfront, List.foldl_cons, List.foldl_nil, if_neg hne, hvalue]
      omega

theorem isScalar_toNat (c : Char) : Lexeme.isScalar c.toNat = true := by
  have hvalid : c.toNat < 0xd800 ∨ 0xdfff < c.toNat ∧ c.toNat < 0x110000 := c.valid
  unfold Lexeme.isScalar
  simp only [Bool.or_eq_true, Bool.and_eq_true, decide_eq_true_eq]
  omega

/-- The number of a character has at most six digits. -/
theorem length_hex_le (c : Char) : (hex c.toNat).toList.length ≤ 6 := by
  rw [toList_hex]
  have hlt : c.toNat < 16 ^ 6 := by
    have hscalar := isScalar_toNat c
    simp only [Lexeme.isScalar, Bool.or_eq_true, Bool.and_eq_true, decide_eq_true_eq] at hscalar
    omega
  exact (Nat.length_toDigits_le_iff (by decide) (by decide)).mpr hlt

/-- **A braced number is read back**, with its length. -/
theorem bracedScalar_hex (c : Char) (rest : List Char) :
    Lexeme.bracedScalar ('\x7b' :: ((hex c.toNat).toList ++ '\x7d' :: rest)) =
      some ((hex c.toNat).toList.length + 2, c.toNat) := by
  -- the digits go on up to the closing brace, and no `_` is among them
  have hdigits : ∀ d ∈ (hex c.toNat).toList, (isHexDigit d || d == '_') = true := fun d hd => by
    rw [(mem_hex hd).1, Bool.true_or]
  have hbody : ((hex c.toNat).toList ++ '\x7d' :: rest).takeWhile
      (fun d => isHexDigit d || d == '_') = (hex c.toNat).toList := by
    rw [List.takeWhile_append_of_pos hdigits, List.takeWhile_cons_of_neg (by decide),
      List.append_nil]
  have hcount : (hex c.toNat).toList.filter (· != '_') = (hex c.toNat).toList :=
    List.filter_eq_self.mpr fun d hd => bne_iff_ne.mpr (mem_hex hd).2
  have hshort := length_hex_le c
  have hvalue := hexDigitsValue_hex c.toNat
  have hmem := fun d => mem_hex (n := c.toNat) (c := d)
  rw [Lexeme.bracedScalar]
  dsimp only
  rw [hbody, hcount, List.drop_left]
  cases hcs : (hex c.toNat).toList with
  | nil => rw [toList_hex] at hcs; exact absurd hcs Nat.toDigits_ne_nil
  | cons d ds =>
    -- there is a digit, so the escape is not empty, and there are at most six
    rw [hcs] at hvalue hshort hmem
    have hguard : (d != '_' && decide ((d :: ds).length ≤ 6) && true) = true := by
      rw [bne_iff_ne.mpr (hmem d List.mem_cons_self).2, decide_eq_true hshort]
      rfl
    rw [hvalue, isScalar_toNat c]
    exact if_pos hguard

end Text

namespace Literal

open Text

/-! ### One character -/

/-- **A piece of a string literal that spells one character.** -/
inductive Spells : List Char → Char → Prop where
  /-- A character that stands for itself. -/
  | plain {c : Char} (hquote : c ≠ '"') (hslash : c ≠ '\\') (hreturn : c ≠ '\r') : Spells [c] c
  /-- An escape of one letter. -/
  | letter {d c : Char} (h : simpleEscape? d = some c) : Spells ['\\', d] c
  /-- The null character before a digit. -/
  | null : Spells ['\\', 'x', '0', '0'] (Char.ofNat 0)
  /-- A character by its number. -/
  | number (c : Char) : Spells ('\\' :: 'u' :: '\x7b' :: ((hex c.toNat).toList ++ ['\x7d'])) c

variable {piece rest : List Char} {c d : Char} {fuel : Nat}

/-- The letters that stand in an escape. -/
theorem mem_of_simpleEscape? (h : simpleEscape? d = some c) :
    d ∈ ['n', 'r', 't', '\\', '0', '\'', '"'] := by
  unfold simpleEscape? at h
  split at h <;> first | decide | cases h

/-- **The value** of a literal that starts with a piece. -/
theorem cooked_spells (h : Spells piece c) :
    cooked (fuel + 1) (piece ++ rest) = (cooked fuel rest).map (c :: ·) := by
  cases h with
  -- each way to write a character takes one turn of the fuel
  | plain hquote hslash hreturn => simp [cooked, hslash, hreturn]
  | letter h =>
    have hd := mem_of_simpleEscape? h
    simp only [List.mem_cons, List.not_mem_nil, or_false] at hd
    rcases hd with rfl | rfl | rfl | rfl | rfl | rfl | rfl <;> (cases h; rfl)
  | null => rfl
  | number =>
    have hbraced := bracedScalar_hex c rest
    rw [List.cons_append, List.cons_append, List.cons_append, List.append_assoc,
      List.singleton_append]
    rw [cooked, hbraced]
    simp [Char.ofNat_toNat]

/-- A braced number after its backslash is an escape of a string. -/
theorem escape_number (c : Char) (rest : List Char) :
    Lexeme.escape .text ('u' :: '\x7b' :: ((hex c.toNat).toList ++ '\x7d' :: rest)) =
      some (1 + ((hex c.toNat).toList.length + 2)) := by
  simp [Lexeme.escape, bracedScalar_hex]

/-- **The length** of a literal that starts with a piece. -/
theorem cookedBody_spells (h : Spells piece c) :
    Lexeme.cookedBody .text (fuel + 1) (piece ++ rest) =
      (Lexeme.cookedBody .text fuel rest).map (· + piece.length) := by
  cases h with
  | plain hquote hslash hreturn => simp [Lexeme.cookedBody, Lexeme.refuses]
  | letter h =>
    have hd := mem_of_simpleEscape? h
    simp only [List.mem_cons, List.not_mem_nil, or_false] at hd
    rcases hd with rfl | rfl | rfl | rfl | rfl | rfl | rfl <;> rfl
  | null => rfl
  | number =>
    rw [List.cons_append, List.cons_append, List.cons_append, List.append_assoc,
      List.singleton_append]
    -- what the escape takes is all that was written for the character
    have hdrop : ('u' :: '\x7b' :: ((hex c.toNat).toList ++ '\x7d' :: rest)).drop
        (1 + ((hex c.toNat).toList.length + 2)) = rest := by
      have hsplit : 'u' :: '\x7b' :: ((hex c.toNat).toList ++ '\x7d' :: rest) =
          ('u' :: '\x7b' :: (hex c.toNat).toList ++ ['\x7d']) ++ rest := by simp
      rw [hsplit]
      exact List.drop_left' (by simp; omega)
    rw [Lexeme.cookedBody, escape_number]
    dsimp only
    rw [hdrop]
    refine congrArg (Option.map · _) (funext fun n => ?_)
    simp only [List.length_cons, List.length_append, List.length_nil]
    omega

/-! ### All characters -/

theorem eq_null {c : Char} (h : c.toNat = 0) : c = Char.ofNat 0 := by
  rw [← h, Char.ofNat_toNat]

/-- Every character of a text is written as a piece that spells it. -/
theorem escapeChar_spells (c : Char) : Spells (escapeChar c) c := by
  -- the characters with a letter of their own, and then the printable ones
  unfold escapeChar
  split
  · next hc => subst hc; exact .letter rfl
  next =>
  split
  · next hc => subst hc; exact .letter rfl
  next hreturn =>
  split
  · next hc => subst hc; exact .letter rfl
  next =>
  split
  · next hc => subst hc; exact .letter rfl
  next hslash =>
  split
  · next hc => subst hc; exact .letter rfl
  next hquote =>
  split
  · next hc => rw [eq_null hc]; exact .letter rfl
  next =>
  split
  · exact .plain hquote hslash hreturn
  · exact .number c

/-- A text is written piece by piece. -/
theorem exists_pieces (cs : List Char) :
    ∃ pieces, quoteChars cs = pieces.flatten ∧ List.Forall₂ Spells pieces cs := by
  fun_induction quoteChars cs with
  | case1 => exact ⟨[], rfl, .nil⟩
  | case2 c => exact ⟨[escapeChar c], by simp, .cons (escapeChar_spells c) .nil⟩
  | case3 c d rest h ih =>
    obtain ⟨pieces, hpieces, hspells⟩ := ih
    refine ⟨['\\', 'x', '0', '0'] :: pieces, by rw [hpieces, List.flatten_cons], .cons ?_ hspells⟩
    -- only a null in front of a digit is written differently
    rw [eq_null h.1]
    exact .null
  | case4 c d rest h ih =>
    obtain ⟨pieces, hpieces, hspells⟩ := ih
    exact ⟨escapeChar c :: pieces, by rw [hpieces, List.flatten_cons],
      .cons (escapeChar_spells c) hspells⟩

variable {pieces : List (List Char)} {cs : List Char}

/-- The value of a literal made of pieces is what they spell. -/
theorem cooked_pieces (h : List.Forall₂ Spells pieces cs) (hfuel : cs.length < fuel) :
    cooked fuel (pieces.flatten ++ ['"']) = some cs := by
  induction h generalizing fuel with
  | nil =>
    obtain ⟨fuel, rfl⟩ := Nat.exists_eq_succ_of_ne_zero (Nat.ne_of_gt hfuel)
    rfl
  | cons hpiece _ ih =>
    obtain ⟨fuel, rfl⟩ := Nat.exists_eq_succ_of_ne_zero (Nat.ne_of_gt (Nat.zero_lt_of_lt hfuel))
    rw [List.flatten_cons, List.append_assoc, cooked_spells hpiece,
      ih (Nat.lt_of_succ_lt_succ hfuel), Option.map_some]

/-- A literal made of pieces ends with the quote after them. -/
theorem cookedBody_pieces (h : List.Forall₂ Spells pieces cs) (hfuel : cs.length < fuel) :
    Lexeme.cookedBody .text fuel (pieces.flatten ++ ['"']) = some (pieces.flatten.length + 1) := by
  induction h generalizing fuel with
  | nil =>
    obtain ⟨fuel, rfl⟩ := Nat.exists_eq_succ_of_ne_zero (Nat.ne_of_gt hfuel)
    rfl
  | cons hpiece _ ih =>
    obtain ⟨fuel, rfl⟩ := Nat.exists_eq_succ_of_ne_zero (Nat.ne_of_gt (Nat.zero_lt_of_lt hfuel))
    rw [List.flatten_cons, List.append_assoc, cookedBody_spells hpiece,
      ih (Nat.lt_of_succ_lt_succ hfuel), Option.map_some, List.length_append]
    exact congrArg some (by omega)

theorem Spells.length_pos (h : Spells piece c) : 0 < piece.length := by
  cases h <;> simp

theorem length_le_pieces (h : List.Forall₂ Spells pieces cs) :
    cs.length ≤ pieces.flatten.length := by
  induction h with
  | nil => rfl
  | cons hpiece _ ih =>
    have := hpiece.length_pos
    rw [List.flatten_cons, List.length_append, List.length_cons]
    omega

/-! ### Generated literals -/

/-- A literal that nothing follows is its own token. -/
theorem lex_literal {cs : List Char}
    (h : Lexeme.literal ('"' :: cs) = some ('"' :: cs).length) :
    lex (String.ofList ('"' :: cs)) =
      some [.leaf ⟨1, 0⟩ (.literal (String.ofList ('"' :: cs)))] := by
  have htoken : Lexed.token? ('"' :: cs) =
      some (.token (.literal (String.ofList ('"' :: cs))), ('"' :: cs).length) := by
    -- the literal is the whole text, so one token is left and nothing behind it
    have hwhole := List.take_length (l := '"' :: cs)
    rw [Lexed.token?, h]
    · dsimp only
      rw [hwhole]
    · decide
  have hnext : Lexed.next? ('"' :: cs) =
      some (.token (.literal (String.ofList ('"' :: cs))), ('"' :: cs).length) := by
    rw [Lexed.next?, if_neg (by decide), Lexeme.plainComment_eq_none (by decide),
      Lexeme.docComment_eq_none (by decide)]
    exact htoken
  rw [lex_ofList (by decide), lexAt, assemble_token (List.cons_ne_nil _ _) hnext, List.drop_length,
    List.length_cons]
  rfl

/-- **A literal that denotes a text**: its value is the text, and it is one token, with nothing
before or after it. -/
structure Denotes (lit text : String) : Prop where
  value : stringValue? lit = some text
  whole : lex lit = some [.leaf ⟨1, 0⟩ (.literal lit)]

/-- **A generated literal denotes the text that it was made from.** -/
theorem denotes_quote (s : String) : Denotes (quote s) s := by
  obtain ⟨pieces, hpieces, hspells⟩ := exists_pieces s.toList
  have hlist : (quote s).toList = '"' :: (pieces.flatten ++ ['"']) := by
    rw [quote, String.toList_ofList, hpieces, List.cons_append]
  -- each character takes at least one place, so the places are turns enough
  have hfuel : s.toList.length < (pieces.flatten ++ ['"']).length + 1 := by
    have := length_le_pieces hspells
    rw [List.length_append]
    omega
  -- the closing quote is the first one that is not escaped, and no suffix follows
  have hend : Lexeme.literal ('"' :: (pieces.flatten ++ ['"'])) =
      some ('"' :: (pieces.flatten ++ ['"'])).length := by
    rw [Lexeme.literal, Lexeme.quotedLiteral, cookedBody_pieces hspells hfuel]
    dsimp only [Option.map_some]
    rw [List.drop_eq_nil_of_le (by simp)]
    simp [Lexeme.suffixLength, Lexeme.plainName]
  constructor
  · -- the value and the single token are both read off the pieces
    rw [stringValue?, hlist]
    refine (congrArg (Option.map String.ofList) (cooked_pieces hspells hfuel)).trans ?_
    rw [Option.map_some, String.ofList_toList]
  · rw [← String.ofList_toList (s := quote s), hlist]
    exact lex_literal hend

end Literal

end FieldGraft
