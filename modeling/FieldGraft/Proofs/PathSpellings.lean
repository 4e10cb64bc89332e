import FieldGraft.Proofs.NameTokens
import FieldGraft.Proofs.PathReading
import FieldGraft.TypeRef

/-!
# Spellings of paths

A plain path can be written with blanks around each `::` and at both ends, and with a `::` in front
(`PathSpelling`). How it is written makes no difference to what it names.

* `PathSpelling.normalise_chars` — normalising a spelling gives a spelling of the same names.
* `PathSpelling.typeOfText?_text` — a spelling is read as the path of its names.
* `TypeTable.resolveRef_spelling` — a reference is looked up by the names of its path alone, be it
  written as text or as code.
-/

namespace FieldGraft

open Lexeme

/-! ### Spellings -/

/-- A name that is no keyword. -/
structure Identifier where
  text : String
  isIdentifier : ∃ pos, identifier? text = some (text, pos)

namespace Identifier

variable (i : Identifier)

/-- Its characters. -/
def chars : List Char := i.text.toList

theorem isName : IsName i.chars := by
  obtain ⟨pos, h⟩ := i.isIdentifier
  exact (identifier?_eq_some_iff.mp h).1

theorem not_isKeyword : isKeyword i.text = false := by
  obtain ⟨pos, h⟩ := i.isIdentifier
  exact (identifier?_eq_some_iff.mp h).2.1

end Identifier

/-- Blanks, perhaps none. -/
structure Gap where
  chars : List Char
  isBlank : ∀ c ∈ chars, Text.isBlank c = true

/-- A further name of a path, with the blanks around the `::` before it. -/
structure PathLink where
  before : Gap
  after : Gap
  name : Identifier

/-- A way to write a path. -/
structure PathSpelling where
  lead : Gap
  /-- The blanks behind a first `::`, if there is one. -/
  root : Option Gap
  first : Identifier
  links : List PathLink
  trail : Gap

namespace Gap

/-- One blank or none. -/
def single (isOpen : Bool) : Gap :=
  ⟨if isOpen then [' '] else [], List.all_eq_true.mp (by cases isOpen <;> rfl)⟩

/-- Whether there are blanks. -/
def isOpen (gap : Gap) : Bool := !gap.chars.isEmpty

/-- At most one blank. -/
def squeeze (gap : Gap) : Gap := single gap.isOpen

end Gap

/-- `::` with blanks behind it. -/
def colonsThen (gap : Gap) (cs : List Char) : List Char :=
  ':' :: ':' :: (gap.chars ++ cs)

/-- Further names and what follows them. -/
def linkChars (end' : List Char) : List PathLink → List Char
  | [] => end'
  | l :: ls => l.before.chars ++ colonsThen l.after (l.name.chars ++ linkChars end' ls)

namespace PathSpelling

variable (sp : PathSpelling)

/-- What is written from the first name on. -/
def nameChars : List Char :=
  sp.first.chars ++ linkChars sp.trail.chars sp.links

/-- What is written. -/
def chars : List Char :=
  sp.lead.chars ++
    match sp.root with
    | none => sp.nameChars
    | some gap => colonsThen gap sp.nameChars

/-- What is written, as a text. -/
def text : String := String.ofList sp.chars

/-- The names of the path. -/
def names : List String :=
  sp.first.text :: sp.links.map (·.name.text)

theorem names_ne_nil : sp.names ≠ [] := List.cons_ne_nil _ _

/-- The type that the path names: its names joined by `::`, and the last of them. -/
def typeName : TypeName :=
  ⟨"::".intercalate sp.names, sp.names.getLast sp.names_ne_nil⟩

end PathSpelling

/-! ### Squeezing blanks -/

namespace Text

/-- Every run of blanks becomes one blank, and those at the ends vanish. -/
def squeeze (cs : List Char) : List Char :=
  join [' '] (words cs)

theorem squeeze_append_gap {w : List Char} (hne : w ≠ []) (hw : ∀ c ∈ w, isBlank c = false)
    (gap : Gap) {c : Char} (hc : isBlank c = false) (cs : List Char) :
    squeeze (w ++ (gap.chars ++ c :: cs)) = w ++ (gap.squeeze.chars ++ squeeze (c :: cs)) := by
  obtain ⟨p, ps, hcs, hwcs⟩ := wordsBy_append_of_forall hw hc cs
  by_cases hgap : gap.chars = []
  · -- without a gap the word before it and the one behind it are one word for the split
    have hsqueeze : gap.squeeze = .single false := by
      rw [Gap.squeeze, Gap.isOpen, hgap]
      rfl
    have hjoin : join [' '] ((w ++ p) :: ps) = w ++ join [' '] (p :: ps) := by
      cases ps with
      | nil => rfl
      | cons q qs => rw [join, join, List.append_assoc, List.append_assoc, List.append_assoc]
    rw [hgap, hsqueeze, List.nil_append, squeeze, words, hwcs, hjoin, squeeze, words, hcs]
    rfl
  · -- with a gap there are two words, and one blank is put between them
    have hsqueeze : gap.squeeze = .single true := by
      rw [Gap.squeeze, Gap.isOpen, List.isEmpty_eq_false_iff.mpr hgap]
      rfl
    rw [squeeze, words, wordsBy_word_append hne hw gap.isBlank hgap, hcs,
      join_cons (List.cons_ne_nil _ _), hsqueeze, squeeze, words, hcs]
    rfl

theorem squeeze_word_gap {w : List Char} (hne : w ≠ []) (hw : ∀ c ∈ w, isBlank c = false)
    (gap : Gap) : squeeze (w ++ gap.chars) = w := by
  by_cases hgap : gap.chars = []
  · rw [hgap, List.append_nil, squeeze, words, wordsBy_of_forall hne hw]
    rfl
  · have hword := wordsBy_word_append hne hw gap.isBlank hgap []
    rw [List.append_nil] at hword
    rw [squeeze, words, hword]
    rfl

end Text

section Normalise

variable {w : List Char} (hw : IsName w)
include hw

theorem squeeze_colonsThen (gap : Gap) (cs : List Char) :
    Text.squeeze (colonsThen gap (w ++ cs)) =
      colonsThen gap.squeeze (Text.squeeze (w ++ cs)) := by
  obtain ⟨c, x, rfl, -⟩ := hw.exists_cons
  have hc := hw.isBlank_eq_false List.mem_cons_self
  have hcolons : ∀ d ∈ [':', ':'], Text.isBlank d = false := by
    intro d hd
    obtain rfl : d = ':' := by simpa using hd
    rfl
  exact Text.squeeze_append_gap (List.cons_ne_nil ':' [':']) hcolons gap hc (x ++ cs)

theorem squeeze_name_colonsThen (before after : Gap) (cs : List Char) :
    Text.squeeze (w ++ (before.chars ++ colonsThen after cs)) =
      w ++ (before.squeeze.chars ++ Text.squeeze (colonsThen after cs)) :=
  Text.squeeze_append_gap hw.ne_nil (fun _ hc => hw.isBlank_eq_false hc) before (by decide) _

theorem squeeze_name_gap (gap : Gap) : Text.squeeze (w ++ gap.chars) = w :=
  Text.squeeze_word_gap hw.ne_nil (fun _ hc => hw.isBlank_eq_false hc) gap

end Normalise

/-- The first replacement: the blanks around `::` vanish if there are some on both sides. -/
def closeColons (cs : List Char) : List Char :=
  Text.replace [' ', ':', ':', ' '] [':', ':'] cs

/-- The second replacement: the blanks behind `::` vanish. -/
def closeAfterColons (cs : List Char) : List Char :=
  Text.replace [':', ':', ' '] [':', ':'] cs

theorem TypeText.normalise_eq (cs : List Char) :
    normalise cs = closeAfterColons (closeColons (Text.squeeze cs)) := rfl

section Replacements

variable {w : List Char} (hw : IsName w) (cs : List Char)
include hw

theorem closeColons_name : closeColons (w ++ cs) = w ++ closeColons cs := by
  refine Text.replace_append_of_forall_ne fun c hc => ?_
  rintro rfl
  exact absurd (hw.isBlank_eq_false hc) (by decide)

theorem closeAfterColons_name : closeAfterColons (w ++ cs) = w ++ closeAfterColons cs :=
  Text.replace_append_of_forall_ne fun _ hc => hw.ne_colon hc

/-- Of the blanks around a `::` the first replacement takes both, or none if one is missing. -/
theorem closeColons_link (before after : Bool) :
    closeColons ((Gap.single before).chars ++ colonsThen (.single after) (w ++ cs)) =
      (Gap.single (before && !after)).chars ++
        colonsThen (.single (after && !before)) (closeColons (w ++ cs)) := by
  obtain ⟨c, x, rfl, -⟩ := hw.exists_cons
  have hcolon := hw.ne_colon List.mem_cons_self
  have hspace : c ≠ ' ' := by
    rintro rfl
    exact absurd (hw.isBlank_eq_false List.mem_cons_self) (by decide)
  -- the colons themselves are never the start of what is replaced
  have hcolons (cs : List Char) : closeColons (':' :: ':' :: cs) = ':' :: ':' :: closeColons cs :=
    Text.replace_append_of_forall_ne (w := [':', ':']) (by simp)
  have hopen :
      Text.dropLead? [' ', ':', ':', ' '] (' ' :: ':' :: ':' :: c :: (x ++ cs)) = none := by
    simp [Text.dropLead?, Ne.symm hspace]
  have hbehind : Text.dropLead? [' ', ':', ':', ' '] (' ' :: c :: (x ++ cs)) = none := by
    simp [Text.dropLead?, Ne.symm hcolon]
  -- where a blank is missing, the search goes on past the colons
  cases before <;> cases after
  case true.true =>
    exact Text.replace_lead_append (List.cons_ne_nil _ _) _
  case true.false =>
    exact (Text.replace_cons hopen).trans (congrArg (List.cons ' ') (hcolons _))
  case false.true =>
    exact (hcolons _).trans (congrArg (fun l => ':' :: ':' :: l) (Text.replace_cons hbehind))
  case false.false => exact hcolons _

/-- The second replacement takes the blank behind a `::`, and leaves the one in front of it. -/
theorem closeAfterColons_link (before after : Bool) :
    closeAfterColons ((Gap.single before).chars ++ colonsThen (.single after) (w ++ cs)) =
      (Gap.single before).chars ++ colonsThen (.single false) (closeAfterColons (w ++ cs)) := by
  obtain ⟨c, x, rfl, -⟩ := hw.exists_cons
  have hcolon := hw.ne_colon List.mem_cons_self
  have hspace : c ≠ ' ' := by
    -- a name starts with no blank, so no replacement runs into it
    rintro rfl
    exact absurd (hw.isBlank_eq_false List.mem_cons_self) (by decide)
  have hbefore : closeAfterColons ((Gap.single before).chars ++
      colonsThen (.single after) (c :: x ++ cs)) = (Gap.single before).chars ++
        closeAfterColons (colonsThen (.single after) (c :: x ++ cs)) :=
    Text.replace_append_of_forall_ne (by cases before <;> simp [Gap.single])
  rw [hbefore]
  congr 1
  cases after with
  | true => exact Text.replace_lead_append (List.cons_ne_nil ':' [':', ' ']) _
  -- without a blank behind the colons neither of them starts a replacement
  | false =>
    have hfirst : Text.dropLead? [':', ':', ' '] (':' :: ':' :: c :: (x ++ cs)) = none := by
      simp [Text.dropLead?, Ne.symm hspace]
    have hsecond : Text.dropLead? [':', ':', ' '] (':' :: c :: (x ++ cs)) = none := by
      simp [Text.dropLead?, Ne.symm hcolon]
    exact (Text.replace_cons hfirst).trans (congrArg (List.cons ':') (Text.replace_cons hsecond))

end Replacements

namespace PathLink

/-- With at most one blank on each side. -/
def squeeze (l : PathLink) : PathLink :=
  { l with before := l.before.squeeze, after := l.after.squeeze }

/-- Without the blanks that stand on both sides. -/
def close (l : PathLink) : PathLink :=
  { l with
    before := .single (l.before.isOpen && !l.after.isOpen)
    after := .single (l.after.isOpen && !l.before.isOpen) }

/-- As a normal text has it: a blank is left before `::` if none followed it. -/
def normal (l : PathLink) : PathLink :=
  { l with before := .single (l.before.isOpen && !l.after.isOpen), after := .single false }

end PathLink

theorem squeeze_links {w : List Char} (hw : IsName w) (trail : Gap) (links : List PathLink) :
    Text.squeeze (w ++ linkChars trail.chars links) =
      w ++ linkChars [] (links.map PathLink.squeeze) := by
  induction links generalizing w with
  | nil => rw [linkChars, squeeze_name_gap hw, List.map_nil, linkChars, List.append_nil]
  | cons l ls ih =>
    rw [linkChars, squeeze_name_colonsThen hw, squeeze_colonsThen l.name.isName,
      ih l.name.isName, List.map_cons, linkChars]
    rfl

theorem closeColons_links (links : List PathLink) :
    closeColons (linkChars [] (links.map PathLink.squeeze)) =
      linkChars [] (links.map PathLink.close) := by
  induction links with
  | nil => rfl
  | cons l ls ih =>
    rw [List.map_cons, linkChars, PathLink.squeeze, Gap.squeeze, Gap.squeeze,
      closeColons_link l.name.isName, closeColons_name l.name.isName, ih]
    rfl

theorem closeAfterColons_links (links : List PathLink) :
    closeAfterColons (linkChars [] (links.map PathLink.close)) =
      linkChars [] (links.map PathLink.normal) := by
  induction links with
  | nil => rfl
  | cons l ls ih =>
    rw [List.map_cons, linkChars, PathLink.close, closeAfterColons_link l.name.isName,
      closeAfterColons_name l.name.isName, ih]
    rfl

namespace PathSpelling

variable (sp : PathSpelling)

/-- The spelling that normalising leaves. -/
def normal : PathSpelling where
  lead := .single false
  root := sp.root.map fun _ => .single false
  first := sp.first
  links := sp.links.map PathLink.normal
  trail := .single false

/-- **Normalising a spelling** gives a spelling of the same names. -/
theorem normalise_chars : TypeText.normalise sp.chars = sp.normal.chars := by
  -- the part behind a leading `::` is normalised the same way in both cases
  have hnames : closeAfterColons (closeColons (sp.first.chars ++
      linkChars [] (sp.links.map PathLink.squeeze))) = sp.normal.nameChars := by
    rw [closeColons_name sp.first.isName, closeColons_links,
      closeAfterColons_name sp.first.isName, closeAfterColons_links]
    rfl
  -- blanks in front of the path are dropped with the first word
  have hlead : Text.squeeze sp.chars = Text.squeeze (match sp.root with
      | none => sp.nameChars
      | some gap => colonsThen gap sp.nameChars) :=
    congrArg (Text.join [' ']) (Text.wordsBy_append_seps sp.lead.isBlank _)
  rw [TypeText.normalise_eq, hlead]
  cases hroot : sp.root with
  | none =>
    have hnormal : sp.normal.chars = sp.normal.nameChars := by
      rw [chars, normal, hroot]
      rfl
    rw [hnormal, ← hnames]
    dsimp only
    rw [nameChars, squeeze_links sp.first.isName]
  | some gap =>
    have hnormal : sp.normal.chars = colonsThen (.single false) sp.normal.nameChars := by
      rw [chars, normal, hroot]
      rfl
    -- the leading `::` is a link with nothing in front of it
    have hclose := closeColons_link sp.first.isName
      (linkChars [] (sp.links.map PathLink.squeeze)) false gap.isOpen
    have hafter := closeAfterColons_link sp.first.isName
      (linkChars [] (sp.links.map PathLink.close)) false (gap.isOpen && !false)
    rw [closeColons_name sp.first.isName, closeColons_links] at hclose hnames
    rw [hnormal, ← hnames]
    dsimp only
    rw [nameChars, squeeze_colonsThen sp.first.isName, squeeze_links sp.first.isName]
    exact (congrArg closeAfterColons hclose).trans hafter

end PathSpelling

/-! ### Tokens of a spelling -/

/-- The code that is the path of these words. -/
def pathCode (root : Option Position) (ws : List Word) : Code :=
  .path (.named root (ws.map (Segment.mk · [])))

/-- The tokens of the text come behind those there are and satisfy `P`. -/
def LexesTo (P : List TokenTree → Prop) (cs : List Char) : Prop :=
  ∀ fuel pos done, cs.length < fuel →
    ∃ ts, assemble fuel pos cs [] done = some (done.reverse ++ ts) ∧ P ts

section LexesTo

variable {P : List TokenTree → Prop} {cs : List Char}

theorem lexesTo_nil (h : P []) : LexesTo P [] := by
  intro fuel pos done hfuel
  obtain ⟨fuel, rfl⟩ : ∃ k, fuel = k + 1 := ⟨fuel - 1, by omega⟩
  exact ⟨[], by rw [List.append_nil]; rfl, h⟩

theorem lexesTo_gap (gap : Gap) (h : LexesTo P cs) : LexesTo P (gap.chars ++ cs) := by
  obtain ⟨blanks, hblank⟩ := gap
  dsimp only
  induction blanks with
  | nil => exact h
  | cons c blanks ih =>
    obtain ⟨hc, hrest⟩ := List.forall_mem_cons.mp hblank
    intro fuel pos done hfuel
    rw [List.cons_append, List.length_cons] at hfuel
    obtain ⟨fuel, rfl⟩ : ∃ k, fuel = k + 1 := ⟨fuel - 1, by omega⟩
    -- a blank is skipped, and the position moves on
    have hskipped : isSkipped c = true := by
      rw [isSkipped, hc]
      rfl
    rw [List.cons_append, assemble_skipped hskipped]
    exact ih hrest fuel _ done (Nat.lt_of_succ_lt_succ hfuel)

theorem lexesTo_name {w : List Char} (hw : IsName w) (hcs : EndsName cs)
    (h : LexesTo (fun ts => ∀ pos, P (.leaf pos (.ident (String.ofList w)) :: ts)) cs) :
    LexesTo P (w ++ cs) := by
  intro fuel pos done hfuel
  have hpos := List.length_pos_iff.mpr hw.ne_nil
  -- a name is not empty, so there is fuel for it
  rw [List.length_append] at hfuel
  obtain ⟨fuel, rfl⟩ : ∃ k, fuel = k + 1 := ⟨fuel - 1, by omega⟩
  rw [assemble_token (List.append_ne_nil_of_left_ne_nil hw.ne_nil cs)
    (Lexed.next?_of_isName hw hcs), List.drop_left]
  obtain ⟨ts, hts, hP⟩ := h fuel (pos.after ((w ++ cs).take w.length))
    (.leaf pos (.ident (String.ofList w)) :: done) (by omega)
  refine ⟨_, hts.trans ?_, hP pos⟩
  rw [List.reverse_cons, List.append_assoc, List.singleton_append]

theorem next?_colon (cs : List Char) :
    Lexed.next? (':' :: cs) = some (.token (.punct ':' (startsPunct cs)), 1) := by
  -- a colon starts neither a number nor a literal, so it is taken as punctuation
  have hnumber : number (':' :: cs) = none := number_eq_none (by decide) cs
  have hliteral : literal (':' :: cs) = none := hnumber
  have hpunct : startsPunct (':' :: cs) = true := by
    have hmem : punctuation.contains ':' = true := by decide
    exact hmem
  have htoken : Lexed.token? (':' :: cs) = some (.token (.punct ':' (startsPunct cs)), 1) := by
    rw [Lexed.token?, hliteral]
    · dsimp only
      rw [hpunct, if_pos rfl]
    · decide
  rw [Lexed.next?, if_neg (by decide), plainComment_eq_none (by decide),
    docComment_eq_none (by decide)]
  exact htoken

theorem startsPunct_gap_name {w : List Char} (hw : IsName w) (gap : Gap) (cs : List Char) :
    startsPunct (gap.chars ++ (w ++ cs)) = false := by
  obtain ⟨blanks, hblank⟩ := gap
  cases blanks with
  | nil =>
    obtain ⟨c, x, rfl, hstart⟩ := hw.exists_cons
    exact startsPunct_eq_false (not_mem_punctuation hstart) _
  | cons c blanks =>
    -- no blank is a punctuation character
    have hnone : punctuation.all (fun d => !Text.isBlank d) = true := by decide
    refine startsPunct_eq_false ?_ _
    rw [← Bool.not_eq_true, List.contains_iff_mem]
    intro hmem
    have hopen := List.all_eq_true.mp hnone c hmem
    rw [hblank c List.mem_cons_self] at hopen
    cases hopen

theorem lexesTo_colonsThen {w : List Char} (hw : IsName w) (gap : Gap)
    (h : LexesTo (fun ts => ∀ p q, P (colonTrees p q ++ ts)) (w ++ cs)) :
    LexesTo P (colonsThen gap (w ++ cs)) := by
  intro fuel pos done hfuel
  have hgap := lexesTo_gap gap h
  rw [colonsThen, List.length_cons, List.length_cons] at hfuel
  -- the two colons are two tokens, so they take two of the fuel
  obtain ⟨fuel, rfl⟩ : ∃ k, fuel = k + 2 := ⟨fuel - 2, by omega⟩
  rw [colonsThen, assemble_token (List.cons_ne_nil _ _) (next?_colon _), List.drop_one,
    List.tail_cons, assemble_token (List.cons_ne_nil _ _) (next?_colon _), List.drop_one,
    List.tail_cons, startsPunct_gap_name hw gap cs]
  -- the second colon stands apart from what follows, whether a gap or a name does
  obtain ⟨ts, hts, hP⟩ := hgap fuel ((pos.after [':']).after [':'])
    (.leaf (pos.after [':']) (.punct ':' false) :: .leaf pos (.punct ':' true) :: done) (by omega)
  refine ⟨colonTrees pos (pos.after [':']) ++ ts, hts.trans ?_, hP _ _⟩
  rw [List.reverse_cons, List.reverse_cons, List.append_assoc, List.append_assoc]
  rfl

end LexesTo

/-- Behind a name blanks follow, or colons, or nothing. -/
theorem endsName_links (trail : Gap) (links : List PathLink) :
    EndsName (linkChars trail.chars links) := by
  -- a blank ends a name, and so does the colon of a link
  have hblank {c : Char} (h : Text.isBlank c = true) :
      Text.isNameContinue c = false ∧ c ≠ '#' ∧ c ≠ '"' ∧ c ≠ '\'' := by
    have hskipped : isSkipped c = true := by
      rw [isSkipped, h]
      rfl
    refine ⟨?_, ?_, ?_, ?_⟩
    · exact not_isNameContinue_of_mem (List.mem_append_left _ (List.mem_append_left _
        (mem_skippedCharacters hskipped)))
    all_goals
      rintro rfl
      exact absurd h (by decide)
  have hgap (gap : Gap) {cs : List Char} (hcs : EndsName cs) : EndsName (gap.chars ++ cs) := by
    obtain ⟨blanks, hall⟩ := gap
    cases blanks with
    | nil => exact hcs
    | cons c blanks =>
      rintro d ⟨⟩
      exact hblank (hall _ List.mem_cons_self)
  cases links with
  | nil =>
    have h := hgap trail endsName_nil
    rwa [List.append_nil] at h
  | cons l ls =>
    refine hgap l.before ?_
    rintro c ⟨⟩
    exact ⟨by decide, by decide, by decide, by decide⟩

theorem lexesTo_links (trail : Gap) (links : List PathLink) :
    LexesTo (fun ts => ∃ ws, LinkTrees ws ts ∧ ws.map Word.text = links.map (·.name.text))
      (linkChars trail.chars links) := by
  induction links with
  | nil =>
    -- only the blanks behind the path are left
    have h := lexesTo_gap trail (lexesTo_nil (P := fun ts => ∃ ws, LinkTrees ws ts ∧
      ws.map Word.text = ([] : List PathLink).map (·.name.text)) ⟨[], .nil, rfl⟩)
    rwa [List.append_nil] at h
  | cons l ls ih =>
    refine lexesTo_gap l.before (lexesTo_colonsThen l.name.isName l.after
      (lexesTo_name l.name.isName (endsName_links trail ls) ?_))
    intro fuel pos done hfuel
    -- the tokens of the later links come behind those of this one
    obtain ⟨ts, hts, ws, hws, hnames⟩ := ih fuel pos done hfuel
    refine ⟨ts, hts, fun at' p q => ⟨⟨l.name.text, at'⟩ :: ws, ?_, ?_⟩⟩
    · rw [Identifier.chars, String.ofList_toList]
      exact .cons p q _ hws
    · rw [List.map_cons, hnames, List.map_cons]

namespace PathSpelling

variable (sp : PathSpelling)

theorem head?_chars : ∃ c cs, sp.chars = c :: cs ∧ c ≠ byteOrderMark := by
  obtain ⟨c, x, hname, hstart⟩ := sp.first.isName.exists_cons
  unfold chars
  -- a byte order mark is neither a blank nor part of a name
  cases hlead : sp.lead.chars with
  | cons d blanks =>
    refine ⟨d, _, rfl, ?_⟩
    rintro rfl
    have hblank := sp.lead.isBlank byteOrderMark (by rw [hlead]; exact List.mem_cons_self)
    exact absurd hblank (by decide)
  | nil =>
    cases sp.root with
    | none =>
      dsimp only
      rw [nameChars, hname]
      exact ⟨c, _, rfl, ne_byteOrderMark hstart⟩
    | some gap => exact ⟨':', _, rfl, by decide⟩

/-- From the first name on, a spelling has the tokens of its names. -/
theorem lexesTo_nameChars :
    LexesTo (fun ts => ∃ w ws us, ts = w.tree :: us ∧ LinkTrees ws us ∧
      (w :: ws).map Word.text = sp.names) sp.nameChars := by
  refine lexesTo_name sp.first.isName (endsName_links sp.trail sp.links) ?_
  intro fuel pos done hfuel
  obtain ⟨ts, hts, ws, hws, hlinks⟩ := lexesTo_links sp.trail sp.links fuel pos done hfuel
  refine ⟨ts, hts, fun at' => ⟨⟨sp.first.text, at'⟩, ws, ts, ?_, hws, ?_⟩⟩
  · rw [Identifier.chars, String.ofList_toList]
    rfl
  · rw [List.map_cons, hlinks]
    rfl

/-- Blanks and a first `::` may stand before them. -/
theorem lexesTo_chars :
    LexesTo (fun ts => ∃ root ws, PathTrees root ws ts ∧ ws.map Word.text = sp.names ∧
      root.isSome = sp.root.isSome) sp.chars := by
  refine lexesTo_gap sp.lead ?_
  cases sp.root with
  | none =>
    intro fuel pos done hfuel
    -- without a leading `::` the names are read at once
    obtain ⟨ts, hts, w, ws, us, rfl, hws, hnames⟩ := sp.lexesTo_nameChars fuel pos done hfuel
    exact ⟨_, hts, none, w :: ws, .plain w hws, hnames, rfl⟩
  | some gap =>
    refine lexesTo_colonsThen sp.first.isName gap ?_
    intro fuel pos done hfuel
    obtain ⟨ts, hts, w, ws, us, rfl, hws, hnames⟩ := sp.lexesTo_nameChars fuel pos done hfuel
    exact ⟨_, hts, fun p q => ⟨some p, w :: ws, .rooted p q w hws, hnames, rfl⟩⟩

/-- The tokens of a spelling are its names joined by `::`. -/
theorem exists_lex : ∃ root ws ts, lex sp.text = some ts ∧ PathTrees root ws ts ∧
    ws.map Word.text = sp.names ∧ root.isSome = sp.root.isSome := by
  have hall := sp.lexesTo_chars
  obtain ⟨c, cs, hchars, hmark⟩ := sp.head?_chars
  rw [hchars] at hall
  obtain ⟨ts, hts, root, ws, hpath, hws⟩ :=
    hall ((c :: cs).length + 1) ⟨1, 0⟩ [] (Nat.lt_succ_self _)
  refine ⟨root, ws, ts, ?_, hpath, hws⟩
  rw [text, hchars, lex_ofList hmark, lexAt, hts]
  rfl

theorem mem_names {s : String} (h : s ∈ sp.names) : ∃ i : Identifier, i.text = s := by
  rcases List.mem_cons.mp h with rfl | hlink
  · exact ⟨sp.first, rfl⟩
  · obtain ⟨l, -, rfl⟩ := List.mem_map.mp hlink
    exact ⟨l.name, rfl⟩

/-- **A spelling is read as the path of its names.** -/
theorem typeOfText?_text : ∃ root ws, typeOfText? sp.text = some (pathCode root ws) ∧
    ws.map Word.text = sp.names ∧ root.isSome = sp.root.isSome := by
  obtain ⟨root, ws, ts, hlex, hpath, hnames, hroot⟩ := sp.exists_lex
  refine ⟨root, ws, typeOfText?_of_pathTrees hlex hpath fun w hw => ?_, hnames, hroot⟩
  obtain ⟨i, hi⟩ := sp.mem_names (hnames ▸ List.mem_map_of_mem hw)
  rw [← hi]
  exact i.not_isKeyword

end PathSpelling

/-! ### Paths as code -/

theorem linkTrees_pathSeparated (w : Word) (ws : List Word) :
    ∃ ts, LinkTrees ws ts ∧
      pathSeparated (Segment.treesList ((w :: ws).map (Segment.mk · []))) = w.tree :: ts := by
  -- each segment is one word, without arguments
  have heach (v : Word) (vs : List Word) : Segment.treesList ((v :: vs).map (Segment.mk · [])) =
      [v.tree] :: Segment.treesList (vs.map (Segment.mk · [])) := by
    rw [List.map_cons, Segment.treesList, Segment.trees, Code.treesList]
  induction ws generalizing w with
  -- the induction is on the links behind the first name
  | nil =>
    rw [heach, List.map_nil, Segment.treesList]
    exact ⟨[], .nil, rfl⟩
  | cons v ws ih =>
    obtain ⟨ts, hts, heq⟩ := ih v
    rw [heach, heach, pathSeparated, ← heach v ws, heq]
    exact ⟨_, .cons _ _ v hts, rfl⟩

theorem pathTrees_pathCode (root : Option Position) (w : Word) (ws : List Word) :
    PathTrees root (w :: ws) (pathCode root (w :: ws)).trees := by
  obtain ⟨ts, hts, heq⟩ := linkTrees_pathSeparated w ws
  rw [pathCode, Code.trees, Path.trees.eq_def]
  dsimp only
  rw [heq]
  cases root with
  | none => exact .plain w hts
  | some p => exact .rooted p _ w hts

namespace PathSpelling

/-- With one blank around every `::`. -/
def spaced (sp : PathSpelling) : PathSpelling where
  lead := .single false
  root := sp.root.map fun _ => .single true
  first := sp.first
  links := sp.links.map fun l => ⟨.single true, .single true, l.name⟩
  trail := .single false

theorem textList_linkTrees {links : List PathLink} {w : Word} {ws : List Word}
    {ts : List TokenTree} (h : LinkTrees ws ts)
    (hnames : ws.map Word.text = links.map (·.name.text)) :
    (TokenTree.textList (w.tree :: ts)).toList = w.text.toList ++
      linkChars [] (links.map fun l => ⟨.single true, .single true, l.name⟩) := by
  -- a link is written with one blank on each side of its colons
  induction h generalizing w links with
  | nil =>
    cases links with
    | nil => exact (List.append_nil _).symm
    | cons l ls => cases hnames
  | @cons p q v ws ts h ih =>
    cases links with
    | nil => cases hnames
    | cons l ls =>
      obtain ⟨hv, hvs⟩ := List.cons.inj hnames
      have htext : TokenTree.textList (w.tree :: (colonTrees p q ++ v.tree :: ts)) =
          w.text ++ " " ++ (":" ++ "" ++ (":" ++ " " ++ TokenTree.textList (v.tree :: ts))) := rfl
      rw [htext, List.map_cons, linkChars]
      simp only [String.toList_append, List.append_assoc]
      rw [ih hvs, hv]
      rfl

theorem textList_pathTrees {sp : PathSpelling} {root : Option Position} {ws : List Word}
    {ts : List TokenTree} (h : PathTrees root ws ts) (hnames : ws.map Word.text = sp.names)
    (hroot : root.isSome = sp.root.isSome) :
    (TokenTree.textList ts).toList = sp.spaced.chars := by
  cases h with
  | plain w h =>
    obtain ⟨hw, hws⟩ := List.cons.inj hnames
    -- the token lists with and without a root correspond to the spellings with and without one
    have hnone : sp.root = none := Option.not_isSome_iff_eq_none.mp (by rw [← hroot]; decide)
    rw [textList_linkTrees h hws, hw, chars, spaced, hnone]
    rfl
  | @rooted p q w ws ts h =>
    obtain ⟨hw, hws⟩ := List.cons.inj hnames
    obtain ⟨gap, hsome⟩ := Option.isSome_iff_exists.mp hroot.symm
    have htext : TokenTree.textList (colonTrees p q ++ w.tree :: ts) =
        ":" ++ "" ++ (":" ++ " " ++ TokenTree.textList (w.tree :: ts)) := rfl
    rw [htext]
    simp only [String.toList_append, List.append_assoc]
    rw [textList_linkTrees h hws, hw, chars, spaced, hsome]
    rfl

/-- The text of a path as code is its spelling with a blank around every `::`. -/
theorem text_pathCode {sp : PathSpelling} {root : Option Position} {ws : List Word}
    (hnames : ws.map Word.text = sp.names) (hroot : root.isSome = sp.root.isSome) :
    (pathCode root ws).text.toList = sp.spaced.chars := by
  cases ws with
  | nil => cases hnames
  | cons w ws => exact textList_pathTrees (pathTrees_pathCode root w ws) hnames hroot

end PathSpelling

/-! ### Looking up -/

theorem toList_intercalate_cons_cons (s n : String) (names : List String) :
    ("::".intercalate (s :: n :: names)).toList =
      s.toList ++ ':' :: ':' :: ("::".intercalate (n :: names)).toList := by
  rw [String.intercalate_cons_cons, String.toList_append, String.toList_append, List.append_assoc]
  rfl

/-- Joined names start with the first of them, and so with no colon. -/
theorem head?_intercalate_ne_colon {s : String} (hs : IsName s.toList) (names : List String) :
    ("::".intercalate (s :: names)).toList.head? ≠ some ':' := by
  obtain ⟨c, x, hc, -⟩ := hs.exists_cons
  have hcolon : c ≠ ':' := hs.ne_colon (hc ▸ List.mem_cons_self)
  have hhead : ("::".intercalate (s :: names)).toList.head? = some c := by
    cases names with
    | nil => rw [String.intercalate_singleton, hc, List.head?_cons]
    | cons n names => rw [toList_intercalate_cons_cons, hc, List.cons_append, List.head?_cons]
  rw [hhead]
  exact fun heq => hcolon (Option.some.inj heq)

/-- What stands behind the last `::` of joined names is the last of them. -/
theorem afterLastSeparator?_intercalate {s : String} {names : List String}
    (h : ∀ n ∈ s :: names, IsName n.toList) :
    (Text.afterLastSeparator? ("::".intercalate (s :: names)).toList).getD
        ("::".intercalate (s :: names)).toList =
      ((s :: names).getLast (List.cons_ne_nil _ _)).toList := by
  obtain ⟨hs, hnames⟩ := List.forall_mem_cons.mp h
  -- the last separator stands in front of the last name, since names hold no colons
  induction names generalizing s with
  | nil =>
    rw [String.intercalate_singleton,
      Text.afterLastSeparator?_of_forall_ne fun c hc => hs.ne_colon hc]
    rfl
  | cons n names ih =>
    obtain ⟨hn, hrest⟩ := List.forall_mem_cons.mp hnames
    rw [toList_intercalate_cons_cons, Text.afterLastSeparator?_append (fun c hc => hs.ne_colon hc)
      (head?_intercalate_ne_colon hn names), Option.getD_some, ih hnames hn hrest]
    rfl

/-- The qualified name of names joined by `::` ends with the last of them. -/
theorem TypeName.ofQualified_intercalate {s : String} {names : List String}
    (h : ∀ n ∈ s :: names, IsName n.toList) :
    ofQualified ("::".intercalate (s :: names)) =
      ⟨"::".intercalate (s :: names), (s :: names).getLast (List.cons_ne_nil _ _)⟩ := by
  rw [ofQualified, TypeName.mk.injEq]
  refine ⟨rfl, ?_⟩
  rw [← String.toList_inj, ← afterLastSeparator?_intercalate h]
  split
  · next cs heq =>
    rw [String.toList_ofList, heq]
    rfl
  · next heq =>
    rw [heq]
    rfl

namespace PathSpelling

variable (sp : PathSpelling)

theorem ofQualified_names : TypeName.ofQualified ("::".intercalate sp.names) = sp.typeName := by
  refine TypeName.ofQualified_intercalate fun n hn => ?_
  obtain ⟨i, rfl⟩ := sp.mem_names hn
  exact i.isName

theorem names_normal : sp.normal.names = sp.names := by
  rw [names, normal, List.map_map]
  rfl

/-- A single name has no blanks in its normal text. -/
theorem text_normal_of_no_links (h : sp.links = []) :
    sp.normal.text = (if sp.root.isSome then "::" else "") ++ sp.first.text := by
  rw [← String.toList_inj, text, String.toList_ofList, chars, nameChars, normal, h,
    String.toList_append]
  cases sp.root with
  | none => exact List.append_nil _
  | some gap =>
    rw [Option.isSome_some, if_pos rfl]
    exact congrArg (fun l => ':' :: ':' :: l) (List.append_nil sp.first.chars)

end PathSpelling

/-- What the path is looked up as: paths of two names or more are taken as qualified, and single
names have to be known. -/
def TypeTable.pathAnswer (t : TypeTable) (sp : PathSpelling) : Except ResolveError TypeName :=
  if 2 ≤ sp.names.length ∨ t.contains sp.first.text = true then
    .ok sp.typeName
  else .error (.unknown ⟨(if sp.root.isSome then "::" else "") ++ sp.first.text⟩)

namespace TypeTable

variable (t : TypeTable)

theorem resolveRef_pending (ty : TypeText) : t.resolveRef (.pending ty) = t.resolve ty := rfl

section Words

variable {t} {ty : TypeText} {root : Option Position} {ws : List Word}
  (hty : typeOfText? ty.text = some (pathCode root ws))
include hty

theorem resolve_pathCode :
    t.resolve ty = t.resolveSegments ty (ws.map (Segment.mk · [])) := by
  rw [resolve, hty]
  rfl

/-- A single name has to be known. -/
theorem resolve_single {s : String} (hws : ws.map Word.text = [s]) :
    t.resolve ty =
      if t.contains s then .ok (.ofQualified s) else .error (.unknown ty) := by
  obtain ⟨w, rfl, rfl⟩ := List.map_eq_singleton_iff.mp hws
  rw [resolve_pathCode hty]
  rfl

/-- Two names or more are taken as they are. -/
theorem resolve_many {s s' : String} {ss : List String} (hws : ws.map Word.text = s :: s' :: ss) :
    t.resolve ty = .ok (.ofQualified ("::".intercalate (s :: s' :: ss))) := by
  -- no segment has arguments, so the names alone are resolved
  have hplain : (ws.map (Segment.mk · [])).any (fun s => !s.args.isEmpty) = false := by
    rw [List.any_eq_false]
    intro s hs
    obtain ⟨w, -, rfl⟩ := List.mem_map.mp hs
    exact Bool.false_ne_true
  have hnames : (ws.map (Segment.mk · [])).map (fun s => s.name.text) = s :: s' :: ss := by
    rw [List.map_map, ← hws]
    rfl
  rw [resolve_pathCode hty, resolveSegments, hplain, if_neg Bool.false_ne_true]
  dsimp only
  rw [hnames]

end Words

/-- A normal text is looked up by its names. -/
theorem resolve_normal (sp : PathSpelling) :
    t.resolve ⟨sp.normal.text⟩ = t.pathAnswer sp := by
  obtain ⟨root, ws, htext, hwords, -⟩ := sp.normal.typeOfText?_text
  have htext : typeOfText? (TypeText.mk sp.normal.text).text = some (pathCode root ws) := htext
  have hqualified := sp.ofQualified_names
  rw [sp.names_normal] at hwords
  cases hlinks : sp.links with
  -- a single name has to be known
  | nil =>
    have hone : sp.names = [sp.first.text] := by
      rw [PathSpelling.names, hlinks]
      rfl
    have hlength : ¬ 2 ≤ sp.names.length := by
      rw [hone, List.length_singleton]
      omega
    rw [hone, String.intercalate_singleton] at hqualified
    rw [resolve_single htext (hwords.trans hone), pathAnswer, sp.text_normal_of_no_links hlinks,
      hqualified]
    by_cases hknown : t.contains sp.first.text = true
    · rw [if_pos hknown, if_pos (.inr hknown)]
    · rw [if_neg hknown, if_neg (not_or.mpr ⟨hlength, hknown⟩)]
  | cons l ls =>
    -- two names or more are taken as they are
    have hmore : sp.names = sp.first.text :: l.name.text :: ls.map (·.name.text) := by
      rw [PathSpelling.names, hlinks, List.map_cons]
    have hlength : 2 ≤ sp.names.length := by
      rw [hmore, List.length_cons, List.length_cons]
      omega
    rw [resolve_many htext (hwords.trans hmore), ← hmore, pathAnswer, if_pos (.inl hlength)]
    exact congrArg Except.ok hqualified

theorem resolve_ofText (sp : PathSpelling) : t.resolve (.ofText sp.text) = t.pathAnswer sp := by
  have hnormal : TypeText.ofText sp.text = ⟨sp.normal.text⟩ := by
    rw [TypeText.ofText, PathSpelling.text, String.toList_ofList, sp.normalise_chars,
      PathSpelling.text]
  rw [hnormal, resolve_normal]

/-- A path as code is looked up like any spelling of it. -/
theorem resolve_ofCode {sp : PathSpelling} {root : Option Position} {ws : List Word}
    (hnames : ws.map Word.text = sp.names) (hroot : root.isSome = sp.root.isSome) :
    t.resolve (.ofCode (pathCode root ws)) = t.pathAnswer sp := by
  have hcode : (pathCode root ws).text = sp.spaced.text := by
    rw [← String.toList_inj, PathSpelling.text_pathCode hnames hroot, PathSpelling.text,
      String.toList_ofList]
  -- blanks around the separators change nothing in the answer
  have hanswer : t.pathAnswer sp.spaced = t.pathAnswer sp := by
    have hsame : sp.spaced.names = sp.names := by
      rw [PathSpelling.names, PathSpelling.spaced, List.map_map]
      rfl
    have hrooted : sp.spaced.root.isSome = sp.root.isSome := Option.isSome_map
    simp only [pathAnswer, PathSpelling.typeName, hsame, hrooted]
    rfl
  rw [TypeText.ofCode, hcode, resolve_ofText, hanswer]

/-- **A path is looked up by its names**, however it is written, as text or as code. -/
theorem resolveRef_spelling (sp : PathSpelling) :
    t.resolveRef (.ofText sp.text) = t.pathAnswer sp ∧
      ∃ c, typeOfText? sp.text = some c ∧
        t.resolveRef (.pending (.ofCode c)) = t.pathAnswer sp := by
  obtain ⟨root, ws, htext, hnames, hroot⟩ := sp.typeOfText?_text
  refine ⟨?_, pathCode root ws, htext, ?_⟩
  · rw [TypeRef.ofText, resolveRef_pending, resolve_ofText]
  · rw [resolveRef_pending, resolve_ofCode t hnames hroot]

example : (TypeTable.standard.resolveRef (.ofText "\t:: std ::fmt\n")).toOption =
    some ⟨"std::fmt", "fmt"⟩ := by decide +kernel

end TypeTable

end FieldGraft
