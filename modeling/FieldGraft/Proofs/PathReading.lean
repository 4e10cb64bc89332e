import FieldGraft.Source.Grammar

/-!
# Reading plain paths

A parser *reads* a value if it succeeds with it and leaves a rest (`Parser.Reads`). For paths
without generic arguments this is followed in both directions.

* `Grammar.reads_typeRule_path` — names joined by `::` are read as the path of these names.
* `Grammar.segments_of_reads_typeRule` — a type that is such a path has its names from the tokens
  read.
-/

namespace FieldGraft

namespace Parser

/-- `p` reads `a` at `c` and leaves `c'`. -/
def Reads {α : Type} (p : Parser α) (c : Cursor) (a : α) (c' : Cursor) : Prop :=
  p.run c = .ok (a, c')

section Rules

variable {α β : Type} {p : Parser α} {f : α → Parser β} {c c' mid : Cursor} {a x : α} {b : β}

theorem Reads.bind (hp : Reads p c a mid) (hf : Reads (f a) mid b c') : Reads (p >>= f) c b c' := by
  unfold Reads at hp hf ⊢
  rw [StateT.run_bind, hp]
  exact hf

theorem reads_bind_iff :
    Reads (p >>= f) c b c' ↔ ∃ a mid, Reads p c a mid ∧ Reads (f a) mid b c' := by
  refine ⟨fun h => ?_, fun ⟨_, _, hp, hf⟩ => hp.bind hf⟩
  unfold Reads at h ⊢
  rw [StateT.run_bind] at h
  -- an error of the first parser is one of both
  cases hp : p.run c with
  | error e =>
    rw [hp] at h
    cases h
  | ok r =>
    rw [hp] at h
    exact ⟨r.1, r.2, rfl, h⟩

theorem reads_pure : Reads (pure a) c a c := rfl

theorem reads_pure_iff : Reads (pure a) c x c' ↔ x = a ∧ c' = c := by
  refine ⟨fun h => ?_, fun ⟨ha, hc⟩ => ha ▸ hc ▸ reads_pure⟩
  cases h
  exact ⟨rfl, rfl⟩

theorem reads_look : Reads look c c.trees c := rfl

theorem reads_look_iff {ts : List TokenTree} : Reads look c ts c' ↔ ts = c.trees ∧ c' = c := by
  refine ⟨fun h => ?_, fun ⟨ht, hc⟩ => ht ▸ hc ▸ reads_look⟩
  cases h
  exact ⟨rfl, rfl⟩

theorem not_reads_throw {e : SyntaxError} : ¬ Reads (throw e) c a c' := by
  intro h
  cases h

theorem not_reads_fail {text : String} : ¬ Reads (fail text) c a c' := by
  intro h
  obtain ⟨_, _, -, h⟩ := reads_bind_iff.mp h
  exact not_reads_throw h

theorem not_reads_bind (h : ∀ a mid, ¬ Reads p c a mid) : ¬ Reads (p >>= f) c b c' := by
  intro hread
  obtain ⟨a, mid, hp, -⟩ := reads_bind_iff.mp hread
  exact h a mid hp

/-- The rest does not matter where nothing is read after a look. -/
theorem reads_look_bind_iff {f : List TokenTree → Parser β} :
    Reads (look >>= f) c b c' ↔ Reads (f c.trees) c b c' := by
  refine ⟨fun h => ?_, fun h => reads_look.bind h⟩
  obtain ⟨_, _, hlook, h⟩ := reads_bind_iff.mp h
  obtain ⟨rfl, rfl⟩ := reads_look_iff.mp hlook
  exact h

theorem Reads.of_ite {d : Prop} [Decidable d] {p q : Parser α}
    (h : Reads (if d then p else q) c a c') : (d ∧ Reads p c a c') ∨ (¬ d ∧ Reads q c a c') := by
  split at h
  · next hd => exact .inl ⟨hd, h⟩
  · next hd => exact .inr ⟨hd, h⟩

theorem exists_reads_of_runAll {ts : List TokenTree} (h : runAll p ts = .ok a) :
    ∃ c', Reads p { trees := ts } a c' := by
  unfold runAll at h
  cases hp : p.run { trees := ts } with
  | error e =>
    rw [hp] at h
    cases h
  | ok r =>
    obtain ⟨x, c'⟩ := r
    rw [hp] at h
    refine ⟨c', hp.trans ?_⟩
    dsimp only [bind, Except.bind] at h
    -- only a parser that leaves nothing over gives its value
    split at h
    · cases h
    · split at h
      · cases h
        rfl
      · cases h

/-- What every step of a repetition keeps holds at its end. -/
theorem invariant_of_reads_iterate {σ : Type} {step : σ → Parser (σ × Bool)}
    {Inv : σ → Cursor → Prop}
    (hstep : ∀ s c r c', Inv s c → Reads (step s) c r c' → Inv r.1 c')
    {fuel : Nat} {s s' : σ} (hs : Inv s c) (h : Reads (iterate step fuel s) c s' c') :
    Inv s' c' := by
  induction fuel generalizing s c with
  | zero =>
    obtain ⟨rfl, rfl⟩ := reads_pure_iff.mp h
    exact hs
  | succ fuel ih =>
    rw [iterate, reads_bind_iff] at h
    -- one turn keeps the invariant, and then either the loop ends or it goes on
    obtain ⟨⟨t, again⟩, mid, hone, h⟩ := h
    have ht := hstep _ _ _ _ hs hone
    cases again with
    | false =>
      obtain ⟨rfl, rfl⟩ := reads_pure_iff.mp h
      exact ht
    | true => exact ih ht h

end Rules

end Parser

open FieldGraft.Parser

/-! ### Operators -/

namespace Ahead

variable {ts rest : List TokenTree} {cs : List Char}

/-- An operator is read whatever stands behind it. -/
theorem exists_taken_of_dropOp? (h : dropOp? cs ts = some rest) :
    ∃ taken, taken ++ rest = ts ∧ taken.length = cs.length ∧
      ∀ ts', dropOp? cs (taken ++ ts') = some ts' := by
  induction cs, ts using dropOp?.induct with
  | case1 ts =>
    cases h
    exact ⟨[], rfl, rfl, fun ts' => by rw [List.nil_append, dropOp?]⟩
  -- the last character of an operator may be joined to what follows it
  | case2 pos d joint ts =>
    rw [dropOp?, if_pos rfl] at h
    cases h
    refine ⟨[.leaf pos (.punct d joint)], rfl, rfl, fun ts' => ?_⟩
    rw [List.singleton_append, dropOp?, if_pos rfl]
  | case3 c pos d joint ts hne =>
    rw [dropOp?, if_neg hne] at h
    cases h
  -- any earlier character has to be joined to the next one
  | case4 c cs pos d joint ts hcs hfront ih =>
    rw [dropOp?, if_pos hfront] at h
    · obtain ⟨taken, rfl, hlen, hall⟩ := ih h
      refine ⟨.leaf pos (.punct d joint) :: taken, rfl, congrArg Nat.succ hlen, fun ts' => ?_⟩
      rw [List.cons_append, dropOp?, if_pos hfront]
      · exact hall ts'
      · exact hcs
    · exact hcs
  | case5 c cs pos d joint ts hcs hfront =>
    rw [dropOp?, if_neg hfront] at h
    · cases h
    · exact hcs
  -- the tokens do not begin with the operator
  | case6 cs ts hnil hlast hmore =>
    rw [dropOp?.eq_def] at h
    split at h
    · exact (hnil rfl).elim
    · exact (hlast _ _ _ _ _ rfl rfl).elim
    · exact (hmore _ _ _ _ _ _ rfl rfl).elim
    · cases h

end Ahead

/-! ### Names and `::` -/

/-- The tokens of `::`. -/
def colonTrees (p q : Position) : List TokenTree :=
  [.leaf p (.punct ':' true), .leaf q (.punct ':' false)]

/-- The token trees are these words, each behind `::`. -/
inductive LinkTrees : List Word → List TokenTree → Prop where
  | nil : LinkTrees [] []
  | cons (p q : Position) (w : Word) {ws : List Word} {ts : List TokenTree}
      (h : LinkTrees ws ts) : LinkTrees (w :: ws) (colonTrees p q ++ w.tree :: ts)

theorem LinkTrees.length_eq {ws : List Word} {ts : List TokenTree} (h : LinkTrees ws ts) :
    ts.length = 3 * ws.length := by
  induction h with
  | nil => rfl
  | cons p q w h ih =>
    simp only [colonTrees, List.length_append, List.length_cons, List.length_nil, ih]
    omega

/-- The token trees are these words joined by `::`, perhaps behind a first `::`. -/
inductive PathTrees : Option Position → List Word → List TokenTree → Prop where
  | plain (w : Word) {ws : List Word} {ts : List TokenTree} (h : LinkTrees ws ts) :
      PathTrees none (w :: ws) (w.tree :: ts)
  | rooted (p q : Position) (w : Word) {ws : List Word} {ts : List TokenTree}
      (h : LinkTrees ws ts) : PathTrees (some p) (w :: ws) (colonTrees p q ++ w.tree :: ts)

/-- Nothing goes on with a path here. -/
def EndsPath (ts : List TokenTree) : Prop :=
  ∀ s ∈ ["::", "<", "!", "+", "#"], Ahead.op s ts = false

theorem endsPath_nil : EndsPath [] := by
  intro s hs
  simp only [List.mem_cons, List.not_mem_nil, or_false] at hs
  rcases hs with rfl | rfl | rfl | rfl | rfl <;> rfl

section Ahead

variable {w : Word} {ts : List TokenTree}

theorem keyword_word_eq_false {s : String} (hs : isKeyword s = true)
    (hw : isKeyword w.text = false) : Ahead.keyword s (w.tree :: ts) = false := by
  rw [Word.tree, Ahead.keyword, beq_eq_false_iff_ne]
  intro heq
  rw [heq, hs] at hw
  cases hw

theorem keywords_word_eq_false {ss : List String} (hss : ∀ s ∈ ss, isKeyword s = true)
    (hw : isKeyword w.text = false) : Ahead.keywords ss (w.tree :: ts) = false := by
  rw [Ahead.keywords, List.any_eq_false]
  intro s hs
  rw [keyword_word_eq_false (hss s hs) hw]
  exact Bool.false_ne_true

end Ahead

namespace Grammar

variable {g : Grammar}

/-! ### Reading names joined by `::` -/

/-- A segment without arguments. -/
theorem reads_segment {w : Word} {ts : List TokenTree} {l : Option Delimiter}
    (hw : isKeyword w.text = false) (hangle : Ahead.op "<" ts = false)
    (hturbo : (Ahead.op "::" ts && Ahead.op "<" (ts.drop 2)) = false) :
    Reads (g.segment false) ⟨w.tree :: ts, l⟩ (.mk w []) ⟨ts, l⟩ := by
  -- a word that is no keyword is an identifier
  have hident : Reads ident ⟨w.tree :: ts, l⟩ w ⟨ts, l⟩ := by
    unfold ident
    refine reads_look_bind_iff.mpr ?_
    rw [Word.tree]
    dsimp only
    rw [if_neg (by rw [hw]; exact Bool.false_ne_true)]
    rfl
  unfold segment
  rw [reads_look_bind_iff, keywords_word_eq_false (by decide) hw, if_neg Bool.false_ne_true]
  dsimp only
  rw [keyword_word_eq_false (by decide) hw, if_neg Bool.false_ne_true]
  -- neither kind of brackets follows, so there are no arguments
  refine hident.bind (reads_look_bind_iff.mpr ?_)
  rw [hangle, hturbo, Bool.and_false, Bool.false_and, Bool.false_and, Bool.or_false,
    if_neg Bool.false_ne_true]
  exact reads_pure

/-- One more segment, if `::` stands here. -/
def linkStep (g : Grammar) (exprStyle : Bool) (done : List Segment) :
    Parser (List Segment × Bool) := do
  let ts ← look
  if Ahead.op "::" ts && !Ahead.group .paren (ts.drop 2) then
    let _ ← op "::"
    return ((← g.segment exprStyle) :: done, true)
  else return (done, false)

theorem moreSegments_eq (exprStyle : Bool) (first : Segment) :
    g.moreSegments exprStyle first = (do
      let read ← loop [first] (g.linkStep exprStyle)
      return read.reverse) := rfl

theorem reads_colons (p q : Position) (ts : List TokenTree) (l : Option Delimiter) :
    Reads (op "::") ⟨colonTrees p q ++ ts, l⟩ (.op p "::") ⟨ts, l⟩ := rfl

theorem angle_linkTrees {ws : List Word} {ts rest : List TokenTree}
    (h : LinkTrees ws ts) (hrest : EndsPath rest) :
    Ahead.op "<" (ts ++ rest) = false ∧
      (Ahead.op "::" (ts ++ rest) && Ahead.op "<" ((ts ++ rest).drop 2)) = false := by
  cases h with
  | nil =>
    rw [List.nil_append, hrest "::" (by simp), hrest "<" (by simp), Bool.false_and]
    exact ⟨rfl, rfl⟩
  | cons p q w h => exact ⟨rfl, rfl⟩

/-- All further names are read. -/
theorem reads_links {ws : List Word} {ts rest : List TokenTree} (h : LinkTrees ws ts)
    (hws : ∀ w ∈ ws, isKeyword w.text = false) (hrest : EndsPath rest) {l : Option Delimiter}
    {fuel : Nat} (hfuel : ws.length < fuel) (done : List Segment) :
    Reads (iterate (g.linkStep false) fuel done) ⟨ts ++ rest, l⟩
      ((ws.map (Segment.mk · [])).reverse ++ done) ⟨rest, l⟩ := by
  induction h generalizing fuel done with
  | nil =>
    obtain ⟨fuel, rfl⟩ : ∃ k, fuel = k + 1 := ⟨fuel - 1, by omega⟩
    -- nothing that goes on with a path stands behind it
    have hstep : Reads (g.linkStep false done) ⟨[] ++ rest, l⟩ (done, false) ⟨rest, l⟩ := by
      unfold linkStep
      rw [reads_look_bind_iff, List.nil_append, hrest "::" (by simp), Bool.false_and,
        if_neg Bool.false_ne_true]
      exact reads_pure
    exact hstep.bind reads_pure
  | @cons p q w ws ts h ih =>
    obtain ⟨fuel, rfl⟩ : ∃ k, fuel = k + 1 := ⟨fuel - 1, by omega⟩
    obtain ⟨hw, hws⟩ := List.forall_mem_cons.mp hws
    -- behind the name comes the next link or the end of the path
    obtain ⟨hangle, hturbo⟩ := angle_linkTrees h hrest
    have hstep : Reads (g.linkStep false done) ⟨colonTrees p q ++ w.tree :: ts ++ rest, l⟩
        (.mk w [] :: done, true) ⟨ts ++ rest, l⟩ := by
      unfold linkStep
      rw [reads_look_bind_iff, List.append_assoc, if_pos (by rfl)]
      exact (reads_colons p q _ l).bind ((reads_segment hw hangle hturbo).bind reads_pure)
    refine hstep.bind ?_
    have hmore := ih hws (Nat.lt_of_succ_lt_succ hfuel) (.mk w [] :: done)
    rwa [List.map_cons, List.reverse_cons, List.append_assoc, List.singleton_append]

section Path

variable {root : Option Position} {ws : List Word} {ts rest : List TokenTree}
  {l : Option Delimiter}

/-- Behind the first name, all names are read. -/
theorem reads_moreSegments {w : Word} (h : LinkTrees ws ts)
    (hws : ∀ w ∈ ws, isKeyword w.text = false) (hrest : EndsPath rest) :
    Reads (g.moreSegments false (.mk w [])) ⟨ts ++ rest, l⟩ ((w :: ws).map (Segment.mk · []))
      ⟨rest, l⟩ := by
  rw [moreSegments_eq]
  -- each link takes three tokens, so there are turns enough
  have hfuel : ws.length < (ts ++ rest).length + 1 := by
    rw [List.length_append, h.length_eq]
    omega
  have hlinks := reads_links (g := g) h hws hrest (l := l) hfuel [.mk w []]
  -- the segments were collected in reverse
  refine Reads.bind (reads_look.bind hlinks) ?_
  rw [reads_pure_iff, List.reverse_append, List.reverse_reverse]
  exact ⟨rfl, rfl⟩

/-- The names of a path, whether or not a `::` was in front of them. -/
theorem reads_names {w : Word} (h : LinkTrees ws ts)
    (hws : ∀ v ∈ w :: ws, isKeyword v.text = false) (hrest : EndsPath rest)
    (at' : Option Position) :
    Reads (do
        let first ← g.segment false
        return Path.named at' (← g.moreSegments false first))
      ⟨w.tree :: ts ++ rest, l⟩ (.named at' ((w :: ws).map (Segment.mk · []))) ⟨rest, l⟩ := by
  obtain ⟨hw, hws⟩ := List.forall_mem_cons.mp hws
  obtain ⟨hangle, hturbo⟩ := angle_linkTrees h hrest
  exact (reads_segment hw hangle hturbo).bind ((reads_moreSegments h hws hrest).bind reads_pure)

/-- **Names joined by `::` are a path.** -/
theorem reads_namedPath (h : PathTrees root ws ts) (hws : ∀ w ∈ ws, isKeyword w.text = false)
    (hrest : EndsPath rest) :
    Reads (g.namedPath false) ⟨ts ++ rest, l⟩ (.named root (ws.map (Segment.mk · [])))
      ⟨rest, l⟩ := by
  cases h with
  | @plain w ws ts h =>
    have hroot : Reads (op? "::") ⟨w.tree :: ts ++ rest, l⟩ [] ⟨w.tree :: ts ++ rest, l⟩ := rfl
    exact hroot.bind (reads_names h hws hrest none)
  | @rooted p q w ws ts h =>
    have hroot : Reads (op? "::") ⟨colonTrees p q ++ w.tree :: ts ++ rest, l⟩ [.op p "::"]
        ⟨w.tree :: ts ++ rest, l⟩ := rfl
    -- the position of the leading colons is kept
    have hpos : some p = ([Code.op p "::"].head?.map Code.pos) := by
      rw [List.head?_cons, Option.map_some, Code.pos, Code.trees]
      rfl
    exact hroot.bind (hpos ▸ reads_names h hws hrest (some p))

/-- What stands at the front of names joined by `::` decides how a type is read. -/
theorem front_pathTrees (h : PathTrees root ws ts) (hws : ∀ w ∈ ws, isKeyword w.text = false)
    (hrest : EndsPath rest) :
    Ahead.keyword "for" (ts ++ rest) = false ∧ Ahead.group .paren (ts ++ rest) = false ∧
      Ahead.keywords ["fn", "unsafe", "extern"] (ts ++ rest) = false ∧
      builtinAhead (ts ++ rest) = false ∧ Ahead.pathStart (ts ++ rest) = true ∧
      Ahead.op "<" (ts ++ rest) = false := by
  cases h with
  | @plain w ws ts h =>
    have hw := (List.forall_mem_cons.mp hws).1
    -- what follows a single name is the rest of the text, and it ends the path
    have hhash : Ahead.op "#" (ts ++ rest) = false := by
      cases h with
      | nil => exact hrest "#" (by simp)
      | cons p q w h => rfl
    have hident : Ahead.ident (w.tree :: ts ++ rest) = true := by
      rw [List.cons_append, Word.tree, Ahead.ident, hw]
      rfl
    refine ⟨keyword_word_eq_false (by decide) hw, rfl, keywords_word_eq_false (by decide) hw, ?_,
      ?_, rfl⟩
    · rw [builtinAhead, List.cons_append, List.drop_one, List.tail_cons, hhash, Bool.and_false]
    · rw [Ahead.pathStart, hident, Bool.true_or, Bool.true_or]
  | rooted p q w h => exact ⟨rfl, rfl, rfl, rfl, rfl, rfl⟩

/-- **Names joined by `::` are a type**: the path of these names. -/
theorem reads_typeRule_path (h : PathTrees root ws ts)
    (hws : ∀ w ∈ ws, isKeyword w.text = false) (hrest : EndsPath rest) (plus : Bool) :
    Reads (g.typeRule plus) ⟨ts ++ rest, l⟩ (.path (.named root (ws.map (Segment.mk · []))))
      ⟨rest, l⟩ := by
  obtain ⟨hfor, hparen, hfn, hbuiltin, hstart, hangle⟩ := front_pathTrees h hws hrest
  -- a path begins with no `for`, so there is no binder
  have hbinder : Reads g.binder? ⟨ts ++ rest, l⟩ [] ⟨ts ++ rest, l⟩ := by
    unfold binder?
    rw [reads_look_bind_iff, hfor, if_pos (by rfl)]
    exact reads_pure
  have hpath : Reads (g.pathType plus []) ⟨ts ++ rest, l⟩
      (.path (.named root (ws.map (Segment.mk · [])))) ⟨rest, l⟩ := by
    have hany : Reads (g.anyPath false) ⟨ts ++ rest, l⟩ (.named root (ws.map (Segment.mk · [])))
        ⟨rest, l⟩ := by
      unfold anyPath
      rw [reads_look_bind_iff, hangle, if_neg Bool.false_ne_true]
      exact reads_namedPath h hws hrest
    unfold pathType
    -- neither a macro call nor bounds follow, and with them the path would not be the whole type
    refine hany.bind (reads_look_bind_iff.mpr ?_)
    dsimp only
    rw [hrest "!" (by simp), hrest "+" (by simp), Bool.false_and, Bool.false_and, Bool.and_false,
      List.isEmpty_nil, if_neg (by decide), if_neg (by decide)]
    exact reads_pure
  unfold typeRule
  refine reads_look_bind_iff.mpr (hbinder.bind (reads_look_bind_iff.mpr ?_))
  dsimp only
  -- of the conditions of the rule, only that for a path holds at the front
  rw [List.isEmpty_nil, hparen, hfn, hbuiltin, hstart, Bool.true_or, if_neg (by simp),
    if_neg Bool.false_ne_true, if_neg Bool.false_ne_true, if_neg Bool.false_ne_true, if_pos rfl]
  exact hpath

end Path

/-! ### Where the names of a path come from -/

/-- The keywords that may be segments of a path. -/
def pathKeywords : List String :=
  ["super", "self", "crate", "try", "Self"]

/-- A text that may be a segment of a path. -/
def IsSegmentName (s : String) : Prop :=
  isKeyword s = false ∨ s ∈ pathKeywords

theorem eq_of_reads_anyIdent {c c' : Cursor} {w : Word} (h : Reads anyIdent c w c') :
    c = ⟨w.tree :: c'.trees, c'.leftover⟩ := by
  obtain ⟨_ | ⟨⟨pos, _ | _ | _ | _⟩ | _, ts⟩, l⟩ := c
  all_goals cases h
  rfl

theorem reads_anyIdent {c c' : Cursor} {w : Word} (h : Reads anyIdent c w c') :
    c.trees = w.tree :: c'.trees := by
  rw [eq_of_reads_anyIdent h]

theorem reads_ident {c c' : Cursor} {w : Word} (h : Reads ident c w c') :
    c.trees = w.tree :: c'.trees ∧ isKeyword w.text = false := by
  unfold ident at h
  rw [reads_look_bind_iff] at h
  split at h
  · next pos t ts heq =>
    split at h
    · exact absurd h not_reads_fail
    · next hkeyword =>
      rw [heq]
      cases h
      exact ⟨rfl, Bool.not_eq_true _ ▸ hkeyword⟩
  · exact absurd h not_reads_fail

theorem mem_of_keywords {ss : List String} {w : Word} {ts : List TokenTree}
    (h : Ahead.keywords ss (w.tree :: ts) = true) : w.text ∈ ss := by
  obtain ⟨s, hs, hw⟩ := List.any_eq_true.mp h
  rw [Word.tree, Ahead.keyword, beq_iff_eq] at hw
  rwa [hw]

/-- Behind the name of a segment arguments are read, or nothing. -/
theorem args_of_reads {exprStyle : Bool} {w : Word} {s : Segment} {c c' : Cursor}
    (h : Reads (do
      let ts ← look
      if (!exprStyle && Ahead.op "<" ts && !Ahead.op "<=" ts && !Ahead.op "<<=" ts) ||
          (Ahead.op "::" ts && Ahead.op "<" (ts.drop 2)) then
        return .mk w [← g.genericArgs]
      else return .mk w []) c s c') :
    s.args ≠ [] ∨ (s = .mk w [] ∧ c' = c) := by
  rw [reads_look_bind_iff] at h
  -- arguments are read only if brackets follow, and then there are some
  split at h
  · obtain ⟨args, _, -, h⟩ := reads_bind_iff.mp h
    obtain ⟨rfl, -⟩ := reads_pure_iff.mp h
    exact .inl (List.cons_ne_nil _ _)
  · exact .inr (reads_pure_iff.mp h)

/-- A segment has arguments, or is the name at the front. -/
theorem segment_of_reads {exprStyle : Bool} {s : Segment} {c c' : Cursor}
    (h : Reads (g.segment exprStyle) c s c') :
    s.args ≠ [] ∨ (c.trees = s.name.tree :: c'.trees ∧ IsSegmentName s.name.text) := by
  unfold segment at h
  rw [reads_look_bind_iff] at h
  split at h
  · -- one of these keywords stands for itself and takes no arguments
    next hkeywords =>
    obtain ⟨w, mid, hw, h⟩ := reads_bind_iff.mp h
    obtain ⟨rfl, rfl⟩ := reads_pure_iff.mp h
    have hfront := reads_anyIdent hw
    rw [hfront] at hkeywords
    have hmem := mem_of_keywords hkeywords
    exact .inr ⟨hfront, .inr (List.mem_append_left ["Self"] hmem)⟩
  · -- behind the name arguments may follow
    have hname : ∃ (w : Word) (mid : Cursor),
        (c.trees = w.tree :: mid.trees ∧ IsSegmentName w.text) ∧
        (s.args ≠ [] ∨ (s = .mk w [] ∧ c' = mid)) := by
      dsimp only at h
      split at h
      · -- the keyword `Self` may have arguments, as any name
        next hself =>
        obtain ⟨w, mid, hw, h⟩ := reads_bind_iff.mp h
        have hfront := reads_anyIdent hw
        rw [hfront, Word.tree, Ahead.keyword, beq_iff_eq] at hself
        exact ⟨w, mid, ⟨hfront, .inr (by rw [hself]; decide)⟩, args_of_reads h⟩
      · obtain ⟨w, mid, hw, h⟩ := reads_bind_iff.mp h
        obtain ⟨hfront, hkeyword⟩ := reads_ident hw
        exact ⟨w, mid, ⟨hfront, .inl hkeyword⟩, args_of_reads h⟩
    obtain ⟨w, mid, hw, hargs | ⟨rfl, rfl⟩⟩ := hname
    · exact .inl hargs
    · exact .inr hw

theorem suffix_of_dropOp? {cs : List Char} {ts rest : List TokenTree}
    (h : Ahead.dropOp? cs ts = some rest) : rest <:+ ts := by
  obtain ⟨taken, rfl, -, -⟩ := Ahead.exists_taken_of_dropOp? h
  exact List.suffix_append taken rest

theorem suffix_of_reads_op {s : String} {a : Code} {c c' : Cursor} (h : Reads (op s) c a c') :
    c'.trees <:+ c.trees := by
  unfold op at h
  rw [reads_look_bind_iff] at h
  split at h
  · next rest hrest =>
    cases h
    exact suffix_of_dropOp? hrest
  · cases h

theorem suffix_of_reads_op? {s : String} {parts : List Code} {c c' : Cursor}
    (h : Reads (op? s) c parts c') : c'.trees <:+ c.trees := by
  unfold op? at h
  rw [reads_look_bind_iff] at h
  split at h
  · obtain ⟨_, _, hop, h⟩ := reads_bind_iff.mp h
    obtain ⟨-, rfl⟩ := reads_pure_iff.mp h
    exact suffix_of_reads_op hop
  · obtain ⟨-, rfl⟩ := reads_pure_iff.mp h
    exact List.suffix_refl _

/-- If no segment has arguments, the segments are names among the trees, and only trees at the front
have been read. -/
def PlainSegments (ts : List TokenTree) (segments : List Segment) (c : Cursor) : Prop :=
  (∀ s ∈ segments, s.args = []) →
    c.trees <:+ ts ∧ ∀ s ∈ segments, s.name.tree ∈ ts ∧ IsSegmentName s.name.text

theorem PlainSegments.cons {ts : List TokenTree} {exprStyle : Bool} {s : Segment}
    {done : List Segment} {c c' : Cursor} (h : PlainSegments ts done c)
    (hread : Reads (g.segment exprStyle) c s c') : PlainSegments ts (s :: done) c' := by
  intro hplain
  obtain ⟨hs, hdone⟩ := List.forall_mem_cons.mp hplain
  obtain ⟨hsuffix, hnames⟩ := h hdone
  obtain hargs | ⟨hfront, hname⟩ := segment_of_reads hread
  · exact absurd hs hargs
  · rw [hfront] at hsuffix
    exact ⟨(List.suffix_cons _ _).trans hsuffix,
      List.forall_mem_cons.mpr ⟨⟨hsuffix.mem List.mem_cons_self, hname⟩, hnames⟩⟩

theorem plainSegments_linkStep {ts : List TokenTree} {exprStyle : Bool} (done : List Segment)
    (c : Cursor) (r : List Segment × Bool) (c' : Cursor)
    (h : PlainSegments ts done c ∧ done ≠ []) (hread : Reads (g.linkStep exprStyle done) c r c') :
    PlainSegments ts r.1 c' ∧ r.1 ≠ [] := by
  unfold linkStep at hread
  rw [reads_look_bind_iff] at hread
  split at hread
  · -- the separator is read, and a segment behind it
    obtain ⟨_, behind, hop, hread⟩ := reads_bind_iff.mp hread
    obtain ⟨s, _, hs, hread⟩ := reads_bind_iff.mp hread
    obtain ⟨rfl, rfl⟩ := reads_pure_iff.mp hread
    have hbehind : PlainSegments ts done behind := fun hplain =>
      ⟨(suffix_of_reads_op hop).trans (h.1 hplain).1, (h.1 hplain).2⟩
    exact ⟨hbehind.cons hs, List.cons_ne_nil _ _⟩
  · obtain ⟨rfl, rfl⟩ := reads_pure_iff.mp hread
    exact h

/-- The segments of a path that is read, if none of them has arguments. -/
theorem segments_of_reads_namedPath {exprStyle : Bool} {root : Option Position}
    {segments : List Segment} {c c' : Cursor}
    (h : Reads (g.namedPath exprStyle) c (.named root segments) c')
    (hplain : ∀ s ∈ segments, s.args = []) :
    segments ≠ [] ∧ ∀ s ∈ segments, s.name.tree ∈ c.trees ∧ IsSegmentName s.name.text := by
  unfold namedPath at h
  obtain ⟨rootCode, behind, hroot, h⟩ := reads_bind_iff.mp h
  obtain ⟨first, mid, hfirst, h⟩ := reads_bind_iff.mp h
  obtain ⟨all, final, hall, h⟩ := reads_bind_iff.mp h
  obtain ⟨heq, rfl⟩ := reads_pure_iff.mp h
  obtain ⟨-, rfl⟩ := Path.named.inj heq
  rw [moreSegments_eq] at hall
  obtain ⟨read, _, hloop, hall⟩ := reads_bind_iff.mp hall
  obtain ⟨rfl, rfl⟩ := reads_pure_iff.mp hall
  unfold loop at hloop
  rw [reads_look_bind_iff] at hloop
  -- before the first segment nothing was collected
  have hnone : PlainSegments c.trees [] behind :=
    fun _ => ⟨suffix_of_reads_op? hroot, fun _ hs => nomatch hs⟩
  -- the loop keeps the names among the tokens, so they are there in the end
  obtain ⟨hread, hne⟩ := invariant_of_reads_iterate plainSegments_linkStep
    ⟨hnone.cons hfirst, List.cons_ne_nil _ _⟩ hloop
  have hnames := (hread fun s hs => hplain s (List.mem_reverse.mpr hs)).2
  exact ⟨fun hnil => hne (List.reverse_eq_nil_iff.mp hnil),
    fun s hs => hnames s (List.mem_reverse.mp hs)⟩

/-! ### Types that are no plain paths -/

/-- Whatever `p` reads satisfies `P`. -/
def Yields {α : Type} (P : α → Prop) (p : Parser α) : Prop :=
  ∀ c a c', Reads p c a c' → P a

section Yields

variable {α β : Type} {P : β → Prop}

theorem Yields.of_reads {p : Parser β} (hp : Yields P p) {c c' : Cursor} {b : β}
    (h : Reads p c b c') : P b :=
  hp c b c' h

theorem yields_bind {p : Parser α} {f : α → Parser β} (h : ∀ a, Yields P (f a)) :
    Yields P (p >>= f) := by
  intro c b c' hread
  obtain ⟨a, mid, -, hrest⟩ := reads_bind_iff.mp hread
  exact h a mid b c' hrest

theorem yields_pure {b : β} (h : P b) : Yields P (pure b) := by
  intro c b' c' hread
  rwa [(reads_pure_iff.mp hread).1]

theorem yields_ite {d : Prop} [Decidable d] {p q : Parser β} (hp : Yields P p)
    (hq : Yields P q) : Yields P (if d then p else q) := by
  split
  · exact hp
  · exact hq

theorem yields_fail {text : String} : Yields P (fail text) :=
  fun _ _ _ hread => absurd hread not_reads_fail

end Yields

/-- A construct without meaning for injection. -/
def IsNode (c : Code) : Prop :=
  ∃ shape parts, c = .node shape parts

theorem isNode_node (shape : Shape) (parts : List Code) : IsNode (.node shape parts) :=
  ⟨shape, parts, rfl⟩

theorem not_isNode_path (p : Path) : ¬ IsNode (.path p) := by
  rintro ⟨_, _, ⟨⟩⟩

theorem yields_verbatimSince (start : List TokenTree) : Yields IsNode (verbatimSince start) :=
  yields_bind fun _ => yields_pure (isNode_node _ _)

theorem yields_bareFn (binder : List Code) : Yields IsNode (g.bareFn binder) := by
  unfold bareFn
  repeat refine yields_bind fun _ => ?_
  exact yields_pure (isNode_node _ _)

theorem yields_builtinForm : Yields IsNode builtinForm := by
  unfold builtinForm
  repeat refine yields_bind fun _ => ?_
  split
  exact yields_ite (yields_bind fun _ => yields_verbatimSince _) (yields_verbatimSince _)

theorem yields_parenType (plus : Bool) : Yields IsNode (g.parenType plus) := by
  unfold parenType
  refine yields_bind fun ⟨pos, content⟩ => ?_
  dsimp only
  split
  · exact yields_pure (isNode_node _ _)
  · exact yields_pure (isNode_node _ _)
  · exact yields_bind fun _ => yields_pure (isNode_node _ _)
  · exact yields_pure (isNode_node _ _)
  · refine yields_bind fun _ => ?_
    split
    · exact yields_bind fun _ => yields_pure (isNode_node _ _)
    · exact yields_pure (isNode_node _ _)

/-- A path that is read as plain is no qualified one. -/
theorem reads_namedPath_of_reads_anyPath {exprStyle : Bool} {root : Option Position}
    {segments : List Segment} {c c' : Cursor}
    (h : Reads (g.anyPath exprStyle) c (.named root segments) c') :
    Reads (g.namedPath exprStyle) c (.named root segments) c' := by
  unfold anyPath at h
  rw [reads_look_bind_iff] at h
  split at h
  · -- a type in angle brackets makes a qualified path, which this one is not
    refine absurd rfl (Yields.of_reads (P := (· ≠ Path.named root segments)) ?_ h)
    refine yields_bind fun _ => yields_bind fun _ => yields_bind fun _ => ?_
    refine yields_ite (yields_bind fun _ => yields_bind fun _ => ?_) ?_
    -- with or without a trait, a qualified path comes of it
    · exact yields_bind fun _ => yields_bind fun _ => yields_bind fun _ => yields_bind fun _ =>
        yields_bind fun _ => yields_pure nofun
    · exact yields_bind fun _ => yields_bind fun _ => yields_bind fun _ => yields_bind fun _ =>
        yields_bind fun _ => yields_pure nofun
  · exact h

section TypePath

variable {plus : Bool} {root : Option Position} {segments : List Segment} {c c' : Cursor}

/-- The path of a type that starts with a path, if nothing was bound before it. -/
theorem reads_anyPath_of_reads_pathType {binder : List Code}
    (h : Reads (g.pathType plus binder) c (.path (.named root segments)) c') :
    binder = [] ∧ Reads (g.anyPath false) c (.named root segments) c' := by
  unfold pathType at h
  obtain ⟨path, mid, hpath, h⟩ := reads_bind_iff.mp h
  rw [reads_look_bind_iff] at h
  split at h
  · -- a macro call is no path
    obtain ⟨heq, -⟩ := reads_pure_iff.mp h
    cases heq
  · split at h
    · -- a macro call
      refine (not_isNode_path _ (Yields.of_reads ?_ h)).elim
      exact yields_bind fun _ => yields_bind fun _ => yields_pure (isNode_node _ _)
    · split at h
      · -- bounds
        refine (not_isNode_path _ (Yields.of_reads ?_ h)).elim
        exact yields_ite (yields_bind fun _ => yields_pure (isNode_node _ _))
          (yields_pure (isNode_node _ _))
      · next hbinder =>
        obtain ⟨heq, rfl⟩ := reads_pure_iff.mp h
        rw [← Code.path.inj heq] at hpath
        rw [Bool.or_eq_true, not_or, Bool.not_eq_true', Bool.not_eq_false,
          List.isEmpty_iff] at hbinder
        exact ⟨hbinder.1, hpath⟩

theorem eq_of_reads_binder? (h : Reads g.binder? c [] c') : c' = c := by
  unfold binder? at h
  rw [reads_look_bind_iff] at h
  split at h
  · exact (reads_pure_iff.mp h).2
  · obtain ⟨_, _, -, h⟩ := reads_bind_iff.mp h
    obtain ⟨_, _, -, h⟩ := reads_bind_iff.mp h
    obtain ⟨heq, -⟩ := reads_pure_iff.mp h
    cases heq

/-- Only a type that starts with a path is one. -/
theorem reads_pathType_of_reads_typeRule
    (h : Reads (g.typeRule plus) c (.path (.named root segments)) c') :
    ∃ binder mid, Reads g.binder? c binder mid ∧
      Reads (g.pathType plus binder) mid (.path (.named root segments)) c' := by
  have hnode {p : Parser Code} {mid : Cursor} (hp : Yields IsNode p) :
      ¬ Reads p mid (.path (.named root segments)) c' := fun hread =>
    not_isNode_path _ (hp.of_reads hread)
  unfold typeRule at h
  rw [reads_look_bind_iff] at h
  obtain ⟨binder, mid, hbinder, h⟩ := reads_bind_iff.mp h
  rw [reads_look_bind_iff] at h
  refine ⟨binder, mid, hbinder, ?_⟩
  -- the kinds of types are gone through in the order in which the rule asks for them
  obtain ⟨-, h⟩ | ⟨-, h⟩ := h.of_ite
  · exact absurd h not_reads_fail
  obtain ⟨-, h⟩ | ⟨-, h⟩ := h.of_ite
  · exact absurd h (hnode (yields_parenType plus))
  obtain ⟨-, h⟩ | ⟨-, h⟩ := h.of_ite
  · exact absurd h (hnode (yields_bareFn binder))
  obtain ⟨-, h⟩ | ⟨-, h⟩ := h.of_ite
  · exact absurd h (hnode yields_builtinForm)
  obtain ⟨-, h⟩ | ⟨-, h⟩ := h.of_ite
  · exact h
  -- all other types are nodes
  refine absurd h (hnode ?_)
  refine yields_ite ?object <| yields_ite ?array <| yields_ite ?pointer <|
    yields_ite ?reference <| yields_ite ?never <| yields_ite ?impl <| yields_ite ?infer <|
      yields_ite ?lifetimes yields_fail
  case object =>
    exact yields_bind fun _ => yields_bind fun _ => yields_bind fun _ =>
      yields_ite (yields_pure (isNode_node _ _)) (yields_verbatimSince _)
  case array =>
    refine yields_bind fun ⟨pos, elem, len⟩ => ?_
    exact yields_pure (isNode_node _ _)
  case pointer =>
    have hrest (star kw : Code) : Yields IsNode (do
        return .node .pointerType [star, kw, ← g (.type false)]) :=
      yields_bind fun _ => yields_pure (isNode_node _ _)
    exact yields_bind fun _ => yields_bind fun _ => yields_ite (yields_bind fun _ => hrest _ _)
      (yields_ite (yields_bind fun _ => hrest _ _) (yields_bind fun _ => hrest _ _))
  case reference =>
    exact yields_bind fun _ => yields_bind fun _ => yields_bind fun _ => yields_bind fun _ =>
      yields_pure (isNode_node _ _)
  case never => exact yields_bind fun _ => yields_pure (isNode_node _ _)
  case impl =>
    exact yields_bind fun _ => yields_bind fun _ =>
      yields_ite (yields_bind fun _ => yields_pure (isNode_node _ _))
        (yields_pure (isNode_node _ _))
  case infer => exact yields_bind fun _ => yields_pure (isNode_node _ _)
  case lifetimes => exact yields_bind fun _ => yields_pure (isNode_node _ _)

/-- **A type that is a plain path without arguments** has its names from the tokens read. -/
theorem segments_of_reads_typeRule (h : Reads (g.typeRule plus) c (.path (.named root segments)) c')
    (hplain : ∀ s ∈ segments, s.args = []) :
    segments ≠ [] ∧ ∀ s ∈ segments, s.name.tree ∈ c.trees ∧ IsSegmentName s.name.text := by
  obtain ⟨binder, mid, hbinder, h⟩ := reads_pathType_of_reads_typeRule h
  obtain ⟨rfl, hpath⟩ := reads_anyPath_of_reads_pathType h
  rw [eq_of_reads_binder? hbinder] at hpath
  exact segments_of_reads_namedPath (reads_namedPath_of_reads_anyPath hpath) hplain

end TypePath

end Grammar

/-! ### Texts of types -/

open Grammar

theorem grammarFor_type (ts : List TokenTree) :
    ∃ g : Grammar, (grammarFor ts).type = g.typeRule true :=
  ⟨grammar (16 * (TokenTree.sizeList ts + 2) - 1), rfl⟩

/-- A text whose tokens are names joined by `::` is the path of these names. -/
theorem typeOfText?_of_pathTrees {text : String} {root : Option Position} {ws : List Word}
    {ts : List TokenTree} (hlex : lex text = some ts) (h : PathTrees root ws ts)
    (hws : ∀ w ∈ ws, isKeyword w.text = false) :
    typeOfText? text = some (.path (.named root (ws.map (Segment.mk · [])))) := by
  obtain ⟨g, hg⟩ := grammarFor_type ts
  -- the tokens of the text are all of the path
  have hread := reads_typeRule_path (g := g) (l := none) h hws endsPath_nil true
  rw [List.append_nil] at hread
  have hrun : runAll (grammarFor ts).type ts =
      .ok (.path (.named root (ws.map (Segment.mk · [])))) := by
    rw [runAll, hg, hread]
    rfl
  rw [typeOfText?, hlex]
  dsimp only
  rw [hrun]
  rfl

/-- The segments of a text that is a plain path without arguments are names among its tokens. -/
theorem segments_of_typeOfText? {text : String} {root : Option Position} {segments : List Segment}
    (h : typeOfText? text = some (.path (.named root segments)))
    (hplain : ∀ s ∈ segments, s.args = []) :
    segments ≠ [] ∧ ∃ ts, lex text = some ts ∧
      ∀ s ∈ segments, s.name.tree ∈ ts ∧ IsSegmentName s.name.text := by
  unfold typeOfText? at h
  split at h
  · cases h
  · next ts hlex =>
    cases hrun : runAll (grammarFor ts).type ts with
    | error e =>
      rw [hrun] at h
      cases h
    | ok c =>
      rw [hrun] at h
      cases h
      -- whatever the depth, the grammar reads a type by the same rule
      obtain ⟨g, hg⟩ := grammarFor_type ts
      obtain ⟨_, hread⟩ := exists_reads_of_runAll hrun
      rw [hg] at hread
      obtain ⟨hne, hnames⟩ := segments_of_reads_typeRule hread hplain
      exact ⟨hne, ts, hlex, hnames⟩

end FieldGraft
