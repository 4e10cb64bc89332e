import Mathlib.Data.List.Find
import FieldGraft.Proofs.TypesAlone

/-!
# Expressions in front of a comma

The rules for expressions read alone as in front of a comma, and with the rules for types and
patterns so does the grammar at every depth.

* `Grammar.standalone_exprRule`, `Grammar.standalone_operandRule`,
  `Grammar.standalone_operatorsRule`
* `alone_grammar` — the grammar.
-/

namespace FieldGraft

open FieldGraft.Parser

namespace Grammar

variable {g : Grammar} {ext : List TokenTree} (hext : EndsValue ext) (hg : g.Alone ext)

include hext

/-! ### Operators -/

theorem binaryOperator?_append (ts : List TokenTree) :
    binaryOperator? (ts ++ ext) = binaryOperator? ts := by
  refine List.find?_congr fun o ho => Ahead.op_append hext ?_
  exact (by decide : ∀ o ∈ binaryOperators, ',' ∉ o.1.toList) o ho

theorem assigns_append (ts : List TokenTree) : assigns (ts ++ ext) = assigns ts := by
  rw [assigns, assigns, Ahead.op_append hext (by decide), Ahead.op_append hext (by decide)]

theorem precedenceAhead_append (ts : List TokenTree) :
    precedenceAhead (ts ++ ext) = precedenceAhead ts := by
  rw [precedenceAhead, precedenceAhead, binaryOperator?_append hext, assigns_append hext,
    Ahead.op_append hext (by decide), Ahead.keyword_append hext]

/-- A range has no end in front of a comma either. -/
theorem openRangeEnd_append (structs : Bool) (ts : List TokenTree) :
    openRangeEnd structs (ts ++ ext) = openRangeEnd structs ts := by
  cases ts with
  | nil =>
    obtain rfl | ⟨pos, joint, rest, rfl⟩ := hext
    · rfl
    · rfl
  | cons t ts =>
    have hop : ∀ s ∈ openRangeEnders, Ahead.op s (t :: ts ++ ext) = Ahead.op s (t :: ts) := by
      intro s hs
      -- a comma needs a token in front to be read across
      obtain rfl | hcomma : s = "," ∨ ',' ∉ s.toList :=
        (by decide : ∀ s ∈ openRangeEnders, s = "," ∨ ',' ∉ s.toList) s hs
      · exact Ahead.op_front rfl t _ _
      · exact Ahead.op_append hext hcomma
    have hany : (openRangeEnders.any fun s => Ahead.op s (t :: ts ++ ext)) =
        openRangeEnders.any fun s => Ahead.op s (t :: ts) := by
      rw [Bool.eq_iff_iff, List.any_eq_true, List.any_eq_true]
      exact exists_congr fun s => and_congr_right fun hs => by rw [hop s hs]
    rw [openRangeEnd, openRangeEnd, hany, Ahead.op_append hext (by decide),
      Ahead.op_append hext (by decide), Ahead.group_append hext, Ahead.keyword_append hext]
    rfl

include hg

/-- What binds tighter is read as long as something is read. -/
theorem standalone_rightHandSide (structs : Bool) (p : Precedence) :
    Standalone ext (g.rightHandSide structs p) := by
  refine (hg.operand structs).bind fun first => detached_loop (fun rhs => ?_) first
  refine fun ts => alike_look ?_
  dsimp only
  rw [precedenceAhead_append hext]
  refine alike_ite (fun _ => ?_) fun _ => alike_pure Bool.false_ne_true
  intro l r c' hread
  -- one round of the loop: an operand with the operators behind it
  obtain ⟨rhs', mid, hrhs, hread⟩ := reads_bind_iff.mp hread
  rw [reads_look_bind_iff] at hread
  obtain ⟨rfl, rfl⟩ := reads_pure_iff.mp hread
  obtain ⟨⟨taken, rfl, -⟩, hrhs'⟩ := hg.operators _ _ _ _ l _ _ hrhs
  -- the loop goes on if tokens were taken; how many does not depend on what follows
  refine ⟨⟨taken, rfl, fun hshorter hnil => ?_⟩, hrhs'.bind (reads_look_bind_iff.mpr ?_)⟩
  · rw [hnil, List.nil_append] at hshorter
    exact absurd (of_decide_eq_true hshorter) (Nat.lt_irrefl _)
  · rw [reads_pure_iff]
    simp only [List.length_append, Nat.add_lt_add_iff_right, and_self]

theorem takes_rangeTail (structs : Bool) : Takes ext (g.rangeTail structs) := by
  have hstop (closed : Bool) (dots : Code) : Standalone ext (do
      if !closed && openRangeEnd structs (← look) then return [dots]
      let stop ← g.rightHandSide structs .range
      return [dots, if structs then stop else shieldBlock stop]) := by
    refine detached_look (fun ts => by rw [openRangeEnd_append hext]) fun ts => ?_
    refine detached_ite (fun _ => standalone_pure _) fun _ => ?_
    exact (standalone_rightHandSide hext hg _ _).bind fun _ => standalone_pure _
  refine detached_look (fun ts => ?_) fun ts => ?_
  · rw [Ahead.op_append hext (by decide), Ahead.op_append hext (by decide)]
  refine detached_ite (fun _ => (takes_op (by decide)).bind (hstop _)) fun _ => ?_
  exact detached_ite (fun _ => detached_fail_bind) fun _ => (takes_op (by decide)).bind (hstop _)

omit hg in
theorem afterCast?_append (ts : List TokenTree) : afterCast? (ts ++ ext) = afterCast? ts := by
  cases ts with
  | nil =>
    obtain rfl | ⟨pos, joint, rest, rfl⟩ := hext
    · rfl
    · rfl
  | cons t ts =>
    have hcall : (Ahead.ident (ts ++ ext) && (Ahead.group .paren ((ts ++ ext).drop 1) ||
        Ahead.op "::" ((ts ++ ext).drop 1))) = (Ahead.ident ts &&
          (Ahead.group .paren (ts.drop 1) || Ahead.op "::" (ts.drop 1))) :=
      Ahead.ident_drop_append (f := fun ts => Ahead.group .paren ts || Ahead.op "::" ts)
        (fun _ => by rw [Ahead.group_append hext, Ahead.op_append hext (by decide)]) hext
    rw [afterCast?, afterCast?, Ahead.op_append hext (by decide), Ahead.op_append hext (by decide),
      Ahead.op_append hext (by decide), Ahead.group_append hext, Ahead.group_append hext]
    rw [show (t :: ts ++ ext).drop 1 = ts ++ ext from rfl,
      show (t :: ts ++ ext).drop 2 = (ts ++ ext).drop 1 from rfl, hcall, Ahead.keyword_append hext]
    rfl

theorem standalone_operatorsRule (structs : Bool) (base : Precedence) (lhs : Code) :
    Standalone ext (g.operatorsRule structs base lhs) := by
  refine detached_loop (fun lhs => ?_) lhs
  refine detached_look (fun ts => ?_) fun ts => ?_
  · rw [binaryOperator?_append hext, assigns_append hext, Ahead.op_append hext (by decide),
      Ahead.keyword_append hext]
  refine detached_ite (fun _ => steps_stop _) fun _ => ?_
  cases hop : binaryOperator? ts with
  | some o =>
    obtain ⟨s, p⟩ := o
    -- no operator is empty, so reading one takes a token
    have hs : s ≠ "" :=
      (by decide : ∀ o ∈ binaryOperators, o.1 ≠ "") (s, p) (List.mem_of_find?_eq_some hop)
    refine detached_ite (fun _ => steps_stop _) fun _ => ?_
    refine detached_ite (fun _ => detached_fail_bind) fun _ => (takes_op hs).bind fun _ => ?_
    exact (standalone_rightHandSide hext hg _ _).bind fun _ => standalone_pure _
  | none =>
    -- an assignment, a range or a cast
    refine detached_ite (fun _ => (takes_op (by decide)).bind fun _ => ?_) fun _ => ?_
    · exact (standalone_rightHandSide hext hg _ _).bind fun _ => standalone_pure _
    refine detached_ite (fun _ => (takes_rangeTail hext hg _).bind fun _ => standalone_pure _)
      fun _ => ?_
    refine detached_ite (fun _ => (takes_keyword _).bind fun kw => ?_) fun _ => steps_stop _
    refine (hg.type _).bind fun ty => ?_
    refine detached_look (fun ts => by rw [afterCast?_append hext]) fun ts => ?_
    split
    · exact detached_fail
    · exact standalone_pure _

omit hext in
theorem standalone_exprRule (structs : Bool) : Standalone ext (g.exprRule structs) :=
  (hg.operand structs).bind fun _ => hg.operators _ _ _

/-! ### Atoms -/

theorem takes_pathExpr (structs : Bool) : Takes ext (g.pathExpr structs) := by
  refine (takes_anyPath hext hg true).bind fun path => ?_
  refine detached_look (fun ts => ?_) fun ts => ?_
  · rw [Ahead.op_append hext (by decide), Ahead.op_append hext (by decide),
      Ahead.group_append hext]
  refine detached_ite (fun _ => ?call) fun _ => detached_ite (fun _ => ?literal) fun _ =>
    standalone_pure _
  case call =>
    exact (takes_op (by decide)).bind fun _ => takes_rawGroup.standalone.bind fun ⟨_, _⟩ =>
      standalone_pure _
  case literal => exact (takes_inGroup _ _).bind fun ⟨_, _, _, _⟩ => standalone_pure _

omit hext hg in
theorem takes_parenExpr : Takes ext g.parenExpr :=
  (takes_inGroup _ _).bind fun _ => standalone_pure _

omit hext hg in
theorem takes_arrayExpr : Takes ext g.arrayExpr :=
  (takes_inGroup _ _).bind fun ⟨_, _, _⟩ => standalone_pure _

omit hg in
theorem exprStart_append (ts : List TokenTree) : exprStart (ts ++ ext) = exprStart ts := by
  unfold exprStart
  simp (disch := decide) only [Ahead.op_append hext, Ahead.anyIdent_append hext,
    Ahead.keyword_append hext, Ahead.group_append hext, Ahead.literal_append hext,
    Ahead.lifetime_append hext]

theorem standalone_jumpValue (braces : Bool) : Standalone ext (g.jumpValue braces) := by
  refine detached_look (fun ts => ?_) fun ts => ?_
  · rw [exprStart_append hext, Ahead.group_append hext]
  exact detached_ite (fun _ => (hg.expr _).bind fun _ => standalone_pure _) fun _ =>
    standalone_pure _

theorem takes_breakExpr (structs : Bool) : Takes ext (g.breakExpr structs) := by
  refine (takes_keyword _).bind fun kw => detached_look (fun ts => ?_) fun ts => ?_
  · rw [Ahead.lifetime_drop_append (f := Ahead.op ":") (fun _ => Ahead.op_append hext (by decide))
      hext]
  refine detached_ite (fun _ => (hg.expr _).bind fun _ => detached_failWith_bind) fun _ => ?_
  exact (standalone_lifetime? hext).bind fun _ =>
    (standalone_jumpValue hext hg _).bind fun _ => standalone_pure _

theorem standalone_ifExpr : Standalone ext g.ifExpr := by
  refine (detached_loop (fun done => ?_) _).bind fun _ => standalone_pure _
  refine (takes_keyword _).bind fun kw => (hg.expr _).bind fun cond => ?_
  refine (takes_block _).standalone.bind fun body => ?_
  refine detached_look (fun ts => by rw [Ahead.keyword_append hext]) fun ts => ?_
  refine detached_ite (fun _ => standalone_pure _) fun _ => ?_
  refine (takes_keyword _).bind fun other => detached_look (fun ts => ?_) fun ts => ?_
  · rw [Ahead.keyword_append hext, Ahead.group_append hext]
  refine detached_ite (fun _ => standalone_pure _) fun _ => ?_
  exact detached_ite (fun _ => (takes_block _).bind fun _ => standalone_pure _) fun _ =>
    detached_fail

omit hext in
theorem takes_matchExpr : Takes ext g.matchExpr :=
  (takes_keyword _).bind fun _ => (hg.expr _).bind fun _ =>
    (takes_groupOf _ _).bind fun _ => standalone_pure _

theorem standalone_closureParam : Standalone ext g.closureParam := by
  refine (standalone_outerAttributeCode hext).bind fun attrs => hg.pattern.bind fun pat => ?_
  refine detached_look (fun ts => by rw [Ahead.op_append hext (by decide)]) fun ts => ?_
  refine detached_ite (fun _ => (takes_op (by decide)).bind fun _ => ?_) fun _ => standalone_pure _
  exact (hg.type _).bind fun _ => standalone_pure _

theorem standalone_closure (structs : Bool) : Standalone ext (g.closure structs) := by
  refine (standalone_binder? hext hg).bind fun binder => ?_
  refine (standalone_keyword? hext _).bind fun constness => ?_
  refine (standalone_keyword? hext _).bind fun movability => ?_
  refine (standalone_keyword? hext _).bind fun asyncness => ?_
  refine (standalone_keyword? hext _).bind fun capture => ?_
  refine (takes_op (by decide)).bind fun bar => ?_
  refine (detached_loop (fun done => ?_) _).bind fun params => ?_
  · -- a parameter, and a comma unless the bar comes
    refine detached_look (fun ts => by rw [Ahead.op_append hext (by decide)]) fun ts => ?_
    refine detached_ite (fun _ => steps_stop _) fun _ => ?_
    refine (standalone_closureParam hext hg).bind fun p => ?_
    refine detached_look (fun ts => by rw [Ahead.op_append hext (by decide)]) fun ts => ?_
    refine detached_ite (fun _ => steps_stop _) fun _ => ?_
    exact (takes_op (by decide)).bind fun _ => standalone_pure _
  refine (takes_op (by decide)).bind fun bar' => ?_
  refine detached_look (fun ts => by rw [Ahead.op_append hext (by decide)]) fun ts => ?_
  refine detached_ite (fun _ => (standalone_returnType hext hg _).bind fun _ => ?_) fun _ => ?_
  · exact (takes_block _).bind fun _ => standalone_pure _
  · exact ((hg.expr _).bind fun _ => standalone_pure _).bind fun _ => standalone_pure _

theorem standalone_loopBody (label : List Code) : Standalone ext (g.loopBody label) := by
  refine detached_look (fun ts => ?_) fun ts => ?_
  · rw [Ahead.keyword_append hext, Ahead.keyword_append hext, Ahead.keyword_append hext,
      Ahead.group_append hext]
  refine detached_ite (fun _ => ?condition) fun _ => detached_ite (fun _ => ?range) fun _ =>
    detached_ite (fun _ => ?endless) fun _ => detached_ite (fun _ => ?once) fun _ => detached_fail
  case condition =>
    exact (takes_keyword _).bind fun _ => (hg.expr _).bind fun _ =>
      (takes_block _).bind fun _ => standalone_pure _
  case range =>
    exact (takes_keyword _).bind fun _ => (standalone_alternatives hext hg).bind fun _ =>
      (takes_keyword _).bind fun _ => (hg.expr _).bind fun _ =>
        (takes_block _).bind fun _ => standalone_pure _
  case endless =>
    exact (takes_keyword _).bind fun _ => (takes_block _).bind fun _ => standalone_pure _
  case once => exact (takes_block _).bind fun _ => standalone_pure _

theorem takes_labelled : Takes ext g.labelled :=
  takes_lifetime.bind fun _ => (takes_op (by decide)).bind fun _ => standalone_loopBody hext hg _

theorem takes_letCondition (structs : Bool) : Takes ext (g.letCondition structs) :=
  (takes_keyword _).bind fun _ => (standalone_alternatives hext hg).bind fun _ =>
    (takes_op (by decide)).bind fun _ => (hg.operand _).bind fun _ =>
      (hg.operators _ _ _).bind fun _ => standalone_pure _

/-- `for <` and a name, which a comma behind it could make a list of generic parameters. -/
def OpenBinder (ts : List TokenTree) : Prop :=
  ∃ p q joint x, ts = [.leaf p (.ident "for"), .leaf q (.punct '<' joint), x] ∧
    (Ahead.lifetime [x] = true ∨ Ahead.ident [x] = true)

omit hg in
/-- Only a comma behind a first name tells generic parameters from something else. -/
theorem startsGenerics_append {ts : List TokenTree}
    (h : ¬ ∃ t x, ts = [t, x] ∧ Ahead.op "<" ts = true ∧
      (Ahead.lifetime [x] = true ∨ Ahead.ident [x] = true)) :
    startsGenerics (ts ++ ext) = startsGenerics ts := by
  unfold startsGenerics
  dsimp only
  rw [Ahead.op_append hext (by decide)]
  cases hangle : Ahead.op "<" ts with
  | false => rw [Bool.false_and, Bool.false_and]
  | true =>
    rcases ts with _ | ⟨t, ts⟩
    · cases hangle
    rw [show (t :: ts ++ ext).drop 1 = ts ++ ext from rfl,
      show (t :: ts ++ ext).drop 2 = (ts ++ ext).drop 1 from rfl, Ahead.op_append hext (by decide),
      Ahead.op_append hext (by decide), Ahead.lifetime_append hext, Ahead.ident_append hext,
      Ahead.keyword_append hext]
    -- with two tokens behind the angle what follows is not looked at
    rcases ts with _ | ⟨x, _ | ⟨u, ts⟩⟩
    · rfl
    · -- a comma may come next, but not behind a name
      have hx : (Ahead.lifetime [x] || Ahead.ident [x]) = false := by
        rw [← Bool.not_eq_true, Bool.or_eq_true]
        exact fun hx => h ⟨t, x, rfl, hangle, hx⟩
      rw [show [t, x].drop 1 = [x] from rfl, hx, Bool.false_and, Bool.false_and]
    · have hcomma : Ahead.op "," (u :: ts ++ ext) = Ahead.op "," (u :: ts) :=
        Ahead.op_front rfl u _ _
      rw [show (x :: u :: ts ++ ext).drop 1 = u :: ts ++ ext from rfl, hcomma,
        Ahead.op_append hext (by decide), Ahead.op_append hext (by decide),
        Ahead.op_append hext (by decide), Ahead.op_append hext (by decide)]
      rfl

omit hg in
theorem closureStart_append {ts : List TokenTree} (h : ¬ OpenBinder ts) :
    closureStart (ts ++ ext) = closureStart ts := by
  have hbinder : binderAhead (ts ++ ext) = binderAhead ts := by
    rw [binderAhead, binderAhead, Ahead.keyword_append hext]
    cases hfor : Ahead.keyword "for" ts with
    | false => rfl
    | true =>
      rcases ts with _ | ⟨⟨p, t | _ | _ | _⟩ | ⟨p, d, body⟩, ts⟩
      case cons.leaf.ident =>
        -- the tokens that a comma could change are an open binder
        refine congrArg (true && ·) (startsGenerics_append hext fun ⟨u, x, heq, hangle, hx⟩ => h ?_)
        obtain rfl := beq_iff_eq.mp hfor
        obtain rfl : ts = [u, x] := heq
        rcases u with ⟨q, _ | _ | _ | ⟨d, joint⟩⟩ | ⟨q, d, body⟩
        case leaf.punct =>
          obtain rfl : '<' = d := by
            by_contra hne
            have hsome : (if '<' = d then some [x] else none).isSome = true := hangle
            rw [if_neg hne] at hsome
            cases hsome
          exact ⟨p, q, joint, x, rfl, hx⟩
        all_goals cases hangle
      all_goals cases hfor
  have hconst := @Ahead.keyword_drop_append ext ts "const"
    (fun ts => !Ahead.group .brace ts) (fun _ => by rw [Ahead.group_append hext]) hext
  have hasync := @Ahead.keyword_drop_append ext ts "async"
    (fun ts => Ahead.op "|" ts || Ahead.keyword "move" ts)
    (fun _ => by rw [Ahead.op_append hext (by decide), Ahead.keyword_append hext]) hext
  rw [closureStart, closureStart, hbinder, hconst, hasync, Ahead.op_append hext (by decide),
    Ahead.keyword_append hext, Ahead.keyword_append hext]

omit hext hg in
/-- Where nothing follows the name, no binder starts. -/
theorem startsGenerics_openBinder {q : Position} {joint : Bool} {x : TokenTree}
    (hx : Ahead.lifetime [x] = true ∨ Ahead.ident [x] = true) :
    startsGenerics [.leaf q (.punct '<' joint), x] = false := by
  rcases x with ⟨pos, t | _ | _ | _⟩ | ⟨pos, d, body⟩
  case leaf.ident =>
    have hword := (Bool.not_eq_true' _).mp (hx.resolve_left Bool.false_ne_true)
    have hconst : Ahead.keyword "const" [.leaf pos (.ident t)] = false :=
      keyword_word_eq_false (w := ⟨t, pos⟩) (by decide) hword
    change (true && (false || false || ((false || !isKeyword t) && false) ||
      Ahead.keyword "const" [.leaf pos (.ident t)])) = false
    rw [hconst, Bool.and_false]
    rfl
  case leaf.lifetime => rfl
  all_goals exact (hx.elim Bool.false_ne_true Bool.false_ne_true).elim

/-- Such tokens are read as a `for` loop, which they are not either: neither names nor `in` follow
`for <`. -/
theorem not_reads_atom_of_openBinder {structs : Bool} {ts : List TokenTree} (h : OpenBinder ts)
    {l : Option Delimiter} {a : Code} {c' : Cursor} : ¬ Reads (g.atom structs) ⟨ts, l⟩ a c' := by
  obtain ⟨p, q, joint, x, rfl, hx⟩ := h
  intro hread
  -- no closure begins here, so the tokens are read as a loop
  have hclosure : closureStart
      [.leaf p (.ident "for"), .leaf q (.punct '<' joint), x] = false := by
    rw [closureStart, binderAhead, List.drop_one, List.tail_cons, startsGenerics_openBinder hx,
      Bool.and_false]
    rfl
  unfold atom at hread
  rw [reads_look_bind_iff] at hread
  dsimp only at hread
  rw [hclosure] at hread
  have hloop : Reads (do
      let kw ← keyword "for"
      let pat ← g.alternatives
      let inn ← keyword "in"
      let range ← g (.expr false)
      return Code.node .forLoop ([] ++ [kw, pat, inn, range, ← g.block true]))
      ⟨[.leaf p (.ident "for"), .leaf q (.punct '<' joint), x], l⟩ a c' := hread
  obtain ⟨kw, mid, hfor, hloop⟩ := reads_bind_iff.mp hloop
  obtain ⟨pat, behind, hpat, hloop⟩ := reads_bind_iff.mp hloop
  obtain ⟨inn, _, hin, -⟩ := reads_bind_iff.mp hloop
  cases hfor
  obtain ⟨⟨taken, heq, -⟩, -⟩ := standalone_alternatives hext hg _ _ _ _ hpat
  obtain ⟨trees, l⟩ := behind
  -- however many tokens the pattern takes, no `in` is left
  rcases taken with _ | ⟨_, _ | ⟨_, _ | ⟨_, taken⟩⟩⟩
  · obtain rfl : trees = _ := heq
    cases hin
  · obtain ⟨-, rfl⟩ := List.cons_eq_cons.mp heq
    rcases x with ⟨pos, t | _ | _ | _⟩ | ⟨pos, d, body⟩
    case leaf.ident =>
      have hword := (Bool.not_eq_true' _).mp (hx.resolve_left Bool.false_ne_true)
      unfold keyword at hin
      rw [reads_look_bind_iff] at hin
      obtain ⟨rfl, -⟩ | ⟨-, hin⟩ := hin.of_ite
      · cases hword
      · exact not_reads_fail hin
    all_goals cases hin
  · obtain ⟨-, heq⟩ := List.cons_eq_cons.mp heq
    obtain ⟨-, rfl⟩ := List.cons_eq_cons.mp heq
    cases hin
  · cases heq

omit hg in
theorem asyncBlockAhead_append (ts : List TokenTree) :
    (Ahead.keyword "async" (ts ++ ext) && (Ahead.group .brace ((ts ++ ext).drop 1) ||
      Ahead.keyword "move" ((ts ++ ext).drop 1) && Ahead.group .brace ((ts ++ ext).drop 2))) =
    (Ahead.keyword "async" ts && (Ahead.group .brace (ts.drop 1) ||
      Ahead.keyword "move" (ts.drop 1) && Ahead.group .brace (ts.drop 2))) := by
  have h := @Ahead.keyword_drop_append ext ts "async"
    (fun ts => Ahead.group .brace ts || Ahead.keyword "move" ts &&
      Ahead.group .brace (ts.drop 1)) (fun _ => by
        rw [Ahead.group_append hext, Ahead.keyword_drop_append (f := Ahead.group .brace)
          (fun _ => Ahead.group_append hext) hext]) hext
  rwa [List.drop_drop, List.drop_drop] at h

omit hg in
theorem takes_literalExpr : Takes ext (do
    match ← literal with
    | [c] => return c
    | cs => return Code.node .literal cs) := by
  refine (takes_literal hext).bind fun cs => ?_
  split
  · exact standalone_pure _
  · exact standalone_pure _

omit hext hg in
/-- A word and a block. -/
theorem takes_wordBlock (word : String) (shape : Shape) (inner : Bool) : Takes ext (do
    let kw ← keyword word
    return Code.node shape [kw, ← g.block inner]) :=
  (takes_keyword _).bind fun _ => (takes_block _).bind fun _ => standalone_pure _

omit hg in
theorem takes_asyncBlock : Takes ext (do
    let kw ← keyword "async"
    let capture ← keyword? "move"
    return Code.node .asyncBlock (kw :: capture ++ [← g.block false])) :=
  (takes_keyword _).bind fun _ => (standalone_keyword? hext _).bind fun _ =>
    (takes_block _).bind fun _ => standalone_pure _

/-- A word and, if there is one, a value. -/
theorem takes_jump (word : String) (shape : Shape) : Takes ext (do
    let kw ← keyword word
    return Code.node shape (kw :: (← g.jumpValue true))) :=
  (takes_keyword _).bind fun _ => (standalone_jumpValue hext hg _).bind fun _ =>
    standalone_pure _

omit hg in
theorem takes_continue : Takes ext (do
    let kw ← keyword "continue"
    return Code.node .continueExpr (kw :: (← lifetime?))) :=
  (takes_keyword _).bind fun _ => (standalone_lifetime? hext).bind fun _ => standalone_pure _

/-- What the next tokens decide is decided in the same way before a comma, apart from the open
binder, which is no expression at all. So the branches of the rule are taken one by one. -/
theorem standalone_atom (structs : Bool) : Standalone ext (g.atom structs) := by
  intro ts
  by_cases hopen : OpenBinder ts
  · exact alike_of_not_reads fun _ _ _ => not_reads_atom_of_openBinder hext hg hopen
  -- what an atom looks at before it chooses a rule is the same with and without `ext`
  have htry := @Ahead.keyword_drop_append ext ts "try"
    (fun ts => Ahead.op "!" ts || Ahead.op "::" ts)
    (fun _ => by rw [Ahead.op_append hext (by decide), Ahead.op_append hext (by decide)]) hext
  refine alike_look ?_
  dsimp only
  rw [asyncBlockAhead_append hext, htry, builtinAhead, builtinAhead,
    closureStart_append hext hopen,
    Ahead.keyword_drop_append (f := Ahead.group .brace) (fun _ => Ahead.group_append hext) hext,
    Ahead.keyword_drop_append (f := Ahead.op "#") (fun _ => Ahead.op_append hext (by decide)) hext,
    Ahead.literal_append hext, Ahead.pathStart_append hext, Ahead.keywords_append hext,
    Ahead.lifetime_append hext, Ahead.group_append hext, Ahead.group_append hext,
    Ahead.group_append hext, Ahead.op_append hext (by decide), Ahead.op_append hext (by decide)]
  simp only [Ahead.keyword_append hext]
  refine alike_ite (fun _ => (takes_literalExpr hext).standalone ts) fun _ => ?_
  refine alike_ite (fun _ => (takes_asyncBlock hext).standalone ts) fun _ => ?_
  refine alike_ite (fun _ => (takes_wordBlock "try" _ _).standalone ts) fun _ => ?_
  refine alike_ite (fun _ => standalone_closure hext hg structs ts) fun _ => ?_
  refine alike_ite (fun _ => standalone_builtinForm ts) fun _ => ?_
  refine alike_ite (fun _ => (takes_pathExpr hext hg structs).standalone ts) fun _ => ?_
  refine alike_ite (fun _ => takes_parenExpr.standalone ts) fun _ => ?_
  refine alike_ite (fun _ => (takes_breakExpr hext hg structs).standalone ts) fun _ => ?_
  refine alike_ite (fun _ => (takes_continue hext).standalone ts) fun _ => ?_
  refine alike_ite (fun _ => (takes_jump hext hg "return" _).standalone ts) fun _ => ?_
  -- `become` is kept as written
  refine alike_ite (fun _ => ?_) fun _ => ?_
  · refine (takes_keyword _ ts).takes_bind fun _ mid hmid => ?_
    refine (hg.expr _ mid).bind fun _ behind hbehind => ?_
    exact alike_verbatimSince (hbehind.trans hmid)
  refine alike_ite (fun _ => takes_arrayExpr.standalone ts) fun _ => ?_
  refine alike_ite (fun _ => (takes_letCondition hext hg structs).standalone ts) fun _ => ?_
  refine alike_ite (fun _ => standalone_ifExpr hext hg ts) fun _ => ?_
  refine alike_ite (fun _ => standalone_loopBody hext hg [] ts) fun _ => ?_
  refine alike_ite (fun _ => (takes_matchExpr hg).standalone ts) fun _ => ?_
  refine alike_ite (fun _ => (takes_jump hext hg "yield" _).standalone ts) fun _ => ?_
  refine alike_ite (fun _ => (takes_wordBlock "unsafe" _ _).standalone ts) fun _ => ?_
  refine alike_ite (fun _ => (takes_wordBlock "const" _ _).standalone ts) fun _ => ?_
  refine alike_ite (fun _ => standalone_loopBody hext hg [] ts) fun _ => ?_
  refine alike_ite (fun _ => ?_) fun _ => ?_
  · exact (takes_rangeTail hext hg structs).bind (fun _ => standalone_pure _) ts
  refine alike_ite (fun _ => (takes_keyword _).bind (fun _ => standalone_pure _) ts) fun _ => ?_
  exact alike_ite (fun _ => (takes_labelled hext hg).standalone ts) fun _ => alike_fail

/-! ### Trailers and unary operators -/

theorem standalone_afterDot (e dot : Code) : Standalone ext (g.afterDot e dot) := by
  refine detached_look (fun ts => by rw [Ahead.keyword_append hext]) fun ts => ?_
  refine detached_ite (fun _ => (takes_keyword _).bind fun _ => standalone_pure _) fun _ => ?_
  refine (standalone_memberName hext).bind fun name => ?_
  have hcall (turbofish : List Code) : Standalone ext (do
      if name.isNamed && (!turbofish.isEmpty || Ahead.group .paren (← look)) then
        let args ← g.arguments
        return Code.node .methodCall (e :: dot :: .tree name.tree :: turbofish ++ [args])
      else return Code.node .fieldAccess [e, dot, .tree name.tree]) := by
    refine detached_look (fun ts => by rw [Ahead.group_append hext]) fun ts => ?_
    -- whether a call follows is told by the parenthesis, which a comma is not
    exact detached_ite (fun _ => (takes_groupOf _ _).bind fun _ => standalone_pure _) fun _ =>
      standalone_pure _
  refine detached_look (fun ts => by rw [Ahead.op_append hext (by decide)]) fun ts => ?_
  refine detached_ite (fun _ => ?_) fun _ => hcall []
  exact ((standalone_genericArgs hext hg).bind fun _ => standalone_pure _).bind hcall

theorem standalone_trailers (e : Code) : Standalone ext (g.trailers e) := by
  refine detached_loop (fun e => ?_) e
  have hdot (e dot : Code) : Standalone ext (do return (← g.afterDot e dot, true)) :=
    (standalone_afterDot hext hg _ _).bind fun _ => standalone_pure _
  refine detached_look (fun ts => ?_) fun ts => ?_
  · rw [Ahead.group_append hext, Ahead.group_append hext, Ahead.op_append hext (by decide),
      Ahead.op_append hext (by decide), Ahead.op_append hext (by decide)]
  refine detached_ite (fun _ => (takes_groupOf _ _).bind fun _ => standalone_pure _) fun _ => ?_
  refine detached_ite (fun _ => (takes_op (by decide)).bind fun dot => ?_) fun _ => ?_
  · refine fun mid => alike_look ?_
    -- what stands behind the dot decides whether a number is taken apart
    rcases mid with _ | ⟨⟨pos, _ | t | _ | _⟩ | ⟨pos, d, body⟩, rest⟩
    case cons.leaf.literal =>
      -- a number behind the dot, which may hold another dot
      dsimp only [List.cons_append]
      split
      · refine (alike_moveTo (List.suffix_cons _ _)).bind fun _ behind _ => ?_
        exact alike_ite (fun _ => hdot _ _ behind) fun _ => alike_pure not_false
      · exact hdot e dot _
    case nil =>
      obtain rfl | ⟨pos, joint, rest, rfl⟩ := id hext
      · exact hdot e dot []
      · exact hdot e dot []
    all_goals exact hdot e dot _
  refine detached_ite (fun _ => (takes_groupOf _ _).bind fun _ => standalone_pure _) fun _ => ?_
  exact detached_ite (fun _ => (takes_op (by decide)).bind fun _ => standalone_pure _) fun _ =>
    steps_stop _

theorem alike_trailed {start ts : List TokenTree} (hts : ts <:+ start) (structs : Bool)
    (attrs : List Code) : Alike ext ts (fun _ => False) (g.trailed structs start attrs)
      (g.trailed structs (start ++ ext) attrs) := by
  refine (standalone_atom hext hg structs ts).bind fun a mid hmid => ?_
  refine (standalone_trailers hext hg a mid).bind fun e behind hbehind => ?_
  refine alike_ite (fun _ => alike_verbatimSince (hbehind.trans (hmid.trans hts))) fun _ => ?_
  exact alike_ite (fun _ => alike_failWith) fun _ => alike_pure not_false

theorem standalone_operandRule (structs : Bool) : Standalone ext (g.operandRule structs) := by
  refine fun start => alike_look ?_
  refine (standalone_outerAttributeCode hext start).bind fun attrs ts hts => alike_look ?_
  dsimp only
  rw [Ahead.op_append hext (by decide), Ahead.op_append hext (by decide),
    Ahead.op_append hext (by decide), Ahead.op_append hext (by decide)]
  refine alike_ite (fun _ => ?borrow) fun _ => alike_ite (fun _ => ?unary) fun _ =>
    alike_trailed hext hg hts structs attrs
  case borrow =>
    refine (takes_op (by decide)).bind (fun amp => detached_look (fun ts => ?_) fun ts => ?_) ts
    · rw [Ahead.keyword_drop_append (f := Ahead.keywords ["mut", "const"])
        (fun _ => Ahead.keywords_append hext) hext]
    refine detached_ite (fun _ => (takes_keyword _).bind fun raw => ?_) fun _ => ?_
    · -- the operand comes behind `raw` and either of the two keywords
      have hoperand (kw : Code) : Standalone ext (do
          return attributed attrs (.node .rawAddress [amp, raw, kw, ← g (.operand structs)])) :=
        (hg.operand _).bind fun _ => standalone_pure _
      refine detached_look (fun ts => by rw [Ahead.keyword_append hext]) fun ts => ?_
      exact detached_ite (fun _ => (takes_keyword _).bind hoperand) fun _ =>
        (takes_keyword _).bind hoperand
    · exact (standalone_keyword? hext _).bind fun _ => (hg.operand _).bind fun _ =>
        standalone_pure _
  case unary =>
    have hs : (if Ahead.op "*" ts then "*" else if Ahead.op "!" ts then "!" else "-") ≠ "" := by
      split
      · decide
      · split <;> decide
    exact (takes_op hs).bind (fun _ => (hg.operand _).bind fun _ => standalone_pure _) ts

end Grammar

/-! ### The grammar -/

open Grammar

/-- **The grammar reads alone as in front of a comma**, at every depth. -/
theorem alone_grammar {ext : List TokenTree} (hext : EndsValue ext) (n : Nat) :
    (grammar n).Alone ext := by
  induction n with
  | zero =>
    exact ⟨fun _ => detached_fail, fun _ => detached_fail, fun _ _ _ => detached_fail,
      fun _ => detached_fail, detached_fail, fun _ => detached_fail⟩
  | succ n ih =>
    exact {
      expr := standalone_exprRule ih
      operand := standalone_operandRule hext ih
      operators := standalone_operatorsRule hext ih
      type := standalone_typeRule hext ih
      pattern := standalone_patternRule hext ih
      bound := takes_bound hext ih }

end FieldGraft
