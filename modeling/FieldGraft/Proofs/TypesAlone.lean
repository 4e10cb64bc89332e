import FieldGraft.Proofs.ReadingAlone

/-!
# Paths, types and patterns in front of a comma

The rules for paths, bounds, types and patterns read alone as in front of a comma, if the goals
nested in them do (`Grammar.Alone`).

* `Grammar.standalone_typeRule`, `Grammar.standalone_patternRule`, `Grammar.takes_bound`
-/

namespace FieldGraft.Grammar

open FieldGraft.Parser

/-- The goals that are read outside of brackets read alone as in front of `ext`. -/
structure Alone (ext : List TokenTree) (g : Grammar) : Prop where
  expr (structs : Bool) : Standalone ext (g (.expr structs))
  operand (structs : Bool) : Standalone ext (g (.operand structs))
  operators (structs : Bool) (base : Precedence) (lhs : Code) :
    Standalone ext (g (.operators structs base lhs))
  type (plus : Bool) : Standalone ext (g (.type plus))
  pattern : Standalone ext (g .pattern)
  bound (place : BoundPlace) : Takes ext (g (.bound place))

variable {g : Grammar} {ext : List TokenTree} (hext : EndsValue ext) (hg : g.Alone ext)

include hext

/-! ### Lists in angle brackets -/

/-- Behind a member stands `>` or a comma, so a list in angle brackets is closed where it ends. -/
theorem standalone_angledMembers {p : Parser Code} (hp : Standalone ext p) :
    Standalone ext (angledMembers p) := by
  refine (detached_loop (fun ⟨done, trailing⟩ => ?_) _).bind fun _ => standalone_pure _
  refine detached_look (fun ts => by rw [Ahead.op_append hext (by decide)]) fun ts => ?_
  refine detached_ite (fun _ => steps_stop _) fun _ => hp.bind fun a => ?_
  refine detached_look (fun ts => by rw [Ahead.op_append hext (by decide)]) fun ts => ?_
  refine detached_ite (fun _ => steps_stop _) fun _ => ?_
  exact (takes_op (by decide)).bind fun _ => standalone_pure _

theorem takes_angledList {p : Parser Code} (hp : Standalone ext p) (shape : Shape)
    (lead : List Code) : Takes ext (angledList shape lead p) :=
  (takes_op (by decide)).bind fun _ => (standalone_angledMembers hext hp).bind fun ⟨_, _⟩ =>
    (takes_op (by decide)).standalone.bind fun _ => standalone_pure _

/-- A list of bounds ends at a comma as it does at the end, where no bound can be read. -/
theorem standalone_boundsUntil {bound : Parser Code} {stop : List TokenTree → Bool}
    (hbound : Takes ext bound) (hnil : stop [] = false)
    (hstop : ∀ t ts ts', stop (t :: ts) = stop (t :: ts')) :
    Standalone ext (boundsUntil bound stop) := by
  have hplus (done : List Code) : Steps ext (do
      if Ahead.op "+" (← look) then
        let plus ← op "+"
        return (plus :: done, true)
      else return (done, false)) := by
    refine detached_look (fun ts => by rw [Ahead.op_append hext (by decide)]) fun ts => ?_
    refine detached_ite (fun _ => ?_) fun _ => steps_stop _
    exact (takes_op (by decide)).bind fun _ => standalone_pure _
  refine (detached_loop (fun done ts => alike_look ?_) _).bind fun _ => standalone_pure _
  -- the stop is asked for twice in a round, before a bound and behind it
  cases ts with
  | nil =>
    dsimp only
    rw [hnil, if_neg Bool.false_ne_true]
    -- a bound takes a token, so there is none at the end
    refine alike_of_not_reads fun l a c' hread => ?_
    obtain ⟨b, mid, hb, -⟩ := reads_bind_iff.mp hread
    obtain ⟨⟨taken, heq, hne⟩, -⟩ := hbound [] l b mid hb
    exact hne trivial (List.append_eq_nil_iff.mp heq).1
  | cons t ts =>
    dsimp only
    rw [List.cons_append, hstop t (ts ++ ext) ts]
    refine alike_ite (fun _ => alike_pure Bool.false_ne_true) fun _ => ?_
    refine (hbound (t :: ts)).bind fun b mid _ => alike_look ?_
    cases mid with
    | nil =>
      -- a comma may stop the list here, and so does the end
      rw [hnil, if_neg Bool.false_ne_true, List.nil_append]
      split
      · exact alike_pure Bool.false_ne_true
      · exact hplus (b :: done) []
    | cons u us =>
      rw [List.cons_append, hstop u (us ++ ext) us]
      exact alike_ite (fun _ => alike_pure Bool.false_ne_true) fun _ => hplus (b :: done) (u :: us)

theorem standalone_colonBounds? {bound : Parser Code} {stop : List TokenTree → Bool}
    (hbound : Takes ext bound) (hnil : stop [] = false)
    (hstop : ∀ t ts ts', stop (t :: ts) = stop (t :: ts')) :
    Standalone ext (colonBounds? bound stop) := by
  refine detached_look (fun ts => by rw [Ahead.op_append hext (by decide)]) fun ts => ?_
  refine detached_ite (fun _ => standalone_pure _) fun _ => ?_
  exact (takes_op (by decide)).bind fun _ =>
    (standalone_boundsUntil hext hbound hnil hstop).bind fun _ => standalone_pure _

theorem standalone_constArgument : Standalone ext g.constArgument := by
  refine detached_look (fun ts => ?_) fun ts => ?_
  · rw [Ahead.literal_append hext, Ahead.ident_append hext, Ahead.group_append hext]
  refine detached_ite (fun _ => (takes_literal hext).bind fun _ => standalone_pure _) fun _ => ?_
  refine detached_ite (fun _ => takes_ident.bind fun _ => standalone_pure _) fun _ => ?_
  exact detached_ite (fun _ => takes_blockExpr.standalone) fun _ => detached_fail

include hg

theorem standalone_genericParam (hole : Bool) : Standalone ext (g.genericParam hole) := by
  refine (standalone_outerAttributeCode hext).bind fun attrs => ?_
  refine detached_look (fun ts => ?_) fun ts => ?_
  · rw [Ahead.lifetime_append hext, Ahead.keyword_append hext, Ahead.keyword_append hext]
  dsimp only
  refine detached_ite (fun _ => ?lifetime) fun _ => detached_ite (fun _ => ?const) fun _ =>
    detached_ite (fun _ => takes_anyIdent.bind fun _ => standalone_pure _) fun _ => ?type
  -- the parameter decides what may follow its name
  case lifetime =>
    exact takes_lifetime.bind fun _ => (standalone_colonBounds? hext takes_lifetime rfl
      fun t ts ts' => by rw [Ahead.op_front rfl t ts ts', Ahead.op_front rfl t ts ts']).bind
        fun _ => standalone_pure _
  case const =>
    refine (takes_keyword _).bind fun kw => takes_ident.standalone.bind fun name => ?_
    refine (takes_op (by decide)).standalone.bind fun colon => (hg.type _).bind fun ty => ?_
    refine detached_look (fun ts => by rw [Ahead.op_append hext (by decide)]) fun ts => ?_
    refine detached_ite (fun _ => ?_) fun _ => ?_
    · exact (takes_op (by decide)).bind fun _ => (standalone_constArgument hext).bind fun _ =>
        standalone_pure _
    · exact standalone_pure _
  case type =>
    refine takes_ident.bind fun name => ?_
    refine (standalone_colonBounds? hext (hg.bound _) rfl fun t ts ts' => ?_).bind fun bs => ?_
    · rw [Ahead.op_front rfl t ts ts', Ahead.op_front rfl t ts ts', Ahead.op_front rfl t ts ts']
    refine detached_look (fun ts => by rw [Ahead.op_append hext (by decide)]) fun ts => ?_
    refine detached_ite (fun _ => ?_) fun _ => standalone_pure _
    exact (takes_op (by decide)).bind fun _ => (hg.type _).bind fun _ => standalone_pure _

theorem standalone_binder? : Standalone ext g.binder? := by
  refine detached_look (fun ts => by rw [Ahead.keyword_append hext]) fun ts => ?_
  refine detached_ite (fun _ => standalone_pure _) fun _ => (takes_keyword _).bind fun kw => ?_
  exact (takes_angledList hext (standalone_genericParam hext hg false) _ _).standalone.bind
    fun _ => standalone_pure _

theorem standalone_returnType (plus : Bool) : Standalone ext (g.returnType plus) := by
  refine detached_look (fun ts => by rw [Ahead.op_append hext (by decide)]) fun ts => ?_
  refine detached_ite (fun _ => (takes_op (by decide)).bind fun arrow => ?_) fun _ =>
    standalone_pure _
  exact (hg.type _).bind fun _ => standalone_pure _

theorem takes_parenArgs : Takes ext g.parenArgs :=
  (takes_groupOf _ _).bind fun _ => (standalone_returnType hext hg _).bind fun _ =>
    standalone_pure _

/-! ### Generic arguments and paths -/

theorem standalone_genericArgument : Standalone ext g.genericArgument := by
  refine detached_look (fun ts => ?_) fun ts => ?_
  · rw [Ahead.lifetime_drop_append (f := fun ts => !Ahead.op "+" ts)
      (fun _ => by rw [Ahead.op_append hext (by decide)]) hext]
    simp only [Ahead.literal_append hext, Ahead.group_append hext]
  refine detached_ite (fun _ => takes_lifetime.standalone) fun _ => ?_
  refine detached_ite (fun _ => standalone_constArgument hext) fun _ => ?_
  refine (hg.type _).bind fun argument => detached_ite (fun _ => standalone_pure _) fun _ => ?_
  refine detached_look (fun ts => ?_) fun ts => ?_
  · rw [Ahead.op_append hext (by decide), Ahead.op_append hext (by decide)]
  refine detached_ite (fun _ => (takes_op (by decide)).bind fun eq => ?value) fun _ =>
    detached_ite (fun _ => (takes_op (by decide)).bind fun colon => ?bounds) fun _ =>
      standalone_pure _
  case value =>
    refine detached_look (fun ts => ?_) fun ts => ?_
    · simp only [Ahead.literal_append hext, Ahead.group_append hext]
    refine detached_ite (fun _ => ?_) fun _ => ?_
    · exact (standalone_constArgument hext).bind fun _ => standalone_pure _
    · exact (hg.type _).bind fun _ => standalone_pure _
  case bounds =>
    refine (standalone_boundsUntil hext (hg.bound _) rfl fun t ts ts' => ?_).bind fun _ =>
      standalone_pure _
    rw [Ahead.op_front rfl t ts ts', Ahead.op_front rfl t ts ts']

theorem standalone_genericArgs : Standalone ext g.genericArgs :=
  (standalone_op? hext (by decide) (by decide)).bind fun _ =>
    (takes_angledList hext (standalone_genericArgument hext hg) _ _).standalone

theorem takes_segment (exprStyle : Bool) : Takes ext (g.segment exprStyle) := by
  have hargs (name : Word) : Standalone ext (do
      let ts ← look
      if (!exprStyle && Ahead.op "<" ts && !Ahead.op "<=" ts && !Ahead.op "<<=" ts) ||
          (Ahead.op "::" ts && Ahead.op "<" (ts.drop 2)) then
        return Segment.mk name [← g.genericArgs]
      else return Segment.mk name []) := by
    refine detached_look (fun ts => ?_) fun ts => ?_
    · -- arguments follow a name, with or without colons in front
      rw [Ahead.colons_drop_append (f := Ahead.op "<")
          (fun _ => Ahead.op_append hext (by decide)) hext,
        Ahead.op_append hext (by decide), Ahead.op_append hext (by decide),
        Ahead.op_append hext (by decide)]
    exact detached_ite (fun _ => (standalone_genericArgs hext hg).bind fun _ => standalone_pure _)
      fun _ => standalone_pure _
  refine detached_look (fun ts => ?_) fun ts => ?_
  · rw [Ahead.keywords_append hext, Ahead.keyword_append hext]
  refine detached_ite (fun _ => takes_anyIdent.bind fun _ => standalone_pure _) fun _ => ?_
  exact detached_ite (fun _ => takes_anyIdent.bind hargs) fun _ => takes_ident.bind hargs

theorem standalone_moreSegments (exprStyle : Bool) (first : Segment) :
    Standalone ext (g.moreSegments exprStyle first) := by
  refine (detached_loop (fun done => ?_) _).bind fun _ => standalone_pure _
  refine detached_look (fun ts => ?_) fun ts => ?_
  · rw [Ahead.colons_drop_append (f := fun ts => !Ahead.group .paren ts)
      (fun _ => by rw [Ahead.group_append hext]) hext]
  refine detached_ite (fun _ => (takes_op (by decide)).bind fun _ => ?_) fun _ => steps_stop _
  exact (takes_segment hext hg exprStyle).standalone.bind fun _ => standalone_pure _

theorem takes_namedPath (exprStyle : Bool) : Takes ext (g.namedPath exprStyle) :=
  (standalone_op? hext (by decide) (by decide)).bind fun _ =>
    (takes_segment hext hg exprStyle).bind fun _ =>
      (standalone_moreSegments hext hg exprStyle _).bind fun _ => standalone_pure _

theorem takes_anyPath (exprStyle : Bool) : Takes ext (g.anyPath exprStyle) := by
  have hrest (lead : List Code) : Standalone ext (do
      let gt ← op ">"
      let colons ← op "::"
      let first ← g.segment exprStyle
      let rest ← loop [first] fun done => do
        if Ahead.op "::" (← look) then
          let _ ← op "::"
          return ((← g.segment exprStyle) :: done, true)
        else return (done, false)
      return Path.qualified (lead ++ [gt, colons, .path (.named none rest.reverse)])) := by
    -- what comes behind the type in angle brackets is a path like any other
    refine (takes_op (by decide)).bind fun gt => (takes_op (by decide)).standalone.bind fun _ => ?_
    refine (takes_segment hext hg exprStyle).standalone.bind fun first => ?_
    refine (detached_loop (fun done => ?_) _).bind fun _ => standalone_pure _
    refine detached_look (fun ts => by rw [Ahead.op_append hext (by decide)]) fun ts => ?_
    refine detached_ite (fun _ => (takes_op (by decide)).bind fun _ => ?_) fun _ => steps_stop _
    exact (takes_segment hext hg exprStyle).standalone.bind fun _ => standalone_pure _
  refine detached_look (fun ts => by rw [Ahead.op_append hext (by decide)]) fun ts => ?_
  refine detached_ite (fun _ => ?_) fun _ => takes_namedPath hext hg exprStyle
  refine (takes_op (by decide)).bind fun lt => (hg.type _).bind fun self => ?_
  refine detached_look (fun ts => by rw [Ahead.keyword_append hext]) fun ts => ?_
  refine detached_ite (fun _ => (takes_keyword _).bind fun _ => ?_) fun _ => hrest _
  exact (takes_namedPath hext hg false).standalone.bind fun _ => hrest _

/-! ### Bounds -/

theorem takes_traitPath : Takes ext g.traitPath := by
  refine (takes_namedPath hext hg false).bind fun path => ?_
  refine detached_look (fun ts => ?_) fun ts => ?_
  · rw [parenArgsAhead, parenArgsAhead, Ahead.group_append hext,
      Ahead.colons_drop_append (f := Ahead.group .paren) (fun _ => Ahead.group_append hext) hext]
  refine detached_ite (fun _ => ?_) fun _ => standalone_pure _
  exact (standalone_op? hext (by decide) (by decide)).bind fun _ =>
    (takes_parenArgs hext hg).standalone.bind fun _ => standalone_pure _

theorem takes_traitBound (constAllowed : Bool) : Takes ext (g.traitBound constAllowed) := by
  refine (standalone_binder? hext hg).bind fun binder => ?_
  have hpath (isConst : Bool) (maybe late : List Code) : Takes ext (do
      let path ← g.traitPath
      if !maybe.isEmpty && !(binder ++ late).isEmpty then
        failWith "`for<...>` binder not allowed with `?` trait polarity modifier"
      return (binder ++ maybe ++ [Code.path path], isConst)) :=
    (takes_traitPath hext hg).bind fun _ =>
      detached_ite (fun _ => detached_failWith_bind) fun _ =>
        standalone_pure _
  have hmaybe (isConst : Bool) : Takes ext (do
      let maybe ← op? "?"
      let late ← if binder.isEmpty && !maybe.isEmpty then g.binder? else pure []
      let path ← g.traitPath
      if !maybe.isEmpty && !(binder ++ late).isEmpty then
        failWith "`for<...>` binder not allowed with `?` trait polarity modifier"
      return (binder ++ maybe ++ [Code.path path], isConst)) :=
    (standalone_op? hext (by decide) (by decide)).bind fun _ =>
      detached_ite (fun _ => (standalone_binder? hext hg).bind fun _ => hpath _ _ _) fun _ =>
        hpath _ _ _
  refine detached_look (fun ts => ?_) fun ts => ?_
  · rw [Ahead.group_append hext, Ahead.keyword_append hext]
  refine detached_ite (fun _ => ?_) fun _ => detached_ite (fun _ => ?_) fun _ => hmaybe false
  · refine (takes_inGroup _ _).standalone.bind fun _ => ?_
    exact detached_ite (fun _ => detached_failWith_bind) fun _ => hmaybe true
  · refine (takes_keyword _).standalone.bind fun _ => ?_
    exact detached_ite (fun _ => detached_failWith_bind) fun _ => hmaybe true

omit hg in
theorem takes_captureList : Takes ext captureList := by
  refine (takes_keyword _).bind fun _ => (takes_angledList hext ?_ _ _).standalone
  refine detached_look (fun ts => ?_) fun ts => ?_
  · rw [Ahead.lifetime_append hext, Ahead.keyword_append hext]
  refine detached_ite (fun _ => takes_lifetime.standalone) fun _ => ?_
  exact detached_ite (fun _ => takes_anyIdent.bind fun _ => standalone_pure _) fun _ =>
    takes_ident.bind fun _ => standalone_pure _

theorem takes_bound (place : BoundPlace) : Takes ext (g.bound place) := by
  intro ts
  -- a bound in parentheses that is const is kept as it was written
  have hfinish (r : List Code × Bool) (mid : List TokenTree) (hmid : mid <:+ ts) :
      Alike ext mid (fun _ => False)
        (if r.2 then verbatimSince ts else return .node .traitBound r.1)
        (if r.2 then verbatimSince (ts ++ ext) else return .node .traitBound r.1) :=
    alike_ite (fun _ => alike_verbatimSince hmid) fun _ => alike_pure not_false
  refine alike_look ?_
  dsimp only
  rw [Ahead.lifetime_append hext, Ahead.keyword_append hext, Ahead.group_append hext]
  refine alike_ite (fun _ => takes_lifetime ts) fun _ => alike_ite (fun _ => ?_) fun _ =>
    alike_ite (fun _ => ?_) fun _ => ?_
  · exact ((takes_captureList hext).bind fun _ =>
      detached_ite (fun _ => detached_failWith_bind) fun _ => standalone_pure _) ts
  · refine (takes_inGroup _ _ ts).takes_bind fun r mid hmid => ?_
    exact hfinish _ mid hmid
  · exact (takes_traitBound hext hg _ ts).takes_bind hfinish

theorem standalone_bounds (place : BoundPlace) (plus : Bool) :
    Standalone ext (g.bounds place plus) := by
  refine (detached_loop (fun done => ?_) _).bind fun _ => standalone_pure _
  refine (hg.bound place).bind fun b => ?_
  refine detached_look (fun ts => by rw [Ahead.op_append hext (by decide)]) fun ts => ?_
  refine detached_ite (fun _ => (takes_op (by decide)).bind fun _ => ?_) fun _ => standalone_pure _
  refine detached_look (fun ts => ?_) fun _ => standalone_pure _
  rw [boundStart, boundStart, Ahead.anyIdent_append hext, Ahead.op_append hext (by decide),
    Ahead.op_append hext (by decide), Ahead.lifetime_append hext, Ahead.group_append hext,
    Ahead.group_append hext]

/-! ### Types -/

omit hg in
theorem standalone_abi? : Standalone ext abi? := by
  refine detached_look (fun ts => by rw [Ahead.keyword_append hext]) fun ts => ?_
  refine detached_ite (fun _ => (takes_keyword _).bind fun kw => ?_) fun _ => standalone_pure _
  refine fun mid => alike_look ?_
  rcases mid with _ | ⟨⟨pos, _ | t | _ | _⟩ | ⟨pos, d, body⟩, rest⟩
  case nil =>
    obtain rfl | ⟨pos, joint, rest, rfl⟩ := hext
    · exact alike_pure not_false
    · exact alike_pure not_false
  case cons.leaf.literal =>
    refine alike_ite (fun _ => ?_) fun _ => alike_pure not_false
    exact (alike_moveTo (List.suffix_cons _ _)).bind fun _ _ _ => alike_pure not_false
  all_goals exact alike_pure not_false

theorem standalone_bareFn (binder : List Code) : Standalone ext (g.bareFn binder) :=
  (standalone_keyword? hext _).bind fun _ => (standalone_abi? hext).bind fun _ =>
    (takes_keyword _).standalone.bind fun _ => (takes_groupOf _ _).standalone.bind fun _ =>
      (standalone_returnType hext hg _).bind fun _ => standalone_pure _

theorem standalone_objectBounds (plus : Bool) : Standalone ext (g.objectBounds plus) :=
  (standalone_bounds hext hg _ _).bind fun _ =>
    detached_ite (fun _ => detached_failWith_bind) fun _ => standalone_pure _

theorem standalone_plusBounds (loose : Bool) (first : Code) :
    Standalone ext (g.plusBounds loose first) := by
  refine (detached_loop (fun done => ?_) _).bind fun _ => standalone_pure _
  refine detached_look (fun ts => by rw [Ahead.op_append hext (by decide)]) fun ts => ?_
  refine detached_ite (fun _ => (takes_op (by decide)).bind fun _ => ?_) fun _ => steps_stop _
  have hbound (plus : Code) : Standalone ext (do
      return ((← g (.bound .objectType)) :: plus :: done, true)) :=
    (hg.bound _).bind fun _ => standalone_pure _
  refine detached_look (fun ts => ?_) fun ts => ?_
  · rw [boundStart, boundStart, Ahead.anyIdent_append hext, Ahead.op_append hext (by decide),
      Ahead.op_append hext (by decide), Ahead.lifetime_append hext, Ahead.group_append hext,
      Ahead.group_append hext]
  exact detached_ite (fun _ => standalone_pure _) fun _ => hbound _

theorem standalone_parenType (plus : Bool) : Standalone ext (g.parenType plus) := by
  refine (takes_inGroup _ _).bind fun ⟨pos, content⟩ => ?_
  dsimp only
  cases content with
  | unit => exact standalone_pure _
  | object bs => exact standalone_pure _
  | maybe b => exact (standalone_plusBounds hext hg _ _).bind fun _ => standalone_pure _
  | tuple parts => exact standalone_pure _
  | single ty =>
    refine detached_look (fun ts => by rw [Ahead.op_append hext (by decide)]) fun ts => ?_
    split
    · exact (standalone_plusBounds hext hg _ _).bind fun _ => standalone_pure _
    · exact standalone_pure _

theorem standalone_pathType (plus : Bool) (binder : List Code) :
    Standalone ext (g.pathType plus binder) := by
  refine (takes_anyPath hext hg false).bind fun path => ?_
  refine detached_look (fun ts => ?_) fun ts => ?_
  · rw [Ahead.op_append hext (by decide), Ahead.op_append hext (by decide),
      Ahead.op_append hext (by decide)]
  -- only a path of names may be called as a macro
  cases path with
  | qualified parts => exact standalone_pure _
  | named root segments =>
    refine detached_ite (fun _ => ?call) fun _ => detached_ite (fun _ => ?_) fun _ =>
      standalone_pure _
    case call =>
      exact (takes_op (by decide)).bind fun _ => takes_rawGroup.standalone.bind fun ⟨_, _⟩ =>
        standalone_pure _
    refine detached_ite (fun _ => ?_) fun _ => standalone_pure _
    exact (standalone_plusBounds hext hg _ _).bind fun _ => standalone_pure _

omit hext hg in
theorem standalone_builtinForm : Standalone ext builtinForm := by
  refine fun ts => alike_look ?_
  refine (takes_keyword _ ts).takes_bind fun _ mid hmid => ?_
  refine (takes_op (by decide) mid).takes_bind fun _ mid' hmid' => ?_
  refine (takes_ident mid').takes_bind fun _ mid'' hmid'' => ?_
  refine (takes_rawGroup mid'').takes_bind fun ⟨d, _⟩ behind hbehind => ?_
  refine alike_ite (fun _ => alike_failWith_bind) fun _ => ?_
  exact alike_verbatimSince (hbehind.trans (hmid''.trans (hmid'.trans hmid)))

theorem takes_pointerType : Takes ext (do
    let star ← op "*"
    let ts ← look
    let kw ← if Ahead.keyword "const" ts then keyword "const"
      else if Ahead.keyword "mut" ts then keyword "mut"
      else fail "expected `const` or `mut`"
    return Code.node .pointerType [star, kw, ← g (.type false)]) := by
  refine (takes_op (by decide)).bind fun star => detached_look (fun ts => ?_) fun ts => ?_
  · rw [Ahead.keyword_append hext, Ahead.keyword_append hext]
  have hrest (kw : Code) : Standalone ext (do
      return Code.node .pointerType [star, kw, ← g (.type false)]) :=
    (hg.type _).bind fun _ => standalone_pure _
  refine detached_ite (fun _ => (takes_keyword _).bind hrest) fun _ => ?_
  exact detached_ite (fun _ => (takes_keyword _).bind hrest) fun _ => detached_fail_bind

theorem takes_referenceType : Takes ext (do
    let amp ← op "&"
    let life ← lifetime?
    let mutability ← keyword? "mut"
    return Code.node .referenceType (amp :: life ++ mutability ++ [← g (.type false)])) :=
  (takes_op (by decide)).bind fun _ => (standalone_lifetime? hext).bind fun _ =>
    (standalone_keyword? hext _).bind fun _ => (hg.type _).bind fun _ => standalone_pure _

theorem takes_implTrait (plus : Bool) : Takes ext (do
    let kw ← keyword "impl"
    let bs ← g.bounds .implType plus
    if !hasTrait bs then failWith "at least one trait must be specified"
    return Code.node .implTrait (kw :: bs)) :=
  (takes_keyword _).bind fun _ => (standalone_bounds hext hg _ _).bind fun _ =>
    detached_ite (fun _ => detached_failWith_bind) fun _ => standalone_pure _

/-- The branches of the rule are taken one by one; each of them is chosen by tokens that are the
same in front of a comma. -/
theorem standalone_typeRule (plus : Bool) : Standalone ext (g.typeRule plus) := by
  refine fun start => alike_look ?_
  refine (standalone_binder? hext hg start).bind fun binder ts hts => alike_look ?_
  dsimp only
  rw [builtinAhead, builtinAhead, Ahead.pathStart_append hext,
    Ahead.keyword_drop_append (f := Ahead.op "#") (fun _ => Ahead.op_append hext (by decide)) hext]
  rw [Ahead.ident_append hext, Ahead.keywords_append hext, Ahead.keywords_append hext,
    Ahead.group_append hext, Ahead.group_append hext, Ahead.keyword_append hext,
    Ahead.keyword_append hext, Ahead.keyword_append hext, Ahead.lifetime_append hext,
    Ahead.op_append hext (by decide), Ahead.op_append hext (by decide),
    Ahead.op_append hext (by decide), Ahead.op_append hext (by decide)]
  refine alike_ite (fun _ => alike_fail) fun _ => ?_
  refine alike_ite (fun _ => standalone_parenType hext hg plus ts) fun _ => ?_
  refine alike_ite (fun _ => standalone_bareFn hext hg binder ts) fun _ => ?_
  refine alike_ite (fun _ => standalone_builtinForm ts) fun _ => ?_
  refine alike_ite (fun _ => standalone_pathType hext hg plus binder ts) fun _ => ?_
  -- an object type, kept as written behind a star
  refine alike_ite (fun _ => ?_) fun _ => ?_
  · refine (takes_keyword _ ts).takes_bind fun kw ts₁ hts₁ => ?_
    refine (standalone_op? hext (by decide) (by decide) ts₁).bind fun star ts₂ hts₂ => ?_
    refine (standalone_objectBounds hext hg plus ts₂).bind fun bs ts₃ hts₃ => ?_
    refine alike_ite (fun _ => alike_pure not_false) fun _ => ?_
    exact alike_verbatimSince (hts₃.trans (hts₂.trans (hts₁.trans hts)))
  -- brackets
  refine alike_ite (fun _ => ?_) fun _ => ?_
  · exact (takes_inGroup _ _).bind (fun _ => standalone_pure _) ts
  refine alike_ite (fun _ => (takes_pointerType hext hg).standalone ts) fun _ => ?_
  refine alike_ite (fun _ => (takes_referenceType hext hg).standalone ts) fun _ => ?_
  -- the never type
  refine alike_ite (fun _ => (takes_op (by decide)).bind (fun _ => standalone_pure _) ts)
    fun _ => ?_
  refine alike_ite (fun _ => (takes_implTrait hext hg plus).standalone ts) fun _ => ?_
  -- a type to be inferred, and bounds behind a lifetime
  refine alike_ite (fun _ => (takes_keyword _).bind (fun _ => standalone_pure _) ts) fun _ => ?_
  refine alike_ite (fun _ => ?_) fun _ => alike_fail
  exact (standalone_objectBounds hext hg plus).bind (fun _ => standalone_pure _) ts

/-! ### Patterns -/

omit hg in
theorem standalone_memberName : Standalone ext memberName := by
  refine fun ts => alike_look ?_
  rw [Ahead.ident_append hext]
  refine alike_ite (fun _ => takes_ident.bind (fun _ => standalone_pure _) ts) fun _ => ?_
  rcases ts with _ | ⟨⟨pos, _ | t | _ | _⟩ | ⟨pos, d, body⟩, rest⟩
  case cons.leaf.literal =>
    dsimp only [List.cons_append]
    split
    · exact (alike_moveTo (List.suffix_cons _ _)).bind fun _ _ _ => alike_pure not_false
    · exact alike_fail
  all_goals exact alike_fail

theorem standalone_alternatives : Standalone ext g.alternatives := by
  -- the bar of an alternative is told apart from longer operators
  have hmore (ts : List TokenTree) :
      (Ahead.op "|" (ts ++ ext) && !Ahead.op "||" (ts ++ ext) && !Ahead.op "|=" (ts ++ ext)) =
        (Ahead.op "|" ts && !Ahead.op "||" ts && !Ahead.op "|=" ts) := by
    rw [Ahead.op_append hext (by decide), Ahead.op_append hext (by decide),
      Ahead.op_append hext (by decide)]
  refine (standalone_op? hext (by decide) (by decide)).bind fun lead => ?_
  refine hg.pattern.bind fun first => ?_
  refine detached_look (fun ts => by simp only [hmore]) fun ts => ?_
  refine detached_ite (fun _ => standalone_pure _) fun _ => ?_
  refine (detached_loop (fun done => ?_) _).bind fun _ => standalone_pure _
  refine detached_look (fun ts => by simp only [hmore]) fun ts => ?_
  refine detached_ite (fun _ => (takes_op (by decide)).bind fun _ => ?_) fun _ => steps_stop _
  exact hg.pattern.bind fun _ => standalone_pure _

omit hg in
/-- A range has no end in front of a comma either. -/
theorem rangeEnd_append (ts : List TokenTree) : rangeEnd (ts ++ ext) = rangeEnd ts := by
  cases ts with
  | nil =>
    obtain rfl | ⟨pos, joint, rest, rfl⟩ := hext
    · rfl
    · rfl
  | cons t ts =>
    have hcomma : Ahead.op "," (t :: ts ++ ext) = Ahead.op "," (t :: ts) := Ahead.op_front rfl t _ _
    rw [rangeEnd, rangeEnd, hcomma, Ahead.op_append hext (by decide),
      Ahead.op_append hext (by decide), Ahead.op_append hext (by decide),
      Ahead.op_append hext (by decide), Ahead.op_append hext (by decide), Ahead.keyword_append hext]
    rfl

theorem standalone_rangeBound : Standalone ext g.rangeBound := by
  refine detached_look (fun ts => ?_) fun ts => ?_
  · rw [rangeEnd_append hext, Ahead.literal_append hext, Ahead.pathStart_append hext,
      Ahead.op_append hext (by decide), Ahead.keyword_append hext]
  refine detached_ite (fun _ => standalone_pure _) fun _ => ?_
  refine detached_ite (fun _ => (takes_literal hext).bind fun _ => standalone_pure _) fun _ => ?_
  refine detached_ite (fun _ => ?_) fun _ => detached_ite (fun _ => ?_) fun _ => detached_fail
  · exact (takes_anyPath hext hg _).bind fun _ => standalone_pure _
  · exact (takes_keyword _).bind fun _ => (takes_block _).standalone.bind fun _ => standalone_pure _

omit hg in
theorem standalone_rangeDots : Standalone ext rangeDots := by
  refine detached_look (fun ts => ?_) fun ts => ?_
  · rw [Ahead.op_append hext (by decide), Ahead.op_append hext (by decide)]
    cases ts with
    | nil => rfl
    | cons t ts => rfl
  refine detached_ite (fun _ => (takes_op (by decide)).standalone) fun _ => ?_
  exact detached_ite (fun _ => (takes_op (by decide)).bind fun _ => standalone_pure _) fun _ =>
    (takes_op (by decide)).standalone

theorem standalone_rangeRest (start : List Code) : Standalone ext (g.rangeRest start) :=
  (standalone_rangeDots hext).bind fun _ => (standalone_rangeBound hext hg).bind fun _ =>
    detached_ite (fun _ => detached_fail_bind) fun _ => standalone_pure _

theorem standalone_pathPattern : Standalone ext g.pathPattern := by
  refine (takes_anyPath hext hg true).bind fun path => ?_
  refine detached_look (fun ts => ?_) fun ts => ?_
  · rw [Ahead.op_append hext (by decide), Ahead.op_append hext (by decide),
      Ahead.group_append hext, Ahead.group_append hext, Ahead.op_append hext (by decide)]
  refine detached_ite (fun _ => ?call) fun _ => detached_ite (fun _ => ?members) fun _ =>
    detached_ite (fun _ => ?tuple) fun _ =>
      detached_ite (fun _ => standalone_rangeRest hext hg _) fun _ => standalone_pure _
  case call =>
    exact (takes_op (by decide)).bind fun _ => takes_rawGroup.standalone.bind fun ⟨_, _⟩ =>
      standalone_pure _
  case members => exact (takes_inGroup _ _).bind fun ⟨_, _, _, _⟩ => standalone_pure _
  case tuple => exact (takes_groupOf _ _).bind fun _ => standalone_pure _

theorem standalone_identPattern : Standalone ext g.identPattern := by
  refine (standalone_keyword? hext _).bind fun byRef => ?_
  refine (standalone_keyword? hext _).bind fun mutability => ?_
  have hsub (name : Word) : Standalone ext (do
      let sub ← if Ahead.op "@" (← look) then do
          let at' ← op "@"
          pure [at', ← g .pattern]
        else pure []
      return Code.node .identPat (byRef ++ mutability ++ word name :: sub)) := by
    refine detached_look (fun ts => by rw [Ahead.op_append hext (by decide)]) fun ts => ?_
    refine detached_ite (fun _ => (takes_op (by decide)).bind fun _ => ?_) fun _ =>
      standalone_pure _
    exact hg.pattern.bind fun _ => standalone_pure _
  refine detached_look (fun ts => by rw [Ahead.keyword_append hext]) fun ts => ?_
  exact detached_ite (fun _ => takes_anyIdent.bind hsub) fun _ => takes_ident.bind hsub

omit hg in
/-- What tells a path from a name. -/
theorem pathPatternAhead_append (ts : List TokenTree) :
    (Ahead.ident (ts ++ ext) && (Ahead.op "::" ((ts ++ ext).drop 1) ||
      Ahead.op "!" ((ts ++ ext).drop 1) || Ahead.group .brace ((ts ++ ext).drop 1) ||
      Ahead.group .paren ((ts ++ ext).drop 1) || Ahead.op ".." ((ts ++ ext).drop 1))) =
    (Ahead.ident ts && (Ahead.op "::" (ts.drop 1) || Ahead.op "!" (ts.drop 1) ||
      Ahead.group .brace (ts.drop 1) || Ahead.group .paren (ts.drop 1) ||
      Ahead.op ".." (ts.drop 1))) :=
  Ahead.ident_drop_append (f := fun ts => Ahead.op "::" ts || Ahead.op "!" ts ||
    Ahead.group .brace ts || Ahead.group .paren ts || Ahead.op ".." ts) (fun ts => by
      rw [Ahead.op_append hext (by decide), Ahead.op_append hext (by decide),
        Ahead.op_append hext (by decide), Ahead.group_append hext, Ahead.group_append hext]) hext

/-- A range, or its first bound alone. -/
theorem standalone_boundPattern : Standalone ext (do
    let start ← g.rangeBound
    if Ahead.op ".." (← look) then g.rangeRest start
    else match start with
      | [c] => return c
      | _ => fail "expected literal") := by
  refine (standalone_rangeBound hext hg).bind fun start => ?_
  refine detached_look (fun ts => by rw [Ahead.op_append hext (by decide)]) fun ts => ?_
  refine detached_ite (fun _ => standalone_rangeRest hext hg _) fun _ => ?_
  split
  · exact standalone_pure _
  · exact detached_fail

theorem takes_referencePattern : Takes ext (do
    let amp ← op "&"
    let mutability ← keyword? "mut"
    return Code.node .referencePat (amp :: mutability ++ [← g .pattern])) :=
  (takes_op (by decide)).bind fun _ => (standalone_keyword? hext _).bind fun _ =>
    hg.pattern.bind fun _ => standalone_pure _

/-- Dots at the front are a range without its first bound, or the rest of a list. -/
theorem standalone_dotsPattern : Standalone ext (do
    let dots ← rangeDots
    let stop ← g.rangeBound
    if !stop.isEmpty then return Code.node .rangePat (dots :: stop)
    else if isClosed dots then fail "expected range upper bound"
    else return Code.node .restPat [dots]) := by
  refine (standalone_rangeDots hext).bind fun dots => ?_
  refine (standalone_rangeBound hext hg).bind fun stop => ?_
  exact detached_ite (fun _ => standalone_pure _) fun _ =>
    detached_ite (fun _ => detached_fail) fun _ => standalone_pure _

theorem standalone_patternRule : Standalone ext g.patternRule := by
  refine fun ts => alike_look ?_
  dsimp only
  rw [pathPatternAhead_append hext, Ahead.keyword_drop_append (f := Ahead.op "::")
      (fun _ => Ahead.op_append hext (by decide)) hext, Ahead.keywords_append hext,
    Ahead.keywords_append hext, Ahead.keyword_append hext, Ahead.keyword_append hext,
    Ahead.keyword_append hext, Ahead.ident_append hext, Ahead.literal_append hext,
    Ahead.group_append hext, Ahead.group_append hext, Ahead.op_append hext (by decide),
    Ahead.op_append hext (by decide), Ahead.op_append hext (by decide),
    Ahead.op_append hext (by decide), Ahead.op_append hext (by decide),
    Ahead.op_append hext (by decide)]
  refine alike_ite (fun _ => standalone_pathPattern hext hg ts) fun _ => ?_
  refine alike_ite (fun _ => (takes_keyword _).bind (fun _ => standalone_pure _) ts) fun _ => ?_
  -- a boxed pattern is kept as written
  refine alike_ite (fun _ => ?_) fun _ => ?_
  · refine (takes_keyword _ ts).takes_bind fun _ mid hmid => ?_
    refine (hg.pattern mid).bind fun _ behind hbehind => ?_
    exact alike_verbatimSince (hbehind.trans hmid)
  refine alike_ite (fun _ => standalone_boundPattern hext hg ts) fun _ => ?_
  refine alike_ite (fun _ => standalone_identPattern hext hg ts) fun _ => ?_
  refine alike_ite (fun _ => (takes_referencePattern hext hg).standalone ts) fun _ => ?_
  -- a tuple and a slice
  refine alike_ite (fun _ => (takes_inGroup _ _).bind (fun _ => standalone_pure _) ts) fun _ => ?_
  refine alike_ite (fun _ => (takes_groupOf _ _).bind (fun _ => standalone_pure _) ts) fun _ => ?_
  exact alike_ite (fun _ => standalone_dotsPattern hext hg ts) fun _ => alike_fail

end FieldGraft.Grammar
