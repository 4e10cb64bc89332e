import FieldGraft.Proofs.PathReading

/-!
# Reading alone and in front of a comma

A value of an annotation ends where the tokens end, or at a comma. The parsers of the grammar look
ahead to see whether a construct goes on, and a comma tells them the same as the end does.

`Parser.Alike` compares two parsers on trees that are followed by nothing and by `ext`. A parser is
compared with itself in `Parser.Detached`; there are two of them only where the trees that lie ahead
are kept for later. What has been read is counted as well: a repetition goes on only after it has
read something (`Parser.Steps`), so its number of rounds does not end it on either side.

* `Parser.detached_loop` — a repetition.
* `Parser.reads_inGroup_iff` — a group, whose content is read apart from what follows it.
-/

namespace FieldGraft

/-- The end of a value: nothing, or a comma. -/
def EndsValue (ts : List TokenTree) : Prop :=
  ts = [] ∨ ∃ pos joint rest, ts = .leaf pos (.punct ',' joint) :: rest

/-! ### Looking ahead -/

namespace Ahead

variable {ext ts : List TokenTree} {cs : List Char} {s : String}

/-- No operator without a comma reaches into what ends a value. -/
theorem isSome_dropOp?_append (hext : EndsValue ext) (hcs : ',' ∉ cs) :
    (dropOp? cs (ts ++ ext)).isSome = (dropOp? cs ts).isSome := by
  induction cs, ts using dropOp?.induct with
  | case1 ts => rw [dropOp?, dropOp?, Option.isSome_some, Option.isSome_some]
  -- the last character may be joined to anything, so what follows does not matter
  | case2 pos d joint ts =>
    rw [List.cons_append, dropOp?, dropOp?, if_pos rfl, if_pos rfl, Option.isSome_some,
      Option.isSome_some]
  | case3 c pos d joint ts hne => rw [List.cons_append, dropOp?, dropOp?, if_neg hne, if_neg hne]
  | case4 c cs pos d joint ts hnil hfront ih =>
    rw [List.cons_append, dropOp?, dropOp?, if_pos hfront, if_pos hfront]
    · exact ih fun hmem => hcs (List.mem_cons_of_mem _ hmem)
    · exact hnil
    · exact hnil
  | case5 c cs pos d joint ts hnil hfront =>
    rw [List.cons_append, dropOp?, dropOp?, if_neg hfront, if_neg hfront]
    · exact hnil
    · exact hnil
  | case6 cs ts hnil hlast hmore =>
    -- there is no punctuation in front, or nothing at all, in which case a comma may come next
    cases cs with
    | nil => exact (hnil rfl).elim
    | cons c cs =>
      -- the operator holds no comma, so a comma behind the end is none of its characters
      have hne : c ≠ ',' := fun heq => hcs (heq ▸ List.mem_cons_self)
      cases ts with
      | nil =>
        obtain rfl | ⟨pos, joint, rest, rfl⟩ := hext
        · rfl
        · rw [List.nil_append, dropOp?.eq_def, dropOp?.eq_def]
          cases cs <;> simp [hne]
      | cons t ts =>
        cases t with
        | group pos d body => cases cs <;> rfl
        | leaf pos t =>
          cases t with
          | punct d joint =>
            cases cs with
            | nil => exact (hlast _ _ _ _ _ rfl rfl).elim
            | cons c' cs => exact (hmore _ _ _ _ _ _ rfl rfl).elim
          | ident t => cases cs <;> rfl
          | literal t => cases cs <;> rfl
          | lifetime t => cases cs <;> rfl

theorem op_append (hext : EndsValue ext) (hs : ',' ∉ s.toList) : op s (ts ++ ext) = op s ts :=
  isSome_dropOp?_append hext hs

/-- What the first tree decides, and a comma decides as the end does. -/
theorem front_append {f : List TokenTree → Bool} (hext : EndsValue ext)
    (hhead : ∀ t ts ts', f (t :: ts) = f (t :: ts'))
    (hcomma : ∀ pos joint ts, f (.leaf pos (.punct ',' joint) :: ts) = f []) :
    f (ts ++ ext) = f ts := by
  cases ts with
  | nil =>
    obtain rfl | ⟨pos, joint, rest, rfl⟩ := hext
    · rfl
    · exact hcomma pos joint rest
  | cons t ts => exact hhead t _ _

/-- The first tree decides about an operator of one character. -/
theorem op_front {c : Char} (hs : s.toList = [c]) (t : TokenTree) (ts ts' : List TokenTree) :
    op s (t :: ts) = op s (t :: ts') := by
  rw [op, op, hs]
  rcases t with ⟨pos, _ | _ | _ | ⟨d, joint⟩⟩ | ⟨pos, d, body⟩
  case leaf.punct =>
    rw [dropOp?, dropOp?]
    split <;> rfl
  all_goals rfl

theorem keyword_append (hext : EndsValue ext) : keyword s (ts ++ ext) = keyword s ts :=
  front_append hext (fun t _ _ => by rcases t with ⟨_, _ | _ | _ | _⟩ | _ <;> rfl) fun _ _ _ => rfl

theorem keywords_append (hext : EndsValue ext) {ss : List String} :
    keywords ss (ts ++ ext) = keywords ss ts := by
  unfold keywords
  exact congrArg ss.any (funext fun s => keyword_append hext)

theorem ident_append (hext : EndsValue ext) : ident (ts ++ ext) = ident ts :=
  front_append hext (fun t _ _ => by rcases t with ⟨_, _ | _ | _ | _⟩ | _ <;> rfl) fun _ _ _ => rfl

theorem anyIdent_append (hext : EndsValue ext) : anyIdent (ts ++ ext) = anyIdent ts :=
  front_append hext (fun t _ _ => by rcases t with ⟨_, _ | _ | _ | _⟩ | _ <;> rfl) fun _ _ _ => rfl

theorem lifetime_append (hext : EndsValue ext) : lifetime (ts ++ ext) = lifetime ts :=
  front_append hext (fun t _ _ => by rcases t with ⟨_, _ | _ | _ | _⟩ | _ <;> rfl) fun _ _ _ => rfl

theorem group_append (hext : EndsValue ext) {d : Delimiter} : group d (ts ++ ext) = group d ts :=
  front_append hext (fun t _ _ => by cases t <;> rfl) fun _ _ _ => rfl

theorem stringLiteral_append (hext : EndsValue ext) :
    stringLiteral (ts ++ ext) = stringLiteral ts :=
  front_append hext (fun t _ _ => by rcases t with ⟨_, _ | _ | _ | _⟩ | _ <;> rfl) fun _ _ _ => rfl

theorem length_of_op (h : op s ts = true) : s.toList.length ≤ ts.length := by
  obtain ⟨rest, hrest⟩ := Option.isSome_iff_exists.mp h
  obtain ⟨taken, rfl, hlen, -⟩ := exists_taken_of_dropOp? hrest
  rw [List.length_append, hlen]
  exact Nat.le_add_right _ _

/-- A second look behind what is there already. -/
theorem and_drop_append {a f : List TokenTree → Bool} {n : Nat}
    (ha : ∀ ts, a (ts ++ ext) = a ts) (hn : ∀ ts, a ts = true → n ≤ ts.length)
    (hf : ∀ ts, f (ts ++ ext) = f ts) :
    (a (ts ++ ext) && f ((ts ++ ext).drop n)) = (a ts && f (ts.drop n)) := by
  rw [ha]
  cases h : a ts with
  | false => rfl
  | true => rw [List.drop_append_of_le_length (hn ts h), hf]

/-- A minus sign in front of a number is the only lookahead of two trees. -/
theorem literal_append (hext : EndsValue ext) : literal (ts ++ ext) = literal ts := by
  -- a leading sign other than a minus starts no literal
  have hother {c : Char} (hc : c ≠ '-') (pos : Position) (joint : Bool) (ts : List TokenTree) :
      literal (.leaf pos (.punct c joint) :: ts) = false := by
    unfold literal
    split
    · next heq => cases heq
    · next heq => cases heq
    · next heq =>
      cases heq
      exact absurd rfl hc
    · rfl
  obtain rfl | ⟨pos, joint, rest, rfl⟩ := hext
  · rw [List.append_nil]
  · -- behind a minus sign a literal may follow, and a comma is none
    rcases ts with _ | ⟨⟨_, _ | _ | _ | ⟨c, _⟩⟩ | _, ts⟩
    case cons.leaf.punct =>
      by_cases hc : c = '-'
      · subst hc
        rcases ts with _ | ⟨⟨_, _ | _ | _ | _⟩ | _, ts⟩ <;> rfl
      · rw [List.cons_append, hother hc, hother hc]
    all_goals rfl

theorem pathStart_append (hext : EndsValue ext) : pathStart (ts ++ ext) = pathStart ts := by
  rw [pathStart, pathStart, ident_append hext, keywords_append hext, op_append hext (by decide)]

section Second

variable {f : List TokenTree → Bool} (hf : ∀ ts, f (ts ++ ext) = f ts)

include hf

theorem keyword_drop_append (hext : EndsValue ext) :
    (keyword s (ts ++ ext) && f ((ts ++ ext).drop 1)) = (keyword s ts && f (ts.drop 1)) :=
  and_drop_append (fun _ => keyword_append hext)
    (fun ts h => List.length_pos_iff.mpr fun hnil => by rw [hnil] at h; cases h) hf

theorem ident_drop_append (hext : EndsValue ext) :
    (ident (ts ++ ext) && f ((ts ++ ext).drop 1)) = (ident ts && f (ts.drop 1)) :=
  and_drop_append (fun _ => ident_append hext)
    (fun ts h => List.length_pos_iff.mpr fun hnil => by rw [hnil] at h; cases h) hf

theorem lifetime_drop_append (hext : EndsValue ext) :
    (lifetime (ts ++ ext) && f ((ts ++ ext).drop 1)) = (lifetime ts && f (ts.drop 1)) :=
  and_drop_append (fun _ => lifetime_append hext)
    (fun ts h => List.length_pos_iff.mpr fun hnil => by rw [hnil] at h; cases h) hf

theorem colons_drop_append (hext : EndsValue ext) :
    (op "::" (ts ++ ext) && f ((ts ++ ext).drop 2)) = (op "::" ts && f (ts.drop 2)) :=
  and_drop_append (fun _ => op_append hext (by decide)) (fun _ => length_of_op) hf

end Second

end Ahead

/-! ### Two parsers that read alike -/

namespace Parser

variable {α β σ : Type} {ext ts : List TokenTree} {strict : α → Prop} {p p' q q' : Parser α}

/-- What `p` reads at `ts` is what `p'` reads at `ts` in front of `ext`, and something has been read
if the result is `strict`. -/
def Alike (ext ts : List TokenTree) (strict : α → Prop) (p p' : Parser α) : Prop :=
  ∀ l a c', Reads p ⟨ts, l⟩ a c' →
    (∃ taken, taken ++ c'.trees = ts ∧ (strict a → taken ≠ [])) ∧
      Reads p' ⟨ts ++ ext, l⟩ a ⟨c'.trees ++ ext, c'.leftover⟩

/-- What `p` reads anywhere it reads in front of `ext` as well. -/
def Detached (ext : List TokenTree) (strict : α → Prop) (p : Parser α) : Prop :=
  ∀ ts, Alike ext ts strict p p

/-- `p` reads alone as in front of `ext`. -/
abbrev Standalone (ext : List TokenTree) (p : Parser α) : Prop :=
  Detached ext (fun _ => False) p

/-- Moreover, `p` reads at least one tree. -/
abbrev Takes (ext : List TokenTree) (p : Parser α) : Prop :=
  Detached ext (fun _ => True) p

/-- Moreover, `p` reads at least one tree if it wants to go on. -/
abbrev Steps (ext : List TokenTree) (p : Parser (σ × Bool)) : Prop :=
  Detached ext (fun r => r.2 = true) p

/-! #### Rules -/

theorem alike_pure {a : α} (h : ¬ strict a) : Alike ext ts strict (pure a) (pure a) := by
  intro l x c' hread
  obtain ⟨rfl, rfl⟩ := reads_pure_iff.mp hread
  exact ⟨⟨[], rfl, fun hstrict => absurd hstrict h⟩, reads_pure⟩

theorem alike_of_not_reads (h : ∀ l a c', ¬ Reads p ⟨ts, l⟩ a c') : Alike ext ts strict p p' :=
  fun l a c' hread => absurd hread (h l a c')

theorem alike_fail {text : String} : Alike ext ts strict (fail text) p' :=
  alike_of_not_reads fun _ _ _ => not_reads_fail

theorem alike_failWith {text : String} : Alike ext ts strict (failWith text) p' :=
  alike_of_not_reads fun _ _ _ => not_reads_throw

theorem alike_failWith_bind {text : String} {f : β → Parser α} :
    Alike ext ts strict (failWith text >>= f) p' :=
  alike_of_not_reads fun _ _ _ => not_reads_bind fun _ _ => not_reads_throw

theorem alike_fail_bind {text : String} {f : β → Parser α} :
    Alike ext ts strict (fail text >>= f) p' :=
  alike_of_not_reads fun _ _ _ => not_reads_bind fun _ _ => not_reads_fail

theorem Alike.weaken {strict' : α → Prop} (h : Alike ext ts strict p p')
    (hs : ∀ a, strict' a → strict a) : Alike ext ts strict' p p' := by
  intro l a c' hread
  obtain ⟨⟨taken, heq, hne⟩, hread'⟩ := h l a c' hread
  exact ⟨⟨taken, heq, fun hstrict => hne (hs a hstrict)⟩, hread'⟩

/-- One reads on where the other does. The second part may have read something. -/
theorem Alike.bind {first : β → Prop} {p p' : Parser β} {f f' : β → Parser α}
    (hp : Alike ext ts first p p')
    (hf : ∀ b mid, mid <:+ ts → Alike ext mid strict (f b) (f' b)) :
    Alike ext ts strict (p >>= f) (p' >>= f') := by
  intro l a c' hread
  obtain ⟨b, mid, hone, hrest⟩ := reads_bind_iff.mp hread
  obtain ⟨⟨taken, heq, -⟩, hone'⟩ := hp l b mid hone
  obtain ⟨⟨more, heq', hne⟩, hrest'⟩ := hf b mid.trees ⟨taken, heq⟩ mid.leftover a c' hrest
  refine ⟨⟨taken ++ more, by rw [List.append_assoc, heq', heq], fun hstrict => ?_⟩,
    hone'.bind hrest'⟩
  exact List.append_ne_nil_of_right_ne_nil _ (hne hstrict)

/-- One reads on where the other does. The first part has read something. -/
theorem Alike.takes_bind {p p' : Parser β} {f f' : β → Parser α}
    (hp : Alike ext ts (fun _ => True) p p')
    (hf : ∀ b mid, mid <:+ ts → Alike ext mid (fun _ => False) (f b) (f' b)) :
    Alike ext ts strict (p >>= f) (p' >>= f') := by
  intro l a c' hread
  obtain ⟨b, mid, hone, hrest⟩ := reads_bind_iff.mp hread
  obtain ⟨⟨taken, heq, hne⟩, hone'⟩ := hp l b mid hone
  obtain ⟨⟨more, heq', -⟩, hrest'⟩ := hf b mid.trees ⟨taken, heq⟩ mid.leftover a c' hrest
  refine ⟨⟨taken ++ more, by rw [List.append_assoc, heq', heq], fun _ => ?_⟩, hone'.bind hrest'⟩
  exact List.append_ne_nil_of_left_ne_nil (hne trivial) _

theorem alike_look {f f' : List TokenTree → Parser α}
    (h : Alike ext ts strict (f ts) (f' (ts ++ ext))) :
    Alike ext ts strict (look >>= f) (look >>= f') := fun l a c' hread =>
  (h l a c' (reads_look_bind_iff.mp hread)).imp_right reads_look_bind_iff.mpr

theorem alike_ite {d : Prop} [Decidable d] (hp : d → Alike ext ts strict p p')
    (hq : ¬ d → Alike ext ts strict q q') :
    Alike ext ts strict (if d then p else q) (if d then p' else q') := by
  split
  · next hd => exact hp hd
  · next hd => exact hq hd

theorem detached_pure {a : α} (h : ¬ strict a) : Detached ext strict (pure a) :=
  fun _ => alike_pure h

theorem standalone_pure (a : α) : Standalone ext (pure a) :=
  detached_pure not_false

theorem steps_stop (s : σ) : Steps ext (pure (s, false)) :=
  detached_pure Bool.false_ne_true

theorem detached_fail {text : String} : Detached ext strict (fail text) :=
  fun _ => alike_fail

theorem detached_failWith_bind {text : String} {f : β → Parser α} :
    Detached ext strict (failWith text >>= f) :=
  fun _ => alike_failWith_bind

theorem detached_fail_bind {text : String} {f : β → Parser α} :
    Detached ext strict (fail text >>= f) :=
  fun _ => alike_fail_bind

theorem Detached.weaken {strict' : α → Prop} (h : Detached ext strict p)
    (hs : ∀ a, strict' a → strict a) : Detached ext strict' p :=
  fun ts => (h ts).weaken hs

theorem Detached.standalone (h : Detached ext strict p) : Standalone ext p :=
  h.weaken fun _ => False.elim

theorem Detached.bind {first : β → Prop} {p : Parser β} {f : β → Parser α}
    (hp : Detached ext first p) (hf : ∀ b, Detached ext strict (f b)) :
    Detached ext strict (p >>= f) :=
  fun ts => (hp ts).bind fun b mid _ => hf b mid

theorem Takes.bind {p : Parser β} {f : β → Parser α} (hp : Takes ext p)
    (hf : ∀ b, Standalone ext (f b)) : Detached ext strict (p >>= f) :=
  fun ts => (hp ts).takes_bind fun b mid _ => hf b mid

/-- A look ahead is followed in the same way on both sides. -/
theorem detached_look {f : List TokenTree → Parser α} (hf : ∀ ts, f (ts ++ ext) = f ts)
    (h : ∀ ts, Detached ext strict (f ts)) : Detached ext strict (look >>= f) := by
  intro ts
  refine alike_look ?_
  rw [hf]
  exact h ts ts

theorem detached_ite {d : Prop} [Decidable d] (hp : d → Detached ext strict p)
    (hq : ¬ d → Detached ext strict q) : Detached ext strict (if d then p else q) :=
  fun ts => alike_ite (fun hd => hp hd ts) fun hd => hq hd ts

/-- Rounds that go on only after they have read something. There are more of them than trees, so a
few more make no difference. -/
theorem alike_iterate {step : σ → Parser (σ × Bool)} (h : ∀ s, Steps ext (step s))
    {fuel fuel' : Nat} {s : σ} {ts : List TokenTree} (hfuel : ts.length < fuel)
    (hle : fuel ≤ fuel') :
    Alike ext ts (fun _ => False) (iterate step fuel s) (iterate step fuel' s) := by
  induction fuel generalizing fuel' s ts with
  | zero => exact absurd hfuel (Nat.not_lt_zero _)
  | succ fuel ih =>
    intro l a c' hread
    obtain ⟨fuel', rfl⟩ : ∃ k, fuel' = k + 1 := ⟨fuel' - 1, by omega⟩
    rw [iterate] at hread ⊢
    obtain ⟨⟨s', again⟩, mid, hone, hrest⟩ := reads_bind_iff.mp hread
    -- a turn takes what it takes of the longer list as well
    obtain ⟨⟨taken, heq, hne⟩, hone'⟩ := h s ts l _ mid hone
    cases again with
    | false =>
      obtain ⟨rfl, rfl⟩ := reads_pure_iff.mp hrest
      exact ⟨⟨taken, heq, False.elim⟩, hone'.bind reads_pure⟩
    | true =>
      -- a turn that goes on has taken something, so the fuel of the shorter list is enough for the
      -- rest
      have hmid : mid.trees.length < fuel := by
        have := List.length_pos_iff.mpr (hne rfl)
        have := congrArg List.length heq
        rw [List.length_append] at this
        omega
      obtain ⟨⟨more, heq', -⟩, hrest'⟩ :=
        ih hmid (Nat.le_of_succ_le_succ hle) mid.leftover a c' hrest
      exact ⟨⟨taken ++ more, by rw [List.append_assoc, heq', heq], False.elim⟩,
        hone'.bind hrest'⟩

/-- A repetition that goes on only after it has read something. -/
theorem detached_loop {step : σ → Parser (σ × Bool)} (h : ∀ s, Steps ext (step s)) (s : σ) :
    Standalone ext (loop s step) := by
  intro ts
  unfold loop
  refine alike_look (alike_iterate h (Nat.lt_succ_self _) ?_)
  rw [List.length_append]
  omega

/-! #### Tokens and groups -/

/-- What is read is the first tree. -/
theorem takes_of_front (hnil : ∀ l a c', ¬ Reads p ⟨[], l⟩ a c')
    (hcons : ∀ t ts l a c', Reads p ⟨t :: ts, l⟩ a c' →
      c'.trees = ts ∧ ∀ ts', Reads p ⟨t :: ts', l⟩ a ⟨ts', c'.leftover⟩) : Takes ext p := by
  intro ts l a c' hread
  cases ts with
  | nil => exact absurd hread (hnil l a c')
  | cons t ts =>
    obtain ⟨rfl, hall⟩ := hcons t ts l a c' hread
    exact ⟨⟨[t], rfl, fun _ => List.cons_ne_nil _ _⟩, hall _⟩

theorem takes_anyIdent : Takes ext anyIdent := by
  refine takes_of_front (fun l a c' h => by cases h) fun t ts l a c' h => ?_
  rcases t with ⟨pos, _ | _ | _ | _⟩ | ⟨pos, d, body⟩
  all_goals cases h
  exact ⟨rfl, fun _ => rfl⟩

theorem takes_lifetime : Takes ext lifetime := by
  refine takes_of_front (fun l a c' h => by cases h) fun t ts l a c' h => ?_
  rcases t with ⟨pos, _ | _ | _ | _⟩ | ⟨pos, d, body⟩
  all_goals cases h
  exact ⟨rfl, fun _ => rfl⟩

theorem takes_rawGroup : Takes ext rawGroup := by
  refine takes_of_front (fun l a c' h => by cases h) fun t ts l a c' h => ?_
  rcases t with ⟨pos, t⟩ | ⟨pos, d, body⟩
  all_goals cases h
  exact ⟨rfl, fun _ => rfl⟩

theorem takes_ident : Takes ext ident := by
  refine takes_of_front (fun l a c' h => by cases h) fun t ts l a c' h => ?_
  -- of all tokens only an identifier may be read
  rcases t with ⟨pos, t | _ | _ | _⟩ | ⟨pos, d, body⟩
  case leaf.ident =>
    unfold ident at h ⊢
    rw [reads_look_bind_iff] at h
    obtain ⟨-, h⟩ | ⟨hkeyword, h⟩ := h.of_ite
    · exact absurd h not_reads_fail
    · cases h
      -- the token in front decides, so it is read alike whatever follows
      refine ⟨rfl, fun ts' => reads_look_bind_iff.mpr ?_⟩
      dsimp only
      rw [if_neg hkeyword]
      rfl
  all_goals cases h

theorem takes_keyword (s : String) : Takes ext (keyword s) := by
  refine takes_of_front (fun l a c' h => by cases h) fun t ts l a c' h => ?_
  rcases t with ⟨pos, t | _ | _ | _⟩ | ⟨pos, d, body⟩
  -- only an identifier can be the keyword
  case leaf.ident =>
    unfold keyword at h ⊢
    rw [reads_look_bind_iff] at h
    obtain ⟨heq, h⟩ | ⟨-, h⟩ := h.of_ite
    · cases h
      refine ⟨rfl, fun ts' => reads_look_bind_iff.mpr ?_⟩
      dsimp only
      rw [if_pos heq]
      rfl
    · exact absurd h not_reads_fail
  all_goals cases h

/-- A group is read with its content, and the first tokens left over in a group are remembered. -/
theorem reads_inGroup_iff {d : Delimiter} {r : Position × α} {c c' : Cursor} :
    Reads (inGroup d p) c r c' ↔ ∃ body rest l inner, c = ⟨.group r.1 d body :: rest, l⟩ ∧
      Reads p ⟨body, l⟩ r.2 inner ∧
      c' = ⟨rest, inner.leftover.or (if inner.trees.isEmpty then none else some d)⟩ := by
  unfold inGroup
  rw [reads_look_bind_iff]
  constructor
  · intro h
    -- the group is the front token, and the cursor moves into it and out again
    obtain ⟨_ | ⟨t | ⟨pos, e, body⟩, ts⟩, l⟩ := c
    · cases h
    · cases h
    · obtain ⟨rfl, h⟩ | ⟨-, h⟩ := h.of_ite
      · obtain ⟨_, _, hget, h⟩ := reads_bind_iff.mp h
        cases hget
        obtain ⟨_, _, hset, h⟩ := reads_bind_iff.mp h
        cases hset
        obtain ⟨x, ⟨ts', l'⟩, hp, h⟩ := reads_bind_iff.mp h
        cases h
        exact ⟨body, ts, l, ⟨ts', l'⟩, rfl, hp, by cases l' <;> rfl⟩
      · exact absurd h not_reads_fail
  · obtain ⟨pos, a⟩ := r
    rintro ⟨body, rest, l, ⟨ts', l'⟩, rfl, hp, rfl⟩
    dsimp only
    rw [if_pos rfl]
    exact Reads.bind rfl (Reads.bind rfl (hp.bind (by cases l' <;> rfl)))

/-- The content of a group is read whatever stands behind the group. -/
theorem takes_inGroup (d : Delimiter) (p : Parser α) : Takes ext (inGroup d p) := by
  intro ts l a c' h
  obtain ⟨body, rest, _, inner, heq, hp, rfl⟩ := reads_inGroup_iff.mp h
  cases heq
  exact ⟨⟨[_], rfl, fun _ => List.cons_ne_nil _ _⟩,
    reads_inGroup_iff.mpr ⟨body, rest ++ ext, l, inner, rfl, hp, rfl⟩⟩

theorem takes_groupOf (d : Delimiter) (p : Parser (List Code)) : Takes ext (groupOf d p) :=
  (takes_inGroup d p).bind fun _ => standalone_pure _

theorem takes_op {s : String} (hs : s ≠ "") : Takes ext (op s) := by
  intro ts l a c' h
  unfold op at h ⊢
  rw [reads_look_bind_iff] at h
  dsimp only at h
  split at h
  · next rest hrest =>
    cases h
    obtain ⟨taken, rfl, hlen, hall⟩ := Ahead.exists_taken_of_dropOp? hrest
    -- an operator with a character takes a token
    have htaken : taken ≠ [] := fun hnil => hs (String.toList_eq_nil_iff.mp
      (List.length_eq_zero_iff.mp (hlen.symm.trans (congrArg List.length hnil))))
    refine ⟨⟨taken, rfl, fun _ => htaken⟩, reads_look_bind_iff.mpr ?_⟩
    dsimp only
    rw [List.append_assoc, hall]
    obtain ⟨t, taken, rfl⟩ := List.exists_cons_of_ne_nil htaken
    rfl
  · cases h

section Optional

variable (hext : EndsValue ext)

include hext

theorem standalone_op? {s : String} (hs : s ≠ "") (hcomma : ',' ∉ s.toList) :
    Standalone ext (op? s) :=
  detached_look (fun ts => by rw [Ahead.op_append hext hcomma]) fun _ =>
    detached_ite (fun _ => (takes_op hs).bind fun _ => standalone_pure _) fun _ => standalone_pure _

theorem standalone_keyword? (s : String) : Standalone ext (keyword? s) :=
  detached_look (fun ts => by rw [Ahead.keyword_append hext]) fun _ =>
    detached_ite (fun _ => (takes_keyword s).bind fun _ => standalone_pure _) fun _ =>
      standalone_pure _

theorem standalone_lifetime? : Standalone ext lifetime? :=
  detached_look (fun ts => by rw [Ahead.lifetime_append hext]) fun _ =>
    detached_ite (fun _ => takes_lifetime.bind fun _ => standalone_pure _) fun _ =>
      standalone_pure _

theorem takes_literal : Takes ext literal := by
  intro ts l a c' h
  unfold literal at h ⊢
  rw [reads_look_bind_iff] at h ⊢
  dsimp only at h ⊢
  -- whether a literal starts here does not change with what follows
  rw [Ahead.literal_append hext]
  obtain ⟨-, h⟩ | ⟨hahead, h⟩ := h.of_ite
  · exact absurd h not_reads_fail
  rw [if_neg hahead]
  split at h
  · -- a minus sign with its number
    next pos joint t rest =>
    cases h
    exact ⟨⟨[_, _], rfl, fun _ => List.cons_ne_nil _ _⟩, rfl⟩
  · next t rest hminus _ =>
    cases h
    refine ⟨⟨[t], rfl, fun _ => List.cons_ne_nil _ _⟩, ?_⟩
    rw [List.cons_append]
    split
    · next pos joint u rest' heq =>
      -- a minus sign at the end is no literal
      obtain ⟨rfl, heq⟩ := List.cons_eq_cons.mp heq
      cases rest with
      | nil => exact absurd rfl hahead
      | cons v rest => exact (hminus pos joint v rest rfl rfl).elim
    · next heq =>
      cases heq
      rfl
    · next heq => cases heq
  · exact absurd h not_reads_fail

end Optional

/-- Both go on at the same place. -/
theorem alike_moveTo {rest : List TokenTree} (h : rest <:+ ts) :
    Alike ext ts (fun _ => False) (moveTo rest) (moveTo (rest ++ ext)) := by
  intro l a c' hread
  cases hread
  obtain ⟨taken, heq⟩ := h
  exact ⟨⟨taken, heq, False.elim⟩, rfl⟩

/-- The trees read since a place that lies ahead of both. -/
theorem alike_readSince {start : List TokenTree} (h : ts <:+ start) :
    Alike ext ts (fun _ => False) (readSince start) (readSince (start ++ ext)) := by
  intro l a c' hread
  unfold readSince at hread ⊢
  rw [reads_look_bind_iff] at hread ⊢
  obtain ⟨rfl, rfl⟩ := reads_pure_iff.mp hread
  refine ⟨⟨[], rfl, False.elim⟩, reads_pure_iff.mpr ⟨?_, rfl⟩⟩
  have hlen := h.length_le
  rw [List.length_append, List.length_append, Nat.add_sub_add_right,
    List.take_append_of_le_length (Nat.sub_le _ _)]

end Parser

open FieldGraft.Parser

/-! ### Attributes and blocks -/

namespace Grammar

variable {g : Grammar} {ext ts : List TokenTree}

theorem takes_outerAttribute : Takes ext g.outerAttribute :=
  (takes_op (by decide)).bind fun _ => (takes_inGroup _ _).standalone.bind fun _ =>
    standalone_pure _

theorem standalone_outerAttributeCode (hext : EndsValue ext) :
    Standalone ext g.outerAttributeCode := by
  refine Detached.bind (Detached.bind (detached_loop (fun done => ?_) _) fun _ =>
    standalone_pure _) fun _ => standalone_pure _
  refine detached_look (fun ts => by rw [Ahead.op_append hext (by decide)]) fun ts => ?_
  refine detached_ite (fun _ => ?_) fun _ => steps_stop _
  exact takes_outerAttribute.bind fun _ => standalone_pure _

theorem takes_block (inner : Bool) : Takes ext (g.block inner) :=
  takes_groupOf _ _

theorem takes_blockExpr : Takes ext g.blockExpr :=
  (takes_block true).bind fun _ => standalone_pure _

/-- Code that is kept as written, from a place that lies ahead of both. -/
theorem alike_verbatimSince {start : List TokenTree} (h : ts <:+ start) :
    Alike ext ts (fun _ => False) (verbatimSince start) (verbatimSince (start ++ ext)) :=
  (alike_readSince h).bind fun _ _ _ => alike_pure not_false

end Grammar

end FieldGraft
