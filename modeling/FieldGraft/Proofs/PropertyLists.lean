import FieldGraft.Annotation
import FieldGraft.Proofs.ReadingAlone

/-!
# Lists separated by commas

The arguments of an annotation, and of a field in it, are a list of items with commas between them.
The reader goes through such a list with what the items before have left behind.

* `Annotations.Listed` — items that are read one after the other.
* `Annotations.reads_propertyList_iff` — the reader reads exactly the lists, and folds their items.
* `Annotations.Separated.listed` — items that are each read alone can be put together in any order.
* `Annotations.Flawed.leftover_ne_none` — one malformed item spoils the list.
-/

namespace FieldGraft

namespace Annotations

open FieldGraft.Parser

/-- A comma. -/
def comma (pos : Position) (joint : Bool) : TokenTree :=
  .leaf pos (.punct ',' joint)

/-! ### Reading everything -/

theorem runAll_eq_ok_iff {α : Type} {p : Parser α} {ts : List TokenTree} {a : α} :
    runAll p ts = .ok a ↔ Reads p ⟨ts, none⟩ a ⟨[], none⟩ := by
  unfold runAll Reads
  -- a parser reads the whole list if it succeeds with neither trees nor a delimiter left
  cases p.run ⟨ts, none⟩ with
  | error e =>
    constructor
    · rintro ⟨⟩
    · rintro ⟨⟩
  | ok r =>
    obtain ⟨x, rest, l⟩ := r
    cases l with
    | some d =>
      constructor
      · rintro ⟨⟩
      · rintro ⟨⟩
    | none =>
      cases rest with
      | nil =>
        constructor
        · rintro ⟨⟩
          rfl
        · rintro ⟨⟩
          rfl
      | cons t rest =>
        constructor
        · rintro ⟨⟩
        · rintro ⟨⟩

/-- What is read at a place ends at one place. -/
theorem end_unique_of_reads {α : Type} {p : Parser α} {c c₁ c₂ : Cursor} {a b : α}
    (ha : Reads p c a c₁) (hb : Reads p c b c₂) : c₁ = c₂ :=
  (Prod.mk.inj (Except.ok.inj (ha.symm.trans hb))).2

variable {ι σ : Type}

/-! ### Lists that are read -/

/-- Items are read one after the other. A comma stands between two of them, and one may stand behind
the last one. -/
inductive Listed (R : Cursor → ι → Cursor → Prop) : Cursor → List ι → Cursor → Prop where
  | last {c : Cursor} {x : ι} {l : Option Delimiter} (hx : R c x ⟨[], l⟩) : Listed R c [x] ⟨[], l⟩
  | closed {c : Cursor} {x : ι} {pos : Position} {joint : Bool} {l : Option Delimiter}
      (hx : R c x ⟨[comma pos joint], l⟩) : Listed R c [x] ⟨[], l⟩
  | cons {c c' : Cursor} {x : ι} {xs : List ι} {pos : Position} {joint : Bool}
      {ts : List TokenTree} {l : Option Delimiter} (hx : R c x ⟨comma pos joint :: ts, l⟩)
      (hxs : Listed R ⟨ts, l⟩ xs c') : Listed R c (x :: xs) c'

variable {R : Cursor → ι → Cursor → Prop}

theorem Listed.trees_eq_nil {c c' : Cursor} {xs : List ι} (h : Listed R c xs c') :
    c'.trees = [] := by
  induction h with
  | last => rfl
  | closed => rfl
  | cons _ _ ih => exact ih

/-- `one` reads the items that `R` describes, which are not empty, and adds each of them to a state
by `add`. -/
structure Collects (one : σ → Parser σ) (R : Cursor → ι → Cursor → Prop) (add : σ → ι → σ) :
    Prop where
  reads_iff : ∀ s c s' c', Reads (one s) c s' c' ↔ ∃ x, R c x c' ∧ s' = add s x
  shorter : ∀ {c x c'}, R c x c' → c'.trees.length < c.trees.length

/-- One round of a list: an item, and the comma behind it. -/
def listStep (one : σ → Parser σ) (s : σ) : Parser (σ × Bool) := do
  let s' ← one s
  if ← atEnd then return (s', false)
  let _ ← op ","
  return (s', !(← atEnd))

theorem propertyList_eq (property : σ → Bool × List Word → Parser σ) (start : σ) :
    propertyList property start = loop start (listStep fun s => propertyPath >>= property s) := by
  unfold propertyList listStep
  simp only [bind_assoc]

theorem reads_atEnd_bind_iff {α : Type} {f : Bool → Parser α} {c c' : Cursor} {a : α} :
    Reads (atEnd >>= f) c a c' ↔ Reads (f c.trees.isEmpty) c a c' := by
  unfold atEnd
  rw [bind_assoc, reads_look_bind_iff, pure_bind]

/-- An operator of one character is read where it stands. -/
theorem reads_op_iff {s : String} {d : Char} (hs : s.toList = [d]) {c c' : Cursor} :
    (∃ a, Reads (op s) c a c') ↔
      ∃ pos joint, c = ⟨.leaf pos (.punct d joint) :: c'.trees, c'.leftover⟩ := by
  unfold op
  simp only [reads_look_bind_iff, hs]
  constructor
  · rintro ⟨a, h⟩
    obtain ⟨ts, l⟩ := c
    dsimp only at h
    split at h
    · next rest hrest =>
      cases h
      -- an operator of one character takes one tree, which is that character
      obtain ⟨taken, rfl, hlen, -⟩ := Ahead.exists_taken_of_dropOp? hrest
      obtain ⟨t, rfl⟩ := List.length_eq_one_iff.mp hlen
      rcases t with ⟨pos, _ | _ | _ | ⟨e, joint⟩⟩ | _
      case leaf.punct =>
        rw [List.singleton_append, Ahead.dropOp?] at hrest
        split at hrest
        · next hd => exact ⟨pos, joint, by rw [hd]; rfl⟩
        · cases hrest
      all_goals cases hrest
    · cases h
  · rintro ⟨pos, joint, rfl⟩
    dsimp only
    rw [Ahead.dropOp?, if_pos rfl]
    exact ⟨_, rfl⟩

theorem reads_comma_iff {c c' : Cursor} :
    (∃ a, Reads (op ",") c a c') ↔ ∃ pos joint, c = ⟨comma pos joint :: c'.trees, c'.leftover⟩ :=
  reads_op_iff (d := ',') rfl

section Collects

variable {one : σ → Parser σ} {add : σ → ι → σ}

/-- After an item the list is at its end, or a comma follows. -/
theorem Collects.reads_listStep_iff (h : Collects one R add) {s s' : σ} {again : Bool}
    {c c' : Cursor} : Reads (listStep one s) c (s', again) c' ↔
      ∃ x, s' = add s x ∧ ((again = false ∧ c'.trees = [] ∧ R c x c') ∨
        ∃ pos joint, again = !c'.trees.isEmpty ∧
          R c x ⟨comma pos joint :: c'.trees, c'.leftover⟩) := by
  unfold listStep
  constructor
  · intro hread
    -- to the right: read an item, and then a comma unless the list ends
    obtain ⟨t, mid, hone, hread⟩ := reads_bind_iff.mp hread
    obtain ⟨x, hx, rfl⟩ := (h.reads_iff _ _ _ _).mp hone
    rw [reads_atEnd_bind_iff] at hread
    obtain ⟨hend, hread⟩ | ⟨-, hread⟩ := hread.of_ite
    · obtain ⟨heq, rfl⟩ := reads_pure_iff.mp hread
      cases heq
      exact ⟨x, rfl, .inl ⟨rfl, List.isEmpty_iff.mp hend, hx⟩⟩
    · obtain ⟨a, behind, hcomma, hlast⟩ := reads_bind_iff.mp hread
      obtain ⟨pos, joint, rfl⟩ := reads_comma_iff.mp ⟨a, hcomma⟩
      rw [reads_atEnd_bind_iff] at hlast
      obtain ⟨heq, rfl⟩ := reads_pure_iff.mp hlast
      cases heq
      exact ⟨x, rfl, .inr ⟨pos, joint, rfl, hx⟩⟩
  · rintro ⟨x, rfl, ⟨rfl, hend, hx⟩ | ⟨pos, joint, rfl, hx⟩⟩
    · -- back: at the end of the list no comma is asked for
      refine ((h.reads_iff _ _ _ _).mpr ⟨x, hx, rfl⟩).bind (reads_atEnd_bind_iff.mpr ?_)
      rw [hend]
      exact reads_pure
    · refine ((h.reads_iff _ _ _ _).mpr ⟨x, hx, rfl⟩).bind (reads_atEnd_bind_iff.mpr ?_)
      obtain ⟨a, hcomma⟩ := reads_comma_iff.mpr ⟨pos, joint, rfl⟩
      exact hcomma.bind (reads_atEnd_bind_iff.mpr reads_pure)

/-- No list starts at the end. -/
theorem Collects.not_listed_nil (h : Collects one R add) {l : Option Delimiter} {xs : List ι}
    {c' : Cursor} : ¬ Listed R ⟨[], l⟩ xs c' := by
  have hno {x : ι} {mid : Cursor} (hx : R ⟨[], l⟩ x mid) : False :=
    Nat.not_lt_zero _ (h.shorter hx)
  intro hlist
  cases hlist with
  | last hx => exact hno hx
  | closed hx => exact hno hx
  | cons hx => exact hno hx

/-- The rounds go through the items of a list. There are more rounds than trees, and each item takes
at least one tree. -/
theorem Collects.reads_iterate_iff (h : Collects one R add) {fuel : Nat} {s s' : σ} {c c' : Cursor}
    (hfuel : c.trees.length < fuel) : Reads (iterate (listStep one) fuel s) c s' c' ↔
      ∃ xs, Listed R c xs c' ∧ s' = xs.foldl add s := by
  induction fuel generalizing s c with
  | zero => exact absurd hfuel (Nat.not_lt_zero _)
  | succ fuel ih =>
    -- an item and its comma shorten what is read, so the fuel lasts
    have hlt {x : ι} {pos : Position} {joint : Bool} {ts : List TokenTree} {l : Option Delimiter}
        (hx : R c x ⟨comma pos joint :: ts, l⟩) : ts.length < fuel := by
      have := h.shorter hx
      rw [List.length_cons] at this
      omega
    rw [iterate, reads_bind_iff]
    constructor
    · rintro ⟨⟨t, again⟩, ⟨ts, l⟩, hone, hrest⟩
      obtain ⟨x, rfl, ⟨rfl, hend, hx⟩ | ⟨pos, joint, rfl, hx⟩⟩ := h.reads_listStep_iff.mp hone
      · -- no comma follows
        obtain ⟨rfl, rfl⟩ := reads_pure_iff.mp hrest
        cases hend
        exact ⟨[x], .last hx, rfl⟩
      · -- a comma follows, and behind it nothing or more items
        cases ts with
        | nil =>
          obtain ⟨rfl, rfl⟩ := reads_pure_iff.mp hrest
          exact ⟨[x], .closed hx, rfl⟩
        | cons u ts =>
          obtain ⟨xs, hxs, rfl⟩ := (ih (hlt hx)).mp hrest
          exact ⟨x :: xs, .cons hx hxs, rfl⟩
    · rintro ⟨xs, hlist, rfl⟩
      cases hlist with
      -- back: a list is read item by item, as its derivation is built
      | last hx =>
        exact ⟨_, _, h.reads_listStep_iff.mpr ⟨_, rfl, .inl ⟨rfl, rfl, hx⟩⟩, reads_pure⟩
      | @closed _ x pos joint l hx =>
        exact ⟨(add s x, false), ⟨[], l⟩,
          h.reads_listStep_iff.mpr ⟨_, rfl, .inr ⟨_, _, rfl, hx⟩⟩, reads_pure⟩
      | @cons _ _ x xs pos joint ts l hx hxs =>
        have hne : (!ts.isEmpty) = true := by
          cases ts with
          | nil => exact absurd hxs h.not_listed_nil
          | cons => rfl
        refine ⟨(add s x, true), ⟨ts, l⟩,
          h.reads_listStep_iff.mpr ⟨_, rfl, .inr ⟨_, _, hne.symm, hx⟩⟩, ?_⟩
        exact (ih (hlt hx)).mpr ⟨xs, hxs, rfl⟩

/-- **The reader reads exactly the lists**, and folds their items. -/
theorem reads_propertyList_iff {property : σ → Bool × List Word → Parser σ}
    (h : Collects (fun s => propertyPath >>= property s) R add) {s s' : σ} {c c' : Cursor} :
    Reads (propertyList property s) c s' c' ↔ ∃ xs, Listed R c xs c' ∧ s' = xs.foldl add s := by
  rw [propertyList_eq]
  unfold loop
  rw [reads_look_bind_iff]
  exact h.reads_iterate_iff (Nat.lt_succ_self _)

/-- What is read at a place ends at one place. -/
theorem Collects.end_unique (h : Collects one R add) (s : σ) {c c₁ c₂ : Cursor} {x y : ι}
    (hx : R c x c₁) (hy : R c y c₂) : c₁ = c₂ := by
  exact end_unique_of_reads ((h.reads_iff s _ _ _).mpr ⟨x, hx, rfl⟩)
    ((h.reads_iff s _ _ _).mpr ⟨y, hy, rfl⟩)

theorem Collects.listed_end_unique (h : Collects one R add) (s : σ) {c c₁ c₂ : Cursor}
    {xs ys : List ι} (hxs : Listed R c xs c₁) (hys : Listed R c ys c₂) : c₁ = c₂ := by
  have hfuel := Nat.lt_succ_self c.trees.length
  exact end_unique_of_reads ((h.reads_iterate_iff (s := s) hfuel).mpr ⟨xs, hxs, rfl⟩)
    ((h.reads_iterate_iff (s := s) hfuel).mpr ⟨ys, hys, rfl⟩)

end Collects

/-! ### Items put together -/

/-- Items separated by commas; one comma may stand behind the last one. -/
inductive Separated (P : ι → List TokenTree → Prop) : List ι → List TokenTree → Prop where
  | last {x : ι} {v : List TokenTree} (hx : P x v) : Separated P [x] v
  | closed {x : ι} {v : List TokenTree} {pos : Position} {joint : Bool} (hx : P x v) :
      Separated P [x] (v ++ [comma pos joint])
  | cons {x : ι} {v : List TokenTree} {pos : Position} {joint : Bool} {xs : List ι}
      {ts : List TokenTree} (hx : P x v) (hxs : Separated P xs ts) :
      Separated P (x :: xs) (v ++ comma pos joint :: ts)

theorem endsValue_comma {pos : Position} {joint : Bool} {ts : List TokenTree} :
    EndsValue (comma pos joint :: ts) :=
  .inr ⟨pos, joint, ts, rfl⟩

/-- Items that are read in front of a comma are read as a list. -/
theorem Separated.listed {P : ι → List TokenTree → Prop}
    (hP : ∀ x v, P x v → ∀ ext l, EndsValue ext → R ⟨v ++ ext, l⟩ x ⟨ext, l⟩) {xs : List ι}
    {ts : List TokenTree} (h : Separated P xs ts) (l : Option Delimiter) :
    Listed R ⟨ts, l⟩ xs ⟨[], l⟩ := by
  induction h with
  | @last x v hx =>
    have hread := hP x v hx [] l (.inl rfl)
    rw [List.append_nil] at hread
    exact .last hread
  | closed hx => exact .closed (hP _ _ hx _ l endsValue_comma)
  | cons hx _ ih => exact .cons (hP _ _ hx _ l endsValue_comma) ih

/-! ### Malformed items -/

/-- What stands behind an item that is not the problem: nothing, or a comma and a list. -/
def Completes (R : Cursor → ι → Cursor → Prop) (ts : List TokenTree) : Prop :=
  ts = [] ∨ ∃ pos joint rest, ts = comma pos joint :: rest ∧
    (rest = [] ∨ ∃ xs, ∀ l, Listed R ⟨rest, l⟩ xs ⟨[], l⟩)

/-- One item of a list is malformed: no item is read there up to a comma or the end, unless one that
leaves tokens over in a group and whose successors are well formed. -/
inductive Flawed (R : Cursor → ι → Cursor → Prop) : Cursor → Prop where
  | here {c : Cursor} (h : ∀ x c', R c x c' → EndsValue c'.trees →
      c'.leftover ≠ none ∧ Completes R c'.trees) : Flawed R c
  | later {c : Cursor} {x : ι} {pos : Position} {joint : Bool} {t : TokenTree}
      {ts : List TokenTree} {l : Option Delimiter} (hx : R c x ⟨comma pos joint :: t :: ts, l⟩)
      (hrest : Flawed R ⟨t :: ts, l⟩) : Flawed R c

/-- **One malformed item spoils the list**: it is not read, or not all of it. -/
theorem Flawed.leftover_ne_none {one : σ → Parser σ} {add : σ → ι → σ}
    (hone : Collects one R add) (s : σ) {c c' : Cursor} {xs : List ι} (h : Flawed R c)
    (hlist : Listed R c xs c') : c'.leftover ≠ none := by
  induction h generalizing xs with
  | @here c h =>
    -- the first item is read up to something that is left over, whatever comes next
    cases hlist with
    | last hx => exact (h _ _ hx (.inl rfl)).1
    | closed hx => exact (h _ _ hx endsValue_comma).1
    | @cons _ _ x xs pos joint ts l hx hxs =>
      obtain ⟨hne, hnil | ⟨pos', joint', rest, heq, hrest⟩⟩ := h _ _ hx endsValue_comma
      · cases hnil
      · obtain ⟨-, rfl⟩ := List.cons_eq_cons.mp heq
        obtain rfl | ⟨ys, hys⟩ := hrest
        · exact absurd hxs hone.not_listed_nil
        · rw [hone.listed_end_unique s hxs (hys l)]
          exact hne
  | @later c x pos joint t ts l hx _ ih =>
    -- an item ends at one place only, so the list goes on where the flaw is
    cases hlist with
    | last hy => cases hone.end_unique s hx hy
    | closed hy => cases hone.end_unique s hx hy
    | cons hy hxs =>
      cases hone.end_unique s hx hy
      exact ih hxs

end Annotations

end FieldGraft
