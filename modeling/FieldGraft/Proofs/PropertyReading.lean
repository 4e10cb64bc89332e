import FieldGraft.Proofs.ExpressionsAlone
import FieldGraft.Proofs.PropertyLists

/-!
# Reading the properties of a requested field

A property is a word, an equals sign and a value (`Annotations.ReadsSetting`), and a field of a list
is a word and a list of properties in parentheses (`Annotations.ReadsEntry`).

* `Annotations.collects_property`, `Annotations.collects_entry` — the readers read just these.
* `Annotations.ReadsSetting.front` — a property is read in front of a comma as it is read alone.
-/

namespace FieldGraft

namespace Annotations

open FieldGraft.Parser

/-! ### Settings -/

/-- One property of a field with its value. -/
inductive Setting where
  | name (text : String)
  | ty (text : TypeText)
  | modifiers (code : Code)
deriving Inhabited

/-- The words that may stand for the property. -/
def Setting.keys : Setting → List String
  | name _ => ["name"]
  | ty _ => ["ty", "type"]
  | modifiers _ => ["modifiers", "modifier"]

/-- Puts in a value. -/
def Properties.set (p : Properties) : Setting → Properties
  | .name s => { p with name := some s }
  | .ty t => { p with ty := some t }
  | .modifiers e => { p with modifiers := some e }

/-- The value of a property is read. -/
inductive ReadsValue (g : Grammar) : Cursor → Setting → Cursor → Prop where
  | name {c c' : Cursor} {s : String} (h : Reads stringLiteral c s c') :
      ReadsValue g c (.name s) c'
  | typeText {c c' : Cursor} {s : String} (hahead : Ahead.stringLiteral c.trees = true)
      (h : Reads stringLiteral c s c') : ReadsValue g c (.ty (.ofText s)) c'
  | typeCode {c c' : Cursor} {e : Code} (hahead : Ahead.stringLiteral c.trees = false)
      (h : Reads g.type c e c') : ReadsValue g c (.ty (.ofCode e)) c'
  | modifiers {c c' : Cursor} {e : Code} (h : Reads g.expr c e c') :
      ReadsValue g c (.modifiers e) c'

/-- An equals sign. -/
def equals (pos : Position) (joint : Bool) : TokenTree :=
  .leaf pos (.punct '=' joint)

/-- A property is read: a word for it, an equals sign and the value. -/
inductive ReadsSetting (g : Grammar) : Cursor → Setting → Cursor → Prop where
  | mk {start pos : Position} {key : String} {x : Setting} {joint : Bool} {ts : List TokenTree}
      {l : Option Delimiter} {c' : Cursor} (hkey : key ∈ x.keys)
      (hvalue : ReadsValue g ⟨ts, l⟩ x c') :
      ReadsSetting g ⟨.leaf start (.ident key) :: equals pos joint :: ts, l⟩ x c'

/-! ### The word in front -/

theorem isName_iff {path : Bool × List Word} {s : String} :
    isName path s = true ↔ ∃ w, path = (false, [w]) ∧ w.text = s := by
  obtain ⟨global, words⟩ := path
  rcases global with _ | _ <;> rcases words with _ | ⟨w, _ | ⟨v, words⟩⟩ <;>
    simp [isName]

/-- A property with two words has one of them. -/
theorem exists_word_of_isName_or {path : Bool × List Word} {s s' : String}
    (h : (isName path s || isName path s') = true) :
    ∃ w, path = (false, [w]) ∧ w.text ∈ [s, s'] := by
  rcases Bool.or_eq_true_iff.mp h with h | h
  · obtain ⟨w, hpath, hw⟩ := isName_iff.mp h
    exact ⟨w, hpath, by rw [hw]; exact List.mem_cons_self⟩
  · obtain ⟨w, hpath, hw⟩ := isName_iff.mp h
    exact ⟨w, hpath, by rw [hw]; exact List.mem_cons_of_mem _ List.mem_cons_self⟩

theorem reads_equals_bind_iff {α : Type} {q : Parser α} {c c' : Cursor} {a : α} :
    Reads (op "=" >>= fun _ => q) c a c' ↔
      ∃ pos joint ts l, c = ⟨equals pos joint :: ts, l⟩ ∧ Reads q ⟨ts, l⟩ a c' := by
  rw [reads_bind_iff]
  constructor
  · -- the sign is one token, and the value starts behind it
    rintro ⟨b, mid, hop, hq⟩
    obtain ⟨pos, joint, rfl⟩ := (reads_op_iff (d := '=') rfl).mp ⟨b, hop⟩
    exact ⟨pos, joint, _, _, rfl, hq⟩
  · rintro ⟨pos, joint, ts, l, rfl, hq⟩
    obtain ⟨b, hop⟩ : ∃ b, Reads (op "=") ⟨equals pos joint :: ts, l⟩ b ⟨ts, l⟩ :=
      (reads_op_iff (d := '=') rfl).mpr ⟨pos, joint, rfl⟩
    exact ⟨b, _, hop, hq⟩

/-- One round of the names of a path. -/
def nameStep (done : List Word) : Parser (List Word × Bool) := do
  if Ahead.op "::" (← look) then
    let _ ← op "::"
    return ((← anyIdent) :: done, true)
  else return (done, false)

theorem eq_of_reads_nameStep (done : List Word) {r : List Word × Bool} {c c' : Cursor}
    (h : Reads (nameStep done) c r c') : (r = (done, false) ∧ c' = c) ∨ ∃ w, r.1 = w :: done := by
  unfold nameStep at h
  rw [reads_look_bind_iff] at h
  obtain ⟨-, h⟩ | ⟨-, h⟩ := h.of_ite
  · obtain ⟨_, _, -, h⟩ := reads_bind_iff.mp h
    obtain ⟨w, _, -, h⟩ := reads_bind_iff.mp h
    obtain ⟨rfl, -⟩ := reads_pure_iff.mp h
    exact .inr ⟨w, rfl⟩
  · exact .inl (reads_pure_iff.mp h)

/-- A path of one name ends behind its name. -/
theorem eq_of_reads_iterate_nameStep {fuel : Nat} {first w : Word} {c c' : Cursor}
    (h : Reads (iterate nameStep (fuel + 1) [first]) c [w] c') : first = w ∧ c' = c := by
  rw [iterate] at h
  obtain ⟨r, mid, hstep, hrest⟩ := reads_bind_iff.mp h
  -- either the loop stops with the first name, or it reads a second one
  obtain ⟨rfl, rfl⟩ | ⟨v, hv⟩ := eq_of_reads_nameStep [first] hstep
  · obtain ⟨heq, rfl⟩ := reads_pure_iff.mp hrest
    exact ⟨(List.singleton_inj.mp heq).symm, rfl⟩
  · -- a path of several names keeps all of them
    have hgrows (done : List Word) (c : Cursor) (r : List Word × Bool) (c' : Cursor)
        (hlong : 2 ≤ done.length) (hread : Reads (nameStep done) c r c') : 2 ≤ r.1.length := by
      obtain ⟨rfl, -⟩ | ⟨u, hu⟩ := eq_of_reads_nameStep done hread
      · exact hlong
      · rw [hu]
        exact hlong.trans (Nat.le_succ _)
    obtain ⟨done, again⟩ := r
    cases hv
    cases again with
    | false => cases (reads_pure_iff.mp hrest).1
    | true =>
      have hlong := invariant_of_reads_iterate hgrows (Nat.le_refl _) hrest
      exact absurd hlong (Nat.not_succ_le_self 1)

theorem reads_propertyPath_word {w : Word} {ts : List TokenTree} {l : Option Delimiter}
    (h : Ahead.op "::" ts = false) : Reads propertyPath ⟨w.tree :: ts, l⟩ (false, [w]) ⟨ts, l⟩ := by
  have hroot : Reads (op? "::") ⟨w.tree :: ts, l⟩ [] ⟨w.tree :: ts, l⟩ := rfl
  have hfirst : Reads anyIdent ⟨w.tree :: ts, l⟩ w ⟨ts, l⟩ := rfl
  -- no separator follows, so the path is one name
  have hstep : Reads (nameStep [w]) ⟨ts, l⟩ ([w], false) ⟨ts, l⟩ := by
    unfold nameStep
    rw [reads_look_bind_iff, if_neg (Bool.eq_false_iff.mp h)]
    exact reads_pure
  have hnames : Reads (loop [w] nameStep) ⟨ts, l⟩ [w] ⟨ts, l⟩ := by
    unfold loop
    rw [reads_look_bind_iff, iterate]
    exact hstep.bind reads_pure
  exact hroot.bind (reads_look_bind_iff.mpr (hfirst.bind (hnames.bind reads_pure)))

/-- Several names are no single name. -/
theorem eq_of_reads_propertyPath {w : Word} {c c' : Cursor}
    (h : Reads propertyPath c (false, [w]) c') : c = ⟨w.tree :: c'.trees, c'.leftover⟩ := by
  unfold propertyPath at h
  obtain ⟨root, start, hroot, h⟩ := reads_bind_iff.mp h
  rw [reads_look_bind_iff] at h
  dsimp only at h
  obtain ⟨-, h⟩ | ⟨-, h⟩ := h.of_ite
  -- with another token in front there is no path at all
  case inr =>
    obtain ⟨-, h⟩ | ⟨-, h⟩ := h.of_ite
    · exact absurd h (not_reads_bind fun _ _ => not_reads_fail)
    · obtain ⟨-, h⟩ | ⟨-, h⟩ := h.of_ite
      · exact absurd h (not_reads_bind fun _ _ => not_reads_fail)
      · exact absurd h (not_reads_bind fun _ _ => not_reads_fail)
  obtain ⟨first, mid, hfirst, h⟩ := reads_bind_iff.mp h
  obtain ⟨names, behind, hnames, h⟩ := reads_bind_iff.mp h
  obtain ⟨heq, rfl⟩ := reads_pure_iff.mp h
  obtain ⟨hglobal, hwords⟩ := Prod.mk.inj heq
  -- a path that is not global was read without a leading `::`
  have hstart : start = c := by
    unfold op? at hroot
    rw [reads_look_bind_iff] at hroot
    obtain ⟨-, hroot⟩ | ⟨-, hroot⟩ := hroot.of_ite
    · obtain ⟨_, _, -, hroot⟩ := reads_bind_iff.mp hroot
      obtain ⟨rfl, -⟩ := reads_pure_iff.mp hroot
      cases hglobal
    · exact (reads_pure_iff.mp hroot).2
  obtain rfl : names = [w] := List.reverse_eq_iff.mp hwords.symm
  unfold loop at hnames
  rw [reads_look_bind_iff] at hnames
  obtain ⟨rfl, rfl⟩ := eq_of_reads_iterate_nameStep hnames
  rw [← hstart]
  exact Grammar.eq_of_reads_anyIdent hfirst

/-! ### Reading a value -/

theorem takes_stringLiteral {ext : List TokenTree} : Takes ext stringLiteral := by
  refine takes_of_front (fun l a c' h => by cases h) fun t ts l a c' h => ?_
  rcases t with ⟨pos, _ | t | _ | _⟩ | ⟨pos, d, body⟩
  -- of all tokens only a literal may be a string
  case leaf.literal =>
    unfold stringLiteral at h ⊢
    rw [reads_look_bind_iff] at h
    dsimp only at h
    obtain ⟨hahead, h⟩ | ⟨-, h⟩ := h.of_ite
    · split at h
      · next v hv =>
        cases h
        refine ⟨rfl, fun ts' => reads_look_bind_iff.mpr ?_⟩
        dsimp only
        rw [if_pos hahead, hv]
        rfl
      · exact absurd h not_reads_fail
    · exact absurd h not_reads_fail
  all_goals cases h

section Values

variable {g : Grammar} {c c' : Cursor} {x : Setting}

/-- A value is read in front of a comma as it is read alone. -/
theorem ReadsValue.alone (hg : ∀ ext, EndsValue ext → g.Alone ext) (h : ReadsValue g c x c') :
    c'.trees <:+ c.trees ∧ ∀ ext, EndsValue ext →
      ReadsValue g ⟨c.trees ++ ext, c.leftover⟩ x ⟨c'.trees ++ ext, c'.leftover⟩ := by
  -- the value is read alike whatever follows it, and with nothing behind it as well
  have hnil : EndsValue [] := .inl rfl
  have htext : Takes [] stringLiteral := takes_stringLiteral
  obtain ⟨ts, l⟩ := c
  cases h with
  -- each kind of value is a text or code, which read alike in front of what may follow
  | name h =>
    obtain ⟨⟨taken, heq, -⟩, -⟩ := htext ts l _ _ h
    exact ⟨⟨taken, heq⟩, fun ext _ => .name (takes_stringLiteral ts l _ _ h).2⟩
  | typeText hahead h =>
    obtain ⟨⟨taken, heq, -⟩, -⟩ := htext ts l _ _ h
    refine ⟨⟨taken, heq⟩, fun ext hext => .typeText ?_ (takes_stringLiteral ts l _ _ h).2⟩
    exact (Ahead.stringLiteral_append hext).trans hahead
  | typeCode hahead h =>
    obtain ⟨⟨taken, heq, -⟩, -⟩ := (hg [] hnil).type _ ts l _ _ h
    refine ⟨⟨taken, heq⟩, fun ext hext => .typeCode ?_ ((hg ext hext).type _ ts l _ _ h).2⟩
    exact (Ahead.stringLiteral_append hext).trans hahead
  | modifiers h =>
    obtain ⟨⟨taken, heq, -⟩, -⟩ := (hg [] hnil).expr _ ts l _ _ h
    exact ⟨⟨taken, heq⟩, fun ext hext => .modifiers ((hg ext hext).expr _ ts l _ _ h).2⟩

/-! ### Reading a property -/

/-- Only a property is read, and its value becomes the last one. -/
theorem setting_of_reads_property {p p' : Properties} {path : Bool × List Word}
    (h : Reads (property g p path) c p' c') :
    ∃ w x pos joint ts l, path = (false, [w]) ∧ w.text ∈ x.keys ∧
      c = ⟨equals pos joint :: ts, l⟩ ∧ ReadsValue g ⟨ts, l⟩ x c' ∧ p' = p.set x := by
  unfold property at h
  obtain ⟨hword, hread⟩ | ⟨-, h⟩ := h.of_ite
  · -- the key decides which kind of value is read
    obtain ⟨w, rfl, hw⟩ := isName_iff.mp hword
    obtain ⟨pos, joint, ts, l, rfl, hvalue⟩ := reads_equals_bind_iff.mp hread
    obtain ⟨s, _, hs, hset⟩ := reads_bind_iff.mp hvalue
    obtain ⟨rfl, rfl⟩ := reads_pure_iff.mp hset
    exact ⟨w, .name s, pos, joint, ts, l, rfl, List.mem_singleton.mpr hw, rfl, .name hs, rfl⟩
  obtain ⟨hword, hread⟩ | ⟨-, h⟩ := h.of_ite
  · obtain ⟨w, rfl, hw⟩ := exists_word_of_isName_or hword
    obtain ⟨pos, joint, ts, l, rfl, hvalue⟩ := reads_equals_bind_iff.mp hread
    rw [reads_look_bind_iff] at hvalue
    -- a type is a text or code
    obtain ⟨hahead, hvalue⟩ | ⟨hahead, hvalue⟩ := hvalue.of_ite
    · obtain ⟨s, _, hs, hset⟩ := reads_bind_iff.mp hvalue
      obtain ⟨rfl, rfl⟩ := reads_pure_iff.mp hset
      exact ⟨w, .ty _, pos, joint, ts, l, rfl, hw, rfl, .typeText hahead hs, rfl⟩
    · obtain ⟨e, _, he, hset⟩ := reads_bind_iff.mp hvalue
      obtain ⟨rfl, rfl⟩ := reads_pure_iff.mp hset
      exact ⟨w, .ty _, pos, joint, ts, l, rfl, hw, rfl,
        .typeCode (Bool.eq_false_iff.mpr hahead) he, rfl⟩
  obtain ⟨hword, hread⟩ | ⟨-, h⟩ := h.of_ite
  · obtain ⟨w, rfl, hw⟩ := exists_word_of_isName_or hword
    obtain ⟨pos, joint, ts, l, rfl, hvalue⟩ := reads_equals_bind_iff.mp hread
    obtain ⟨e, _, he, hset⟩ := reads_bind_iff.mp hvalue
    obtain ⟨rfl, rfl⟩ := reads_pure_iff.mp hset
    exact ⟨w, .modifiers e, pos, joint, ts, l, rfl, hw, rfl, .modifiers he, rfl⟩
  · exact absurd h not_reads_throw

/-- The word decides which property is read. -/
theorem reads_property {w : Word} {pos : Position} {joint : Bool} {ts : List TokenTree}
    {l : Option Delimiter} (p : Properties) (hkey : w.text ∈ x.keys)
    (hvalue : ReadsValue g ⟨ts, l⟩ x c') :
    Reads (property g p (false, [w])) ⟨equals pos joint :: ts, l⟩ (p.set x) c' := by
  have hname (s : String) : isName (false, [w]) s = (w.text == s) := rfl
  unfold property
  simp only [hname]
  cases hvalue with
  -- the key is the one for this kind, and the others are passed over in order
  | name h =>
    rw [if_pos (beq_iff_eq.mpr (List.mem_singleton.mp hkey))]
    exact reads_equals_bind_iff.mpr ⟨pos, joint, ts, l, rfl, h.bind reads_pure⟩
  | typeText hahead h =>
    obtain hw | hw := (List.mem_cons.mp hkey).imp_right List.mem_singleton.mp
    all_goals
      rw [hw, if_neg (by decide), if_pos (by decide)]
      refine reads_equals_bind_iff.mpr ⟨pos, joint, ts, l, rfl, reads_look_bind_iff.mpr ?_⟩
      rw [if_pos hahead]
      exact h.bind reads_pure
  | typeCode hahead h =>
    obtain hw | hw := (List.mem_cons.mp hkey).imp_right List.mem_singleton.mp
    all_goals
      rw [hw, if_neg (by decide), if_pos (by decide)]
      refine reads_equals_bind_iff.mpr ⟨pos, joint, ts, l, rfl, reads_look_bind_iff.mpr ?_⟩
      rw [if_neg (Bool.eq_false_iff.mp hahead)]
      exact h.bind reads_pure
  | modifiers h =>
    obtain hw | hw := (List.mem_cons.mp hkey).imp_right List.mem_singleton.mp
    all_goals
      rw [hw, if_neg (by decide), if_neg (by decide), if_pos (by decide)]
      exact reads_equals_bind_iff.mpr ⟨pos, joint, ts, l, rfl, h.bind reads_pure⟩

/-- The reader of a field goes through its properties. -/
theorem collects_property (hg : ∀ ext, EndsValue ext → g.Alone ext) :
    Collects (fun p => propertyPath >>= property g p) (ReadsSetting g) Properties.set where
  reads_iff p c p' c' := by
    constructor
    · intro h
      obtain ⟨path, mid, hpath, hread⟩ := reads_bind_iff.mp h
      obtain ⟨w, x, pos, joint, ts, l, rfl, hw, rfl, hvalue, rfl⟩ := setting_of_reads_property hread
      rw [eq_of_reads_propertyPath hpath]
      exact ⟨x, .mk hw hvalue, rfl⟩
    · rintro ⟨x, @⟨start, pos, key, _, joint, ts, l, _, hkey, hvalue⟩, rfl⟩
      exact (reads_propertyPath_word (w := ⟨key, start⟩) rfl).bind (reads_property p hkey hvalue)
  shorter := by
    rintro c x c' ⟨hkey, hvalue⟩
    exact Nat.lt_succ_of_lt (Nat.lt_succ_of_le (hvalue.alone hg).1.length_le)

/-- A property is read in front of a comma as it is read alone. -/
theorem ReadsSetting.front (hg : ∀ ext, EndsValue ext → g.Alone ext) (h : ReadsSetting g c x c')
    {ext : List TokenTree} (hext : EndsValue ext) :
    ReadsSetting g ⟨c.trees ++ ext, c.leftover⟩ x ⟨c'.trees ++ ext, c'.leftover⟩ := by
  cases h with
  | mk hkey hvalue => exact .mk hkey ((hvalue.alone hg).2 ext hext)

end Values

/-! ### Reading a field of a list -/

/-- A field of a list is read: its word, and a list of properties in parentheses. -/
inductive ReadsEntry (g : Grammar) : Cursor → List Setting → Cursor → Prop where
  | mk {start pos : Position} {inner rest : List TokenTree} {xs : List Setting}
      {l l' : Option Delimiter} (hlist : Listed (ReadsSetting g) ⟨inner, l⟩ xs ⟨[], l'⟩) :
      ReadsEntry g ⟨.leaf start (.ident "field") :: .group pos .paren inner :: rest, l⟩ xs
        ⟨rest, l'⟩

section Entries

variable {g : Grammar} (hg : ∀ ext, EndsValue ext → g.Alone ext) {done done' : List Properties}
  {c c' : Cursor}
include hg

/-- Only a field is read, and its properties are set from the beginning. -/
theorem readsEntry_of_reads (h : Reads (propertyPath >>= entry g done) c done' c') :
    ∃ xs, ReadsEntry g c xs c' ∧ done' = done ++ [xs.foldl Properties.set {}] := by
  obtain ⟨path, mid, hpath, hread⟩ := reads_bind_iff.mp h
  unfold entry at hread
  dsimp only at hread
  -- an entry that is not called `field` is refused
  obtain ⟨-, hentry⟩ | ⟨hword, hentry⟩ := hread.of_ite
  · exact absurd hentry (not_reads_bind fun _ _ => not_reads_throw)
  · have hfield : isName path "field" = true := by simpa using hword
    obtain ⟨w, rfl, hw⟩ := isName_iff.mp hfield
    obtain ⟨⟨pos, p⟩, _, hgroup, hdone⟩ := reads_bind_iff.mp hentry
    obtain ⟨rfl, rfl⟩ := reads_pure_iff.mp hdone
    obtain ⟨inner, rest, l, ⟨ts, l'⟩, rfl, hlist, rfl⟩ := reads_inGroup_iff.mp hgroup
    obtain ⟨xs, hxs, rfl⟩ := (reads_propertyList_iff (collects_property hg)).mp hlist
    cases hxs.trees_eq_nil
    rw [eq_of_reads_propertyPath hpath]
    refine ⟨xs, ?_, rfl⟩
    dsimp only
    rw [List.isEmpty_nil, if_pos rfl, Option.or_none]
    obtain ⟨text, start⟩ := w
    cases hw
    exact .mk hxs

theorem reads_of_readsEntry {xs : List Setting} (h : ReadsEntry g c xs c') :
    Reads (propertyPath >>= entry g done) c (done ++ [xs.foldl Properties.set {}]) c' := by
  obtain @⟨start, pos, inner, rest, _, l, l', hlist⟩ := h
  refine (reads_propertyPath_word (w := ⟨"field", start⟩) rfl).bind ?_
  unfold entry
  dsimp only
  have hfield : isName (false, [⟨"field", start⟩]) "field" = true :=
    isName_iff.mpr ⟨_, rfl, rfl⟩
  rw [hfield, if_neg (by decide)]
  have hgroup : Reads (inGroup .paren (propertyList (property g) {}))
      ⟨.group pos .paren inner :: rest, l⟩ (pos, xs.foldl Properties.set {}) ⟨rest, l'⟩ := by
    refine reads_inGroup_iff.mpr ⟨inner, rest, l, ⟨[], l'⟩, rfl,
      (reads_propertyList_iff (collects_property hg)).mpr ⟨xs, hlist, rfl⟩, ?_⟩
    rw [List.isEmpty_nil, if_pos rfl, Option.or_none]
  exact hgroup.bind reads_pure

/-- The reader of a list of fields goes through the fields. -/
theorem collects_entry :
    Collects (fun done => propertyPath >>= entry g done) (ReadsEntry g)
      (fun done xs => done ++ [xs.foldl Properties.set {}]) where
  reads_iff _ _ _ _ := by
    refine ⟨readsEntry_of_reads hg, ?_⟩
    rintro ⟨xs, h, rfl⟩
    exact reads_of_readsEntry hg h
  shorter := by
    rintro c xs c' ⟨hlist⟩
    exact Nat.lt_succ_of_lt (Nat.lt_succ_self _)

end Entries

end Annotations

end FieldGraft
