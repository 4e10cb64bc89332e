import Mathlib.Data.List.Basic
import Mathlib.Data.List.Induction
import FieldGraft.Proofs.PropertyReading

/-!
# The properties of a requested field

An annotation lists properties in any number and order, under one of several words. A later value
replaces an earlier one, and the values are checked when all have been read.

* `Annotations.lastValues` — what the properties come to; `Annotations.lastValues_eq_of_filter_keys`
  and `Annotations.lastValues_delete` say what they do not depend on.
* `Annotations.Asks.read_eq` — a list of well-formed properties is read for its last values.
* `Annotations.Spoiled.read_eq` — one malformed property makes one error of the whole annotation.
-/

namespace FieldGraft

namespace Annotations

open FieldGraft.Parser

/-! ### The last values -/

/-- The name that is set. -/
def Setting.name? : Setting → Option String
  | name s => some s
  | _ => none

/-- The type that is set. -/
def Setting.ty? : Setting → Option TypeText
  | ty t => some t
  | _ => none

/-- The modifiers that are set. -/
def Setting.modifiers? : Setting → Option Code
  | modifiers e => some e
  | _ => none

/-- The last value that is given for each property. -/
def lastValues (xs : List Setting) : Properties where
  name := (xs.filterMap Setting.name?).getLast?
  ty := (xs.filterMap Setting.ty?).getLast?
  modifiers := (xs.filterMap Setting.modifiers?).getLast?

theorem lastValues_concat (xs : List Setting) (x : Setting) :
    lastValues (xs ++ [x]) = (lastValues xs).set x := by
  unfold lastValues
  cases x <;> simp [Setting.name?, Setting.ty?, Setting.modifiers?, Properties.set]

/-- What is put in last stays. -/
theorem foldl_set_eq_lastValues (xs : List Setting) :
    xs.foldl Properties.set {} = lastValues xs := by
  induction xs using List.reverseRecOn with
  | nil => rfl
  | append_singleton xs x ih =>
    rw [List.foldl_append, ih, lastValues_concat]
    rfl

theorem Setting.name?_eq_none_iff {x : Setting} : x.name? = none ↔ x.keys ≠ ["name"] := by
  cases x <;> simp [name?, keys]

theorem Setting.ty?_eq_none_iff {x : Setting} : x.ty? = none ↔ x.keys ≠ ["ty", "type"] := by
  cases x <;> simp [ty?, keys]

theorem Setting.modifiers?_eq_none_iff {x : Setting} :
    x.modifiers? = none ↔ x.keys ≠ ["modifiers", "modifier"] := by
  cases x <;> simp [modifiers?, keys]

theorem foldl_concat_eq_map {α β : Type} (f : α → β) (xs : List α) :
    xs.foldl (fun done x => done ++ [f x]) [] = xs.map f := by
  induction xs using List.reverseRecOn with
  | nil => rfl
  | append_singleton xs x ih =>
    rw [List.foldl_append, ih, List.map_append]
    rfl

section Last

variable {α : Type} {f : Setting → Option α} {k : List String}
  (hf : ∀ {x}, f x = none ↔ x.keys ≠ k)

include hf

/-- The settings of other properties do not matter to one property. -/
theorem filterMap_eq_of_filter_keys {xs ys : List Setting}
    (h : xs.filter (·.keys = k) = ys.filter (·.keys = k)) : xs.filterMap f = ys.filterMap f := by
  -- `f` picks what it reads from the settings of its own property
  have hfilter (zs : List Setting) : (zs.filter (·.keys = k)).filterMap f = zs.filterMap f := by
    rw [List.filterMap_filter]
    refine List.filterMap_congr fun x _ => ?_
    by_cases hx : x.keys = k
    · rw [decide_eq_true hx, if_pos rfl]
    · rw [decide_eq_false hx, if_neg Bool.false_ne_true, hf.mpr hx]
  rw [← hfilter xs, h, hfilter ys]

/-- A value in front of another one does not matter. -/
theorem getLast?_filterMap_delete {x y : Setting} (h : x.keys = y.keys)
    (front middle back : List Setting) :
    ((front ++ x :: (middle ++ y :: back)).filterMap f).getLast? =
      ((front ++ (middle ++ y :: back)).filterMap f).getLast? := by
  simp only [List.filterMap_append, List.filterMap_cons]
  -- the earlier setting counts only if the later one does, and then the later one is the last
  cases hx : f x with
  | none => rfl
  | some v =>
    cases hy : f y with
    | none => cases hx.symm.trans (hf.mpr (h ▸ hf.mp hy))
    | some u =>
      dsimp only
      rw [← List.cons_append, ← List.append_assoc, ← List.append_assoc,
        List.getLast?_append_cons, List.getLast?_append_cons]

end Last

/-- Only the order among the values of one property matters. -/
theorem lastValues_eq_of_filter_keys {xs ys : List Setting}
    (h : ∀ k, xs.filter (·.keys = k) = ys.filter (·.keys = k)) : lastValues xs = lastValues ys := by
  unfold lastValues
  rw [filterMap_eq_of_filter_keys Setting.name?_eq_none_iff (h _),
    filterMap_eq_of_filter_keys Setting.ty?_eq_none_iff (h _),
    filterMap_eq_of_filter_keys Setting.modifiers?_eq_none_iff (h _)]

/-- A value that a later one overrides does not matter. -/
theorem lastValues_delete {x y : Setting} (h : x.keys = y.keys)
    (front middle back : List Setting) : lastValues (front ++ x :: (middle ++ y :: back)) =
      lastValues (front ++ (middle ++ y :: back)) := by
  -- each of the three properties has its own last value
  unfold lastValues
  rw [getLast?_filterMap_delete Setting.name?_eq_none_iff h,
    getLast?_filterMap_delete Setting.ty?_eq_none_iff h,
    getLast?_filterMap_delete Setting.modifiers?_eq_none_iff h]

/-! ### What is made of the values -/

/-- Two fields are described alike: the name and the type are the same, and so are the bits of the
modifiers, or why there are none. -/
structure Properties.Agrees (p q : Properties) : Prop where
  name : p.name = q.name
  ty : p.ty = q.ty
  modifiers : p.modifiers.map modifierBits = q.modifiers.map modifierBits

theorem Properties.Agrees.readModifiers_eq {p q : Properties} (h : p.Agrees q)
    (default : Modifiers) : p.readModifiers default = q.readModifiers default := by
  have hbits := h.modifiers
  unfold Properties.readModifiers
  -- only the bits of the modifiers are read, and on these the two agree
  cases hp : p.modifiers with
  | none =>
    rw [hp] at hbits
    rw [Option.map_eq_none_iff.mp hbits.symm]
  | some e =>
    rw [hp] at hbits
    obtain ⟨e', hq, heq⟩ := Option.map_eq_some_iff.mp hbits.symm
    rw [hq]
    dsimp only
    rw [heq]

/-- What is asked for depends on what is described. -/
theorem Properties.Agrees.finish_eq {p q : Properties} (h : p.Agrees q) (default : Modifiers) :
    p.finish default = q.finish default := by
  unfold Properties.finish
  rw [h.name, h.ty, h.readModifiers_eq]

/-! ### Annotations -/

/-- A property that is well formed by itself. -/
def IsSetting (g : Grammar) (x : Setting) (v : List TokenTree) : Prop :=
  ∀ l, ReadsSetting g ⟨v, l⟩ x ⟨[], l⟩

/-- A field of a list whose properties are well formed. -/
def IsEntry (g : Grammar) (xs : List Setting) (v : List TokenTree) : Prop :=
  ∃ start pos inner, v = [.leaf start (.ident "field"), .group pos .paren inner] ∧
    Separated (IsSetting g) xs inner

/-- The properties of each field that a well-formed annotation asks for, and the modifiers that its
fields have unless told otherwise. There may be no property or field at all. -/
inductive Asks : Attribute → Modifiers → List (List Setting) → Prop where
  | single {inner : Bool} {w : Word} {d : Delimiter} {body : List TokenTree} {xs : List Setting}
      (hw : w.text = single)
      (h : (body = [] ∧ xs = []) ∨ Separated (IsSetting (grammarFor body)) xs body) :
      Asks (.mk inner false [w] (.list d body)) .publicOnly [xs]
  | multiple {inner : Bool} {w : Word} {d : Delimiter} {body : List TokenTree}
      {es : List (List Setting)} (hw : w.text = multiple)
      (h : (body = [] ∧ es = []) ∨ Separated (IsEntry (grammarFor body)) es body) :
      Asks (.mk inner false [w] (.list d body)) .none es

/-- An annotation with one malformed item. -/
inductive Spoiled : Attribute → Prop where
  | single {inner : Bool} {w : Word} {d : Delimiter} {body : List TokenTree}
      (hw : w.text = single) (hbody : body ≠ [])
      (h : Flawed (ReadsSetting (grammarFor body)) ⟨body, none⟩) :
      Spoiled (.mk inner false [w] (.list d body))
  | multiple {inner : Bool} {w : Word} {d : Delimiter} {body : List TokenTree}
      (hw : w.text = multiple) (hbody : body ≠ [])
      (h : Flawed (ReadsEntry (grammarFor body)) ⟨body, none⟩) :
      Spoiled (.mk inner false [w] (.list d body))

theorem alone_grammarFor (body ext : List TokenTree) (hext : EndsValue ext) :
    (grammarFor body).Alone ext :=
  alone_grammar hext _

theorem listed_of_separated {g : Grammar} (hg : ∀ ext, EndsValue ext → g.Alone ext)
    {xs : List Setting} {ts : List TokenTree} (h : Separated (IsSetting g) xs ts)
    (l : Option Delimiter) : Listed (ReadsSetting g) ⟨ts, l⟩ xs ⟨[], l⟩ := by
  refine h.listed (fun x v hv ext l hext => ?_) l
  exact (hv l).front hg hext

theorem listed_of_separated_entries {g : Grammar} (hg : ∀ ext, EndsValue ext → g.Alone ext)
    {es : List (List Setting)} {ts : List TokenTree} (h : Separated (IsEntry g) es ts)
    (l : Option Delimiter) : Listed (ReadsEntry g) ⟨ts, l⟩ es ⟨[], l⟩ := by
  refine h.listed (fun xs v hv ext l hext => ?_) l
  obtain ⟨start, pos, inner, rfl, hxs⟩ := hv
  exact .mk (listed_of_separated hg hxs l)

section Reading

variable {inner : Bool} {w : Word} {d : Delimiter} {body : List TokenTree}

theorem read_single (hw : w.text = single) {args : AttributeArgs} :
    read (.mk inner false [w] args) =
      match readArguments single args {} (fun g => propertyList (property g) {}) with
      | .ok p => [p.finish Modifiers.publicOnly]
      | .error e => [.error e] := by
  unfold read
  simp only [Attribute.ident?, hw]
  rfl

theorem read_multiple (hw : w.text = multiple) {args : AttributeArgs} :
    read (.mk inner false [w] args) =
      match readArguments multiple args [] (fun g => propertyList (entry g) []) with
      | .ok ps => ps.map (fun p => p.finish Modifiers.none)
      | .error e => [.error e] := by
  unfold read
  simp only [Attribute.ident?, hw]
  rfl

section Arguments

variable {ι σ : Type} {R : Cursor → ι → Cursor → Prop} {add : σ → ι → σ}
  {property : Grammar → σ → Bool × List Word → Parser σ}
  (hone : Collects (fun s => propertyPath >>= property (grammarFor body) s) R add)
  (name : String) (start : σ)

include hone

theorem readArguments_of_listed {xs : List ι} (h : Listed R ⟨body, none⟩ xs ⟨[], none⟩) :
    readArguments name (.list d body) start (fun g => propertyList (property g) start) =
      .ok (xs.foldl add start) := by
  have hrun := runAll_eq_ok_iff.mpr ((reads_propertyList_iff (s := start) hone).mpr ⟨xs, h, rfl⟩)
  unfold readArguments
  dsimp only
  rw [if_neg, hrun]
  -- an empty body lists nothing, so it is not the one that was read
  intro hbody
  rw [List.isEmpty_iff.mp hbody] at h
  exact hone.not_listed_nil h

theorem readArguments_of_flawed (hbody : body ≠ []) (h : Flawed R ⟨body, none⟩) : ∃ e,
    readArguments name (.list d body) start (fun g => propertyList (property g) start) =
      .error (.malformed e) := by
  unfold readArguments
  dsimp only
  rw [if_neg fun hempty => hbody (List.isEmpty_iff.mp hempty)]
  cases hrun : runAll (propertyList (property (grammarFor body)) start) body with
  | error e => exact ⟨e, rfl⟩
  | ok s =>
    -- a list that was read to the end has no fault, which this one has
    obtain ⟨xs, hxs, -⟩ := (reads_propertyList_iff hone).mp (runAll_eq_ok_iff.mp hrun)
    exact absurd rfl (h.leftover_ne_none hone start hxs)

end Arguments

end Reading

/-- A well-formed annotation gives one result per field, from the last values of the field. -/
theorem Asks.read_eq {a : Attribute} {m : Modifiers} {es : List (List Setting)} (h : Asks a m es) :
    read a = es.map fun xs => (lastValues xs).finish m := by
  cases h with
  -- the list of one field may be empty; then the annotation asks for it with no setting
  | @single _ _ _ body _ hw h =>
    rw [read_single hw]
    obtain ⟨rfl, rfl⟩ | h := h
    · rfl
    · have hg := alone_grammarFor body
      rw [readArguments_of_listed (collects_property hg) _ _ (listed_of_separated hg h none)]
      dsimp only
      rw [foldl_set_eq_lastValues]
      rfl
  -- each entry is a list of settings of its own
  | @multiple _ _ _ body _ hw h =>
    rw [read_multiple hw]
    obtain ⟨rfl, rfl⟩ | h := h
    · rfl
    · have hg := alone_grammarFor body
      rw [readArguments_of_listed (collects_entry hg) _ _ (listed_of_separated_entries hg h none)]
      dsimp only
      rw [foldl_concat_eq_map, List.map_map]
      exact List.map_congr_left fun xs _ => by rw [Function.comp, foldl_set_eq_lastValues]

/-- Fields that are described alike come out alike. -/
theorem Asks.read_eq_read {a a' : Attribute} {m : Modifiers} {es es' : List (List Setting)}
    (h : Asks a m es) (h' : Asks a' m es')
    (hes : List.Forall₂ (fun xs ys => (lastValues xs).Agrees (lastValues ys)) es es') :
    read a = read a' := by
  -- both come to what is made of their fields, one by one
  rw [h.read_eq, h'.read_eq]
  clear h h'
  induction hes with
  | nil => rfl
  | cons hxs _ ih => rw [List.map_cons, List.map_cons, hxs.finish_eq, ih]

/-- An annotation with a malformed item gives one error. -/
theorem Spoiled.read_eq {a : Attribute} (h : Spoiled a) :
    ∃ e, read a = [.error (.malformed e)] := by
  cases h with
  -- the item is malformed in the list that the annotation itself is
  | single hw hbody h =>
    obtain ⟨e, he⟩ := readArguments_of_flawed (collects_property (alone_grammarFor _))
      Annotations.single {}
      hbody h
    exact ⟨e, by rw [read_single hw, he]⟩
  | multiple hw hbody h =>
    obtain ⟨e, he⟩ := readArguments_of_flawed (collects_entry (alone_grammarFor _))
      Annotations.multiple []
      hbody h
    exact ⟨e, by rw [read_multiple hw, he]⟩

/-- A malformed property makes its field malformed. -/
theorem flawed_entry {g : Grammar} (hg : ∀ ext, EndsValue ext → g.Alone ext) {start pos : Position}
    {inner rest : List TokenTree} {l : Option Delimiter} (h : Flawed (ReadsSetting g) ⟨inner, l⟩)
    (hrest : Completes (ReadsEntry g) rest) : Flawed (ReadsEntry g)
      ⟨.leaf start (.ident "field") :: .group pos .paren inner :: rest, l⟩ := by
  refine .here ?_
  rintro xs c' ⟨hlist⟩ -
  have hleftover := h.leftover_ne_none (collects_property hg) {} hlist
  exact ⟨hleftover, hrest⟩

theorem readRequests_append_cons (before after : List Attribute) (a : Attribute) :
    readRequests (before ++ a :: after) =
      readRequests before ++ (read a ++ readRequests after) := by
  unfold readRequests
  rw [List.flatMap_append, List.flatMap_cons]

/-- A word, an equals sign and a value of one token. -/
def assignment (key : String) (value : Token) : List TokenTree :=
  [.leaf {} (.ident key), equals {} false, .leaf {} value]

/-- An annotation with these arguments. -/
def requestAttr (name : String) (body : List TokenTree) : Attribute :=
  .mk false false [⟨name, {}⟩] (.list .paren body)

/-- A name is given twice, in front of the other properties and behind them. -/
def overriding : List TokenTree :=
  assignment "name" (.literal "\"b\"") ++ comma {} false ::
    (assignment "ty" (.ident "u8") ++ comma {} false ::
      (assignment "modifiers" (.literal "1") ++ comma {} false ::
        assignment "name" (.literal "\"a\"")))

/-- The same in another order, without the first name and with other words. -/
def reordered : List TokenTree :=
  assignment "modifier" (.literal "1") ++ comma {} false ::
    (assignment "name" (.literal "\"a\"") ++ comma {} false :: assignment "type" (.ident "u8"))

/-- The second field has a property that there is not. -/
def misspelt : List TokenTree :=
  [.leaf {} (.ident "field"), .group {} .paren (assignment "name" (.literal "\"a\"")),
    comma {} false, .leaf {} (.ident "field"),
    .group {} .paren (assignment "nam" (.literal "\"b\""))]

theorem isSetting_u8 {n : Nat} {key : String} (hkey : key ∈ ["ty", "type"]) :
    IsSetting (grammar (n + 2)) (.ty (.ofText "u8")) (assignment key (.ident "u8")) := fun _ =>
  .mk hkey (.typeCode (e := .path (.named none [⟨⟨"u8", {}⟩, []⟩])) rfl rfl)

theorem asks_overriding : Asks (requestAttr single overriding) .publicOnly
    [[.name "b", .ty (.ofText "u8"), .modifiers (.tree (.leaf {} (.literal "1"))), .name "a"]] := by
  refine .single rfl (.inr (.cons (fun _ => ?_) (.cons (isSetting_u8 (by decide))
    (.cons (fun _ => ?_) (.last fun _ => ?_)))))
  · exact .mk (by decide) (.name rfl)
  · exact .mk (by decide) (.modifiers rfl)
  · exact .mk (by decide) (.name rfl)

theorem asks_reordered : Asks (requestAttr single reordered) .publicOnly
    [[.modifiers (.tree (.leaf {} (.literal "1"))), .name "a", .ty (.ofText "u8")]] := by
  refine .single rfl (.inr (.cons (fun _ => ?_) (.cons (fun _ => ?_)
    (.last (isSetting_u8 (by decide))))))
  · exact .mk (by decide) (.modifiers rfl)
  · exact .mk (by decide) (.name rfl)

/-- The first field is read, and the second one has no property to read. -/
theorem spoiled_misspelt : Spoiled (requestAttr multiple misspelt) := by
  have hfirst : Listed (ReadsSetting (grammarFor misspelt))
      ⟨assignment "name" (.literal "\"a\""), none⟩ [.name "a"] ⟨[], none⟩ :=
    .last (.mk (by decide) (.name rfl))
  refine .multiple rfl (List.cons_ne_nil _ _) (.later (.mk hfirst) ?_)
  refine flawed_entry (alone_grammarFor _) (.here ?_) (.inl rfl)
  rintro x c' ⟨hkey, -⟩ -
  cases x <;> simp [Setting.keys] at hkey

end Annotations

end FieldGraft
