import FieldGraft.Proofs.ModifierNotations
import FieldGraft.Proofs.PathSpellings
import FieldGraft.Proofs.RequestAccounts

/-!
# Requests and the fields made of them

What is written into a struct has been checked at three places: a request when its annotation is
read, its type when the field is made, and all else in the arena comes from the source.

* `Request.Writable` — what reading ensures, whatever the shape of the annotation;
  `Catalogue.writable_of_mem_batch` says so of every request of a unit.
* `IsSegmentText` — the text is one token that may be a segment of a path. The simple name of a type
  that a table finds is such a text (`TypeTable.isSegmentText_of_resolve`).
* `Catalogue.ofItems_induction` — what entering nodes keeps holds of the arena of a catalogue. So no
  field of it is synthetic.
* `Catalogue.field?_round` — every field after a round was there before or is the field of a request
  of the batch.

The last two together tell what a synthetic field is: `Catalogue.isSegmentText_of_synthetic`.
-/

namespace FieldGraft

/-! ### Requests that were read -/

/-- **A request that can be written.** Its name is one identifier, blanks and comments aside, its
flags are known ones with at most one visibility and not `static`, and its type is still a text. -/
structure Request.Writable (r : Request) : Prop where
  name_lexes : ∃ pos name, lex r.name = some [.leaf pos (.ident name)] ∧ isKeyword name = false
  bits_lt : r.modifiers.bits < 32
  visibility_le : r.modifiers.visibilityCount ≤ 1
  not_static : r.modifiers.isStatic = false
  pending : ∃ ty, r.ty = .pending ty

theorem identifier?_isSome_iff {text : String} :
    (identifier? text).isSome ↔
      ∃ pos name, lex text = some [.leaf pos (.ident name)] ∧ isKeyword name = false := by
  -- a keyword is a name to the lexer, but no identifier
  unfold identifier?
  split
  · next pos name hlex =>
    rw [hlex]
    constructor
    · intro h
      refine ⟨pos, name, rfl, ?_⟩
      by_contra hkeyword
      rw [if_pos (Bool.not_eq_false _ ▸ hkeyword)] at h
      cases h
    · rintro ⟨_, _, ⟨⟩, hkeyword⟩
      rw [hkeyword]
      rfl
  · next hother =>
    refine iff_of_false Bool.false_ne_true ?_
    rintro ⟨pos, name, hlex, -⟩
    exact hother pos name hlex

namespace Annotations

/-- Flags that were read have at most one visibility. -/
theorem Properties.visibility_le_of_readModifiers {p : Properties} {default m : Modifiers}
    (hdefault : default.visibilityCount ≤ 1) (h : p.readModifiers default = .ok m) :
    m.visibilityCount ≤ 1 := by
  unfold readModifiers at h
  split at h
  · cases h
    exact hdefault
  · split at h
    · cases h
    · split at h
      · next hbits =>
        cases h
        unfold Modifiers.ofBits at hbits
        split at hbits
        · dsimp only at hbits
          split at hbits
          · -- a bit set has one visibility bit at most, or it is refused
            next hcount =>
            cases hbits
            exact hcount
          · cases hbits
        · cases hbits
      · cases h

/-- Properties that pass make a request that can be written. -/
theorem Properties.writable_of_finish {p : Properties} {default : Modifiers} {r : Request}
    (hdefault : default.visibilityCount ≤ 1) (h : p.finish default = .ok r) : r.Writable := by
  unfold finish at h
  split at h
  · cases h
  · cases h
  · split at h
    · cases h
    · next m hread =>
      split at h
      · cases h
      · next hstatic =>
        unfold Request.make at h
        split at h
        · next hmake =>
          cases h
          -- only a name that lexes as one identifier gets this far
          split at hmake
          · cases hmake
          · split at hmake
            · cases hmake
            · next hname =>
              cases hmake
              rw [Option.isNone_iff_eq_none, ← ne_eq, ← Option.isSome_iff_ne_none] at hname
              exact ⟨identifier?_isSome_iff.mp hname, Modifiers.bits_lt m,
                visibility_le_of_readModifiers hdefault hread, Bool.not_eq_true _ ▸ hstatic,
                ⟨_, rfl⟩⟩
        · cases h

/-- Both attributes start from at most one visibility. -/
theorem writable_of_read {a : Attribute} {r : Request} (h : .ok r ∈ read a) : r.Writable := by
  unfold read at h
  split at h
  · split at h
    · split at h
      · exact Properties.writable_of_finish (by decide) (List.mem_singleton.mp h).symm
      · cases List.mem_singleton.mp h
    · split at h
      · split at h
        · obtain ⟨p, -, hp⟩ := List.mem_map.mp h
          exact Properties.writable_of_finish (by decide) hp
        · cases List.mem_singleton.mp h
      · cases h
  · cases h

end Annotations

theorem TypeItem.writable_of_mem_requests {d : TypeItem} {r : Request} (h : r ∈ d.requests) :
    r.Writable := by
  obtain ⟨x, hx, hr⟩ := List.mem_filterMap.mp h
  obtain ⟨a, -, hread⟩ := List.mem_flatMap.mp hx
  cases x with
  | error e => cases hr
  | ok request =>
    cases hr
    exact Annotations.writable_of_read hread

/-- **Every request of a unit can be written.** -/
theorem Catalogue.writable_of_mem_batch {items : List Item} {t : Target}
    (ht : t ∈ (ofItems items).batch) {r : Request} (hr : r ∈ t.requests) : r.Writable := by
  have hpair : (t.node, r) ∈ requestPairs (ofItems items).batch :=
    List.mem_flatMap.mpr ⟨t, ht, List.mem_map.mpr ⟨r, hr, rfl⟩⟩
  rw [requestPairs_ofItems] at hpair
  obtain ⟨x, -, hx⟩ := List.mem_flatMap.mp hpair
  obtain ⟨r', hr', heq⟩ := List.mem_map.mp hx
  obtain ⟨-, rfl⟩ := Prod.mk.inj heq
  exact TypeItem.writable_of_mem_requests hr'

/-! ### Types that were found -/

/-- **A text that is one segment of a path**: a single name token, which is no keyword or one of
those that a path may hold. -/
structure IsSegmentText (s : String) : Prop where
  lex_eq : lex s = some [.leaf ⟨1, 0⟩ (.ident s)]
  isSegmentName : Grammar.IsSegmentName s

theorem IsSegmentText.isName {s : String} (h : IsSegmentText s) : Lexeme.IsName s.toList :=
  lex_isName h.lex_eq List.mem_cons_self

/-- A name among the tokens of some text is its own only token. -/
theorem lex_of_mem_lex {text : String} {ts : List TokenTree} (h : lex text = some ts) {w : Word}
    (hmem : w.tree ∈ ts) : lex w.text = some [.leaf ⟨1, 0⟩ (.ident w.text)] := by
  have hname := lex_of_isName (lex_isName h hmem)
  rwa [String.ofList_toList] at hname

namespace TypeTable

variable {t : TypeTable}

/-- **The simple name of a type that a table finds** is a segment of the path. -/
theorem isSegmentText_of_resolve {ty : TypeText} {n : TypeName} (h : t.resolve ty = .ok n) :
    IsSegmentText n.simple := by
  unfold resolve at h
  split at h
  · next segments htype =>
    unfold resolveSegments at h
    split at h
    · cases h
    · next hargs =>
      -- arguments anywhere are refused, so each segment is its name
      have hplain : ∀ s ∈ segments, s.args = [] := by
        intro s hs
        by_contra hne
        refine hargs (List.any_eq_true.mpr ⟨s, hs, ?_⟩)
        rw [List.isEmpty_eq_false_iff.mpr hne]
        rfl
      obtain ⟨hne, ts, hlex, hsegments⟩ := segments_of_typeOfText? htype hplain
      obtain ⟨s, ss, rfl⟩ := List.exists_cons_of_ne_nil hne
      have hnames : ∀ m ∈ (s :: ss).map (fun s => s.name.text), IsSegmentText m := by
        intro m hm
        obtain ⟨x, hx, rfl⟩ := List.mem_map.mp hm
        exact ⟨lex_of_mem_lex hlex (hsegments x hx).1, (hsegments x hx).2⟩
      -- a single name is the join of itself
      have hn : n = .ofQualified ("::".intercalate ((s :: ss).map (fun s => s.name.text))) := by
        dsimp only at h
        split at h
        · next single heq =>
          split at h
          · cases h
            rw [heq, String.intercalate_singleton]
          · cases h
        · cases h
          rfl
      rw [hn, List.map_cons,
        TypeName.ofQualified_intercalate fun m hm => (hnames m (List.map_cons ▸ hm)).isName]
      exact hnames _ (List.map_cons ▸ List.getLast_mem _)
  · cases h

theorem isSegmentText_of_resolveRef {r : Request} (hr : r.Writable) {n : TypeName}
    (h : t.resolveRef r.ty = .ok n) : IsSegmentText n.simple := by
  obtain ⟨ty, hty⟩ := hr.pending
  rw [hty, resolveRef_pending] at h
  exact isSegmentText_of_resolve h

end TypeTable

/-! ### The fields of an arena -/

namespace Arena

variable {a b : Arena} {owner id : NodeId} {position : Nat} {d : Declaration}

/-- A field of the arena is an old one or the new member. -/
theorem Inserted.field?_cases (h : a.Inserted b owner position d id) {i : NodeId} {f : FieldDecl}
    (hf : b.field? i = some f) : a.field? i = some f ∨ d = .field f := by
  -- an insertion changes the declaration of its owner and of the new id only
  rw [field?_eq] at hf ⊢
  by_cases hid : i = id
  · rw [hid, h.new_eq] at hf
    split at hf
    · next g heq =>
      cases hf
      exact .inr (Option.some.inj heq)
    · cases hf
  · by_cases howner : i = owner
    · -- the owner is a type
      obtain ⟨decl, -, hafter⟩ := h.owner_eq
      rw [howner, hafter] at hf
      cases hf
    · rw [h.other_eq i howner hid] at hf
      exact .inl hf

/-- A property of arenas that is kept when types, places, constructors and the fields of definitions
are entered. -/
structure KeptByEntries (motive : Arena → Prop) : Prop where
  addType : ∀ {a : Arena} (name : String) (kind : DeclKind), motive a →
    motive (a.addType name kind).1
  setLocation : ∀ {a b : Arena} {id : NodeId} {location : Location},
    a.setLocation id location = .ok b → motive a → motive b
  constructor : ∀ {a b : Arena} {owner id : NodeId} {position : Nat} {k : ConstructorDecl},
    a.Inserted b owner position (.constructor k) id → motive a → motive b
  field : ∀ {a b : Arena} {owner id : NodeId} {position : Nat} (f : FieldDef),
    a.Inserted b owner position (.field f.decl) id → motive a → motive b

end Arena

namespace Catalogue

section Entries

variable {motive : Arena → Prop} {c : Catalogue}

/-- Steps that keep a property of the arena, one after the other. -/
theorem foldl_kept {α : Type} {step : Catalogue → α → Catalogue}
    (hstep : ∀ {c : Catalogue} (x : α), motive c.arena → motive (step c x).arena) (xs : List α)
    (hc : motive c.arena) : motive (xs.foldl step c).arena := by
  induction xs generalizing c with
  | nil => exact hc
  | cons x xs ih => exact ih (hstep x hc)

variable (h : Arena.KeptByEntries motive)
include h

theorem place_kept (id : NodeId) (pos : Position) (hc : motive c.arena) :
    motive (c.place id pos).arena := by
  unfold place
  split
  · next harena => exact h.setLocation harena hc
  · exact hc

theorem declare_kept (name : Word) (kind : DeclKind) (attrs : List Attribute)
    (hc : motive c.arena) : motive (c.declare name kind attrs).1.arena :=
  place_kept h (c := { c with arena := (c.arena.addType name.text kind).1 }) _ _
    (h.addType name.text kind hc)

theorem addConstructor_kept (owner : NodeId) (name : String) (params : Nat) (pos : Position)
    (hc : motive c.arena) : motive (c.addConstructor owner name params pos).arena := by
  unfold addConstructor
  split
  · next arena id hpush =>
    obtain ⟨position, hinserted⟩ := Arena.exists_inserted_of_push hpush
    exact place_kept h (c := { c with arena }) _ _ (h.constructor hinserted hc)
  · exact hc

theorem addFields_kept (owner : NodeId) (slot : Nat) (fs : List FieldDef) (hc : motive c.arena) :
    motive (addFields owner c slot fs).arena := by
  induction fs generalizing c slot with
  | nil => exact hc
  | cons f fs ih =>
    rw [addFields]
    split
    · next hpush =>
      obtain ⟨position, hinserted⟩ := Arena.exists_inserted_of_push hpush
      exact ih _ (place_kept h _ _ (h.field f hinserted hc))
    · exact ih _ hc

theorem addMember_kept (owner : NodeId) (selfName : String) (member : Code)
    (hc : motive c.arena) : motive (addMember owner selfName c member).arena := by
  unfold addMember
  split
  · split
    · exact hc
    · exact addConstructor_kept h _ _ _ _ hc
  · exact hc

theorem addImpl_kept (names : ScopeNames) (item : Item) (hc : motive c.arena) :
    motive (addImpl names c item).arena := by
  unfold addImpl
  split
  · split
    · exact hc
    · split
      · exact hc
      · split
        · split
          · exact addConstructor_kept h _ _ _ _ hc
          · exact hc
        · exact foldl_kept (fun _ => addMember_kept h _ _ _) _ hc
  · exact hc

end Entries

section Induction

variable {motive : Arena → Prop}

mutual

theorem addItem_kept (h : Arena.KeptByEntries motive) (names : ScopeNames) :
    ∀ (c : Catalogue) (i : Item), motive c.arena → motive (addItem c names i).1.arena
  | c, .struct attrs vis name generics body, hc => by
    have hdeclare := declare_kept h name body.kind attrs hc
    -- the type is declared first, so its fields are added to an arena that keeps `motive`
    rw [addItem]
    generalize c.declare name body.kind attrs = declared at hdeclare
    have hfields := addFields_kept h (c := { declared.1 with
      structs := declared.1.structs ++ [declared.2] }) declared.2 0 body.fields hdeclare
    dsimp only
    split
    · exact addConstructor_kept h _ _ _ _ hfields
    · exact hfields
  | c, .nominal kind attrs lead name tail, hc => declare_kept h name kind.kind attrs hc
  | c, .module attrs lead name inner items, hc =>
    foldl_kept (fun _ => addImpl_kept h _ _) items (addItems_kept h [] c items hc)
  | c, .use attrs vis global tree, hc => hc
  | c, .impl attrs lead trait selfTy clause inner members, hc => hc
  | c, .other shape parts, hc => hc

theorem addItems_kept (h : Arena.KeptByEntries motive) (names : ScopeNames) :
    ∀ (c : Catalogue) (is : List Item), motive c.arena → motive (addItems c names is).1.arena
  | _, [], hc => hc
  | c, i :: is, hc => addItems_kept h _ _ is (addItem_kept h names c i hc)

end

/-- **Induction along the entries of a catalogue.** -/
theorem ofItems_induction (h : Arena.KeptByEntries motive) (start : motive {}) (items : List Item) :
    motive (ofItems items).arena :=
  foldl_kept (fun _ => addImpl_kept h _ _) items (addItems_kept h [] {} items start)

end Induction

/-- The fields of a catalogue are those of the source. -/
theorem synthetic_ofItems (items : List Item) {i : NodeId} {f : FieldDecl}
    (hf : (ofItems items).arena.field? i = some f) : f.synthetic = false := by
  refine ofItems_induction (motive := fun a => ∀ i f, a.field? i = some f → f.synthetic = false)
    ⟨?_, ?_, ?_, ?_⟩ ?_ items i f hf
  · -- a type is added
    intro a name kind ha i f hf
    rw [Arena.field?_eq, Arena.addType_declaration?] at hf
    split at hf
    · next heq =>
      split at heq
      · cases heq
      · exact ha i f (by rw [Arena.field?_eq, heq]; exact hf)
    · cases hf
  · -- a place is recorded
    intro a b id location hb ha i f hf
    rw [Arena.field?_eq, Arena.setLocation_declaration? hb, ← Arena.field?_eq] at hf
    exact ha i f hf
  · -- a constructor is added
    intro a b owner id position k hb ha i f hf
    exact (hb.field?_cases hf).elim (ha i f) Declaration.noConfusion
  · -- a field is added, which the source declares
    intro a b owner id position d hb ha i f hf
    rcases hb.field?_cases hf with hold | hnew
    · exact ha i f hold
    · obtain ⟨attrs, vis, name, ty⟩ := d
      cases hnew
      rfl
  · intro i f hf
    exact absurd (Arena.index_lt_of_field? hf) (Nat.not_lt_zero _)

/-! ### The fields after a round -/

/-- **Where the fields after a round come from.** -/
theorem field?_round (c : Catalogue) (placement : Placement)
    (access : Except HostError Capability) {i : NodeId} {f : FieldDecl}
    (hf : (c.round placement access).arena.field? i = some f) :
    c.arena.field? i = some f ∨ ∃ t ∈ c.batch, ∃ r ∈ t.requests, ∃ ty,
      c.types.resolveRef r.ty = .ok ty ∧ f = r.field ty := by
  cases access with
  | error e => exact .inl hf
  | ok capability =>
    -- every turn keeps the claim with the turns seen so far
    have hturns : ∀ i f, (c.round placement (.ok capability)).arena.field? i = some f →
        c.arena.field? i = some f ∨ ∃ x ∈ c.arena.turns placement c.types c.batch, ∃ ty,
          c.types.resolveRef x.request.ty = .ok ty ∧ f = x.request.field ty := by
      refine Arena.processInto_induction (motive := fun seen p => ∀ i f,
        p.arena.field? i = some f → c.arena.field? i = some f ∨ ∃ x ∈ seen, ∃ ty,
          c.types.resolveRef x.request.ty = .ok ty ∧ f = x.request.field ty)
        ?_ (annotationDiagnostics c.errors) capability c.batch fun i f hf => .inl hf
      intro seen p count t r ih i f hf
      have hseen (h : p.arena.field? i = some f) : c.arena.field? i = some f ∨
          ∃ x ∈ seen ++ [⟨t, r, p.arena⟩], ∃ ty,
            c.types.resolveRef x.request.ty = .ok ty ∧ f = x.request.field ty := by
        refine (ih i f h).imp_right ?_
        rintro ⟨x, hx, hfound⟩
        exact ⟨x, List.mem_append_left _ hx, hfound⟩
      rcases Progress.request_cases c.types placement t p count r with
        ⟨-, hskips, -⟩ | ⟨ty, -, hty, hadds, -⟩
      · -- a request that is skipped adds no node
        exact hseen (hskips.arena_eq ▸ hf)
      · rcases hadds.inserted.field?_cases hf with hold | hnew
        · exact hseen hold
        · cases hnew
          exact .inr ⟨_, List.mem_append_right _ List.mem_cons_self, ty, hty, rfl⟩
    refine (hturns i f hf).imp_right ?_
    rintro ⟨x, hx, hfound⟩
    -- the turns are those of the requests of the batch
    have hpair : (x.target, x.request) ∈ requestPairs c.batch := by
      rw [← Progress.turns_pairs c.types placement { arena := c.arena } c.batch]
      exact List.mem_map.mpr ⟨x, hx, rfl⟩
    obtain ⟨t, ht, hmem⟩ := List.mem_flatMap.mp hpair
    obtain ⟨r, hr, heq⟩ := List.mem_map.mp hmem
    obtain ⟨-, rfl⟩ := Prod.mk.inj heq
    exact ⟨t, ht, x.request, hr, hfound⟩

/-- **The type of a synthetic field** is a segment of a path. -/
theorem isSegmentText_of_synthetic (items : List Item) (placement : Placement)
    (access : Except HostError Capability) {i : NodeId} {f : FieldDecl}
    (hf : ((ofItems items).round placement access).arena.field? i = some f)
    (hsynthetic : f.synthetic = true) : IsSegmentText f.ty := by
  rcases field?_round _ placement access hf with hold | ⟨t, ht, r, hr, ty, hty, rfl⟩
  · rw [synthetic_ofItems items hold] at hsynthetic
    cases hsynthetic
  · exact TypeTable.isSegmentText_of_resolveRef (writable_of_mem_batch ht hr) hty

end Catalogue

end FieldGraft
