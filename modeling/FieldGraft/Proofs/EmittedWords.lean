import FieldGraft.Proofs.NodeCompletion
import FieldGraft.Proofs.SyntheticFields

/-!
# The words of emitted code

Emission makes words of texts: of the name and the type of each new field, and of the field names
that it adds to literals. Not every text is a word, so this is a partial function (`Word.ofText?`),
of which `Word.ofText` is an extension.

* `Catalogue.wordTexts` — the texts of which an emission makes words. It follows the walk of
  `Item.emit` with its cursor. A literal may ask for any name in the account of its scope and for no
  other (`Completion.exists_fill`), so these names are all counted.
* `StructEntry.words_of_mem_kept` — the name and the type of a request that is carried out have
  words.
* `Session.injectItems_wordTexts` — these texts are all that a round writes words for: each new
  field, and each member that a literal gets, is written with words of theirs.
* `Session.injectItems_words` — requests can be written, synthetic fields have the types of path
  segments, and so every text of an emission has its word.
-/

namespace FieldGraft

/-! ### Texts and words -/

/-- **The word that a text is made into, if there is one**: the identifier in it, blanks and
comments aside. A text without one is taken as it stands, and then it has to be a name by its
characters; keywords are such names. -/
def Word.ofText? (text : String) : Option Word :=
  match identifier? text with
  | some (name, pos) => some ⟨name, pos⟩
  | none =>
    if Lexeme.anyName text.toList = some text.toList.length then some ⟨text, {}⟩ else none

/-- Two names, or none, are no word; `super` is one, though no identifier. -/
example : Word.ofText? "a b" = none ∧ Word.ofText? "" = none ∧ Word.ofText? "r#self" = none ∧
    Word.ofText? "super" = some ⟨"super", {}⟩ := by decide +kernel

/-- The text has a word, which is the one that emission writes. -/
def HasWord (text : String) : Prop :=
  Word.ofText? text = some (Word.ofText text)

theorem hasWord_of_identifier {text : String} (h : (identifier? text).isSome) :
    HasWord text := by
  obtain ⟨⟨name, pos⟩, hname⟩ := Option.isSome_iff_exists.mp h
  unfold HasWord Word.ofText? Word.ofText
  rw [hname]

theorem hasWord_of_isName {text : String} (h : Lexeme.IsName text.toList) : HasWord text := by
  cases hname : identifier? text with
  | some found => exact hasWord_of_identifier (by rw [hname]; rfl)
  | none =>
    have hwhole := Lexeme.anyName_append h Lexeme.endsName_nil
    rw [List.append_nil] at hwhole
    unfold HasWord Word.ofText? Word.ofText
    rw [hname]
    exact if_pos hwhole

/-! ### The texts of an emission -/

namespace Emission

/-- The texts of a rebuilt field list: type and name of each member that is not declared. -/
def fieldTexts (e : Emission) (node : NodeId) (declared : List FieldDef) : List String :=
  (e.arena.fields node).flatMap fun (id, f) =>
    match (e.slots.lookup id).bind (fun slot => declared[slot]?) with
    | some _ => []
    | none => [f.ty, f.name]

/-- The texts of a struct body, which is rebuilt if it has named fields and received some. -/
def bodyTexts (e : Emission) (node : NodeId) (body : StructBody) : List String :=
  match body, e.newNames node with
  | .named _ fields _, _ :: _ => e.fieldTexts node fields
  | _, _ => []

end Emission

/-- The names in an account. -/
def accountTexts (received : Received) : List String :=
  received.flatMap Prod.snd

mutual

/-- The texts of an item; a module completes its own scope. -/
def Item.wordTexts (e : Emission) (structs : List NodeId) : Item → List String
  | .struct _ _ _ _ body =>
    match structs with
    | [] => []
    | node :: _ => e.bodyTexts node body
  | .module _ _ _ _ items =>
    Item.wordTextsList e structs items ++ accountTexts (Item.emitList e structs items).received
  | _ => []

/-- The texts of the items of a scope. -/
def Item.wordTextsList (e : Emission) (structs : List NodeId) : List Item → List String
  | [] => []
  | i :: is =>
    i.wordTexts e structs ++ Item.wordTextsList e (i.emit e structs).structs is

end

/-- **The texts of which an emission makes words.** -/
def Catalogue.wordTexts (c : Catalogue) (arena : Arena) (summary : Summary) (items : List Item) :
    List String :=
  let e : Emission := { arena, summary, slots := c.slots }
  Item.wordTextsList e c.structs items ++
    accountTexts (Item.emitList e c.structs items).received

/-- Adding defaults adds members behind the given ones, each for one of the names. -/
theorem Completion.exists_foldl_addDefault (fields : List String) (ms : List Member)
    (trailing : Bool) : ∃ names, names ⊆ fields ∧
      (fields.foldl addDefault (ms, trailing)).1 = ms ++ names.map defaultMember := by
  induction fields generalizing ms trailing with
  | nil => exact ⟨[], List.Subset.refl _, (List.append_nil ms).symm⟩
  | cons n fields ih =>
    rw [List.foldl_cons, addDefault]
    split
    · -- a member names the field already
      obtain ⟨names, hsub, hfill⟩ := ih ms trailing
      exact ⟨names, List.subset_cons_of_subset n hsub, hfill⟩
    · obtain ⟨names, hsub, hfill⟩ := ih (ms ++ [defaultMember n]) false
      refine ⟨n :: names, List.cons_subset_cons n hsub, ?_⟩
      rw [hfill, List.append_assoc]
      rfl

/-- **A literal makes words of names in the account only**, one for each member that it gets. -/
theorem Completion.exists_fill (s : Completion) (p : Path) (ms : List Member) (trailing : Bool)
    (rest : List Code) : ∃ names : List String, (∀ n ∈ names, n ∈ accountTexts s.received) ∧
      (s.fill p ms trailing rest).1 = ms ++ names.map defaultMember := by
  unfold fill
  split
  · next fields htarget =>
    obtain ⟨names, hsub, hfill⟩ := exists_foldl_addDefault fields ms trailing
    refine ⟨names, fun n hn => ?_, hfill⟩
    -- what a path means is looked up in the account
    unfold target? at htarget
    split at htarget
    · obtain ⟨d, -, hlookup⟩ := Option.bind_eq_some_iff.mp htarget
      obtain ⟨before, after, happend, -⟩ := List.lookup_eq_some_iff.mp hlookup
      have hmem : (d, fields) ∈ s.received := by
        rw [happend]
        exact List.mem_append_right _ List.mem_cons_self
      exact List.mem_flatMap.mpr ⟨_, hmem, hsub hn⟩
    · cases htarget
  · exact ⟨[], fun _ hn => absurd hn List.not_mem_nil, (List.append_nil ms).symm⟩

/-! ### The requests of a struct -/

/-- A kept request has the type that it is kept with. -/
theorem resolveRef_of_mem_keptRequests {types : TypeResolver} {opened : Bool}
    {declared : List String} {requests : List Request} {k : Request × TypeName}
    (h : k ∈ keptRequests types opened declared requests) :
    types.resolveRef k.1.ty = .ok k.2 := by
  induction requests using List.reverseRecOn with
  | nil => cases h
  | append_singleton rs r ih =>
    rw [keptRequests, List.foldl_append, ← keptRequests, List.foldl_cons, List.foldl_nil,
      keepRequest] at h
    split at h
    · -- the request was kept with the type that it has, and what was kept before stays
      next ty hty =>
      split at h
      · rcases List.mem_append.mp h with hold | hnew
        · exact ih hold
        · cases List.mem_singleton.mp hnew
          exact hty
      · exact ih h
    · exact ih h

/-- **The texts of a request that is carried out have words.** -/
theorem StructEntry.words_of_mem_kept {c : Catalogue} {access : Except HostError Capability}
    {x : StructEntry} {k : Request × TypeName} (h : k ∈ x.kept c access) :
    HasWord k.1.name ∧ HasWord k.2.simple := by
  unfold kept at h
  split at h
  · -- what is kept was asked for, and what is asked for was read and can be written
    obtain ⟨-, -, hmem⟩ := keptRequests_fresh c.types (c.arena.takesFields x.node)
      x.decl.fieldNames x.decl.requests
    have hwritable : k.1.Writable :=
      TypeItem.writable_of_mem_requests (d := ⟨x.decl.body.kind, x.decl.attrs, x.decl.name⟩)
        (hmem k h)
    exact ⟨hasWord_of_identifier (identifier?_isSome_iff.mpr hwritable.name_lexes),
      hasWord_of_isName (TypeTable.isSegmentText_of_resolveRef hwritable
        (resolveRef_of_mem_keptRequests h)).isName⟩
  · cases h

namespace Catalogue

variable {c : Catalogue} {x : StructEntry}

/-- The texts of a struct are those of its requests. -/
theorem hasWord_of_mem_bodyTexts (hc : c.WellFormed) (h : c.Entered x.decl x.node)
    (placement : Placement) (access : Except HostError Capability) {text : String}
    (ht : text ∈ (c.emission placement access).bodyTexts x.node x.decl.body) : HasWord text := by
  unfold Emission.bodyTexts at ht
  split at ht
  · next clause fields trailing _ _ hbody _ =>
    obtain ⟨start, hreceived⟩ := round_receivedAt hc h placement access
    obtain ⟨⟨id, f⟩, hy, ht⟩ := List.mem_flatMap.mp ht
    rw [emission_fields hreceived h, List.mem_append] at hy
    dsimp only at ht
    split at ht
    · cases ht
    · next hslot =>
      rcases hy with hy | hy
      · rw [Placement.mem_arrange, keptFields, List.mem_mapIdx] at hy
        obtain ⟨i, hi, hnew⟩ := hy
        cases hnew
        -- a new field has the texts of its request
        obtain ⟨hname, hty⟩ := StructEntry.words_of_mem_kept (List.getElem_mem hi)
        rcases List.mem_pair.mp ht with rfl | rfl
        · exact hty
        · exact hname
      · -- a declared field has a position, and stands there
        rw [declaredFields, List.mem_mapIdx] at hy
        obtain ⟨i, hi, hold⟩ := hy
        cases hold
        have hlookup := h.slot_eq i hi
        rw [hbody] at hi
        change (c.slots.lookup _).bind _ = none at hslot
        rw [hlookup, Option.bind_some, List.getElem?_eq_none_iff] at hslot
        exact absurd hi (Nat.not_lt.mpr hslot)
  · cases ht

/-- Name and type of a request that was carried out are among the texts of its struct. -/
theorem mem_bodyTexts_of_mem_kept (hc : c.WellFormed) (h : c.Entered x.decl x.node)
    (placement : Placement) (access : Except HostError Capability) {k : Request × TypeName}
    (hk : k ∈ x.kept c access) :
    k.1.name ∈ (c.emission placement access).bodyTexts x.node x.decl.body ∧
      k.2.simple ∈ (c.emission placement access).bodyTexts x.node x.decl.body := by
  obtain ⟨start, hreceived⟩ := round_receivedAt hc h placement access
  -- a struct that received a field has named ones, and its body is rebuilt
  obtain ⟨clause, fields, trailing, hbody⟩ :
      ∃ clause fields trailing, x.decl.body = .named clause fields trailing := by
    cases hbody : x.decl.body with
    | named clause fields trailing => exact ⟨clause, fields, trailing, rfl⟩
    | tuple fields clause =>
      rw [kept_eq_nil h (by rw [hbody]; exact DeclKind.noConfusion)] at hk
      cases hk
    | unit clause =>
      rw [kept_eq_nil h (by rw [hbody]; exact DeclKind.noConfusion)] at hk
      cases hk
  have hname : k.1.name ∈ (c.emission placement access).newNames x.node := by
    rw [newNames_eq hc h placement access]
    exact List.mem_map_of_mem hk
  have htexts : (c.emission placement access).bodyTexts x.node x.decl.body =
      (c.emission placement access).fieldTexts x.node fields := by
    obtain ⟨name, names, hnames⟩ := List.exists_cons_of_ne_nil (List.ne_nil_of_mem hname)
    rw [hbody]
    unfold Emission.bodyTexts
    rw [hnames]
  -- its field is new, so no position is recorded for it
  obtain ⟨i, hi, rfl⟩ := List.getElem_of_mem hk
  have hy : (⟨⟨start + i⟩, (x.kept c access)[i].1.field (x.kept c access)[i].2⟩ :
      NodeId × FieldDecl) ∈ keptFields start (x.kept c access) :=
    List.mem_mapIdx.mpr ⟨i, hi, rfl⟩
  have hfield := List.mem_append_left (declaredFields (x.node.index + 1) x.decl.body.fields)
    ((Placement.mem_arrange placement).mpr hy)
  rw [← emission_fields hreceived h] at hfield
  have hmem : ∀ text, text = (x.kept c access)[i].2.simple ∨ text = (x.kept c access)[i].1.name →
      text ∈ (c.emission placement access).fieldTexts x.node fields := by
    intro text htext
    refine List.mem_flatMap.mpr ⟨_, hfield, ?_⟩
    dsimp only
    rw [show (c.emission placement access).slots.lookup _ = none from
      lookup_slots_of_mem_keptFields hreceived hc hy]
    exact List.mem_pair.mpr htext
  rw [htexts]
  exact ⟨hmem _ (.inr rfl), hmem _ (.inl rfl)⟩

/-- The names in an account are those of requests. -/
theorem exists_kept_of_mem_accountTexts {access : Except HostError Capability} {depth : Nat}
    {xs : List StructEntry} {text : String}
    (h : text ∈ accountTexts (scopeReceived c access depth xs)) :
    ∃ x ∈ xs, ∃ k ∈ x.kept c access, k.1.name = text := by
  obtain ⟨r, hr, htext⟩ := List.mem_flatMap.mp h
  rw [scopeReceived, List.mem_reverse, List.mem_filterMap] at hr
  obtain ⟨x, hx, hentry⟩ := hr
  split at hentry
  · cases hentry
  · cases hentry
    exact ⟨x, hx, List.mem_map.mp htext⟩

theorem hasWord_of_mem_accountTexts {access : Except HostError Capability} {depth : Nat}
    {xs : List StructEntry} {text : String}
    (h : text ∈ accountTexts (scopeReceived c access depth xs)) : HasWord text := by
  obtain ⟨x, -, k, hk, rfl⟩ := exists_kept_of_mem_accountTexts h
  exact (StructEntry.words_of_mem_kept hk).1

end Catalogue

/-! ### The walk over the items -/

section Walk

variable {c : Catalogue} (placement : Placement) (access : Except HostError Capability)

mutual

/-- The texts of an item whose structs are next on the cursor. -/
theorem Item.hasWord_of_mem_wordTexts (hc : c.WellFormed) (path : List String) :
    ∀ (i : Item) (nodes rest : List NodeId),
      List.Forall₂ c.Entered (i.structDecls path) nodes →
      ∀ text ∈ i.wordTexts (c.emission placement access) (nodes ++ rest), HasWord text
  | .struct attrs vis name generics body, nodes, rest, h, text, ht => by
    -- the texts are those of the struct's own fields
    obtain ⟨node, rfl, hentered⟩ := Item.exists_node_of_struct h
    exact Catalogue.hasWord_of_mem_bodyTexts (x := ⟨⟨path, attrs, name, body⟩, node⟩) hc hentered
      placement access ht
  | .module attrs lead name inner items, nodes, rest, h, text, ht => by
    rw [Item.wordTexts, List.mem_append] at ht
    rcases ht with ht | ht
    · exact Item.hasWord_of_mem_wordTextsList hc (path ++ [name.text]) items nodes rest h text ht
    · -- the account of the module names what its structs received
      rw [(Item.emitList_walk placement access hc (path ++ [name.text]) items nodes rest h).2] at ht
      exact Catalogue.hasWord_of_mem_accountTexts ht
  | .nominal _ _ _ _ _, _, _, _, _, ht => nomatch ht
  | .use _ _ _ _, _, _, _, _, ht => nomatch ht
  | .impl _ _ _ _ _ _ _, _, _, _, _, ht => nomatch ht
  | .other _ _, _, _, _, _, ht => nomatch ht

theorem Item.hasWord_of_mem_wordTextsList (hc : c.WellFormed) (path : List String) :
    ∀ (is : List Item) (nodes rest : List NodeId),
      List.Forall₂ c.Entered (Item.structDeclsList path is) nodes →
      ∀ text ∈ Item.wordTextsList (c.emission placement access) (nodes ++ rest) is, HasWord text
  | [], _, _, _, _, ht => nomatch ht
  | i :: is, nodes, rest, h, text, ht => by
    obtain ⟨nodes₁, nodes₂, rfl, h₁, h₂⟩ := forall₂_append_inv h
    have hcursor := (Item.emit_walk placement access hc path i nodes₁ (nodes₂ ++ rest) h₁).1
    rw [List.append_assoc, Item.wordTextsList, hcursor, List.mem_append] at ht
    rcases ht with ht | ht
    · exact Item.hasWord_of_mem_wordTexts hc path i nodes₁ (nodes₂ ++ rest) h₁ text ht
    · exact Item.hasWord_of_mem_wordTextsList hc path is nodes₂ rest h₂ text ht

/-- The texts of a request that is carried out on a struct of an item are among those of the
item. -/
theorem Item.mem_wordTexts_of_mem_kept (hc : c.WellFormed) (path : List String) :
    ∀ (i : Item) (nodes rest : List NodeId),
      List.Forall₂ c.Entered (i.structDecls path) nodes →
      ∀ x ∈ List.zipWith StructEntry.mk (i.structDecls path) nodes, ∀ k ∈ x.kept c access,
        k.1.name ∈ i.wordTexts (c.emission placement access) (nodes ++ rest) ∧
          k.2.simple ∈ i.wordTexts (c.emission placement access) (nodes ++ rest)
  | .struct attrs vis name generics body, nodes, rest, h, x, hx, k, hk => by
    obtain ⟨node, rfl, hentered⟩ := Item.exists_node_of_struct h
    cases List.mem_singleton.mp hx
    exact Catalogue.mem_bodyTexts_of_mem_kept hc hentered placement access hk
  | .module attrs lead name inner items, nodes, rest, h, x, hx, k, hk => by
    have hinner :=
      Item.mem_wordTextsList_of_mem_kept hc (path ++ [name.text]) items nodes rest h x hx k hk
    exact ⟨List.mem_append_left _ hinner.1, List.mem_append_left _ hinner.2⟩
  | .nominal _ _ _ _ _, _, _, _, _, hx, _, _ => nomatch hx
  | .use _ _ _ _, _, _, _, _, hx, _, _ => nomatch hx
  | .impl _ _ _ _ _ _ _, _, _, _, _, hx, _, _ => nomatch hx
  | .other _ _, _, _, _, _, hx, _, _ => nomatch hx

theorem Item.mem_wordTextsList_of_mem_kept (hc : c.WellFormed) (path : List String) :
    ∀ (is : List Item) (nodes rest : List NodeId),
      List.Forall₂ c.Entered (Item.structDeclsList path is) nodes →
      ∀ x ∈ List.zipWith StructEntry.mk (Item.structDeclsList path is) nodes,
      ∀ k ∈ x.kept c access,
        k.1.name ∈ Item.wordTextsList (c.emission placement access) (nodes ++ rest) is ∧
          k.2.simple ∈ Item.wordTextsList (c.emission placement access) (nodes ++ rest) is
  | [], _, _, _, _, hx, _, _ => nomatch hx
  | i :: is, nodes, rest, h, x, hx, k, hk => by
    obtain ⟨nodes₁, nodes₂, rfl, h₁, h₂⟩ := forall₂_append_inv h
    -- the first item leaves the nodes of the others to them
    have hcursor := (Item.emit_walk placement access hc path i nodes₁ (nodes₂ ++ rest) h₁).1
    rw [Item.structDeclsList, List.zipWith_append h₁.length_eq, List.mem_append] at hx
    rw [List.append_assoc, Item.wordTextsList, hcursor]
    rcases hx with hx | hx
    · have hfirst := Item.mem_wordTexts_of_mem_kept hc path i nodes₁ (nodes₂ ++ rest) h₁ x hx k hk
      exact ⟨List.mem_append_left _ hfirst.1, List.mem_append_left _ hfirst.2⟩
    · have hrest := Item.mem_wordTextsList_of_mem_kept hc path is nodes₂ rest h₂ x hx k hk
      exact ⟨List.mem_append_right _ hrest.1, List.mem_append_right _ hrest.2⟩

end

end Walk

/-! ### Where the words stand -/

/-- The texts of which a round of a session makes words. -/
def Session.wordTexts (s : Session) (items : List Item) : List String :=
  (Catalogue.ofItems items).wordTexts (s.injectItems items).2.2.arena
    (s.injectItems items).2.2.summary items

theorem Session.wordTexts_eq (s : Session) (items : List Item) :
    s.wordTexts items = Item.wordTextsList
        ((Catalogue.ofItems items).emission s.placement s.authorize.2.1)
        ((Catalogue.ofItems items).structs ++ []) items ++
      accountTexts (scopeReceived (Catalogue.ofItems items) s.authorize.2.1 0
        (structEntries items)) := by
  obtain ⟨hc, hentered⟩ := Catalogue.ofItems_entered items
  have hwalk := (Item.emitList_walk s.placement s.authorize.2.1 hc [] items _ [] hentered).2
  rw [List.length_nil, ← structEntries] at hwalk
  rw [← hwalk, List.append_nil]
  rfl

/-- The texts of a request that is carried out are among them. -/
theorem Session.mem_wordTexts_of_mem_kept (s : Session) {items : List Item} {x : StructEntry}
    (hx : x ∈ structEntries items) {k : Request × TypeName}
    (hk : k ∈ x.kept (Catalogue.ofItems items) s.authorize.2.1) :
    k.1.name ∈ s.wordTexts items ∧ k.2.simple ∈ s.wordTexts items := by
  obtain ⟨hc, hentered⟩ := Catalogue.ofItems_entered items
  have hmem := Item.mem_wordTextsList_of_mem_kept s.placement s.authorize.2.1 hc [] items _ []
    hentered x hx k hk
  rw [Session.wordTexts_eq]
  exact ⟨List.mem_append_left _ hmem.1, List.mem_append_left _ hmem.2⟩

/-- **Each text of an emission has its word.** -/
theorem Session.hasWord_of_mem_wordTexts (s : Session) {items : List Item} {text : String}
    (h : text ∈ s.wordTexts items) : HasWord text := by
  obtain ⟨hc, hentered⟩ := Catalogue.ofItems_entered items
  rw [Session.wordTexts_eq, List.mem_append] at h
  rcases h with h | h
  · exact Item.hasWord_of_mem_wordTextsList s.placement s.authorize.2.1 hc [] items _ [] hentered
      text h
  · exact Catalogue.hasWord_of_mem_accountTexts h

/-- A field is written with the words of two of the texts, as its name and as its type. -/
def FieldDef.MadeOf (texts : List String) (f : FieldDef) : Prop :=
  ∃ vis, ∃ name ∈ texts, ∃ ty ∈ texts,
    f = .mk [] vis (Word.ofText name) (.path (.named none [.mk (Word.ofText ty) []]))

/-- `d'` has new fields made of the texts, and behind them fields with the names of those of `d`. -/
def StructDecl.GrowsBy (texts : List String) (d d' : StructDecl) : Prop :=
  ∃ new old, d'.body.fields = new ++ old ∧ (∀ f ∈ new, f.MadeOf texts) ∧
    old.map FieldDef.name = d.body.fields.map FieldDef.name

/-- If `n` is a literal then so is `n'`, with members of the same names and behind them defaults for
some of the texts. -/
def CodeNode.GrowsBy (texts : List String) (n n' : CodeNode) : Prop :=
  ∀ {p : Path} {ms : List Member} {trailing : Bool} {rest : List Code},
    n.form = .literal p ms trailing rest →
    ∃ (p' : Path) (ms' : List Member) (names : List String) (trailing' : Bool)
      (rest' : List Code), ms'.map Member.label = ms.map Member.label ∧
      (∀ name ∈ names, name ∈ texts) ∧
      n'.form = .literal p' (ms' ++ names.map Completion.defaultMember) trailing' rest'

theorem StructBody.fields_eq_nil {body : StructBody} (h : body.kind ≠ .record) :
    body.fields = [] := by
  cases body with
  | named clause fields trailing => exact absurd rfl h
  | tuple fields clause => rfl
  | unit clause => rfl

theorem StructEntry.emitted_growsBy {c : Catalogue} {access : Except HostError Capability}
    {x : StructEntry} {texts : List String} (placement : Placement) (f : List String → Received)
    (htexts : ∀ k ∈ x.kept c access, k.1.name ∈ texts ∧ k.2.simple ∈ texts) :
    x.decl.GrowsBy texts (x.emitted c placement access f) := by
  by_cases hkind : x.decl.body.kind = .record
  · refine ⟨_, _, x.emitted_fields placement f hkind, fun d hd => ?_, ?_⟩
    · obtain ⟨k, hk, rfl⟩ := List.mem_map.mp hd
      obtain ⟨hname, hty⟩ := htexts k ((Placement.mem_arrange _).mp hk)
      exact ⟨_, _, hname, _, hty, rfl⟩
    · rw [List.map_map]
      exact List.map_congr_left fun d _ => d.name_complete _
  · -- without named fields there are none before and none after
    have hkind' : (x.emitted c placement access f).body.kind ≠ .record := by rwa [emitted_kind]
    refine ⟨[], [], StructBody.fields_eq_nil hkind', fun d hd => absurd hd List.not_mem_nil, ?_⟩
    rw [StructBody.fields_eq_nil hkind]

theorem CodeNode.complete_growsBy {texts : List String} {f : List String → Received}
    (n : CodeNode) (h : ∀ path, ∀ text ∈ accountTexts (f path), text ∈ texts) :
    n.GrowsBy texts (n.complete f) := by
  obtain ⟨⟨scope, selfTy⟩, form⟩ := n
  intro p ms trailing rest hform
  cases hform
  cases scope with
  -- a node that is in no scope is not filled
  | none =>
    refine ⟨p, ms, [], trailing, rest, rfl, fun _ hn => absurd hn List.not_mem_nil, ?_⟩
    rw [List.map_nil, List.append_nil]
    rfl
  | some path =>
    let s : Completion := ⟨f path, selfTy⟩
    obtain ⟨names, hnames, hfill⟩ := s.exists_fill (p.complete s) (Member.completeList s ms)
      trailing (Code.completeList s rest)
    exact ⟨_, _, names, _, _, Member.map_label_completeList s ms,
      fun name hname => h path name (hnames name hname),
      congrArg (fun members => NodeForm.literal (p.complete s) members _ _) hfill⟩

/-- **Where the words are written.** The structs and the literals of the items after a round are
those of the unit, one for one. A struct gains fields in front of its own, each written with words
of the listed texts, and a literal gains members behind its own, each for one of the texts. By
`Session.hasWord_of_mem_wordTexts` all these texts have words. -/
theorem Session.injectItems_wordTexts (s : Session) (items : List Item) :
    List.Forall₂ (StructDecl.GrowsBy (s.wordTexts items)) (Item.structDeclsList [] items)
        (Item.structDeclsList [] (s.injectItems items).2.1) ∧
      List.Forall₂ (CodeNode.GrowsBy (s.wordTexts items)) (Item.scopeNodesList [] items)
        (Item.scopeNodesList [] (s.injectItems items).2.1) := by
  -- the names in an account of a scope are those of requests, and these are among the texts
  have hscopes : ∀ sc ∈ unitScopes items, ∃ f : List String → Received,
      (∀ path, ∀ text ∈ accountTexts (f path), text ∈ s.wordTexts items) ∧
        f sc.path = scopeReceived (Catalogue.ofItems items) s.authorize.2.1 sc.path.length
          sc.structs := by
    intro sc hsc
    refine ⟨fun _ => _, fun _ text htext => ?_, rfl⟩
    obtain ⟨x, hx, k, hk, rfl⟩ := Catalogue.exists_kept_of_mem_accountTexts htext
    exact (s.mem_wordTexts_of_mem_kept (unitScopes_structs hsc hx).1 hk).1
  have hwritten := s.injectItems_written items
    (fun _ f => ∀ path, ∀ text ∈ accountTexts (f path), text ∈ s.wordTexts items) hscopes
  constructor
  · have hstructs := hwritten.structs
    rw [← (structEntries_entered items).1, List.forall₂_map_left_iff]
    rw [List.forall₂_iff_zip] at hstructs ⊢
    refine ⟨hstructs.1, fun {x d} hxd => ?_⟩
    obtain ⟨f, -, rfl⟩ := hstructs.2 hxd
    exact x.emitted_growsBy s.placement f fun k hk =>
      s.mem_wordTexts_of_mem_kept (List.of_mem_zip hxd).1 hk
  · refine hwritten.nodes.imp ?_
    rintro n _ ⟨-, f, hf, rfl⟩
    exact n.complete_growsBy hf

/-- **Requests that pass reading are safe to emit.** Every request of the batch can be written,
every synthetic field after the round has a type that is one segment of a path, and each text of
which emission makes a word has one. -/
theorem Session.injectItems_words (s : Session) (items : List Item) :
    (∀ t ∈ (Catalogue.ofItems items).batch, ∀ r ∈ t.requests, r.Writable) ∧
    (∀ id f, (s.injectItems items).2.2.arena.field? id = some f → f.synthetic = true →
      IsSegmentText f.ty) ∧
    ∀ text ∈ (Catalogue.ofItems items).wordTexts (s.injectItems items).2.2.arena
      (s.injectItems items).2.2.summary items, Word.ofText? text = some (Word.ofText text) := by
  obtain ⟨harena, -, -⟩ := Session.report_eq_round (s := s) rfl items
  refine ⟨fun t ht r hr => Catalogue.writable_of_mem_batch ht hr, fun id f hf hsynthetic => ?_,
    fun text ht => s.hasWord_of_mem_wordTexts ht⟩
  rw [harena] at hf
  exact Catalogue.isSegmentText_of_synthetic items _ _ hf hsynthetic

end FieldGraft
