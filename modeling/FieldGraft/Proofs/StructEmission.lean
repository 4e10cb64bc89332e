import FieldGraft.Proofs.CatalogueEntries
import FieldGraft.Proofs.CodeNodes
import FieldGraft.Session

/-!
# Emitted structs

A catalogue and the emission after a round walk over the same items, tied by nothing but the list of
struct nodes. Here the two are brought together.

* `StructEntry` — a struct of a unit with its node; `structEntries` lists them in order.
* `StructEntry.kept` — the requests that a round carries out on a struct, a fold over them.
* `Catalogue.structBody_eq` — emission writes these, in the order of the placement, in front of the
  declared fields.
* `Item.emitList_emitted` — the walk over the items: the cursor meets each struct at its own node,
  and what comes out is completed scope by scope, each by an account of what its structs received.
* `Session.injectItems_written` — so it is for a whole round. What is said about emitted items
  elsewhere follows from this theorem, with a suitable choice of accounts.
-/

namespace FieldGraft

/-! ### The requests that a round carries out -/

/-- A struct of a unit and its node in the catalogue. -/
structure StructEntry where
  decl : StructDecl
  node : NodeId

/-- The structs of a unit with their nodes, in the order of the items. -/
def structEntries (items : List Item) : List StructEntry :=
  List.zipWith StructEntry.mk (Item.structDeclsList [] items) (Catalogue.ofItems items).structs

/-- **The requests that a round carries out on a struct**, each with its type. Without access there
are none. -/
def StructEntry.kept (c : Catalogue) (access : Except HostError Capability) (x : StructEntry) :
    List (Request × TypeName) :=
  match access with
  | .ok _ =>
    keptRequests c.types (c.arena.takesFields x.node) x.decl.fieldNames x.decl.requests
  | .error _ => []

/-- The names that a struct receives in a round, in the order of acceptance. -/
def StructEntry.received (c : Catalogue) (access : Except HostError Capability)
    (x : StructEntry) : List String :=
  (x.kept c access).map (fun k => k.1.name)

/-- The definition written for a request that was carried out. -/
def keptDefinition (k : Request × TypeName) : FieldDef :=
  .mk [] k.1.modifiers.fieldVisibility (Word.ofText k.1.name)
    (.path (.named none [.mk (Word.ofText k.2.simple) []]))

/-- A struct body with new fields in front. -/
def StructBody.graft (new : List FieldDef) : StructBody → StructBody
  | .named clause fields trailing => .named clause (new ++ fields) (trailing && new.isEmpty)
  | body => body

@[simp] theorem StructBody.graft_nil (body : StructBody) : body.graft [] = body := by
  cases body <;> simp [graft]

/-- A struct that is not open for fields keeps no request. -/
theorem keptRequests_closed (types : TypeResolver) (declared : List String)
    (requests : List Request) : keptRequests types false declared requests = [] := by
  unfold keptRequests
  induction requests with
  | nil => rfl
  | cons r rs ih =>
    -- with nothing kept so far, the next request is not kept either
    have hstep : keepRequest types false declared [] r = [] := by
      unfold keepRequest
      cases types.resolveRef r.ty <;> simp
    rw [List.foldl_cons, hstep, ih]

/-- A member with a recorded position is the declared field there; any other is written anew. -/
theorem Emission.rebuild_eq_map (e : Emission) (node : NodeId) (declared : List FieldDef) :
    e.rebuild node declared = (e.arena.fields node).map (fun f =>
      ((e.slots.lookup f.1).bind (fun slot => declared[slot]?)).getD f.2.definition) := by
  unfold rebuild
  refine List.map_congr_left fun f _ => ?_
  obtain ⟨id, decl⟩ := f
  dsimp only
  cases (e.slots.lookup id).bind (fun slot => declared[slot]?) <;> rfl

namespace Catalogue

variable {c : Catalogue} {x : StructEntry} {placement : Placement}
  {access : Except HostError Capability}

theorem takesFields_of_entered (h : c.Entered x.decl x.node) :
    c.arena.takesFields x.node =
      (x.decl.body.kind = .record && c.arena.hasFreeConstructor x.node) := by
  obtain ⟨ms, hms⟩ := h.type_eq
  unfold Arena.takesFields
  rw [hms]

theorem fieldNames_of_entered (h : c.Entered x.decl x.node) :
    c.arena.fieldNames x.node = x.decl.fieldNames := by
  unfold Arena.fieldNames StructDecl.fieldNames
  rw [h.fields_eq]
  refine List.ext_getElem? fun k => ?_
  rw [declaredFields, List.getElem?_map, List.getElem?_mapIdx, List.getElem?_map]
  cases x.decl.body.fields[k]? with
  | none => rfl
  | some f => cases f; rfl

/-- What a round leaves at a struct: the fields of the requests that it carries out. -/
theorem round_receivedAt (hc : c.WellFormed) (h : c.Entered x.decl x.node)
    (placement : Placement) (access : Except HostError Capability) :
    ∃ start, Progress.ReceivedAt placement x.node start { arena := c.arena }
      (c.round placement access) (x.kept c access) := by
  cases access with
  | error e =>
    -- without access the arena stays as it is
    refine ⟨c.arena.size, Nat.le_refl _, ?_, rfl, fun _ hx => absurd hx List.not_mem_nil⟩
    cases placement <;> rfl
  | ok capability =>
    obtain ⟨start, hreceived⟩ := Progress.foldl_target_receivedAt c.types placement
      (p := { arena := c.arena, diagnostics := annotationDiagnostics c.errors
              log := [roundRecord capability placement c.batch] })
      hc.closed h.known hc.batch_nodup
    rw [fieldNames_of_entered h, h.requests_eq] at hreceived
    -- the diagnostics of refused annotations concern neither the arena nor the summary
    exact ⟨start, hreceived.start_le, hreceived.fields_eq, hreceived.injected_eq,
      hreceived.field_eq⟩

/-- A round as emission sees it. -/
def emission (c : Catalogue) (placement : Placement) (access : Except HostError Capability) :
    Emission :=
  { arena := (c.round placement access).arena, summary := (c.round placement access).summary
    slots := c.slots }

section Received

variable {start : Nat} (hreceived : Progress.ReceivedAt placement x.node start
  { arena := c.arena } (c.round placement access) (x.kept c access))
include hreceived

/-- The fields that emission finds. -/
theorem emission_fields (h : c.Entered x.decl x.node) :
    (c.emission placement access).arena.fields x.node =
      placement.arrange (keptFields start (x.kept c access)) ++
        declaredFields (x.node.index + 1) x.decl.body.fields :=
  hreceived.fields_eq.trans (congrArg _ h.fields_eq)

/-- The new ones among them, as the summary has them. -/
theorem emission_injectedInto :
    (c.emission placement access).summary.injectedInto x.node =
      (keptFields start (x.kept c access)).map Prod.fst :=
  hreceived.injected_eq

/-- For a field that the round added no position is recorded: its id is newer. -/
theorem lookup_slots_of_mem_keptFields (hc : c.WellFormed) {y : NodeId × FieldDecl}
    (hy : y ∈ keptFields start (x.kept c access)) : c.slots.lookup y.1 = none := by
  rw [keptFields, List.mem_mapIdx] at hy
  obtain ⟨k, hk, rfl⟩ := hy
  rw [List.lookup_eq_none_iff]
  intro slot hslot
  have hlt := hc.slots_lt slot hslot
  have hle : c.arena.size ≤ start := hreceived.start_le
  rw [bne_iff_ne]
  rintro heq
  rw [← heq] at hlt
  exact absurd (Nat.lt_of_lt_of_le hlt hle) (Nat.not_lt.mpr (Nat.le_add_right _ _))

end Received

/-- The names that emission finds are those of the requests carried out. -/
theorem newNames_eq (hc : c.WellFormed) (h : c.Entered x.decl x.node) (placement : Placement)
    (access : Except HostError Capability) :
    (c.emission placement access).newNames x.node = x.received c access := by
  obtain ⟨start, hreceived⟩ := round_receivedAt hc h placement access
  unfold Emission.newNames StructEntry.received
  rw [emission_injectedInto hreceived, List.filterMap_map, ← keptFields_names start,
    ← List.filterMap_eq_map]
  refine List.filterMap_congr fun y hy => ?_
  have hfield : (c.emission placement access).arena.field? y.1 = some y.2 :=
    hreceived.field_eq y hy
  rw [Function.comp_apply, hfield]
  rfl

/-- The field list in the order of the arena: new definitions, then the declared fields as they
stand. -/
theorem rebuild_eq (hc : c.WellFormed) (h : c.Entered x.decl x.node) (placement : Placement)
    (access : Except HostError Capability) :
    (c.emission placement access).rebuild x.node x.decl.body.fields =
      (placement.arrange (x.kept c access)).map keptDefinition ++ x.decl.body.fields := by
  obtain ⟨start, hreceived⟩ := round_receivedAt hc h placement access
  rw [Emission.rebuild_eq_map, emission_fields hreceived h, List.map_append]
  congr 1
  · -- a new field has no position in the source, so it is written anew
    have hdefinitions : (placement.arrange (x.kept c access)).map keptDefinition =
        (placement.arrange (keptFields start (x.kept c access))).map
          (fun f => f.2.definition) := by
      rw [Placement.map_arrange, Placement.map_arrange, keptFields_map FieldDecl.definition]
      rfl
    rw [hdefinitions]
    refine List.map_congr_left fun y hy => ?_
    show ((c.slots.lookup y.1).bind _).getD _ = _
    rw [lookup_slots_of_mem_keptFields hreceived hc ((Placement.mem_arrange _).mp hy)]
    rfl
  · -- the `k`-th declared field has the recorded position `k`
    refine List.ext_getElem? fun k => ?_
    rw [declaredFields, List.getElem?_map, List.getElem?_mapIdx]
    cases hk : x.decl.body.fields[k]? with
    | none => rfl
    | some f =>
      have hlt : k < x.decl.body.fields.length := by
        obtain ⟨hlt, -⟩ := List.getElem?_eq_some_iff.mp hk
        exact hlt
      show some (((c.slots.lookup _).bind _).getD _) = some f
      rw [h.slot_eq k hlt, Option.bind_some, hk]
      rfl

/-- Only a struct with named fields receives any. -/
theorem kept_eq_nil (h : c.Entered x.decl x.node) (hkind : x.decl.body.kind ≠ .record)
    (access : Except HostError Capability) : x.kept c access = [] := by
  unfold StructEntry.kept
  cases access with
  | error e => rfl
  | ok capability =>
    simp only [takesFields_of_entered h, hkind, decide_false, Bool.false_and]
    exact keptRequests_closed _ _ _

/-- **The body of an emitted struct**, and the names that count as received. -/
theorem structBody_eq (hc : c.WellFormed) (h : c.Entered x.decl x.node) (placement : Placement)
    (access : Except HostError Capability) :
    (c.emission placement access).structBody x.node x.decl.body =
      (x.decl.body.graft ((placement.arrange (x.kept c access)).map keptDefinition),
        x.received c access) := by
  have hrebuild := rebuild_eq hc h placement access
  have hnames := newNames_eq hc h placement access
  unfold Emission.structBody
  rw [hnames]
  cases hbody : x.decl.body with
  -- only a struct with named fields receives any
  | named clause fields trailing =>
    rw [hbody] at hrebuild
    cases hkept : x.kept c access with
    | nil =>
      -- nothing new: the body is not rebuilt at all
      simp only [StructEntry.received, hkept, List.map_nil]
      cases placement <;> simp [Placement.arrange]
    | cons k ks =>
      have hnonempty : ((placement.arrange (k :: ks)).map keptDefinition).isEmpty = false := by
        cases placement <;> simp [Placement.arrange]
      simp only [StructEntry.received, hkept, List.map_cons, StructBody.graft, hnonempty,
        Bool.and_false]
      rw [show (c.emission placement access).rebuild x.node fields = _ from hrebuild, hkept]
      rfl
  | tuple fields clause =>
    rw [StructEntry.received, kept_eq_nil h (by rw [hbody]; exact DeclKind.noConfusion)]
    rfl
  | unit clause =>
    rw [StructEntry.received, kept_eq_nil h (by rw [hbody]; exact DeclKind.noConfusion)]
    rfl

end Catalogue

/-! ### The nodes of a unit -/

mutual

/-- The literals, patterns and inner structs in an item of the module scope with the given path.
Annotations do not count, since they are removed; what stands on a module itself has no scope. -/
def Item.scopeNodes (path : List String) : Item → List CodeNode
  | .struct attrs vis _ generics body =>
    Attribute.nodesList ⟨some path, none⟩ (stripAnnotations attrs) ++
      vis.nodes ⟨some path, none⟩ ++ Code.nodesList ⟨some path, none⟩ generics ++
      body.nodes ⟨some path, none⟩
  | .nominal _ attrs lead _ tail =>
    Attribute.nodesList ⟨some path, none⟩ (stripAnnotations attrs) ++
      Code.nodesList ⟨some path, none⟩ lead ++ Code.nodesList ⟨some path, none⟩ tail
  | .module attrs lead name inner items =>
    (Attribute.nodesList ⟨some path, none⟩ attrs ++ Code.nodesList ⟨some path, none⟩ lead ++
      Attribute.nodesList ⟨some path, none⟩ inner).map CodeNode.shut ++
      Item.scopeNodesList (path ++ [name.text]) items
  | .use attrs vis global tree => (Item.use attrs vis global tree).nodes ⟨some path, none⟩
  | .impl attrs lead trait selfTy clause inner members =>
    (Item.impl attrs lead trait selfTy clause inner members).nodes ⟨some path, none⟩
  | .other shape parts => (Item.other shape parts).nodes ⟨some path, none⟩

/-- The nodes in the items of a scope. -/
def Item.scopeNodesList (path : List String) : List Item → List CodeNode
  | [] => []
  | i :: is => i.scopeNodes path ++ Item.scopeNodesList path is

end

/-! ### Annotations and completion -/

@[simp] theorem Attribute.isAnnotation_complete (s : Completion) (a : Attribute) :
    Attribute.isAnnotation (a.complete s) = a.isAnnotation := by
  obtain ⟨inner, global, path, args⟩ := a
  have hident : (Attribute.mk inner global path (args.complete s)).ident? =
      (Attribute.mk inner global path args).ident? := by
    unfold Attribute.ident?
    rcases global <;> rcases path with _ | ⟨w, _ | ⟨w', ws⟩⟩ <;> rfl
  rw [Attribute.complete, Attribute.isAnnotation, Attribute.isAnnotation, hident]

theorem stripAnnotations_completeList (s : Completion) (as : List Attribute) :
    stripAnnotations (Attribute.completeList s as) =
      Attribute.completeList s (stripAnnotations as) := by
  induction as with
  | nil => rfl
  | cons a as ih =>
    unfold stripAnnotations at ih ⊢
    rw [Attribute.completeList, List.filter_cons, List.filter_cons, Attribute.isAnnotation_complete,
      ih]
    split <;> rfl

@[simp] theorem stripAnnotations_idem (as : List Attribute) :
    stripAnnotations (stripAnnotations as) = stripAnnotations as := by
  simp [stripAnnotations]

theorem Modifiers.nodes_fieldVisibility (m : Modifiers) (site : Site) :
    m.fieldVisibility.nodes site = [] := by
  unfold Modifiers.fieldVisibility
  split
  · rfl
  · split <;> rfl

/-- A written definition consists of a visibility, a name and a plain type. -/
theorem nodes_keptDefinition (site : Site) (k : Request × TypeName) :
    (keptDefinition k).nodes site = [] := by
  rw [keptDefinition, FieldDef.nodes, Modifiers.nodes_fieldVisibility]
  rfl

theorem FieldDef.nodesList_keptDefinition_append (site : Site) (kept : List (Request × TypeName))
    (fields : List FieldDef) :
    nodesList site (kept.map keptDefinition ++ fields) = nodesList site fields := by
  induction kept with
  | nil => rfl
  | cons k ks ih =>
    rw [List.map_cons, List.cons_append, nodesList, nodes_keptDefinition, ih]
    rfl

/-- New fields hold no nodes. -/
theorem StructBody.nodes_graft (site : Site) (kept : List (Request × TypeName))
    (body : StructBody) : (body.graft (kept.map keptDefinition)).nodes site = body.nodes site := by
  cases body with
  | named clause fields trailing =>
    simp only [graft, StructBody.nodes, FieldDef.nodesList_keptDefinition_append]
  | tuple fields clause => rfl
  | unit clause => rfl

theorem Completion.target?_nil (selfTy : Option String) (p : Path) :
    (⟨[], selfTy⟩ : Completion).target? p = none := by
  unfold Completion.target?
  split
  · exact Option.bind_eq_none_iff.mpr fun _ _ => rfl
  · rfl

/-- No path is found in an empty account. -/
theorem CodeNode.target?_nil (n : CodeNode) : n.target? (fun _ => []) = none := by
  obtain ⟨⟨scope, selfTy⟩, form⟩ := n
  cases scope with
  | none => rfl
  | some path =>
    cases form with
    | literal p ms trailing rest => exact Completion.target?_nil selfTy p
    | pattern p ms trailing rest => exact Completion.target?_nil selfTy p
    | declaration name body => rfl

/-- A scope in which nothing was received is complete already, so `completeScope` completes
always. -/
theorem completeScope_eq (received : Received) (items : List Item) :
    completeScope received items = items.map (Item.complete ⟨received, none⟩) := by
  unfold completeScope
  split
  · next hempty =>
    have hnil : received = [] := List.isEmpty_iff.mp hempty
    subst hnil
    refine (List.map_id'' (fun i => ?_) items).symm
    exact Item.complete_eq_self (fun _ => []) [] none i fun n _ => n.target?_nil
  · rfl

/-! ### The cursor and what was received -/

/-- **What the structs of a scope received**, by their paths from the scope, which lies `depth`
modules deep; the last struct comes first. -/
def scopeReceived (c : Catalogue) (access : Except HostError Capability) (depth : Nat)
    (xs : List StructEntry) : Received :=
  (xs.filterMap fun x =>
    if (x.received c access).isEmpty then none
    else some (String.intercalate "::" (x.decl.path.drop depth), x.received c access)).reverse

theorem scopeReceived_append (c : Catalogue) (access : Except HostError Capability) (depth : Nat)
    (xs ys : List StructEntry) :
    scopeReceived c access depth (xs ++ ys) =
      scopeReceived c access depth ys ++ scopeReceived c access depth xs := by
  simp [scopeReceived]

mutual

/-- A struct of an item lies in the scope of the item, or deeper. -/
theorem Item.scope_of_mem_structDecls (path : List String) :
    ∀ i : Item, ∀ d ∈ i.structDecls path, path <+: d.scope
  | .struct _ _ _ _ _, d, hd => by
    rw [Item.structDecls, List.mem_singleton] at hd
    subst hd
    exact List.prefix_rfl
  | .module _ _ name _ items, d, hd =>
    (List.prefix_append path [name.text]).trans
      (Item.scope_of_mem_structDeclsList (path ++ [name.text]) items d hd)
  | .nominal _ _ _ _ _, _, hd => absurd hd List.not_mem_nil
  | .use _ _ _ _, _, hd => absurd hd List.not_mem_nil
  | .impl _ _ _ _ _ _ _, _, hd => absurd hd List.not_mem_nil
  | .other _ _, _, hd => absurd hd List.not_mem_nil

theorem Item.scope_of_mem_structDeclsList (path : List String) :
    ∀ is : List Item, ∀ d ∈ Item.structDeclsList path is, path <+: d.scope
  | [], _, hd => absurd hd List.not_mem_nil
  | i :: is, d, hd => by
    rw [Item.structDeclsList, List.mem_append] at hd
    rcases hd with hd | hd
    · exact Item.scope_of_mem_structDecls path i d hd
    · exact Item.scope_of_mem_structDeclsList path is d hd

end

/-- One module further out, each path has the name of the module in front. -/
theorem scopeReceived_module (c : Catalogue) (access : Except HostError Capability)
    (path : List String) (name : String) (xs : List StructEntry)
    (hxs : ∀ x ∈ xs, path ++ [name] <+: x.decl.scope) :
    (scopeReceived c access (path ++ [name]).length xs).map
        (fun r => (name ++ "::" ++ r.1, r.2)) =
      scopeReceived c access path.length xs := by
  unfold scopeReceived
  rw [List.map_reverse, List.map_filterMap]
  congr 1
  refine List.filterMap_congr fun x hx => ?_
  split
  · rfl
  · obtain ⟨rest, hrest⟩ := hxs x hx
    -- the path of the struct: the outer scope, the module, and a rest that is never empty
    have hpath : x.decl.path = path ++ ([name] ++ (rest ++ [x.decl.name.text])) := by
      rw [StructDecl.path, ← hrest, List.append_assoc, List.append_assoc]
    have houter : x.decl.path.drop path.length = name :: (rest ++ [x.decl.name.text]) := by
      rw [hpath, List.drop_left]
      rfl
    have hinner : x.decl.path.drop (path ++ [name]).length = rest ++ [x.decl.name.text] := by
      rw [hpath, ← List.append_assoc, List.drop_left]
    rw [houter, hinner, String.intercalate_cons_of_ne_nil (by simp)]
    rfl

theorem forall₂_append_inv {α β : Type} {r : α → β → Prop} {as as' : List α} {bs : List β}
    (h : List.Forall₂ r (as ++ as') bs) :
    ∃ bs₁ bs₂, bs = bs₁ ++ bs₂ ∧ List.Forall₂ r as bs₁ ∧ List.Forall₂ r as' bs₂ := by
  induction as generalizing bs with
  | nil => exact ⟨[], bs, rfl, .nil, h⟩
  | cons a as ih =>
    cases h with
    | cons hab htail =>
      obtain ⟨bs₁, bs₂, rfl, h₁, h₂⟩ := ih htail
      exact ⟨_ :: bs₁, bs₂, rfl, .cons hab h₁, h₂⟩

theorem zipWith_append_left {α β γ : Type} (g : α → β → γ) (as as' : List α) (bs : List β) :
    List.zipWith g (as ++ as') bs =
      List.zipWith g as bs ++ List.zipWith g as' (bs.drop as.length) := by
  induction as generalizing bs with
  | nil => rfl
  | cons a as ih =>
    cases bs with
    | nil => simp
    | cons b bs => simp [ih]

theorem mem_zipWith_entry {decls : List StructDecl} {nodes : List NodeId} {x : StructEntry}
    (hx : x ∈ List.zipWith StructEntry.mk decls nodes) : x.decl ∈ decls := by
  induction decls generalizing nodes with
  | nil => exact absurd hx List.not_mem_nil
  | cons d ds ih =>
    cases nodes with
    | nil => exact absurd hx List.not_mem_nil
    | cons n ns =>
      rw [List.zipWith_cons_cons, List.mem_cons] at hx
      rcases hx with rfl | hx
      · exact List.mem_cons_self
      · exact List.mem_cons_of_mem _ (ih hx)

section Walk

variable {c : Catalogue} (placement : Placement) (access : Except HostError Capability)

/-- A struct has one node, which was entered for it. -/
theorem Item.exists_node_of_struct {path : List String} {attrs : List Attribute}
    {vis : Visibility} {name : Word} {generics : List Code} {body : StructBody}
    {nodes : List NodeId}
    (h : List.Forall₂ c.Entered ((Item.struct attrs vis name generics body).structDecls path)
      nodes) :
    ∃ node, nodes = [node] ∧ c.Entered ⟨path, attrs, name, body⟩ node := by
  rw [Item.structDecls, List.forall₂_cons_left_iff] at h
  obtain ⟨node, nodes', hentered, hnil, rfl⟩ := h
  rw [List.forall₂_nil_left_iff] at hnil
  exact ⟨node, by rw [hnil], hentered⟩

/-- **A struct is emitted** without its annotations and with the fields that it received. -/
theorem Item.emit_struct (hc : c.WellFormed) {x : StructEntry} (h : c.Entered x.decl x.node)
    (vis : Visibility) (generics : List Code) (rest : List NodeId) :
    (Item.struct x.decl.attrs vis x.decl.name generics x.decl.body).emit
        (c.emission placement access) ([x.node] ++ rest) =
      { value := .struct (stripAnnotations x.decl.attrs) vis x.decl.name generics
          (x.decl.body.graft ((placement.arrange (x.kept c access)).map keptDefinition))
        structs := rest
        removed := countAnnotations x.decl.attrs
        received := if (x.received c access).isEmpty then []
          else [(x.decl.name.text, x.received c access)] } := by
  rw [List.singleton_append, Item.emit, Catalogue.structBody_eq hc h placement access]

/-- A module is completed inside by what its own structs received, whatever is completed around
it. -/
theorem Item.complete_emit_module (e : Emission) (structs : List NodeId) (s : Completion)
    (attrs : List Attribute) (lead : List Code) (name : Word) (inner : List Attribute)
    (items : List Item) :
    ((Item.module attrs lead name inner items).emit e structs).value.complete s =
      .module attrs lead name inner ((Item.emitList e structs items).value.map
        (Item.complete ⟨(Item.emitList e structs items).received, none⟩)) := by
  rw [Item.emit, Item.complete, completeScope_eq]

mutual

/-- An item takes its own structs from the cursor, and reports what they received. -/
theorem Item.emit_walk (hc : c.WellFormed) (path : List String) :
    ∀ (i : Item) (nodes rest : List NodeId),
      List.Forall₂ c.Entered (i.structDecls path) nodes →
      (i.emit (c.emission placement access) (nodes ++ rest)).structs = rest ∧
        (i.emit (c.emission placement access) (nodes ++ rest)).received =
          scopeReceived c access path.length
            (List.zipWith StructEntry.mk (i.structDecls path) nodes)
  | .struct attrs vis name generics body, nodes, rest, h => by
    obtain ⟨node, rfl, hentered⟩ := Item.exists_node_of_struct h
    let x : StructEntry := ⟨⟨path, attrs, name, body⟩, node⟩
    have hdrop : x.decl.path.drop path.length = [name.text] := List.drop_left
    rw [Item.emit_struct (x := x) placement access hc hentered vis generics rest]
    refine ⟨rfl, ?_⟩
    show (if (x.received c access).isEmpty then [] else [(name.text, x.received c access)]) =
      scopeReceived c access path.length [x]
    rw [scopeReceived, List.filterMap_cons, List.filterMap_nil, hdrop,
      String.intercalate_singleton]
    cases (x.received c access).isEmpty <;> rfl
  | .module attrs lead name inner items, nodes, rest, h => by
    obtain ⟨hstructs, hreceived⟩ := Item.emitList_walk hc (path ++ [name.text]) items nodes rest h
    refine ⟨hstructs, ?_⟩
    -- the names of the module stand in front of those inside it
    rw [Item.emit, hreceived, Item.structDecls]
    refine scopeReceived_module c access path name.text _ fun x hx => ?_
    exact Item.scope_of_mem_structDeclsList _ items _ (mem_zipWith_entry hx)
  | .nominal kind attrs lead name tail, nodes, rest, h => by
    rw [Item.structDecls, List.forall₂_nil_left_iff] at h
    subst h
    exact ⟨rfl, rfl⟩
  | .use attrs vis global tree, nodes, rest, h => by
    rw [Item.structDecls, List.forall₂_nil_left_iff] at h
    subst h
    exact ⟨rfl, rfl⟩
  | .impl attrs lead trait selfTy clause inner members, nodes, rest, h => by
    rw [Item.structDecls, List.forall₂_nil_left_iff] at h
    subst h
    exact ⟨rfl, rfl⟩
  | .other shape parts, nodes, rest, h => by
    rw [Item.structDecls, List.forall₂_nil_left_iff] at h
    subst h
    exact ⟨rfl, rfl⟩

/-- So do the items of a scope. -/
theorem Item.emitList_walk (hc : c.WellFormed) (path : List String) :
    ∀ (is : List Item) (nodes rest : List NodeId),
      List.Forall₂ c.Entered (Item.structDeclsList path is) nodes →
      (Item.emitList (c.emission placement access) (nodes ++ rest) is).structs = rest ∧
        (Item.emitList (c.emission placement access) (nodes ++ rest) is).received =
          scopeReceived c access path.length
            (List.zipWith StructEntry.mk (Item.structDeclsList path is) nodes)
  | [], nodes, rest, h => by
    rw [Item.structDeclsList, List.forall₂_nil_left_iff] at h
    subst h
    exact ⟨rfl, rfl⟩
  | i :: is, nodes, rest, h => by
    obtain ⟨nodes₁, nodes₂, rfl, h₁, h₂⟩ := forall₂_append_inv h
    obtain ⟨hstructs, hreceived⟩ := Item.emit_walk hc path i nodes₁ (nodes₂ ++ rest) h₁
    -- the later items report in front of the earlier ones
    obtain ⟨hstructs', hreceived'⟩ := Item.emitList_walk hc path is nodes₂ rest h₂
    rw [List.append_assoc, Item.emitList, hstructs, hreceived, hreceived', Item.structDeclsList,
      List.zipWith_append h₁.length_eq, scopeReceived_append]
    exact ⟨hstructs', rfl⟩

end

end Walk

/-! ### The scopes of a unit -/

/-- A module scope: its path, and the structs in it and in its inner modules. -/
structure ScopeEntry where
  path : List String
  structs : List StructEntry

mutual

/-- The inline modules of an item whose structs have the given nodes. -/
def Item.scopes (path : List String) (nodes : List NodeId) : Item → List ScopeEntry
  | .module _ _ name _ items =>
    ⟨path ++ [name.text],
      List.zipWith StructEntry.mk (Item.structDeclsList (path ++ [name.text]) items) nodes⟩ ::
      Item.scopesList (path ++ [name.text]) nodes items
  | .struct _ _ _ _ _ => []
  | .nominal _ _ _ _ _ => []
  | .use _ _ _ _ => []
  | .impl _ _ _ _ _ _ _ => []
  | .other _ _ => []

/-- The inline modules of the items of a scope. -/
def Item.scopesList (path : List String) (nodes : List NodeId) : List Item → List ScopeEntry
  | [] => []
  | i :: is =>
    i.scopes path nodes ++ Item.scopesList path (nodes.drop (i.structDecls path).length) is

end

/-- The struct as emission writes it: without its annotations, with its new fields, and completed
by what the structs of its scope received. -/
def StructEntry.emitted (c : Catalogue) (placement : Placement)
    (access : Except HostError Capability) (f : List String → Received) (x : StructEntry) :
    StructDecl :=
  { x.decl with
    attrs := Attribute.completeList ⟨f x.decl.scope, none⟩ (stripAnnotations x.decl.attrs)
    body := (x.decl.body.graft ((placement.arrange (x.kept c access)).map keptDefinition)).complete
      ⟨f x.decl.scope, none⟩ }

/-- What is written for some structs and nodes, each completed by an account that is `known` for a
scope; for a struct that is its own scope. -/
structure WrittenAs (c : Catalogue) (placement : Placement) (access : Except HostError Capability)
    (known : List String → (List String → Received) → Prop) (xs : List StructEntry)
    (ns : List CodeNode) (ds : List StructDecl) (ns' : List CodeNode) : Prop where
  structs : List.Forall₂ (fun x d => ∃ f, known x.decl.scope f ∧
    d = x.emitted c placement access f) xs ds
  nodes : List.Forall₂ (fun n n' => ∃ path f, known path f ∧ n' = CodeNode.complete f n) ns ns'

namespace WrittenAs

variable {c : Catalogue} {placement : Placement} {access : Except HostError Capability}
  {known : List String → (List String → Received) → Prop} {xs xs₁ xs₂ : List StructEntry}
  {ds ds₁ ds₂ : List StructDecl} {ns ns₁ ns₂ ns₁' ns₂' : List CodeNode}

theorem append (h₁ : WrittenAs c placement access known xs₁ ns₁ ds₁ ns₁')
    (h₂ : WrittenAs c placement access known xs₂ ns₂ ds₂ ns₂') :
    WrittenAs c placement access known (xs₁ ++ xs₂) (ns₁ ++ ns₂) (ds₁ ++ ds₂)
      (ns₁' ++ ns₂') where
  structs := List.rel_append h₁.structs h₂.structs
  nodes := List.rel_append h₁.nodes h₂.nodes

/-- Nodes of one scope. -/
theorem of_map {path : List String} {f : List String → Received} (hf : known path f)
    (h : List.Forall₂ (fun x d => ∃ f, known x.decl.scope f ∧
      d = x.emitted c placement access f) xs ds)
    (ns : List CodeNode) :
    WrittenAs c placement access known xs ns ds (ns.map (CodeNode.complete f)) where
  structs := h
  nodes := by
    rw [List.forall₂_map_right_iff, List.forall₂_same]
    exact fun n _ => ⟨path, f, hf, rfl⟩

end WrittenAs

section Emitted

variable {c : Catalogue} (placement : Placement) (access : Except HostError Capability)
  {known : List String → (List String → Received) → Prop}

mutual

/-- One item, completed as its scope is by the account `f`. -/
theorem Item.emit_emitted (hc : c.WellFormed) (path : List String) (f : List String → Received)
    (hf : known path f) :
    ∀ (i : Item) (nodes rest : List NodeId),
      List.Forall₂ c.Entered (i.structDecls path) nodes →
      (∀ sc ∈ i.scopes path (nodes ++ rest), ∃ g, known sc.path g ∧
        g sc.path = scopeReceived c access sc.path.length sc.structs) →
      WrittenAs c placement access known (List.zipWith StructEntry.mk (i.structDecls path) nodes)
        (i.scopeNodes path)
        (((i.emit (c.emission placement access) (nodes ++ rest)).value.complete
          ⟨f path, none⟩).structDecls path)
        (((i.emit (c.emission placement access) (nodes ++ rest)).value.complete
          ⟨f path, none⟩).scopeNodes path)
  | .struct attrs vis name generics body, nodes, rest, h, hscopes => by
    obtain ⟨node, rfl, hentered⟩ := Item.exists_node_of_struct h
    let x : StructEntry := ⟨⟨path, attrs, name, body⟩, node⟩
    let body' := body.graft ((placement.arrange (x.kept c access)).map keptDefinition)
    have hemit := Item.emit_struct (x := x) placement access hc hentered vis generics rest
    have hvalue : ((Item.struct attrs vis name generics body).emit (c.emission placement access)
        ([node] ++ rest)).value = .struct (stripAnnotations attrs) vis name generics body' := by
      rw [hemit]
    -- the annotations are gone and the new fields hold no nodes, so the nodes are the old ones
    have hnodes : ((Item.struct (stripAnnotations attrs) vis name generics body').complete
          ⟨f path, none⟩).scopeNodes path =
        ((Item.struct attrs vis name generics body).scopeNodes path).map
          (CodeNode.complete f) := by
      simp only [Item.complete, Item.scopeNodes, stripAnnotations_completeList,
        stripAnnotations_idem, Attribute.nodesList_complete f path none,
        Visibility.nodes_complete f path none, Code.nodesList_complete f path none,
        StructBody.nodes_complete f path none, body', StructBody.nodes_graft, List.map_append]
    rw [hvalue, hnodes]
    exact .of_map hf (.cons ⟨f, hf, rfl⟩ .nil) _
  | .module attrs lead name inner items, nodes, rest, h, hscopes => by
    -- the module is a scope of its own, so the account may be another one inside
    have hlength : (Item.structDeclsList (path ++ [name.text]) items).length = nodes.length :=
      List.Forall₂.length_eq h
    have hblock : List.zipWith StructEntry.mk (Item.structDeclsList (path ++ [name.text]) items)
        (nodes ++ rest) =
        List.zipWith StructEntry.mk (Item.structDeclsList (path ++ [name.text]) items) nodes := by
      have happend : List.zipWith StructEntry.mk
          (Item.structDeclsList (path ++ [name.text]) items ++ []) (nodes ++ rest) = _ :=
        List.zipWith_append hlength
      rwa [List.append_nil, List.zipWith_nil_left, List.append_nil] at happend
    obtain ⟨g, hg, hreceived⟩ := hscopes _ List.mem_cons_self
    have hwalk :=
      (Item.emitList_walk placement access hc (path ++ [name.text]) items nodes rest h).2
    have hinner := Item.emitList_emitted hc (path ++ [name.text]) g hg items nodes rest h
      fun sc hsc => hscopes sc (List.mem_cons_of_mem _ hsc)
    rw [hblock, ← hwalk] at hreceived
    have hvalue : ((Item.module attrs lead name inner items).emit (c.emission placement access)
        (nodes ++ rest)).value.complete ⟨f path, none⟩ =
        .module attrs lead name inner
          ((Item.emitList (c.emission placement access) (nodes ++ rest) items).value.map
            (Item.complete ⟨g (path ++ [name.text]), none⟩)) := by
      rw [Item.complete_emit_module, hreceived]
    rw [hvalue]
    refine ⟨hinner.structs, List.rel_append ?_ hinner.nodes⟩
    rw [List.forall₂_map_left_iff, List.forall₂_map_right_iff, List.forall₂_same]
    exact fun n _ => ⟨path, f, hf, rfl⟩
  -- in the other items there is no struct, and their nodes are those of before, completed
  | .nominal kind attrs lead name tail, nodes, rest, h, hscopes => by
    rw [Item.structDecls, List.forall₂_nil_left_iff] at h
    subst h
    have hnodes : ((Item.nominal kind (stripAnnotations attrs) lead name tail).complete
          ⟨f path, none⟩).scopeNodes path =
        ((Item.nominal kind attrs lead name tail).scopeNodes path).map (CodeNode.complete f) := by
      simp only [Item.complete, Item.scopeNodes, stripAnnotations_completeList,
        stripAnnotations_idem, Attribute.nodesList_complete f path none,
        Code.nodesList_complete f path none, List.map_append]
    rw [Item.emit, hnodes]
    exact .of_map hf .nil _
  | .use attrs vis global tree, nodes, rest, h, hscopes => by
    rw [Item.structDecls, List.forall₂_nil_left_iff] at h
    subst h
    have hvalue : ((Item.use attrs vis global tree).emit (c.emission placement access)
        ([] ++ rest)).value = .use attrs vis global tree := rfl
    have hnodes := Item.nodes_complete f path none (.use attrs vis global tree)
    rw [Item.complete] at hnodes
    rw [hvalue, Item.complete, Item.scopeNodes, Item.scopeNodes, hnodes]
    exact .of_map hf .nil _
  | .impl attrs lead trait selfTy clause inner members, nodes, rest, h, hscopes => by
    rw [Item.structDecls, List.forall₂_nil_left_iff] at h
    subst h
    have hvalue : ((Item.impl attrs lead trait selfTy clause inner members).emit
        (c.emission placement access) ([] ++ rest)).value =
        .impl attrs lead trait selfTy clause inner members := rfl
    have hnodes := Item.nodes_complete f path none
      (.impl attrs lead trait selfTy clause inner members)
    rw [Item.complete] at hnodes
    rw [hvalue, Item.complete, Item.scopeNodes, Item.scopeNodes, hnodes]
    exact .of_map hf .nil _
  | .other shape parts, nodes, rest, h, hscopes => by
    rw [Item.structDecls, List.forall₂_nil_left_iff] at h
    subst h
    have hvalue : ((Item.other shape parts).emit (c.emission placement access)
        ([] ++ rest)).value = .other shape parts := rfl
    have hnodes := Item.nodes_complete f path none (.other shape parts)
    -- completion keeps the shape, also of a module declared elsewhere
    obtain ⟨parts', hparts⟩ : ∃ parts', (Item.other shape parts).complete ⟨f path, none⟩ =
        .other shape parts' := by
      by_cases hshape : shape = .moduleDecl
      · subst hshape
        exact ⟨parts, rfl⟩
      · exact ⟨_, Item.complete_other _ hshape parts⟩
    rw [hparts] at hnodes
    rw [hvalue, hparts, Item.scopeNodes, Item.scopeNodes, hnodes]
    exact .of_map hf .nil _

/-- The items of a scope. -/
theorem Item.emitList_emitted (hc : c.WellFormed) (path : List String)
    (f : List String → Received) (hf : known path f) :
    ∀ (is : List Item) (nodes rest : List NodeId),
      List.Forall₂ c.Entered (Item.structDeclsList path is) nodes →
      (∀ sc ∈ Item.scopesList path (nodes ++ rest) is, ∃ g, known sc.path g ∧
        g sc.path = scopeReceived c access sc.path.length sc.structs) →
      WrittenAs c placement access known
        (List.zipWith StructEntry.mk (Item.structDeclsList path is) nodes)
        (Item.scopeNodesList path is)
        (Item.structDeclsList path
          ((Item.emitList (c.emission placement access) (nodes ++ rest) is).value.map
            (Item.complete ⟨f path, none⟩)))
        (Item.scopeNodesList path
          ((Item.emitList (c.emission placement access) (nodes ++ rest) is).value.map
            (Item.complete ⟨f path, none⟩)))
  | [], nodes, rest, h, hscopes => by
    rw [Item.structDeclsList, List.forall₂_nil_left_iff] at h
    subst h
    exact ⟨.nil, .nil⟩
  | i :: is, nodes, rest, h, hscopes => by
    obtain ⟨nodes₁, nodes₂, rfl, h₁, h₂⟩ := forall₂_append_inv h
    -- the first item takes its own nodes and leaves the cursor before those of the others
    have hcursor := (Item.emit_walk placement access hc path i nodes₁ (nodes₂ ++ rest) h₁).1
    rw [List.append_assoc, Item.scopesList, h₁.length_eq, List.drop_left] at hscopes
    have hfirst := Item.emit_emitted hc path f hf i nodes₁ (nodes₂ ++ rest) h₁
      fun sc hsc => hscopes sc (List.mem_append_left _ hsc)
    have hrest := Item.emitList_emitted hc path f hf is nodes₂ rest h₂
      fun sc hsc => hscopes sc (List.mem_append_right _ hsc)
    rw [List.append_assoc, Item.emitList, hcursor, Item.structDeclsList,
      List.zipWith_append h₁.length_eq]
    exact hfirst.append hrest

end

end Emitted

/-! ### A whole round -/

/-- The scopes of a unit: the file and its inline modules. -/
def unitScopes (items : List Item) : List ScopeEntry :=
  ⟨[], structEntries items⟩ :: Item.scopesList [] (Catalogue.ofItems items).structs items

/-- **What a round writes.** If `known` holds of an account of each scope, every struct gets its own
fields, and every struct and node is completed by such an account. -/
theorem Session.injectItems_written (s : Session) (items : List Item)
    (known : List String → (List String → Received) → Prop)
    (hscopes : ∀ sc ∈ unitScopes items, ∃ f, known sc.path f ∧
      f sc.path = scopeReceived (Catalogue.ofItems items) s.authorize.2.1 sc.path.length
        sc.structs) :
    WrittenAs (Catalogue.ofItems items) s.placement s.authorize.2.1 known (structEntries items)
      (Item.scopeNodesList [] items) (Item.structDeclsList [] (s.injectItems items).2.1)
      (Item.scopeNodesList [] (s.injectItems items).2.1) := by
  -- the root is a scope like those of the modules
  obtain ⟨hc, hentered⟩ := Catalogue.ofItems_entered items
  obtain ⟨f, hf, hroot⟩ := hscopes _ List.mem_cons_self
  have hwalk := (Item.emitList_walk s.placement s.authorize.2.1 hc [] items _ [] hentered).2
  have hwritten := Item.emitList_emitted s.placement s.authorize.2.1 hc [] f hf items _ []
    hentered (by
      rw [List.append_nil]
      exact fun sc hsc => hscopes sc (List.mem_cons_of_mem _ hsc))
  have hvalue : (s.injectItems items).2.1 =
      (Item.emitList ((Catalogue.ofItems items).emission s.placement s.authorize.2.1)
        ((Catalogue.ofItems items).structs ++ []) items).value.map
          (Item.complete ⟨f [], none⟩) := by
    rw [hroot.trans hwalk.symm, ← completeScope_eq, List.append_nil]
    rfl
  rw [hvalue]
  exact hwritten

mutual

/-- The structs of a scope are structs of the items around it, and lie in the scope. -/
theorem Item.structs_of_mem_scopes (path : List String) :
    ∀ (i : Item) (nodes : List NodeId), ∀ sc ∈ i.scopes path nodes, ∀ x ∈ sc.structs,
      x ∈ List.zipWith StructEntry.mk (i.structDecls path) nodes ∧ sc.path <+: x.decl.scope
  | .module _ _ name _ items, nodes, sc, hsc, x, hx => by
    rw [Item.scopes, List.mem_cons] at hsc
    rcases hsc with rfl | hsc
    · exact ⟨hx, Item.scope_of_mem_structDeclsList _ items _ (mem_zipWith_entry hx)⟩
    · exact Item.structs_of_mem_scopesList (path ++ [name.text]) items nodes sc hsc x hx
  | .struct _ _ _ _ _, _, _, hsc, _, _ => absurd hsc List.not_mem_nil
  | .nominal _ _ _ _ _, _, _, hsc, _, _ => absurd hsc List.not_mem_nil
  | .use _ _ _ _, _, _, hsc, _, _ => absurd hsc List.not_mem_nil
  | .impl _ _ _ _ _ _ _, _, _, hsc, _, _ => absurd hsc List.not_mem_nil
  | .other _ _, _, _, hsc, _, _ => absurd hsc List.not_mem_nil

theorem Item.structs_of_mem_scopesList (path : List String) :
    ∀ (is : List Item) (nodes : List NodeId), ∀ sc ∈ Item.scopesList path nodes is,
      ∀ x ∈ sc.structs,
      x ∈ List.zipWith StructEntry.mk (Item.structDeclsList path is) nodes ∧
        sc.path <+: x.decl.scope
  | [], _, _, hsc, _, _ => absurd hsc List.not_mem_nil
  | i :: is, nodes, sc, hsc, x, hx => by
    rw [Item.scopesList, List.mem_append] at hsc
    rw [Item.structDeclsList, zipWith_append_left, List.mem_append]
    rcases hsc with hsc | hsc
    · obtain ⟨hmem, hscope⟩ := Item.structs_of_mem_scopes path i nodes sc hsc x hx
      exact ⟨.inl hmem, hscope⟩
    · obtain ⟨hmem, hscope⟩ := Item.structs_of_mem_scopesList path is _ sc hsc x hx
      exact ⟨.inr hmem, hscope⟩

end

end FieldGraft
