import FieldGraft.Proofs.AnnotationErasure
import FieldGraft.Proofs.RoundReruns

/-!
# What a placement cannot change

Two runs of one round that differ in the placement put new fields at different positions, and every
later request is judged against what they left. Still they come to the same verdicts, ids and
diagnostics: `Session.injectItems_placement`.

* `Arena.Mirrors` — two arenas with the same nodes, up to the order of members, in which the first
  field of every name is the same. Where a new field goes does not matter to that, since its name is
  free (`Arena.Mirrors.insert`).
* `Progress.SameReport` — the arenas of two runs mirror each other, and the runs report the same. A
  request keeps this (`Progress.request_sameReport`), and so does a whole round.
* `Item.reverseBlocks` — the first fields of each struct in the opposite order. This is all that
  tells the emitted items of the two runs apart (`Item.emit_reverseBlocks`).
-/

namespace FieldGraft

/-! ### Arenas that mirror each other -/

/-- A node without the members of its type. -/
def Node.withoutMembers (n : Node) : Node :=
  match n.declaration with
  | .type decl => { n with declaration := .type { decl with members := [] } }
  | _ => n

@[simp] theorem Node.withoutMembers_withMember (n : Node) (position : Nat) (id : NodeId) :
    (Arena.withMember n position id).withoutMembers = n.withoutMembers := by
  obtain ⟨d, parent, location⟩ := n
  cases d <;> rfl

namespace Arena

variable {a b a' b' : Arena} {owner id id' t : NodeId} {position position' : Nat} {f : FieldDecl}

/-- A type, its members aside, is read off the node without members. -/
theorem typeDecl_withoutMembers (a : Arena) (t : NodeId) :
    (a.typeDecl t).toOption.map (fun decl => { decl with members := [] }) =
      ((a.get? t).map Node.withoutMembers).bind
        (fun n => (Arena.typeDecl ⟨#[n]⟩ ⟨0⟩).toOption) := by
  unfold typeDecl
  cases a.get? t with
  | none => rfl
  | some n =>
    obtain ⟨d, parent, location⟩ := n
    cases d <;> rfl

/-- So is the label of a node. -/
theorem label_withoutMembers (a : Arena) (t : NodeId) :
    a.label t = ((a.get? t).map Node.withoutMembers).elim t.display
      (fun n => Arena.label ⟨#[n]⟩ ⟨0⟩) := by
  unfold label
  cases a.get? t with
  | none => rfl
  | some n =>
    obtain ⟨d, parent, location⟩ := n
    cases d <;> rfl

/-- So is its place. -/
theorem location?_withoutMembers (a : Arena) (t : NodeId) :
    a.location? t = ((a.get? t).map Node.withoutMembers).bind Node.location := by
  unfold location?
  cases a.get? t with
  | none => rfl
  | some n =>
    obtain ⟨d, parent, location⟩ := n
    cases d <;> rfl

/-- The fields of the owner after an insertion: the old ones with the new one among them. -/
theorem Inserted.exists_fields_eq (h : a.Inserted b owner position (.field f) id)
    (ha : a.Closed) :
    ∃ before after, a.fields owner = before ++ after ∧
      b.fields owner = before ++ (id, f) :: after := by
  have hnew : b.field? id = some f := by rw [field?_eq, h.new_eq]
  have hold : ∀ m ∈ a.memberList owner,
      (b.field? m).map (fun g => (m, g)) = (a.field? m).map (fun g => (m, g)) := fun m hm => by
    rw [(h.leaf_of_lt (ha owner m hm)).1]
  -- the members before the new one and those behind it
  refine ⟨((a.memberList owner).take position).filterMap fun m => (a.field? m).map (m, ·),
    ((a.memberList owner).drop position).filterMap fun m => (a.field? m).map (m, ·), ?_, ?_⟩
  · rw [← List.filterMap_append, List.take_append_drop, fields]
  · rw [fields, h.memberList_owner, insertAt, List.filterMap_append, List.filterMap_cons, hnew]
    congr 1
    · exact List.filterMap_congr fun m hm => hold m (List.mem_of_mem_take hm)
    · refine congrArg _ (List.filterMap_congr fun m hm => ?_)
      exact hold m (List.mem_of_mem_drop hm)

/-- **The first field of a name after an insertion.** If the name of the new field was free, the
position has no influence. -/
theorem Inserted.find?_fields (h : a.Inserted b owner position (.field f) id) (ha : a.Closed)
    (hfree : f.name ∉ a.fieldNames owner) (t : NodeId) (name : String) :
    (b.fields t).find? (fun g => g.2.name == name) =
      if t = owner ∧ f.name = name then some (id, f)
      else (a.fields t).find? (fun g => g.2.name == name) := by
  by_cases ht : t = owner
  · subst ht
    obtain ⟨before, after, hbefore, hafter⟩ := h.exists_fields_eq ha
    rw [hafter, List.find?_append]
    by_cases hname : f.name = name
    · subst hname
      -- none of the old fields has the name
      have hnone : before.find? (fun g => g.2.name == f.name) = none := by
        rw [List.find?_eq_none]
        intro g hg heq
        refine hfree (List.mem_map.mpr ⟨g, ?_, beq_iff_eq.mp heq⟩)
        rw [hbefore]
        exact List.mem_append_left _ hg
      have hhead : ((id, f) :: after).find? (fun g => g.2.name == f.name) = some (id, f) :=
        List.find?_cons_of_pos (beq_self_eq_true f.name)
      rw [hnone, hhead, if_pos ⟨rfl, rfl⟩]
      rfl
    · rw [if_neg fun hboth => hname hboth.2, hbefore, List.find?_append,
        List.find?_cons_of_neg (by rw [beq_iff_eq]; exact hname)]
  · rw [if_neg fun hboth => ht hboth.1, h.fields_of_ne (fun _ => Declaration.noConfusion) ha ht]

/-- **Arenas that mirror each other**: the same nodes, up to the order of members. For every name a
type has the same first field, and it has a constructor without parameters in both or in none. -/
structure Mirrors (a b : Arena) : Prop where
  closed_left : a.Closed
  closed_right : b.Closed
  size_eq : b.size = a.size
  node_eq : ∀ i, (b.get? i).map Node.withoutMembers = (a.get? i).map Node.withoutMembers
  first_eq : ∀ t name, (b.fields t).find? (fun f => f.2.name == name) =
    (a.fields t).find? (fun f => f.2.name == name)
  free_eq : ∀ t, b.hasFreeConstructor t = a.hasFreeConstructor t

namespace Mirrors

theorem refl (ha : a.Closed) : Mirrors a a :=
  ⟨ha, ha, rfl, fun _ => rfl, fun _ _ => rfl, fun _ => rfl⟩

/-- A type is a type in both, with the same name and kind; what is no type in one is none in the
other. -/
theorem typeDecl_cases (h : Mirrors a b) (t : NodeId) :
    (∃ e e', a.typeDecl t = .error e ∧ b.typeDecl t = .error e') ∨
    ∃ decl ms, a.typeDecl t = .ok decl ∧ b.typeDecl t = .ok { decl with members := ms } := by
  have hsame : (b.typeDecl t).toOption.map (fun decl => { decl with members := [] }) =
      (a.typeDecl t).toOption.map (fun decl => { decl with members := [] }) := by
    rw [typeDecl_withoutMembers, typeDecl_withoutMembers, h.node_eq]
  -- which of the two it is shows without the members
  cases ha : a.typeDecl t with
  | error e =>
    cases hb : b.typeDecl t with
    | error e' => exact .inl ⟨e, e', rfl, rfl⟩
    | ok decl' =>
      rw [ha, hb] at hsame
      cases hsame
  | ok decl =>
    cases hb : b.typeDecl t with
    | error e' =>
      rw [ha, hb] at hsame
      cases hsame
    | ok decl' =>
      rw [ha, hb] at hsame
      obtain ⟨name, kind, ms⟩ := decl'
      have hparts := Option.some.inj hsame
      cases hparts
      exact .inr ⟨decl, ms, rfl, rfl⟩

theorem typeName_eq (h : Mirrors a b) (t : NodeId) : b.typeName t = a.typeName t := by
  unfold typeName
  rcases h.typeDecl_cases t with ⟨e, e', ha, hb⟩ | ⟨decl, ms, ha, hb⟩ <;> rw [ha, hb]

/-- **Both arenas give the same verdict**, down to the field that a duplicate is held against. -/
theorem evaluate_eq (h : Mirrors a b) (t : NodeId) (name : String) :
    b.evaluate t name = a.evaluate t name := by
  have hfree : (b.constructors t).any (fun c => c.2.params == 0) =
      (a.constructors t).any (fun c => c.2.params == 0) := h.free_eq t
  unfold evaluate
  rw [h.first_eq t name, hfree]
  rcases h.typeDecl_cases t with ⟨e, e', ha, hb⟩ | ⟨decl, ms, ha, hb⟩ <;> rw [ha, hb]

theorem diagnostic?_eq (h : Mirrors a b) (v : Verdict) : v.diagnostic? b = v.diagnostic? a := by
  cases v with
  | eligible => rfl
  | kindNotSupported target kind => simp only [Verdict.diagnostic?, h.typeName_eq]
  | duplicateField target existing field => rfl
  | missingConstructor target field => simp only [Verdict.diagnostic?, h.typeName_eq]

/-- Diagnostics have the same subjects and places. -/
theorem locate_eq (h : Mirrors a b) (d : Diagnostic) : d.locate b = d.locate a := by
  have hlabel : b.label = a.label := by
    funext i
    rw [label_withoutMembers, label_withoutMembers, h.node_eq]
  have hlocation : b.location? = a.location? := by
    funext i
    rw [location?_withoutMembers, location?_withoutMembers, h.node_eq]
  simp only [Diagnostic.locate, hlabel, hlocation]

/-- **A new field may go anywhere**, as long as its name is free. -/
theorem insert (h : Mirrors a b) (hfree : f.name ∉ a.fieldNames owner)
    (hinsert : a.insertMember owner position (.field f) = .ok (a', id))
    (hinsert' : b.insertMember owner position' (.field f) = .ok (b', id')) :
    Mirrors a' b' ∧ id' = id := by
  have ha := insertMember_eq_ok hinsert
  have hb := insertMember_eq_ok hinsert'
  have hid : id' = id := by rw [hb.id_eq, ha.id_eq, h.size_eq]
  subst hid
  -- the name is free in both arenas, which have no first field for it
  have hfree' : f.name ∉ b.fieldNames owner := by
    intro hmem
    obtain ⟨g, hg, hname⟩ := List.mem_map.mp hmem
    have hnone : (a.fields owner).find? (fun g => g.2.name == f.name) = none :=
      List.find?_eq_none.mpr fun g hg heq =>
        hfree (List.mem_map.mpr ⟨g, hg, beq_iff_eq.mp heq⟩)
    rw [← h.first_eq, List.find?_eq_none] at hnone
    exact hnone g hg (beq_iff_eq.mpr hname)
  refine ⟨⟨?_, ?_, ?_, ?_, ?_, ?_⟩, rfl⟩
  · exact ha.closed (fun _ => Declaration.noConfusion) h.closed_left
  · exact hb.closed (fun _ => Declaration.noConfusion) h.closed_right
  · rw [ha.size_eq, hb.size_eq, h.size_eq]
  · intro i
    rw [insertMember_get? hinsert, insertMember_get? hinsert']
    split
    · -- the owner has one more member in both
      rw [Option.map_map, Option.map_map]
      simp only [Function.comp_def, Node.withoutMembers_withMember]
      exact h.node_eq i
    · split
      · rfl
      · exact h.node_eq i
  · intro t name
    rw [ha.find?_fields h.closed_left hfree, hb.find?_fields h.closed_right hfree', h.first_eq]
  · intro t
    rw [hasFreeConstructor, hasFreeConstructor, ha.constructors_eq, hb.constructors_eq]
    exact h.free_eq t

end Mirrors

end Arena

/-! ### Rounds under two placements -/

namespace Progress

variable {p q : Progress} {types : TypeResolver} {placement placement' : Placement}

/-- **Two runs that report the same**, on arenas that mirror each other. Their logs may differ. -/
structure SameReport (p q : Progress) : Prop where
  arena : p.arena.Mirrors q.arena
  summary_eq : q.summary = p.summary
  diagnostics_eq : q.diagnostics = p.diagnostics

namespace SameReport

/-- Both runs skip a request with the same diagnostic. -/
theorem skip (h : SameReport p q) (record record' : LogRecord) (d : Diagnostic) :
    SameReport ((p.note record).skip d) ((q.note record').skip d) where
  arena := h.arena
  summary_eq := by
    show Summary.mk q.summary.injected (q.summary.skipped + 1) =
      Summary.mk p.summary.injected (p.summary.skipped + 1)
    rw [h.summary_eq]
  diagnostics_eq := congrArg (· ++ [d]) h.diagnostics_eq

/-- Both runs refuse a request. -/
theorem refuse (h : SameReport p q) (field : String) (v : Verdict) :
    SameReport (p.refuse field v) (q.refuse field v) := by
  let record : LogRecord := ⟨.debug, .coordinator, s!"skipping `{field}`: {v.logText}"⟩
  have hrefuse : ∀ p : Progress, p.refuse field v =
      (v.diagnostic? p.arena).elim (p.note record) (p.note record).skip := by
    intro p
    -- what is logged before the report does not change the arena that the report speaks of
    have hnote : ∀ record, v.diagnostic? (p.note record).arena = v.diagnostic? p.arena :=
      fun _ => rfl
    simp only [Progress.refuse, hnote]
    cases v.diagnostic? p.arena <;> rfl
  rw [hrefuse, hrefuse, h.arena.diagnostic?_eq]
  cases v.diagnostic? p.arena with
  | none => exact ⟨h.arena, h.summary_eq, h.diagnostics_eq⟩
  | some d => exact h.skip record record d

/-- Both runs add the same field, each where its placement has it. -/
theorem adds {p' q' : Progress} {t id id' : NodeId} {position position' : Nat} {f : FieldDecl}
    (h : SameReport p q) (hfree : f.name ∉ p.arena.fieldNames t)
    (hp : p.Adds p' t position f id) (hq : q.Adds q' t position' f id') :
    SameReport p' q' := by
  obtain ⟨hmirrors, hid⟩ := h.arena.insert hfree hp.insert_eq hq.insert_eq
  subst hid
  refine ⟨hmirrors, ?_, ?_⟩
  · show Summary.mk q'.summary.injected q'.summary.skipped =
      Summary.mk p'.summary.injected p'.summary.skipped
    rw [hp.injected_eq, hq.injected_eq, hp.skipped_eq, hq.skipped_eq, h.summary_eq]
  · rw [hp.diagnostics_eq, hq.diagnostics_eq, h.diagnostics_eq, hmirrors.typeName_eq]

end SameReport

/-- **One request**, at whatever positions the runs put its field. -/
theorem request_sameReport (h : SameReport p q) (t : NodeId) (count count' : Nat) (r : Request) :
    SameReport (request types placement t p count r).1
      (request types placement' t q count' r).1 := by
  have hverdict : q.arena.evaluate t r.name = p.arena.evaluate t r.name :=
    h.arena.evaluate_eq t r.name
  -- the verdict is the same, and so is the type the request names
  by_cases hv : p.arena.evaluate t r.name = .eligible
  · cases hty : types.resolveRef r.ty with
    | error e =>
      rw [request_of_unresolved placement count hv hty,
        request_of_unresolved placement' count' (hverdict.trans hv) hty]
      exact h.skip _ _ _
    | ok ty =>
      obtain ⟨hp, -⟩ := request_of_resolved placement count hv hty
      obtain ⟨hq, -⟩ := request_of_resolved placement' count' (hverdict.trans hv) hty
      exact h.adds (Arena.evaluate_eq_eligible_iff.mp hv).2 hp hq
  · rw [request_of_refusal placement count hv,
      request_of_refusal placement' count' (hverdict ▸ hv), hverdict]
    exact h.refuse r.name _

/-- The requests of one target. The numbers of fields added so far need not be compared. -/
theorem requests_sameReport (h : SameReport p q) (t : NodeId) (count count' : Nat)
    (rs : List Request) :
    SameReport (requests types placement t p count rs)
      (requests types placement' t q count' rs) := by
  induction rs generalizing p q count count' with
  | nil => exact h
  | cons r rs ih =>
    rw [requests_cons, requests_cons]
    exact ih (request_sameReport h t count count' r) _ _

/-- The targets of a batch. -/
theorem foldl_target_sameReport (types : TypeResolver) (placement placement' : Placement)
    (h : SameReport p q) (batch : List Target) :
    SameReport (batch.foldl (target types placement) p)
      (batch.foldl (target types placement') q) := by
  induction batch generalizing p q with
  | nil => exact h
  | cons x batch ih =>
    rw [List.foldl_cons, List.foldl_cons]
    exact ih (requests_sameReport h x.node 0 0 x.requests)

end Progress

/-- **A round under two placements.** -/
theorem Catalogue.round_sameReport {c : Catalogue} (hc : c.WellFormed)
    (placement placement' : Placement) (access : Except HostError Capability) :
    (c.round placement access).SameReport (c.round placement' access) := by
  have hstart : c.arena.Mirrors c.arena := .refl hc.closed
  cases access with
  | ok capability =>
    have hround := Progress.foldl_target_sameReport c.types placement placement'
      (p := { arena := c.arena, diagnostics := annotationDiagnostics c.errors
              log := [roundRecord capability placement c.batch] })
      (q := { arena := c.arena, diagnostics := annotationDiagnostics c.errors
              log := [roundRecord capability placement' c.batch] })
      ⟨hstart, rfl, rfl⟩ c.batch
    exact ⟨hround.arena, hround.summary_eq, hround.diagnostics_eq⟩
  | error e => exact ⟨hstart, rfl, rfl⟩

/-! ### Structs with their first fields reversed -/

/-- The first `n` fields in the opposite order. -/
def StructBody.reverseBlock (n : Nat) : StructBody → StructBody
  | .named clause fields trailing =>
    .named clause ((fields.take n).reverse ++ fields.drop n) trailing
  | body => body

mutual

/-- Reverses a block of first fields in each struct of an item, in inline modules as well. The
blocks are taken from a list of lengths, and what is left of it comes back. -/
def Item.reverseBlocks (blocks : List Nat) : Item → Item × List Nat
  | .struct attrs vis name generics body =>
    match blocks with
    | [] => (.struct attrs vis name generics body, [])
    | n :: rest => (.struct attrs vis name generics (body.reverseBlock n), rest)
  | .module attrs lead name inner items =>
    let (items, rest) := Item.reverseBlocksList blocks items
    (.module attrs lead name inner items, rest)
  | item => (item, blocks)

/-- Reverses the blocks in a list of items. -/
def Item.reverseBlocksList (blocks : List Nat) : List Item → List Item × List Nat
  | [] => ([], blocks)
  | i :: is =>
    let (i, rest) := i.reverseBlocks blocks
    let (is, rest) := Item.reverseBlocksList rest is
    (i :: is, rest)

end

/-- Completion treats every field on its own. -/
theorem StructBody.complete_reverseBlock (s : Completion) (n : Nat) (body : StructBody) :
    (body.reverseBlock n).complete s = (body.complete s).reverseBlock n := by
  cases body with
  | named clause fields trailing =>
    simp only [reverseBlock, StructBody.complete, FieldDef.completeList_eq_map, List.map_append,
      List.map_reverse, List.map_take, List.map_drop]
  | tuple fields clause => rfl
  | unit clause => rfl

/-- Fields grafted in one order, and reversed. -/
theorem StructBody.reverseBlock_graft (new : List FieldDef) (body : StructBody) :
    (body.graft new.reverse).reverseBlock new.length = body.graft new := by
  cases body with
  | named clause fields trailing =>
    have htake : (new.reverse ++ fields).take new.length = new.reverse := by
      rw [← List.length_reverse, List.take_left]
    have hdrop : (new.reverse ++ fields).drop new.length = fields := by
      rw [← List.length_reverse, List.drop_left]
    simp only [graft, reverseBlock, htake, hdrop, List.reverse_reverse, List.isEmpty_reverse]
  | tuple fields clause => rfl
  | unit clause => rfl

/-! ### Emission under two placements -/

/-- How many fields each of some structs received. -/
def Summary.receivedCounts (s : Summary) (structs : List NodeId) : List Nat :=
  structs.map (fun node => (s.injectedInto node).length)

section Emission

variable {c : Catalogue} (access : Except HostError Capability)

/-- The number of fields that a struct received. -/
theorem Catalogue.length_injectedInto (hc : c.WellFormed) {x : StructEntry}
    (h : c.Entered x.decl x.node) (placement : Placement) :
    ((c.emission placement access).summary.injectedInto x.node).length =
      (x.kept c access).length := by
  obtain ⟨start, hreceived⟩ := round_receivedAt hc h placement access
  rw [emission_injectedInto hreceived, List.length_map, keptFields, List.length_mapIdx]

/-- Both runs complete a scope by the same account. -/
theorem Item.emitList_received (hc : c.WellFormed) (path : List String) (is : List Item)
    {nodes : List NodeId} (rest : List NodeId)
    (h : List.Forall₂ c.Entered (Item.structDeclsList path is) nodes) :
    (Item.emitList (c.emission .declarationOrder access) (nodes ++ rest) is).received =
      (Item.emitList (c.emission .prepend access) (nodes ++ rest) is).received := by
  have hwalk := (Item.emitList_walk .prepend access hc path is nodes rest h).2
  exact (Item.emitList_walk .declarationOrder access hc path is nodes rest h).2.trans hwalk.symm

mutual

/-- **An emitted item under two placements**, completed as its scope is: the blocks of new fields
are in opposite orders, and the literals and patterns are the same. -/
theorem Item.emit_reverseBlocks (hc : c.WellFormed) (path : List String) (received : Received) :
    ∀ (i : Item) (nodes rest : List NodeId) (more : List Nat),
      List.Forall₂ c.Entered (i.structDecls path) nodes →
      ((i.emit (c.emission .prepend access) (nodes ++ rest)).value.complete
          ⟨received, none⟩).reverseBlocks
            ((c.emission .prepend access).summary.receivedCounts nodes ++ more) =
        ((i.emit (c.emission .declarationOrder access) (nodes ++ rest)).value.complete
          ⟨received, none⟩, more) ∧
      ((i.emit (c.emission .declarationOrder access) (nodes ++ rest)).value.complete
          ⟨received, none⟩).scopeNodes path =
        ((i.emit (c.emission .prepend access) (nodes ++ rest)).value.complete
          ⟨received, none⟩).scopeNodes path
  | .struct attrs vis name generics body, nodes, rest, more, h => by
    obtain ⟨node, rfl, hentered⟩ := Item.exists_node_of_struct h
    let x : StructEntry := ⟨⟨path, attrs, name, body⟩, node⟩
    have hvalue : ∀ placement, ((Item.struct attrs vis name generics body).emit
        (c.emission placement access) ([node] ++ rest)).value =
          .struct (stripAnnotations attrs) vis name generics
            (body.graft ((placement.arrange (x.kept c access)).map keptDefinition)) := by
      intro placement
      have hemit := Item.emit_struct (x := x) placement access hc hentered vis generics rest
      rw [hemit]
    have hcount : (c.emission .prepend access).summary.receivedCounts [node] =
        [((x.kept c access).map keptDefinition).length] := by
      rw [Summary.receivedCounts, List.map_singleton,
        Catalogue.length_injectedInto (x := x) access hc hentered, List.length_map]
    -- one placement has the new definitions in the order of the requests, the other one reversed
    have hreverse : (body.graft ((Placement.prepend.arrange (x.kept c access)).map
        keptDefinition)).reverseBlock ((x.kept c access).map keptDefinition).length =
          body.graft ((Placement.declarationOrder.arrange (x.kept c access)).map
            keptDefinition) := by
      rw [Placement.map_arrange, Placement.map_arrange]
      exact StructBody.reverseBlock_graft _ body
    refine ⟨?_, ?_⟩
    · rw [hvalue, hvalue, hcount, ← hreverse, Item.complete, Item.complete,
        StructBody.complete_reverseBlock]
      rfl
    · -- new fields hold no literals or patterns, in whatever order they stand
      have hnodes : ∀ placement : Placement,
          ((body.graft ((placement.arrange (x.kept c access)).map keptDefinition)).complete
            ⟨received, none⟩).nodes ⟨some path, none⟩ =
          (body.nodes ⟨some path, none⟩).map (CodeNode.complete fun _ => received) := by
        intro placement
        rw [StructBody.nodes_complete (fun _ => received) path none, StructBody.nodes_graft]
      rw [hvalue, hvalue, Item.complete, Item.complete, Item.scopeNodes, Item.scopeNodes, hnodes,
        hnodes]
  | .module attrs lead name inner items, nodes, rest, more, h => by
    -- the module is a scope of its own, with an account of its own
    obtain ⟨hitems, hnodes⟩ := Item.emitList_reverseBlocks hc (path ++ [name.text])
      (Item.emitList (c.emission .prepend access) (nodes ++ rest) items).received items nodes rest
      more h
    rw [Item.complete_emit_module, Item.complete_emit_module,
      Item.emitList_received access hc (path ++ [name.text]) items rest h]
    refine ⟨?_, ?_⟩
    · rw [Item.reverseBlocks, hitems]
    · rw [Item.scopeNodes, Item.scopeNodes, hnodes]
  | .nominal kind attrs lead name tail, nodes, rest, more, h => by
    rw [Item.structDecls, List.forall₂_nil_left_iff] at h
    subst h
    exact ⟨rfl, rfl⟩
  | .use attrs vis global tree, nodes, rest, more, h => by
    rw [Item.structDecls, List.forall₂_nil_left_iff] at h
    subst h
    exact ⟨rfl, rfl⟩
  | .impl attrs lead trait selfTy clause inner members, nodes, rest, more, h => by
    rw [Item.structDecls, List.forall₂_nil_left_iff] at h
    subst h
    exact ⟨rfl, rfl⟩
  | .other shape parts, nodes, rest, more, h => by
    rw [Item.structDecls, List.forall₂_nil_left_iff] at h
    subst h
    -- completion keeps the shape, also of a module declared elsewhere
    cases shape <;> exact ⟨rfl, rfl⟩

/-- The items of a scope. -/
theorem Item.emitList_reverseBlocks (hc : c.WellFormed) (path : List String)
    (received : Received) :
    ∀ (is : List Item) (nodes rest : List NodeId) (more : List Nat),
      List.Forall₂ c.Entered (Item.structDeclsList path is) nodes →
      Item.reverseBlocksList ((c.emission .prepend access).summary.receivedCounts nodes ++ more)
          ((Item.emitList (c.emission .prepend access) (nodes ++ rest) is).value.map
            (Item.complete ⟨received, none⟩)) =
        ((Item.emitList (c.emission .declarationOrder access) (nodes ++ rest) is).value.map
          (Item.complete ⟨received, none⟩), more) ∧
      Item.scopeNodesList path
          ((Item.emitList (c.emission .declarationOrder access) (nodes ++ rest) is).value.map
            (Item.complete ⟨received, none⟩)) =
        Item.scopeNodesList path
          ((Item.emitList (c.emission .prepend access) (nodes ++ rest) is).value.map
            (Item.complete ⟨received, none⟩))
  | [], nodes, rest, more, h => by
    rw [Item.structDeclsList, List.forall₂_nil_left_iff] at h
    subst h
    exact ⟨rfl, rfl⟩
  | i :: is, nodes, rest, more, h => by
    obtain ⟨nodes₁, nodes₂, rfl, h₁, h₂⟩ := forall₂_append_inv h
    -- in both runs the first item takes its own nodes, and so its own blocks
    have hcursor : ∀ placement, (i.emit (c.emission placement access)
        (nodes₁ ++ (nodes₂ ++ rest))).structs = nodes₂ ++ rest := fun placement =>
      (Item.emit_walk placement access hc path i nodes₁ (nodes₂ ++ rest) h₁).1
    have hcounts : (c.emission .prepend access).summary.receivedCounts (nodes₁ ++ nodes₂) ++
        more = (c.emission .prepend access).summary.receivedCounts nodes₁ ++
          ((c.emission .prepend access).summary.receivedCounts nodes₂ ++ more) := by
      rw [Summary.receivedCounts, List.map_append, List.append_assoc]
      rfl
    obtain ⟨hfirst, hfirstNodes⟩ := Item.emit_reverseBlocks hc path received i nodes₁
      (nodes₂ ++ rest) ((c.emission .prepend access).summary.receivedCounts nodes₂ ++ more) h₁
    obtain ⟨hrest, hrestNodes⟩ := Item.emitList_reverseBlocks hc path received is nodes₂ rest
      more h₂
    rw [hcounts, List.append_assoc, Item.emitList, Item.emitList, hcursor, hcursor]
    refine ⟨?_, ?_⟩
    · rw [List.map_cons, Item.reverseBlocksList, hfirst]
      dsimp only
      rw [hrest]
      rfl
    · rw [List.map_cons, List.map_cons, Item.scopeNodesList, Item.scopeNodesList, hfirstNodes,
        hrestNodes]

end

end Emission

namespace Session

/-- The session with another placement. -/
def under (s : Session) (placement : Placement) : Session :=
  { s with placement }

/-- Access does not depend on the placement. -/
theorem access_under (s : Session) (placement : Placement) :
    (s.under placement).authorize.2.1 = s.authorize.2.1 := by
  unfold authorize under
  cases s.access <;> rfl

/-- The report of a round in such a session is that of the round over the catalogue. -/
theorem report_under (s : Session) (placement : Placement) (items : List Item) :
    ((s.under placement).injectItems items).2.2.arena =
        ((Catalogue.ofItems items).round placement s.authorize.2.1).arena ∧
      ((s.under placement).injectItems items).2.2.summary =
        ((Catalogue.ofItems items).round placement s.authorize.2.1).summary ∧
      ((s.under placement).injectItems items).2.2.diagnostics =
        ((Catalogue.ofItems items).round placement s.authorize.2.1).diagnostics := by
  rw [← access_under s placement]
  exact ⟨rfl, rfl, rfl⟩

/-- The file is completed like any other scope, by the same account under both placements. -/
theorem emitted_under (s : Session) (placement : Placement) (items : List Item) :
    ((s.under placement).injectItems items).2.1 =
      (Item.emitList ((Catalogue.ofItems items).emission placement s.authorize.2.1)
        ((Catalogue.ofItems items).structs ++ []) items).value.map (Item.complete
          ⟨(Item.emitList ((Catalogue.ofItems items).emission .prepend s.authorize.2.1)
            ((Catalogue.ofItems items).structs ++ []) items).received, none⟩) := by
  obtain ⟨hc, hentered⟩ := Catalogue.ofItems_entered items
  -- what is received does not depend on the placement, though the blocks do
  have hreceived :
      (Item.emitList ((Catalogue.ofItems items).emission placement s.authorize.2.1)
        ((Catalogue.ofItems items).structs ++ []) items).received =
      (Item.emitList ((Catalogue.ofItems items).emission .prepend s.authorize.2.1)
        ((Catalogue.ofItems items).structs ++ []) items).received := by
    cases placement with
    | prepend => rfl
    | declarationOrder => exact Item.emitList_received _ hc [] items [] hentered
  rw [← hreceived, ← completeScope_eq, List.append_nil, ← access_under s placement]
  rfl

/-- **The placement only moves new fields.** Under both placements a round has the same summary, the
same diagnostics at the same places and the same number of annotations. The emitted items are the
same, except that in each struct the block of the fields that it received is in the opposite order;
so literals and patterns are the same. -/
theorem injectItems_placement (s : Session) (items : List Item) :
    ((s.under .declarationOrder).injectItems items).2.2.summary =
      ((s.under .prepend).injectItems items).2.2.summary ∧
    ((s.under .declarationOrder).injectItems items).2.2.diagnostics =
      ((s.under .prepend).injectItems items).2.2.diagnostics ∧
    ((s.under .declarationOrder).injectItems items).2.2.located =
      ((s.under .prepend).injectItems items).2.2.located ∧
    ((s.under .declarationOrder).injectItems items).2.2.annotations =
      ((s.under .prepend).injectItems items).2.2.annotations ∧
    Item.reverseBlocksList
        (((s.under .prepend).injectItems items).2.2.summary.receivedCounts
          (Catalogue.ofItems items).structs)
        ((s.under .prepend).injectItems items).2.1 =
      (((s.under .declarationOrder).injectItems items).2.1, []) ∧
    Item.scopeNodesList [] ((s.under .declarationOrder).injectItems items).2.1 =
      Item.scopeNodesList [] ((s.under .prepend).injectItems items).2.1 := by
  obtain ⟨hc, hentered⟩ := Catalogue.ofItems_entered items
  obtain ⟨hmirrors, hsummary, hdiagnostics⟩ :=
    Catalogue.round_sameReport hc .prepend .declarationOrder s.authorize.2.1
  obtain ⟨harena₁, hsummary₁, hdiagnostics₁⟩ := report_under s .prepend items
  obtain ⟨harena₂, hsummary₂, hdiagnostics₂⟩ := report_under s .declarationOrder items
  -- every struct of the unit takes its own block, and none is left
  obtain ⟨hitems, hnodes⟩ := Item.emitList_reverseBlocks s.authorize.2.1 hc [] _ items _ [] []
    hentered
  rw [← emitted_under, ← emitted_under, List.append_nil] at hitems
  rw [← emitted_under, ← emitted_under] at hnodes
  refine ⟨?_, ?_, ?_, ?_, ?_, hnodes⟩
  · rw [hsummary₁, hsummary₂, hsummary]
  · rw [hdiagnostics₁, hdiagnostics₂, hdiagnostics]
  · rw [RoundReport.located, RoundReport.located, harena₁, harena₂, hdiagnostics₁, hdiagnostics₂,
      hdiagnostics]
    exact List.map_congr_left fun d _ => hmirrors.locate_eq d
  · rw [annotations_eq, annotations_eq]
  · rw [hsummary₁]
    exact hitems

end Session

end FieldGraft
