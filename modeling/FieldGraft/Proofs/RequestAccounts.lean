import FieldGraft.Proofs.RoundTurns
import FieldGraft.Session

/-!
# Every request on a type is accounted for

What is read from the annotations of a unit goes two ways: refused annotations are reported before
the round, and requests form the batch of the round. `Session.injectItems_accounted` says that
nothing is lost between the items and the report.

* `Item.typeItemsList` collects the types that may carry annotations, in the order of the source.
* `Catalogue.Recorded` — a catalogue that went on over some types has gained their nodes, their
  refused annotations and their targets, in this order. Fields, constructors and `impl` blocks leave
  all three alone (`Catalogue.register`), so an item records the types in it, and a scope those of
  its items.
* `Arena.processInto_heads` — a round adds members, so the types of the arena stay what they are.
-/

namespace FieldGraft

/-! ### The types of an item list -/

/-- A type at file level or in an inline module. -/
structure TypeItem where
  kind : DeclKind
  attrs : List Attribute
  name : Word

namespace TypeItem

/-- The valid requests on the type, in the order of their attributes and entries. -/
def requests (d : TypeItem) : List Request :=
  (readRequests d.attrs).filterMap Except.toOption

/-- The errors in its annotations, in the same order. -/
def errors (d : TypeItem) : List AnnotationError :=
  (readRequests d.attrs).filterMap fun r =>
    match r with
    | .ok _ => none
    | .error e => some e

/-- Each annotation entry is a request or an error. -/
theorem length_errors_add_requests (d : TypeItem) :
    d.errors.length + d.requests.length = (readRequests d.attrs).length := by
  unfold errors requests
  induction readRequests d.attrs with
  | nil => rfl
  | cons r rs ih =>
    cases r with
    | ok request =>
      simp only [List.filterMap_cons, Except.toOption, List.length_cons]
      omega
    | error e =>
      simp only [List.filterMap_cons, Except.toOption, List.length_cons]
      omega

end TypeItem

mutual

/-- The types of an item: structs, enumerations, unions and traits, in inline modules as well. -/
def Item.typeItems : Item → List TypeItem
  | .struct attrs _ name _ body => [⟨body.kind, attrs, name⟩]
  | .nominal kind attrs _ name _ => [⟨kind.kind, attrs, name⟩]
  | .module _ _ _ _ items => Item.typeItemsList items
  | .use _ _ _ _ => []
  | .impl _ _ _ _ _ _ _ => []
  | .other _ _ => []

/-- The types of a list of items. -/
def Item.typeItemsList : List Item → List TypeItem
  | [] => []
  | i :: is => i.typeItems ++ Item.typeItemsList is

end

/-- A type with its node. -/
structure TypeEntry where
  node : NodeId
  item : TypeItem

namespace TypeEntry

/-- Node, name and kind. -/
def head (x : TypeEntry) : NodeId × String × DeclKind :=
  (x.node, x.item.name.text, x.item.kind)

/-- The refused annotations of the type. -/
def refusals (x : TypeEntry) : List (NodeId × AnnotationError) :=
  x.item.errors.map (fun e => (x.node, e))

/-- The target that the type is in a batch; without requests it is none. -/
def targets (x : TypeEntry) : List Target :=
  if x.item.requests.isEmpty then [] else [⟨x.node, x.item.requests⟩]

/-- The requests of the type, each with its node. -/
def pairs (x : TypeEntry) : List (NodeId × Request) :=
  x.item.requests.map (fun r => (x.node, r))

/-- A type without requests needs no target. -/
theorem requestPairs_targets (x : TypeEntry) : requestPairs x.targets = x.pairs := by
  unfold targets pairs
  cases x.item.requests with
  | nil => rfl
  | cons r rs => simp [requestPairs]

theorem requestPairs_flatMap (entries : List TypeEntry) :
    requestPairs (entries.flatMap targets) = entries.flatMap pairs := by
  rw [requestPairs, List.flatMap_assoc]
  exact congrArg (entries.flatMap ·) (funext requestPairs_targets)

end TypeEntry

/-! ### The types of an arena -/

/-- Node, name and kind of a type. -/
def Declaration.head? (id : NodeId) : Declaration → Option (NodeId × String × DeclKind)
  | .type decl => some (id, decl.name, decl.kind)
  | .field _ => none
  | .constructor _ => none

namespace Arena

variable {a b : Arena} {owner id : NodeId} {position : Nat} {d : Declaration}

/-- The types of an arena without their members. -/
def heads (a : Arena) : List (NodeId × String × DeclKind) :=
  a.types.map (fun t => (t.1, t.2.name, t.2.kind))

theorem heads_eq (a : Arena) :
    a.heads = (List.range a.size).filterMap
      (fun i => (a.declaration? ⟨i⟩).bind (Declaration.head? ⟨i⟩)) := by
  rw [heads, types, List.map_filterMap]
  refine List.filterMap_congr fun i _ => ?_
  unfold typeDecl declaration?
  cases a.get? ⟨i⟩ with
  | none => rfl
  | some n =>
    obtain ⟨decl, parent, location⟩ := n
    cases decl <;> rfl

/-- The old ids come first, and then the new one. -/
theorem heads_of_size (hsize : b.size = a.size + 1)
    (hold : ∀ i < a.size, (b.declaration? ⟨i⟩).bind (Declaration.head? ⟨i⟩) =
      (a.declaration? ⟨i⟩).bind (Declaration.head? ⟨i⟩)) :
    b.heads = a.heads ++
      ((b.declaration? ⟨a.size⟩).bind (Declaration.head? ⟨a.size⟩)).toList := by
  rw [heads_eq, heads_eq, hsize, List.range_succ, List.filterMap_append]
  -- what the old ids hold may have changed, but not its head
  rw [List.filterMap_congr fun i hi => hold i (List.mem_range.mp hi)]
  cases hnew : (b.declaration? ⟨a.size⟩).bind (Declaration.head? ⟨a.size⟩) <;> simp [hnew]

theorem addType_heads (a : Arena) (name : String) (kind : DeclKind) :
    (a.addType name kind).1.heads = a.heads ++ [(⟨a.size⟩, name, kind)] := by
  have hsize : (a.addType name kind).1.size = a.size + 1 := alloc_size a _ _
  rw [heads_of_size hsize, addType_declaration?, if_pos rfl]
  · rfl
  · intro i hi
    have hne : (⟨i⟩ : NodeId) ≠ ⟨a.size⟩ := fun heq => Nat.ne_of_lt hi (NodeId.mk.inj heq)
    rw [addType_declaration?, if_neg hne]

theorem setLocation_heads {loc : Location} (h : a.setLocation id loc = .ok b) :
    b.heads = a.heads := by
  rw [heads_eq, heads_eq, setLocation_size h]
  simp only [setLocation_declaration? h]

/-- **A new member is no new type**, and its owner keeps name and kind. -/
theorem Inserted.heads_eq (h : a.Inserted b owner position d id) (hd : ∀ decl, d ≠ .type decl) :
    b.heads = a.heads := by
  -- the new node is no type
  have hnew : (b.declaration? ⟨a.size⟩).bind (Declaration.head? ⟨a.size⟩) = none := by
    rw [← h.id_eq, h.new_eq]
    cases d with
    | type decl => exact absurd rfl (hd decl)
    | field f => rfl
    | constructor k => rfl
  rw [heads_of_size h.size_eq, hnew]
  · exact List.append_nil _
  · intro i hi
    by_cases howner : (⟨i⟩ : NodeId) = owner
    · -- only the member list of the owner is another one
      obtain ⟨decl, hbefore, hafter⟩ := h.owner_eq
      rw [howner, hbefore, hafter]
      rfl
    · have hne : (⟨i⟩ : NodeId) ≠ id := by
        rw [h.id_eq]
        exact fun heq => Nat.ne_of_lt hi (NodeId.mk.inj heq)
      rw [h.other_eq _ howner hne]

/-- A round over the arena leaves its types as they are. -/
theorem processInto_heads (a : Arena) (sink : List Diagnostic) (capability : Capability)
    (placement : Placement) (types : TypeResolver) (batch : List Target) :
    (a.processInto sink capability placement types batch).arena.heads = a.heads := by
  refine processInto_induction (motive := fun _ p => p.arena.heads = a.heads) ?_ sink capability
    batch rfl
  intro seen p count t r ih
  -- a request leaves the arena alone or adds a field
  rcases Progress.request_cases types placement t p count r with
    ⟨-, hskips, -⟩ | ⟨ty, -, -, hadds, -⟩
  · rw [hskips.arena_eq, ih]
  · rw [hadds.inserted.heads_eq fun _ => Declaration.noConfusion, ih]

end Arena

/-! ### What a catalogue records of a type -/

namespace Catalogue

variable {c c' c'' : Catalogue} {entries entries' : List TypeEntry}

/-- What a catalogue holds about types and their annotations. -/
def register (c : Catalogue) :
    List (NodeId × String × DeclKind) × List (NodeId × AnnotationError) × List Target :=
  (c.arena.heads, c.errors, c.batch)

@[simp] theorem place_register (c : Catalogue) (id : NodeId) (pos : Position) :
    (c.place id pos).register = c.register := by
  unfold place
  split
  · next harena => exact congrArg (·, c.errors, c.batch) (Arena.setLocation_heads harena)
  · rfl

/-- A member at the end of its type, which is a field or a constructor. -/
theorem register_of_push {arena : Arena} {owner id : NodeId} {d : Declaration}
    (h : (do let ms ← c.arena.members owner
             c.arena.insertMember owner ms.length d) = Except.ok (arena, id))
    (hd : ∀ decl, d ≠ .type decl) : ({ c with arena } : Catalogue).register = c.register := by
  obtain ⟨position, hinserted⟩ := Arena.exists_inserted_of_push h
  exact congrArg (·, c.errors, c.batch) (hinserted.heads_eq hd)

@[simp] theorem addConstructor_register (c : Catalogue) (owner : NodeId) (name : String)
    (params : Nat) (pos : Position) :
    (c.addConstructor owner name params pos).register = c.register := by
  unfold addConstructor
  split
  · next hpush =>
    rw [place_register]
    exact register_of_push hpush fun _ => Declaration.noConfusion
  · rfl

theorem addFields_register (owner : NodeId) (c : Catalogue) (slot : Nat) (fs : List FieldDef) :
    (addFields owner c slot fs).register = c.register := by
  induction fs generalizing c slot with
  | nil => rfl
  | cons f fs ih =>
    rw [addFields]
    split
    · next hpush =>
      rw [ih, place_register]
      -- the position that is recorded with the field is not part of the register
      exact register_of_push hpush fun _ => Declaration.noConfusion
    · exact ih c (slot + 1)

theorem addMember_register (owner : NodeId) (selfName : String) (c : Catalogue) (member : Code) :
    (addMember owner selfName c member).register = c.register := by
  unfold addMember
  split
  · split
    · rfl
    · exact addConstructor_register _ _ _ _ _
  · rfl

/-- Steps that enter no type, one after the other. -/
theorem foldl_register {α : Type} {step : Catalogue → α → Catalogue}
    (hstep : ∀ c x, (step c x).register = c.register) (xs : List α) (c : Catalogue) :
    (xs.foldl step c).register = c.register := by
  induction xs generalizing c with
  | nil => rfl
  | cons x xs ih => rw [List.foldl_cons, ih, hstep]

/-- No annotation is read on an `impl` block or in one. -/
theorem addImpl_register (names : ScopeNames) (c : Catalogue) (item : Item) :
    (addImpl names c item).register = c.register := by
  unfold addImpl
  split
  · split
    · rfl
    · split
      · rfl
      · split
        · split
          · exact addConstructor_register _ _ _ _ _
          · rfl
        · exact foldl_register (addMember_register _ _) _ _
  · rfl

/-- **The catalogue has gone on over some types.** -/
structure Recorded (entries : List TypeEntry) (c c' : Catalogue) : Prop where
  heads_eq : c'.arena.heads = c.arena.heads ++ entries.map TypeEntry.head
  errors_eq : c'.errors = c.errors ++ entries.flatMap TypeEntry.refusals
  batch_eq : c'.batch = c.batch ++ entries.flatMap TypeEntry.targets

namespace Recorded

theorem of_register_eq (h : c'.register = c.register) : Recorded [] c c' := by
  obtain ⟨hheads, hrest⟩ := Prod.mk.inj h
  obtain ⟨herrors, hbatch⟩ := Prod.mk.inj hrest
  exact ⟨by rw [hheads]; simp, by rw [herrors]; simp, by rw [hbatch]; simp⟩

theorem append (h₁ : Recorded entries c c') (h₂ : Recorded entries' c' c'') :
    Recorded (entries ++ entries') c c'' where
  heads_eq := by rw [h₂.heads_eq, h₁.heads_eq, List.map_append, List.append_assoc]
  errors_eq := by rw [h₂.errors_eq, h₁.errors_eq, List.flatMap_append, List.append_assoc]
  batch_eq := by rw [h₂.batch_eq, h₁.batch_eq, List.flatMap_append, List.append_assoc]

/-- What enters no type may follow. -/
theorem then_register_eq (h : Recorded entries c c') (hsame : c''.register = c'.register) :
    Recorded entries c c'' := by
  have happend := h.append (of_register_eq hsame)
  rwa [List.append_nil] at happend

end Recorded

/-- A type is entered with all that is read from its attributes. -/
theorem declare_recorded (c : Catalogue) (name : Word) (kind : DeclKind)
    (attrs : List Attribute) :
    Recorded [⟨⟨c.arena.size⟩, kind, attrs, name⟩] c (c.declare name kind attrs).1 := by
  let c₁ : Catalogue := { c with arena := (c.arena.addType name.text kind).1 }
  obtain ⟨hheads, hrest⟩ := Prod.mk.inj (place_register c₁ ⟨c.arena.size⟩ name.pos)
  obtain ⟨herrors, hbatch⟩ := Prod.mk.inj hrest
  refine ⟨?_, ?_, ?_⟩
  · exact hheads.trans (Arena.addType_heads c.arena name.text kind)
  · rw [List.flatMap_singleton, TypeEntry.refusals, TypeItem.errors, List.map_filterMap]
    refine congrArg₂ (· ++ ·) herrors (List.filterMap_congr fun r _ => ?_)
    cases r <;> rfl
  · -- a type without requests makes no target
    rw [List.flatMap_singleton, TypeEntry.targets, ← hbatch]
    show (if _ then _ else _) = _
    split
    · next hempty =>
      rw [TypeItem.requests, if_pos hempty, List.append_nil]
      rfl
    · next hsome =>
      rw [TypeItem.requests, if_neg hsome]
      rfl

mutual

/-- **An item records the types in it.** -/
theorem addItem_recorded (c : Catalogue) (names : ScopeNames) :
    ∀ i : Item, ∃ entries, entries.map TypeEntry.item = i.typeItems ∧
      Recorded entries c (addItem c names i).1
  -- a struct is recorded before anything is added to it
  | .struct attrs vis name generics body => by
    have hdeclare := declare_recorded c name body.kind attrs
    refine ⟨[⟨⟨c.arena.size⟩, body.kind, attrs, name⟩], rfl, ?_⟩
    rw [addItem]
    generalize c.declare name body.kind attrs = declared at hdeclare
    -- neither the fields nor a derived constructor are types
    have hfields := hdeclare.then_register_eq (addFields_register declared.2
      { declared.1 with structs := declared.1.structs ++ [declared.2] } 0 body.fields)
    dsimp only
    split
    · exact hfields.then_register_eq (addConstructor_register _ _ _ _ _)
    · exact hfields
  | .nominal kind attrs lead name tail =>
    ⟨[⟨⟨c.arena.size⟩, kind.kind, attrs, name⟩], rfl, declare_recorded c name kind.kind attrs⟩
  | .module attrs lead name inner items => by
    obtain ⟨entries, hitems, hrecorded⟩ := addItems_recorded c [] items
    -- the `impl` blocks of the module come after all of its items
    exact ⟨entries, hitems,
      hrecorded.then_register_eq (foldl_register (addImpl_register _) items _)⟩
  | .use attrs vis global tree => ⟨[], rfl, .of_register_eq rfl⟩
  | .impl attrs lead trait selfTy clause inner members => ⟨[], rfl, .of_register_eq rfl⟩
  | .other shape parts => ⟨[], rfl, .of_register_eq rfl⟩

theorem addItems_recorded (c : Catalogue) (names : ScopeNames) :
    ∀ is : List Item, ∃ entries, entries.map TypeEntry.item = Item.typeItemsList is ∧
      Recorded entries c (addItems c names is).1
  | [] => ⟨[], rfl, .of_register_eq rfl⟩
  | i :: is => by
    obtain ⟨entries, hi, hfirst⟩ := addItem_recorded c names i
    -- the names of the scope grow on the way, and types are entered whatever they are
    obtain ⟨entries', his, hrest⟩ :=
      addItems_recorded (addItem c names i).1 (addItem c names i).2 is
    refine ⟨entries ++ entries', ?_, hfirst.append hrest⟩
    rw [List.map_append, hi, his, Item.typeItemsList]

end

end Catalogue

/-- The types of a list of items with their nodes. -/
def typeEntries (items : List Item) : List TypeEntry :=
  List.zipWith TypeEntry.mk ((Catalogue.ofItems items).arena.types.map Prod.fst)
    (Item.typeItemsList items)

/-- **A catalogue records exactly the types of its items**, in their order. -/
theorem Catalogue.ofItems_recorded (items : List Item) :
    (typeEntries items).map TypeEntry.item = Item.typeItemsList items ∧
      Recorded (typeEntries items) {} (ofItems items) := by
  obtain ⟨entries, hitems, hrecorded⟩ := addItems_recorded {} [] items
  have hunit : Recorded entries {} (ofItems items) :=
    hrecorded.then_register_eq (foldl_register (addImpl_register _) items _)
  -- the nodes are those of the arena, so the entries can be read off it
  have hnodes : (ofItems items).arena.types.map Prod.fst = entries.map TypeEntry.node := by
    have hheads := congrArg (List.map Prod.fst) hunit.heads_eq
    rw [Arena.heads, List.map_map] at hheads
    refine hheads.trans ?_
    show ([] ++ entries.map TypeEntry.head).map Prod.fst = _
    rw [List.nil_append, List.map_map]
    rfl
  have hentries : typeEntries items = entries := by
    rw [typeEntries, hnodes, ← hitems, List.zipWith_map]
    exact List.zipWith_self.trans (List.map_id _)
  rw [hentries]
  exact ⟨hitems, hunit⟩

/-! ### The report of a round -/

/-- The errors that are reported for a type before the round. -/
def TypeEntry.reports (x : TypeEntry) : List Diagnostic :=
  x.item.errors.map (fun e => ⟨.error, "fielder: " ++ e.message, some x.node⟩)

namespace Catalogue

theorem annotationDiagnostics_ofItems (items : List Item) :
    annotationDiagnostics (ofItems items).errors =
      (typeEntries items).flatMap TypeEntry.reports := by
  have herrors : (ofItems items).errors = (typeEntries items).flatMap TypeEntry.refusals :=
    (ofItems_recorded items).2.errors_eq
  rw [herrors, annotationDiagnostics, List.map_flatMap]
  refine congrArg ((typeEntries items).flatMap ·) (funext fun x => ?_)
  exact List.map_map

theorem requestPairs_ofItems (items : List Item) :
    requestPairs (ofItems items).batch = (typeEntries items).flatMap TypeEntry.pairs := by
  have hbatch : (ofItems items).batch = (typeEntries items).flatMap TypeEntry.targets :=
    (ofItems_recorded items).2.batch_eq
  rw [hbatch, TypeEntry.requestPairs_flatMap]

/-- How many requests there are in all. -/
theorem requestCount_ofItems (items : List Item) :
    requestCount (ofItems items).batch =
      ((Item.typeItemsList items).flatMap TypeItem.requests).length := by
  rw [requestCount_eq, requestPairs_ofItems, ← (ofItems_recorded items).1, List.flatMap_map,
    List.length_flatMap, List.length_flatMap]
  refine congrArg (fun f => ((typeEntries items).map f).sum) (funext fun x => ?_)
  exact List.length_map _

/-- How many errors there are in all. -/
theorem length_annotationDiagnostics (items : List Item) :
    (annotationDiagnostics (ofItems items).errors).length =
      ((Item.typeItemsList items).flatMap TypeItem.errors).length := by
  rw [annotationDiagnostics_ofItems, ← (ofItems_recorded items).1, List.flatMap_map,
    List.length_flatMap, List.length_flatMap]
  refine congrArg (fun f => ((typeEntries items).map f).sum) (funext fun x => ?_)
  exact List.length_map _

/-- The types of a unit keep their names and kinds in a round, whether or not it is granted. -/
theorem round_heads (items : List Item) (placement : Placement)
    (access : Except HostError Capability) :
    ((ofItems items).round placement access).arena.heads =
      (typeEntries items).map TypeEntry.head := by
  have hunit : (ofItems items).arena.heads = (typeEntries items).map TypeEntry.head :=
    (ofItems_recorded items).2.heads_eq
  rw [← hunit]
  cases access with
  | ok capability => exact Arena.processInto_heads _ _ capability placement _ _
  | error e => rfl

end Catalogue

/-- Errors and requests together are all that was read. -/
theorem length_readings (ds : List TypeItem) :
    (ds.flatMap TypeItem.errors).length + (ds.flatMap TypeItem.requests).length =
      (ds.flatMap fun d => readRequests d.attrs).length := by
  induction ds with
  | nil => rfl
  | cons d ds ih =>
    have hd := d.length_errors_add_requests
    rw [List.flatMap_cons, List.flatMap_cons, List.flatMap_cons, List.length_append,
      List.length_append, List.length_append]
    omega

/-- **The account of a granted round.** The errors in annotations come first, each with the node of
the type it was found on. Then there is one diagnostic for each turn, and the turns are those of the
valid requests in their order. -/
structure RoundReport.Accounts (items : List Item) (turns : List Turn) (r : RoundReport) :
    Prop where
  reported : ∃ ds, r.diagnostics = (typeEntries items).flatMap TypeEntry.reports ++ ds ∧
    List.Forall₂ (Turn.Reports (Catalogue.ofItems items).types) turns ds
  requested : turns.map (fun x => (x.target, x.request)) =
    (typeEntries items).flatMap TypeEntry.pairs
  yielded : List.Forall₂ (Turn.Yields (Catalogue.ofItems items).types r.arena)
    (acceptedTurns (Catalogue.ofItems items).types turns) r.summary.injected
  counted : r.diagnostics.length =
    ((Item.typeItemsList items).flatMap fun d => readRequests d.attrs).length
  balanced : r.diagnostics.length =
    ((Item.typeItemsList items).flatMap TypeItem.errors).length + r.summary.injected.length +
      r.summary.skipped

/-- **The account of a denied round.** The refusal is all that is reported. -/
structure RoundReport.Denied (items : List Item) (e : HostError) (r : RoundReport) : Prop where
  diagnostics_eq : r.diagnostics = [⟨.error, "fielder: " ++ e.message, none⟩]
  injected_eq : r.summary.injected = []
  skipped_eq : r.summary.skipped = ((Item.typeItemsList items).flatMap TypeItem.requests).length

namespace Session

/-- What the round over the catalogue comes to is what is reported. -/
theorem report_eq_round {s : Session} {access : Except HostError Capability}
    (h : s.authorize.2.1 = access) (items : List Item) :
    (s.injectItems items).2.2.arena =
        ((Catalogue.ofItems items).round s.placement access).arena ∧
      (s.injectItems items).2.2.summary =
        ((Catalogue.ofItems items).round s.placement access).summary ∧
      (s.injectItems items).2.2.diagnostics =
        ((Catalogue.ofItems items).round s.placement access).diagnostics := by
  subst h
  exact ⟨rfl, rfl, rfl⟩

theorem accounts_of_granted {s : Session} {capability : Capability}
    (h : s.authorize.2.1 = .ok capability) (items : List Item) :
    (s.injectItems items).2.2.Accounts items
      ((Catalogue.ofItems items).arena.turns s.placement (Catalogue.ofItems items).types
        (Catalogue.ofItems items).batch) := by
  let c := Catalogue.ofItems items
  obtain ⟨harena, hsummary, hdiagnostics⟩ := report_eq_round h items
  obtain ⟨⟨ds, hds, hreports⟩, hcounted, hyielded⟩ := c.arena.processInto_accounts
    (annotationDiagnostics c.errors) capability s.placement c.types c.batch
  -- one diagnostic for each error, and one for each turn
  have hlength : (s.injectItems items).2.2.diagnostics.length =
      ((Item.typeItemsList items).flatMap TypeItem.errors).length +
        ((Item.typeItemsList items).flatMap TypeItem.requests).length := by
    rw [← Catalogue.length_annotationDiagnostics, ← Catalogue.requestCount_ofItems,
      ← Arena.length_turns c.arena s.placement c.types, hreports.length_eq, ← List.length_append,
      ← hds]
    exact congrArg List.length hdiagnostics
  rw [Arena.length_turns, Catalogue.requestCount_ofItems] at hcounted
  -- the diagnostics are those of the annotations, followed by those of the turns
  refine ⟨⟨ds, ?_, hreports⟩, ?_, ?_, ?_, ?_⟩
  · rw [← Catalogue.annotationDiagnostics_ofItems]
    exact hdiagnostics.trans hds
  · rw [← Catalogue.requestPairs_ofItems]
    exact Progress.turns_pairs c.types s.placement { arena := c.arena } c.batch
  · rw [harena, hsummary]
    exact hyielded
  · rw [hlength, length_readings]
  · rw [hlength, hsummary, ← hcounted, Nat.add_assoc]
    rfl

theorem denied_of_refused {s : Session} {e : HostError} (h : s.authorize.2.1 = .error e)
    (items : List Item) : (s.injectItems items).2.2.Denied items e := by
  obtain ⟨-, hsummary, hdiagnostics⟩ := report_eq_round h items
  refine ⟨hdiagnostics, ?_, ?_⟩
  · rw [hsummary]
    rfl
  · rw [hsummary, ← Catalogue.requestCount_ofItems]
    rfl

/-- **Every request is accounted for.** The entries are the types of the items, and the nodes in
them are the types of the arena, with their names and kinds. If access is granted, then the report
has one diagnostic for each error in an annotation and one for each valid request, in this order; so
there are as many as annotation entries were read, and as many as errors, additions and skipped
requests together. If access is denied, then this is the only diagnostic, and all valid requests are
skipped. -/
theorem injectItems_accounted (s : Session) (items : List Item) :
    (typeEntries items).map TypeEntry.item = Item.typeItemsList items ∧
    (s.injectItems items).2.2.arena.types.map (fun t => (t.1, t.2.name, t.2.kind)) =
      (typeEntries items).map TypeEntry.head ∧
    match s.authorize.2.1 with
    | .ok _ => (s.injectItems items).2.2.Accounts items
        ((Catalogue.ofItems items).arena.turns s.placement (Catalogue.ofItems items).types
          (Catalogue.ofItems items).batch)
    | .error e => (s.injectItems items).2.2.Denied items e := by
  refine ⟨(Catalogue.ofItems_recorded items).1,
    Catalogue.round_heads items s.placement s.authorize.2.1, ?_⟩
  cases h : s.authorize.2.1 with
  | ok capability => exact accounts_of_granted h items
  | error e => exact denied_of_refused h items

end Session

end FieldGraft
