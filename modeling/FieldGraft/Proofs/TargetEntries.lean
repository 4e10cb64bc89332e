import FieldGraft.Proofs.RoundReruns

/-!
# The entries of a batch

A batch is a list of entries, each with a node and some requests for it, and a node may have several
entries. All of them work on one arena, so the ids that a type's fields receive depend on every
entry before. What is said here about a type does not.

* `Progress.Spares` — an entry for another node changes nothing about a node: neither its members
  nor its fields nor what the summary lists for it.
* `Arena.process_fieldDecls` — the fields of a node, ids aside, are those of a round over its own
  entries. Two runs are compared that agree about this one node (`Progress.AgreeAt`); an entry for
  another node moves only one of them. Nodes that do not exist when the round begins are no
  exception, although they may exist when their entry comes.
* `Arena.process_memberList_iff` — the member list after a round in declaration order. The position
  of a new field is counted per entry, so a later entry of the same node puts its fields in front of
  those of the earlier ones. The fields of a node stand in the order of their requests exactly if at
  most one of its entries added any.
-/

namespace FieldGraft

/-! ### Entries for other nodes -/

/-- The fields of a type in member order, without their ids. -/
def Arena.fieldDecls (a : Arena) (t : NodeId) : List FieldDecl :=
  (a.fields t).map Prod.snd

theorem Arena.fieldNames_eq_map_fieldDecls (a : Arena) (t : NodeId) :
    a.fieldNames t = (a.fieldDecls t).map FieldDecl.name := by
  rw [fieldNames, fieldDecls, List.map_map]
  rfl

namespace Progress

variable {types : TypeResolver} {placement : Placement} {t u : NodeId} {p p' p'' q : Progress}

/-- **What an entry for another node leaves alone** about `t`, whether the arena knows `t` or
not. -/
structure Spares (t : NodeId) (p p' : Progress) : Prop where
  closed : p.arena.Closed → p'.arena.Closed
  memberList_eq : p'.arena.memberList t = p.arena.memberList t
  fields_eq : p.arena.Closed → p'.arena.fields t = p.arena.fields t
  injectedInto_eq : p'.summary.injectedInto t = p.summary.injectedInto t

namespace Spares

theorem refl (t : NodeId) (p : Progress) : Spares t p p where
  closed := id
  memberList_eq := rfl
  fields_eq := fun _ => rfl
  injectedInto_eq := rfl

theorem trans (h₁ : Spares t p p') (h₂ : Spares t p' p'') : Spares t p p'' where
  closed := h₂.closed ∘ h₁.closed
  memberList_eq := h₂.memberList_eq.trans h₁.memberList_eq
  fields_eq := fun hp => (h₂.fields_eq (h₁.closed hp)).trans (h₁.fields_eq hp)
  injectedInto_eq := h₂.injectedInto_eq.trans h₁.injectedInto_eq

/-- A skipped request spares every node. -/
theorem of_skips (h : p.Skips p') (t : NodeId) : Spares t p p' where
  closed := by rw [h.arena_eq]; exact id
  memberList_eq := by rw [h.arena_eq]
  fields_eq := by rw [h.arena_eq]; exact fun _ => rfl
  injectedInto_eq := by rw [Summary.injectedInto, Summary.injectedInto, h.injected_eq]

/-- An addition spares every node but its target. -/
theorem of_adds {position : Nat} {f : FieldDecl} {id : NodeId} (h : p.Adds p' u position f id)
    (htu : t ≠ u) : Spares t p p' where
  closed := h.inserted.closed fun _ => Declaration.noConfusion
  memberList_eq := h.inserted.memberList_of_ne (fun _ => Declaration.noConfusion) htu
  fields_eq := fun hp => h.inserted.fields_of_ne (fun _ => Declaration.noConfusion) hp htu
  injectedInto_eq := by
    have hother : ((u : NodeId) == t) = false := beq_eq_false_iff_ne.mpr htu.symm
    rw [Summary.injectedInto, Summary.injectedInto, h.injected_eq, List.filter_append,
      List.filter_cons_of_neg (by rw [hother]; exact Bool.false_ne_true), List.filter_nil,
      List.append_nil]

end Spares

/-- A request spares every node but its target. -/
theorem request_spares (htu : t ≠ u) (p : Progress) (count : Nat) (r : Request) :
    Spares t p (request types placement u p count r).1 := by
  rcases request_cases types placement u p count r with
    ⟨-, hskips, -⟩ | ⟨ty, -, -, hadds, -⟩
  · exact .of_skips hskips t
  · exact .of_adds hadds htu

/-- So do the requests of an entry. -/
theorem requests_spares (htu : t ≠ u) (p : Progress) (count : Nat) (rs : List Request) :
    Spares t p (requests types placement u p count rs) := by
  induction rs generalizing p count with
  | nil => exact .refl t p
  | cons r rs ih => exact (request_spares htu p count r).trans (ih _ _)

theorem target_spares {x : Target} (hx : x.node ≠ t) (p : Progress) :
    Spares t p (target types placement p x) :=
  requests_spares (Ne.symm hx) p 0 x.requests

/-- Whether a node takes fields is settled before the round, for the target of a request as well. -/
theorem requests_takesFields (t u : NodeId) (p : Progress) (count : Nat) (rs : List Request) :
    (requests types placement u p count rs).arena.takesFields t = p.arena.takesFields t := by
  induction rs generalizing p count with
  | nil => rfl
  | cons r rs ih =>
    have hfirst : (request types placement u p count r).1.arena.takesFields t =
        p.arena.takesFields t := by
      rcases request_cases types placement u p count r with
        ⟨-, hskips, -⟩ | ⟨ty, -, -, hadds, -⟩
      · rw [hskips.arena_eq]
      · exact hadds.inserted.takesFields_eq t
    rw [requests_cons, ih, hfirst]

/-! ### Targets do not interfere -/

/-- **Two runs agree about a node**: in both it has the same fields, ids aside, and takes fields or
does not. The ids of one run mean nothing in the other. -/
structure AgreeAt (t : NodeId) (p q : Progress) : Prop where
  closed_left : p.arena.Closed
  closed_right : q.arena.Closed
  fieldDecls_eq : p.arena.fieldDecls t = q.arena.fieldDecls t
  takesFields_eq : p.arena.takesFields t = q.arena.takesFields t

namespace AgreeAt

/-- An entry for another node moves the first run only. -/
theorem other (h : AgreeAt t p q) {x : Target} (hx : x.node ≠ t) :
    AgreeAt t (target types placement p x) q := by
  have hspares : Spares t p (target types placement p x) := target_spares hx p
  refine ⟨hspares.closed h.closed_left, h.closed_right, ?_, ?_⟩
  · rw [Arena.fieldDecls, hspares.fields_eq h.closed_left]
    exact h.fieldDecls_eq
  · rw [target, requests_takesFields]
    exact h.takesFields_eq

/-- The fields of a target after its entry: those of the kept requests and the old ones. -/
theorem fieldDecls_target (hclosed : p.arena.Closed) (x : Target) :
    (target types placement p x).arena.fieldDecls x.node =
      placement.arrange ((keptRequests types (p.arena.takesFields x.node)
          (p.arena.fieldNames x.node) x.requests).map (fun k => k.1.field k.2)) ++
        p.arena.fieldDecls x.node := by
  have hgrown := target_grown types placement p hclosed x
  have hkept := keptFields_map id p.arena.size (keptRequests types (p.arena.takesFields x.node)
    (p.arena.fieldNames x.node) x.requests)
  rw [Arena.fieldDecls, hgrown.fields_eq hclosed, List.map_append, Placement.map_arrange]
  exact congrArg (fun new => placement.arrange new ++ p.arena.fieldDecls x.node) hkept

/-- An entry for the node moves both runs. What it keeps depends on what they agree about. -/
theorem both (h : AgreeAt t p q) {x : Target} (hx : x.node = t) :
    AgreeAt t (target types placement p x) (target types placement q x) := by
  subst hx
  have hnames : p.arena.fieldNames x.node = q.arena.fieldNames x.node := by
    rw [Arena.fieldNames_eq_map_fieldDecls, Arena.fieldNames_eq_map_fieldDecls, h.fieldDecls_eq]
  refine ⟨?_, ?_, ?_, ?_⟩
  · exact (target_grown types placement p h.closed_left x).grows.closed h.closed_left
  · exact (target_grown types placement q h.closed_right x).grows.closed h.closed_right
  · rw [fieldDecls_target h.closed_left, fieldDecls_target h.closed_right, hnames,
      h.takesFields_eq, h.fieldDecls_eq]
  · rw [target, target, requests_takesFields, requests_takesFields]
    exact h.takesFields_eq

/-- **A batch and the entries of one node in it** lead to runs that agree about the node. -/
theorem batch (h : AgreeAt t p q) (types : TypeResolver) (placement : Placement)
    (batch : List Target) :
    AgreeAt t (batch.foldl (target types placement) p)
      ((batch.filter (fun x => x.node == t)).foldl (target types placement) q) := by
  induction batch generalizing p q with
  | nil => exact h
  | cons x batch ih =>
    -- an entry of `t` is taken in both runs, any other in the first only
    by_cases hx : x.node = t
    · have hkeep : (x :: batch).filter (fun x => x.node == t) =
          x :: batch.filter (fun x => x.node == t) :=
        List.filter_cons_of_pos (beq_iff_eq.mpr hx)
      rw [hkeep]
      exact ih (h.both hx)
    · have hdrop : (x :: batch).filter (fun x => x.node == t) =
          batch.filter (fun x => x.node == t) :=
        List.filter_cons_of_neg (by rw [beq_iff_eq]; exact hx)
      rw [hdrop]
      exact ih (h.other hx)

end AgreeAt

end Progress

/-- A node that a batch names at most once has one entry in it, or none. -/
theorem length_filter_node_le {batch : List Target} (h : (batch.map Target.node).Nodup)
    (t : NodeId) : (batch.filter (fun x => x.node == t)).length ≤ 1 := by
  have hcount := List.nodup_iff_count_le_one.mp h t
  rwa [List.count_eq_countP, List.countP_map, List.countP_eq_length_filter] at hcount

/-- If no node has two entries, the entries of a node do not depend on the order of the batch. -/
theorem filter_node_eq_of_perm {batch batch' : List Target} (h : (batch.map Target.node).Nodup)
    (hperm : batch.Perm batch') (t : NodeId) :
    batch'.filter (fun x => x.node == t) = batch.filter (fun x => x.node == t) := by
  have hfilter := hperm.filter (fun x => x.node == t)
  have hle := length_filter_node_le h t
  -- a list with at most one element is its only permutation
  generalize batch.filter (fun x => x.node == t) = entries at hfilter hle ⊢
  match entries with
  | [] => exact hfilter.nil_eq.symm
  | [x] => exact (List.singleton_perm.mp hfilter).symm
  | x :: y :: rest => exact absurd hle (by simp)

namespace Arena

/-- **Targets do not interfere.** After a round the fields of a node, in member order and with their
names, types, modifiers and origins, are those of a round over the entries of this node alone. So
the order of the entries does not matter if no node has two of them. The arena is one that the
operations build; in it a type that was inserted with members of its own lists ids only that were
given out by then (`Operation.UsesHandles`). -/
theorem process_fieldDecls {a : Arena} (ha : a.Reachable) (capability : Capability)
    (placement : Placement) (types : TypeResolver) :
    (∀ (batch : List Target) (t : NodeId),
      (a.process capability placement types batch).arena.fieldDecls t =
        (a.process capability placement types
          (batch.filter (fun x => x.node == t))).arena.fieldDecls t) ∧
    ∀ batch batch' : List Target, (batch.map Target.node).Nodup → batch.Perm batch' →
      ∀ t : NodeId, (a.process capability placement types batch').arena.fieldDecls t =
        (a.process capability placement types batch).arena.fieldDecls t := by
  have hown : ∀ (batch : List Target) (t : NodeId),
      (a.process capability placement types batch).arena.fieldDecls t =
        (a.process capability placement types
          (batch.filter (fun x => x.node == t))).arena.fieldDecls t := by
    intro batch t
    -- the two rounds begin with the same arena, and only their first log records differ
    have hstart : Progress.AgreeAt t
        { arena := a, log := [roundRecord capability placement batch] }
        { arena := a, log := [roundRecord capability placement
            (batch.filter (fun x => x.node == t))] } :=
      ⟨ha.closed, ha.closed, rfl, rfl⟩
    exact (hstart.batch types placement batch).fieldDecls_eq
  refine ⟨hown, fun batch batch' hnodup hperm t => ?_⟩
  rw [hown batch', hown batch, filter_node_eq_of_perm hnodup hperm t]

/-- The structs `Car` and `Bus`, each with a constructor without parameters. -/
def fleetArena : Arena :=
  ⟨#[{ declaration := .type { name := "Car", kind := .record, members := [⟨1⟩] } },
    { declaration := .constructor { name := "new", params := 0 }, parent := some ⟨0⟩ },
    { declaration := .type { name := "Bus", kind := .record, members := [⟨3⟩] } },
    { declaration := .constructor { name := "new", params := 0 }, parent := some ⟨2⟩ }]⟩

/-- It is built by adding each type and its constructor. -/
theorem fleetArena_reachable : fleetArena.Reachable := by
  let constructor : ConstructorDecl := { name := "new", params := 0 }
  have hcar : Reachable (({} : Arena).addType "Car" .record).1 :=
    .step (.addType "Car" .record) .empty trivial rfl
  obtain ⟨b, hfirst, hsecond⟩ : ∃ b,
      (Operation.pushConstructor ⟨0⟩ constructor).run (({} : Arena).addType "Car" .record).1 =
        .ok b ∧
      (Operation.pushConstructor ⟨2⟩ constructor).run (b.addType "Bus" .record).1 =
        .ok fleetArena :=
    ⟨_, rfl, rfl⟩
  -- the first type gets its constructor before the second one is added
  have hb : b.Reachable := .step (.pushConstructor ⟨0⟩ constructor) hcar trivial hfirst
  have hbus : (b.addType "Bus" .record).1.Reachable :=
    .step (.addType "Bus" .record) hb trivial rfl
  exact .step (.pushConstructor ⟨2⟩ constructor) hbus trivial hsecond

/-- An entry that requests fields of type `u8`. -/
def fleetEntry (node : Nat) (names : List String) : Target :=
  ⟨⟨node⟩, names.map (fun name => ⟨name, .resolved ⟨"core::u8", "u8"⟩, Modifiers.none⟩)⟩

/-- `Bus` has its entry between two of `Car` and behind one of a node that exists only since `Car`
received `x`. Alone it would give its field another id, but the same field. -/
theorem process_fieldDecls_fleet :
    fleetArena.Reachable ∧
      (fleetArena.process ⟨"cli", "direct"⟩ .declarationOrder nothingKnown
        [fleetEntry 0 ["x"], fleetEntry 4 ["y"], fleetEntry 2 ["x"],
          fleetEntry 0 ["z", "x"]]).arena.fieldDecls ⟨2⟩ =
      (fleetArena.process ⟨"cli", "direct"⟩ .declarationOrder nothingKnown
        [fleetEntry 2 ["x"]]).arena.fieldDecls ⟨2⟩ ∧
      (fleetArena.process ⟨"cli", "direct"⟩ .prepend nothingKnown
        [fleetEntry 2 ["x", "y"], fleetEntry 0 ["x"]]).arena.fieldDecls ⟨2⟩ =
      (fleetArena.process ⟨"cli", "direct"⟩ .prepend nothingKnown
        [fleetEntry 0 ["x"], fleetEntry 2 ["x", "y"]]).arena.fieldDecls ⟨2⟩ := by
  refine ⟨fleetArena_reachable, ?_, ?_⟩
  · exact (process_fieldDecls fleetArena_reachable _ _ _).1 _ ⟨2⟩
  · exact (process_fieldDecls fleetArena_reachable _ _ _).2 _ _ (by decide) (.swap _ _ []) ⟨2⟩

end Arena

/-! ### Members in the order of the requests -/

namespace Progress

variable (types : TypeResolver) (placement : Placement) {p : Progress}

/-- **What each entry of a batch adds to a node**: the part of the summary that is new when the
entry is over. -/
def additions (types : TypeResolver) (placement : Placement) (t : NodeId) :
    Progress → List Target → List (List NodeId)
  | _, [] => []
  | p, x :: batch =>
    ((target types placement p x).summary.injectedInto t).drop (p.summary.injectedInto t).length ::
      additions types placement t (target types placement p x) batch

/-- One entry: what it adds stands behind the other additions in the summary, and in front of all
members in the arena. -/
theorem target_additions (hclosed : p.arena.Closed) (x : Target) (t : NodeId) :
    ∃ new, ((target types placement p x).summary.injectedInto t).drop
        (p.summary.injectedInto t).length = new ∧
      (target types placement p x).summary.injectedInto t = p.summary.injectedInto t ++ new ∧
      (target types placement p x).arena.memberList t =
        placement.arrange new ++ p.arena.memberList t ∧
      (x.node ≠ t → new = []) := by
  refine ⟨_, rfl, ?_⟩
  by_cases hx : x.node = t
  · subst hx
    -- the entry of `t` itself: its fields are added as one group
    have hgrown := target_grown types placement p hclosed x
    have hinto := hgrown.injectedInto_eq x.node
    rw [if_pos rfl] at hinto
    rw [hinto, List.drop_left]
    exact ⟨rfl, hgrown.members_eq, fun hne => absurd rfl hne⟩
  · have hspares : Spares t p (target types placement p x) := target_spares hx p
    rw [hspares.injectedInto_eq, hspares.memberList_eq, List.drop_length, List.append_nil]
    refine ⟨rfl, ?_, fun _ => rfl⟩
    cases placement <;> rfl

/-- **All entries.** The summary has the additions in the order of the entries, and the member list
has those of the last entry first. -/
theorem foldl_target_additions (hclosed : p.arena.Closed) (batch : List Target) (t : NodeId) :
    (batch.foldl (target types placement) p).summary.injectedInto t =
        p.summary.injectedInto t ++ (additions types placement t p batch).flatten ∧
      (batch.foldl (target types placement) p).arena.memberList t =
        ((additions types placement t p batch).map placement.arrange).reverse.flatten ++
          p.arena.memberList t := by
  induction batch generalizing p with
  | nil => exact ⟨(List.append_nil _).symm, rfl⟩
  | cons x batch ih =>
    obtain ⟨new, hnew, hinto, hmembers, -⟩ :=
      target_additions types placement hclosed x t
    obtain ⟨hinto', hmembers'⟩ :=
      ih ((target_grown types placement p hclosed x).grows.closed hclosed)
    rw [List.foldl_cons, additions, hnew]
    refine ⟨?_, ?_⟩
    · rw [hinto', hinto, List.flatten_cons, List.append_assoc]
    · -- the later entries stand in front of this one, which stands in front of the old members
      rw [hmembers', hmembers, List.map_cons, List.reverse_cons, List.flatten_append,
        List.flatten_singleton, List.append_assoc]

/-- Only entries of the node add anything to it. -/
theorem length_filter_additions_le (hclosed : p.arena.Closed) (batch : List Target)
    (t : NodeId) :
    ((additions types placement t p batch).filter (fun new => !new.isEmpty)).length ≤
      (batch.map Target.node).count t := by
  induction batch generalizing p with
  | nil => exact Nat.le_refl _
  | cons x batch ih =>
    obtain ⟨new, hnew, -, -, hother⟩ :=
      target_additions types placement hclosed x t
    have hrest := ih ((target_grown types placement p hclosed x).grows.closed hclosed)
    rw [additions, hnew, List.filter_cons, List.map_cons]
    by_cases hx : x.node = t
    · -- an entry of the node counts, whether it adds something or not
      rw [hx, List.count_cons_self]
      split
      · exact Nat.succ_le_succ hrest
      · exact Nat.le_succ_of_le hrest
    · rw [hother hx, List.count_cons_of_ne hx]
      exact hrest

end Progress

/-- Groups read in either direction give the same list only if at most one of them is not empty, as
the list would begin with an element of the first and with one of the last. -/
theorem flatten_reverse_eq_iff {α : Type} {groups : List (List α)} (h : groups.flatten.Nodup) :
    groups.reverse.flatten = groups.flatten ↔
      (groups.filter (fun g => !g.isEmpty)).length ≤ 1 := by
  rw [← List.flatten_filter_not_isEmpty (L := groups)] at h ⊢
  rw [← List.flatten_filter_not_isEmpty (L := groups.reverse), List.filter_reverse]
  have hne : ∀ g ∈ groups.filter (fun g => !g.isEmpty), g ≠ [] := by
    intro g hg
    simpa using (List.mem_filter.mp hg).2
  generalize groups.filter (fun g => !g.isEmpty) = gs at h hne ⊢
  match gs with
  | [] => simp
  | [g] => simp
  | g :: g' :: rest =>
    refine iff_of_false (fun heq => ?_) (by simp)
    obtain ⟨x, xs, rfl⟩ := List.exists_cons_of_ne_nil (hne g List.mem_cons_self)
    rw [List.reverse_cons, List.flatten_append, List.flatten_singleton, List.flatten_cons] at heq
    rw [List.flatten_cons, List.nodup_append] at h
    -- read backwards, the list begins with an element of the other groups
    have hbegin : (g' :: rest).reverse.flatten ≠ [] := by
      rw [Ne, List.flatten_eq_nil_iff]
      intro hall
      exact hne g' (by simp) (hall g' (by simp))
    obtain ⟨y, ys, hys⟩ := List.exists_cons_of_ne_nil hbegin
    rw [hys] at heq
    have hxy : y = x := (List.cons.inj heq).1
    have hy : y ∈ (g' :: rest).flatten := by
      have hmem : y ∈ (g' :: rest).reverse.flatten := by rw [hys]; exact List.mem_cons_self
      simpa [or_comm] using hmem
    exact h.2.2 x List.mem_cons_self y hy hxy.symm

namespace Arena

/-- What each entry of a batch adds to a node in a round. -/
def additions (a : Arena) (capability : Capability) (placement : Placement) (types : TypeResolver)
    (batch : List Target) (t : NodeId) : List (List NodeId) :=
  Progress.additions types placement t
    { arena := a, log := [roundRecord capability placement batch] } batch

/-- No id is given out twice. -/
theorem nodup_injectedInto {a : Arena} (ha : a.Reachable) (capability : Capability)
    (placement : Placement) (types : TypeResolver) (batch : List Target) (t : NodeId) :
    ((a.process capability placement types batch).summary.injectedInto t).Nodup := by
  have hinjected := (process_effect ha capability placement types batch).injected_eq
  have hall : ((a.process capability placement types batch).summary.injected.map
      Injection.field).Nodup := by
    rw [hinjected, List.nodup_iff_injective_getElem]
    intro i j hij
    simpa [Fin.ext_iff] using hij
  exact hall.sublist (List.filter_sublist.map Injection.field)

/-- **Members after a round in declaration order.** The summary lists the additions to a node entry
by entry. The member list has the additions of each entry in order, but those of the last entry
first. So the new fields stand in the order in which they were added exactly if at most one entry
added any; in particular if the node has at most one entry. -/
theorem process_memberList_iff {a : Arena} (ha : a.Reachable) (capability : Capability)
    (types : TypeResolver) (batch : List Target) (t : NodeId) :
    (a.process capability .declarationOrder types batch).summary.injectedInto t =
      (a.additions capability .declarationOrder types batch t).flatten ∧
    (a.process capability .declarationOrder types batch).arena.memberList t =
      (a.additions capability .declarationOrder types batch t).reverse.flatten ++
        a.memberList t ∧
    ((a.process capability .declarationOrder types batch).arena.memberList t =
        (a.process capability .declarationOrder types batch).summary.injectedInto t ++
          a.memberList t ↔
      ((a.additions capability .declarationOrder types batch t).filter
        (fun new => !new.isEmpty)).length ≤ 1) ∧
    ((batch.map Target.node).count t ≤ 1 →
      (a.process capability .declarationOrder types batch).arena.memberList t =
        (a.process capability .declarationOrder types batch).summary.injectedInto t ++
          a.memberList t) := by
  obtain ⟨hinto, hmembers⟩ := Progress.foldl_target_additions types .declarationOrder
    (p := { arena := a, log := [roundRecord capability .declarationOrder batch] })
    ha.closed batch t
  have hinto' : (a.process capability .declarationOrder types batch).summary.injectedInto t =
      (a.additions capability .declarationOrder types batch t).flatten := hinto
  -- within an entry this placement keeps the order
  have hmembers' : (a.process capability .declarationOrder types batch).arena.memberList t =
      (a.additions capability .declarationOrder types batch t).reverse.flatten ++
        a.memberList t := by
    have harrange : (Placement.declarationOrder.arrange : List NodeId → List NodeId) = id := rfl
    rw [harrange, List.map_id] at hmembers
    exact hmembers
  have hnodup := nodup_injectedInto ha capability .declarationOrder types batch t
  rw [hinto'] at hnodup
  have hiff : (a.process capability .declarationOrder types batch).arena.memberList t =
        (a.process capability .declarationOrder types batch).summary.injectedInto t ++
          a.memberList t ↔
      ((a.additions capability .declarationOrder types batch t).filter
        (fun new => !new.isEmpty)).length ≤ 1 := by
    rw [hmembers', hinto', List.append_left_inj]
    exact flatten_reverse_eq_iff hnodup
  refine ⟨hinto', hmembers', hiff, fun hcount => hiff.mpr ?_⟩
  have hle := Progress.length_filter_additions_le types .declarationOrder
    (p := { arena := a, log := [roundRecord capability .declarationOrder batch] }) ha.closed batch t
  exact Nat.le_trans hle hcount

/-- Two entries of `Car` with one request each: `y`, which comes second, stands first. -/
theorem process_memberList_iff_split :
    fleetArena.Reachable ∧
      (fleetArena.process ⟨"cli", "direct"⟩ .declarationOrder nothingKnown
        [fleetEntry 0 ["x"], fleetEntry 0 ["y"]]).summary.injectedInto ⟨0⟩ = [⟨4⟩, ⟨5⟩] ∧
      (fleetArena.process ⟨"cli", "direct"⟩ .declarationOrder nothingKnown
        [fleetEntry 0 ["x"], fleetEntry 0 ["y"]]).arena.memberList ⟨0⟩ = [⟨5⟩, ⟨4⟩, ⟨1⟩] ∧
      ¬ (fleetArena.process ⟨"cli", "direct"⟩ .declarationOrder nothingKnown
          [fleetEntry 0 ["x"], fleetEntry 0 ["y"]]).arena.memberList ⟨0⟩ =
        (fleetArena.process ⟨"cli", "direct"⟩ .declarationOrder nothingKnown
            [fleetEntry 0 ["x"], fleetEntry 0 ["y"]]).summary.injectedInto ⟨0⟩ ++
          fleetArena.memberList ⟨0⟩ := by
  have hadditions : fleetArena.additions ⟨"cli", "direct"⟩ .declarationOrder nothingKnown
      [fleetEntry 0 ["x"], fleetEntry 0 ["y"]] ⟨0⟩ = [[⟨4⟩], [⟨5⟩]] := by
    decide
  obtain ⟨hinto, hmembers, hiff, -⟩ := process_memberList_iff fleetArena_reachable
    ⟨"cli", "direct"⟩ nothingKnown [fleetEntry 0 ["x"], fleetEntry 0 ["y"]] ⟨0⟩
  rw [hadditions] at hinto hmembers hiff
  refine ⟨fleetArena_reachable, hinto, hmembers, fun horder => ?_⟩
  exact absurd (hiff.mp horder) (by decide)

end Arena

end FieldGraft
