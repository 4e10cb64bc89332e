import FieldGraft.Proofs.RoundEffect

/-!
# Rounds run again

Two runs over the same requests are compared.

* `Arena.process_again` — a second round with requests of the first one does nothing. When the turn
  of a request is over the arena refuses it (`Progress.request_refuses_self`), be it for the name
  that it has just added, and what an arena refuses it refuses after every further turn
  (`Progress.request_refuses`), though perhaps for another reason. A node that the first round did
  not know may be a field by then, which takes no fields either.
* `Arena.process_carriedOut` — a round without the requests that fail ends with the same arena and
  the same additions. The two runs are in step: a skipped request moves only one of them, and
  neither the arena nor the count that decides the next position (`Progress.Follows`).

Neither statement asks for member lists within bounds: a list with an id that is still to be given
out can only gain a field by it.
-/

namespace FieldGraft

/-! ### Refusals are final -/

namespace Arena

/-- The request would be skipped. -/
def Refuses (types : TypeResolver) (a : Arena) (t : NodeId) (r : Request) : Prop :=
  (a.judge types t r).isAccepted = false

variable {a b : Arena} {owner id t : NodeId} {position : Nat} {f : FieldDecl}
  {types : TypeResolver} {r : Request}

/-- An accepted request: the target takes fields, the name is free, and the type is found. -/
theorem not_refuses_iff : ¬ a.Refuses types t r ↔
    a.takesFields t = true ∧ r.name ∉ a.fieldNames t ∧ ∃ ty, types.resolveRef r.ty = .ok ty := by
  rw [Refuses, Bool.not_eq_false, Judgement.isAccepted_iff]
  simp only [judge_eq_accepted_iff, evaluate_eq_eligible_iff, exists_and_left, and_assoc]

/-- A taken name is refused. -/
theorem refuses_of_mem (h : r.name ∈ a.fieldNames t) : a.Refuses types t r := by
  by_contra hno
  exact (not_refuses_iff.mp hno).2.1 h

namespace Inserted

/-- The fields of a type are still its fields. -/
theorem fields_subset (h : a.Inserted b owner position (.field f) id) (t : NodeId) :
    a.fields t ⊆ b.fields t := by
  intro x hx
  obtain ⟨m, hm, hfield⟩ := List.mem_filterMap.mp hx
  obtain ⟨g, hg, rfl⟩ := Option.map_eq_some_iff.mp hfield
  -- an insertion loses no member, whether or not it is at `t`
  have hmember : m ∈ b.memberList t := by
    by_cases ht : t = owner
    · subst ht
      rw [h.memberList_owner, (insertAt_perm _ position id).mem_iff]
      exact List.mem_cons_of_mem _ hm
    · rw [h.memberList_of_ne (fun _ => Declaration.noConfusion) ht]
      exact hm
  refine List.mem_filterMap.mpr ⟨m, hmember, ?_⟩
  rw [(h.leaf_of_lt (index_lt_of_field? hg)).1, hg]
  rfl

/-- The new field is one of its owner. -/
theorem mem_fields (h : a.Inserted b owner position (.field f) id) : (id, f) ∈ b.fields owner := by
  have hmember : id ∈ b.memberList owner := by
    rw [h.memberList_owner, (insertAt_perm _ position id).mem_iff]
    exact List.mem_cons_self
  refine List.mem_filterMap.mpr ⟨id, hmember, ?_⟩
  rw [field?_eq, h.new_eq]
  rfl

/-- Whether a node takes fields is settled: a new field takes none, and types keep their kind and
their constructors. -/
theorem takesFields_eq (h : a.Inserted b owner position (.field f) id) (t : NodeId) :
    b.takesFields t = a.takesFields t := by
  have hfree : b.hasFreeConstructor t = a.hasFreeConstructor t := by
    rw [hasFreeConstructor, hasFreeConstructor, h.constructors_eq]
  rw [Arena.takesFields_eq, Arena.takesFields_eq, hfree]
  by_cases hid : t = id
  · -- the new node: nothing before, a field now
    rw [hid, h.new_eq, h.id_eq, declaration?_size]
  · by_cases hto : t = owner
    · obtain ⟨decl, hold, hnew⟩ := h.owner_eq
      rw [hto, hold, hnew]
    · rw [h.other_eq t hto hid]

/-- **An addition makes no refused request acceptable.** -/
theorem refuses (h : a.Inserted b owner position (.field f) id) (hr : a.Refuses types t r) :
    b.Refuses types t r := by
  by_contra hno
  obtain ⟨htakes, hname, hty⟩ := not_refuses_iff.mp hno
  have hfree : r.name ∉ a.fieldNames t := fun hmem =>
    hname (List.map_subset _ (h.fields_subset t) hmem)
  exact not_refuses_iff.mpr ⟨h.takesFields_eq t ▸ htakes, hfree, hty⟩ hr

end Inserted

end Arena

namespace Progress

variable {types : TypeResolver} {placement : Placement} {p q : Progress} {t u : NodeId}
  {count : Nat} {r s : Request}

/-- A turn keeps refusals. -/
theorem request_refuses (h : p.arena.Refuses types u s) :
    (request types placement t p count r).1.arena.Refuses types u s := by
  rcases request_cases types placement t p count r with
    ⟨-, hskips, -⟩ | ⟨ty, -, -, hadds, -⟩
  · rw [hskips.arena_eq]
    exact h
  · exact hadds.inserted.refuses h

/-- After its turn a request is refused: it was before, or its name is taken now. -/
theorem request_refuses_self (types : TypeResolver) (placement : Placement) (t : NodeId)
    (p : Progress) (count : Nat) (r : Request) :
    (request types placement t p count r).1.arena.Refuses types t r := by
  cases hj : (p.arena.judge types t r).isAccepted with
  | false => exact request_refuses hj
  | true =>
    obtain ⟨ty, hty⟩ := Judgement.isAccepted_iff.mp hj
    obtain ⟨hadds, -⟩ := request_of_accepted placement count hty
    refine Arena.refuses_of_mem ?_
    exact List.mem_map.mpr ⟨_, hadds.inserted.mem_fields, rfl⟩

end Progress

namespace Arena

variable {types : TypeResolver}

/-- After a round the arena refuses all of its requests. -/
theorem refuses_of_process (a : Arena) (capability : Capability) (placement : Placement)
    (types : TypeResolver) {batch : List Target} {x : NodeId × Request}
    (hx : x ∈ requestPairs batch) :
    (a.process capability placement types batch).arena.Refuses types x.1 x.2 := by
  -- a turn leaves its request refused, and later turns keep it so
  have hturns : ∀ y ∈ a.turns placement types batch,
      (a.process capability placement types batch).arena.Refuses types y.target y.request := by
    refine processInto_induction
      (motive := fun seen p => ∀ y ∈ seen, p.arena.Refuses types y.target y.request)
      ?_ [] capability batch fun y hy => absurd hy List.not_mem_nil
    intro seen p count t r h y hy
    rcases List.mem_append.mp hy with hy | hy
    · exact Progress.request_refuses (h y hy)
    · rw [List.mem_singleton.mp hy]
      exact Progress.request_refuses_self types placement t p count r
  rw [← Progress.turns_pairs types placement { arena := a }] at hx
  obtain ⟨y, hy, rfl⟩ := List.mem_map.mp hx
  exact hturns y hy

/-- A round with refused requests only leaves the arena alone. -/
theorem processInto_of_refuses {a : Arena} (sink : List Diagnostic) (capability : Capability)
    (placement : Placement) {batch : List Target}
    (h : ∀ x ∈ requestPairs batch, a.Refuses types x.1 x.2) :
    (a.processInto sink capability placement types batch).arena = a ∧
      (a.processInto sink capability placement types batch).summary.injected = [] := by
  have hround : (∀ y ∈ a.turns placement types batch, a.Refuses types y.target y.request) →
      (a.processInto sink capability placement types batch).arena = a ∧
        (a.processInto sink capability placement types batch).summary.injected = [] := by
    refine processInto_induction
      (motive := fun seen p => (∀ y ∈ seen, a.Refuses types y.target y.request) →
        p.arena = a ∧ p.summary.injected = [])
      ?_ sink capability batch fun _ => ⟨rfl, rfl⟩
    intro seen p count t r ih hseen
    obtain ⟨harena, hinjected⟩ := ih fun y hy => hseen y (List.mem_append_left _ hy)
    -- the arena is still `a`, so the request is refused
    have hrefuses : p.arena.Refuses types t r := by
      rw [harena]
      exact hseen _ (List.mem_append_right _ List.mem_cons_self)
    obtain ⟨hskips, -⟩ := Progress.request_of_rejected placement count hrefuses
    exact ⟨hskips.arena_eq.trans harena, hskips.injected_eq.trans hinjected⟩
  refine hround fun y hy => h (y.target, y.request) ?_
  rw [← Progress.turns_pairs types placement { arena := a }]
  exact List.mem_map_of_mem hy

end Arena

/-- Without additions there are no notes, and everything was skipped. -/
theorem Progress.Accounts.of_injected_nil {types : TypeResolver} {sink : List Diagnostic}
    {seen : List Turn} {p : Progress} (h : Accounts types sink seen p)
    (hnil : p.summary.injected = []) :
    p.summary.skipped = seen.length ∧
      ∃ ds, p.diagnostics = sink ++ ds ∧ ∀ d ∈ ds, d.severity ≠ .note := by
  obtain ⟨⟨ds, hds, hreports⟩, hcounted, hyielded⟩ := h
  rw [hnil] at hcounted hyielded
  -- as many accepted turns as injected ids, so none
  have hrejected : ∀ x ∈ seen, ¬ x.isAccepted types = true :=
    List.filter_eq_nil_iff.mp (List.forall₂_nil_right_iff.mp hyielded)
  refine ⟨by simpa using hcounted, ds, hds, ?_⟩
  clear hds hcounted hyielded
  induction hreports with
  | nil => exact fun d hd => absurd hd List.not_mem_nil
  | @cons x d seen ds hreport _ ih =>
    rw [List.forall_mem_cons] at hrejected ⊢
    refine ⟨?_, ih hrejected.2⟩
    rw [hreport.severity_eq]
    exact fun hnote => hrejected.1 (Judgement.severity_eq_note_iff.mp hnote)

namespace Arena

/-- **A repeated round changes nothing.** If every request of the second batch is one of the first,
with the same node, then the second round finds nothing to add, in whatever order, grouping and
number the requests come and wherever fields would go. -/
theorem process_again (a : Arena) (capability capability' : Capability)
    (placement placement' : Placement) (types : TypeResolver) (sink : List Diagnostic)
    {batch batch' : List Target} (h : ∀ x ∈ requestPairs batch', x ∈ requestPairs batch) :
    ((a.process capability placement types batch).arena.processInto sink capability' placement'
        types batch').arena = (a.process capability placement types batch).arena ∧
    ((a.process capability placement types batch).arena.processInto sink capability' placement'
        types batch').summary = { injected := [], skipped := requestCount batch' } ∧
    ∃ ds, ((a.process capability placement types batch).arena.processInto sink capability'
        placement' types batch').diagnostics = sink ++ ds ∧ ∀ d ∈ ds, d.severity ≠ .note := by
  obtain ⟨harena, hinjected⟩ := processInto_of_refuses sink capability' placement' fun x hx =>
    a.refuses_of_process capability placement types (h x hx)
  have haccount := (a.process capability placement types batch).arena.processInto_accounts sink
    capability' placement' types batch'
  obtain ⟨hskipped, hdiagnostics⟩ := haccount.of_injected_nil hinjected
  rw [length_turns] at hskipped
  exact ⟨harena, congrArg₂ Summary.mk hinjected hskipped, hdiagnostics⟩

/-- The requests of `carPlan` once more: in another order, under other targets, and some twice. -/
def carPlanAgain : List Target :=
  let request (name : String) : Request := ⟨name, .resolved ⟨"core::u8", "u8"⟩, Modifiers.none⟩
  [⟨⟨3⟩, [request "x"]⟩, ⟨⟨0⟩, [⟨"z", .pending ⟨"Ghost"⟩, Modifiers.none⟩, request "y"]⟩,
    ⟨⟨0⟩, [request "y", request "b", request "x"]⟩]

/-- The first round adds `x` and `y`; the second one skips all six requests. -/
theorem process_again_car :
    (∀ x ∈ requestPairs carPlanAgain, x ∈ requestPairs carPlan) ∧
      (carArena.process ⟨"cli", "direct"⟩ .prepend nothingKnown carPlan).summary.injected =
        [⟨⟨0⟩, ⟨3⟩⟩, ⟨⟨0⟩, ⟨4⟩⟩] ∧
      ((carArena.process ⟨"cli", "direct"⟩ .prepend nothingKnown carPlan).arena.processInto []
        ⟨"cli", "direct"⟩ .declarationOrder nothingKnown carPlanAgain).summary =
          { injected := [], skipped := 6 } := by
  have hpairs : ∀ x ∈ requestPairs carPlanAgain, x ∈ requestPairs carPlan := by decide
  refine ⟨hpairs, by decide, ?_⟩
  exact (process_again carArena ⟨"cli", "direct"⟩ ⟨"cli", "direct"⟩ .prepend .declarationOrder
    nothingKnown [] hpairs).2.1

end Arena

/-! ### Without the failures -/

namespace Progress

/-- The batch without the requests that are skipped. -/
def carriedOut (types : TypeResolver) (placement : Placement) :
    Progress → List Target → List Target
  | _, [] => []
  | p, x :: batch =>
    ⟨x.node, (acceptedTurns types
        (requestTurns types placement x.node p 0 x.requests)).map Turn.request⟩ ::
      carriedOut types placement (target types placement p x) batch

variable {types : TypeResolver} {placement : Placement} {p q : Progress}

theorem carriedOut_congr (batch : List Target) (h : q.arena = p.arena) :
    carriedOut types placement q batch = carriedOut types placement p batch := by
  induction batch generalizing p q with
  | nil => rfl
  | cons x batch ih =>
    obtain ⟨hturns, hfinal⟩ := requestTurns_congr types placement x.node 0 x.requests h
    rw [carriedOut, carriedOut, hturns]
    exact congrArg _ (ih hfinal)

/-- What is carried out are the requests of the accepted turns. -/
theorem carriedOut_pairs (p : Progress) (batch : List Target) :
    requestPairs (carriedOut types placement p batch) =
      (acceptedTurns types (turns types placement p batch)).map
        (fun x => (x.target, x.request)) := by
  induction batch generalizing p with
  | nil => rfl
  | cons x batch ih =>
    have hfirst : ((acceptedTurns types (requestTurns types placement x.node p 0 x.requests)).map
        Turn.request).map (fun r => (x.node, r)) =
          (acceptedTurns types (requestTurns types placement x.node p 0 x.requests)).map
            (fun y => (y.target, y.request)) := by
      -- every turn of an entry is at the entry's node
      rw [List.map_map]
      refine List.map_congr_left fun y hy => ?_
      rw [Function.comp_apply,
        target_of_mem_requestTurns types placement (List.mem_of_mem_filter hy)]
    have hrest := ih (target types placement p x)
    rw [turns, acceptedTurns, List.filter_append, List.map_append, ← acceptedTurns,
      ← acceptedTurns, ← hfirst, ← hrest]
    rfl

/-- **The run `q` follows `p`**: it has the same arena and the same additions, and nothing failed.
-/
structure Follows (p q : Progress) : Prop where
  arena_eq : q.arena = p.arena
  injected_eq : q.summary.injected = p.summary.injected
  skipped_eq : q.summary.skipped = 0

namespace Follows

/-- A skipped request moves the first run only. -/
theorem skips {p' : Progress} (h : Follows p q) (hs : p.Skips p') : Follows p' q where
  arena_eq := h.arena_eq.trans hs.arena_eq.symm
  injected_eq := h.injected_eq.trans hs.injected_eq.symm
  skipped_eq := h.skipped_eq

/-- An accepted request moves both. -/
theorem accepted (h : Follows p q) {t : NodeId} {count : Nat} {r : Request} {ty : TypeName}
    (hj : p.arena.judge types t r = .accepted ty) :
    Follows (request types placement t p count r).1 (request types placement t q count r).1 := by
  obtain ⟨hp, -⟩ := request_of_accepted placement count hj
  obtain ⟨hq, -⟩ := request_of_accepted placement count (h.arena_eq ▸ hj)
  refine ⟨(request_congr types placement t count r h.arena_eq).1, ?_, ?_⟩
  · rw [hp.injected_eq, hq.injected_eq, h.injected_eq, h.arena_eq]
  · rw [hq.skipped_eq, h.skipped_eq]

/-- The requests of one target. -/
theorem requests (h : Follows p q) (t : NodeId) (count : Nat) (rs : List Request) :
    Follows (Progress.requests types placement t p count rs)
      (Progress.requests types placement t q count
        ((acceptedTurns types (requestTurns types placement t p count rs)).map
          Turn.request)) := by
  induction rs generalizing p q count with
  | nil => exact h
  | cons r rs ih =>
    cases hj : (Turn.mk t r p.arena).isAccepted types with
    | false =>
      -- the other run does not see the request; its count is right, as nothing was added
      obtain ⟨hskips, hcount⟩ := request_of_rejected placement count hj
      rw [requests_cons, requestTurns_cons, acceptedTurns_cons_of_rejected _ hj, hcount]
      exact ih (h.skips hskips) count
    | true =>
      -- both runs add the field, and to equal arenas
      obtain ⟨ty, hty⟩ := Judgement.isAccepted_iff.mp hj
      have hcount := (request_congr types placement t count r h.arena_eq).2
      rw [requests_cons, requestTurns_cons, acceptedTurns_cons_of_accepted _ hj, List.map_cons,
        requests_cons, hcount]
      exact ih (h.accepted hty) _

/-- The targets of a batch. -/
theorem targets (h : Follows p q) (types : TypeResolver) (placement : Placement)
    (batch : List Target) :
    Follows (batch.foldl (target types placement) p)
      ((carriedOut types placement p batch).foldl (target types placement) q) := by
  induction batch generalizing p q with
  | nil => exact h
  | cons x batch ih => exact ih (h.requests x.node 0 x.requests)

end Follows

end Progress

namespace Arena

/-- The batch without the requests that a round over the arena skips. Targets stay, though all of
their requests may be gone. -/
def carriedOut (a : Arena) (placement : Placement) (types : TypeResolver) (batch : List Target) :
    List Target :=
  Progress.carriedOut types placement { arena := a } batch

/-- **Failed requests leave no trace.** Without them, that is with the requests of the accepted
turns alone, a round ends with the same arena, ids and orders included, and with the same additions,
and it skips nothing. -/
theorem process_carriedOut (a : Arena) (capability : Capability) (placement : Placement)
    (types : TypeResolver) (batch : List Target) :
    requestPairs (a.carriedOut placement types batch) =
      (acceptedTurns types (a.turns placement types batch)).map
        (fun x => (x.target, x.request)) ∧
    (a.process capability placement types (a.carriedOut placement types batch)).arena =
      (a.process capability placement types batch).arena ∧
    (a.process capability placement types (a.carriedOut placement types batch)).summary =
      { injected := (a.process capability placement types batch).summary.injected
        skipped := 0 } := by
  -- what is carried out does not depend on the log, which the two rounds begin differently
  have hsame : Progress.carriedOut types placement
      { arena := a, log := [roundRecord capability placement batch] } batch =
        a.carriedOut placement types batch := Progress.carriedOut_congr batch rfl
  have hstart : Progress.Follows
      { arena := a, log := [roundRecord capability placement batch] }
      { arena := a
        log := [roundRecord capability placement (a.carriedOut placement types batch)] } :=
    ⟨rfl, rfl, rfl⟩
  have hend := hstart.targets types placement batch
  rw [hsame] at hend
  exact ⟨Progress.carriedOut_pairs { arena := a } batch, hend.arena_eq,
    congrArg₂ Summary.mk hend.injected_eq hend.skipped_eq⟩

example : (carArena.carriedOut .prepend nothingKnown carPlan).map
    (fun x => (x.node.index, x.requests.map Request.name)) =
      [(0, ["x"]), (3, []), (0, ["y"])] := by decide

end Arena

end FieldGraft
