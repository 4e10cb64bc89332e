import FieldGraft.Proofs.RoundNames
import FieldGraft.Proofs.RoundTurns

/-!
# The effect of a round on the arena

A round only appends nodes, one for each accepted request, and enters each of them in one member
list. Statements about declarations would not be enough for this: a node also has a parent and a
place in the source, and both stay as they are.

* `RoundEffect` — what the accepted requests have done to an arena so far: the new nodes, the lists
  that they stand in, and what the old nodes have become.
* `RoundEffect.skips`, `RoundEffect.adds` — one turn.
* `Arena.process_effect` — a whole round.

That a new node stands in no list but that of its target needs member lists within bounds
(`Arena.Closed`): a list that mentions an id still to be given out receives whatever comes to have
it.
-/

namespace FieldGraft

/-- **The effect of the accepted requests** on an arena `a`, after which a round is at `p`. -/
structure RoundEffect (types : TypeResolver) (a : Arena) (accepted : List Turn) (p : Progress) :
    Prop where
  /-- The additions are those of the accepted requests, with the next ids in order. -/
  injected_eq : p.summary.injected = accepted.mapIdx (fun k x => ⟨x.target, ⟨a.size + k⟩⟩)
  size_eq : p.arena.size = a.size + p.summary.injected.length
  /-- Each new node is the field that was requested; its target is its parent. -/
  new_eq : ∀ k x, accepted[k]? = some x → ∃ ty, types.resolveRef x.request.ty = .ok ty ∧
    p.arena.get? ⟨a.size + k⟩ = some
      { declaration := .field
          { name := x.request.name, ty := ty.simple, modifiers := x.request.modifiers
            synthetic := true }
        parent := some x.target
        location := none }
  /-- It is listed once by its target, and by no other type. -/
  count_eq : ∀ k x, accepted[k]? = some x →
    ∀ t, (p.arena.memberList t).count ⟨a.size + k⟩ = if t = x.target then 1 else 0
  /-- An old node is unchanged, or is a struct with a new member list, which was a target. -/
  old_eq : ∀ i n, a.get? i = some n → p.arena.get? i = some n ∨
    i ∈ accepted.map Turn.target ∧ ∃ decl ms, n.declaration = .type decl ∧ decl.kind = .record ∧
      p.arena.get? i = some { n with declaration := .type { decl with members := ms } }
  /-- The old members are all there, in their order. -/
  members_eq : ∀ t, (p.arena.memberList t).filter (fun m => m.index < a.size) = a.memberList t

/-- An entry of a list with one more element is an old one or the last. -/
private theorem getElem?_concat_cases {α : Type} {xs : List α} {x y : α} {k : Nat}
    (h : (xs ++ [x])[k]? = some y) : xs[k]? = some y ∨ k = xs.length ∧ y = x := by
  rw [List.getElem?_append] at h
  split at h
  · exact .inl h
  · rw [List.getElem?_singleton] at h
    split at h
    · exact .inr ⟨by omega, (Option.some.inj h).symm⟩
    · cases h

namespace Arena

variable {a b : Arena} {owner id t : NodeId} {position : Nat} {f : FieldDecl}

/-- An old list with the new id in it, the new id taken out. -/
private theorem filter_insertAt {keep : NodeId → Bool} (ms : List NodeId) (position : Nat)
    (hid : keep id = false) : (insertAt ms position id).filter keep = ms.filter keep := by
  rw [insertAt, List.filter_append, List.filter_cons_of_neg (by rw [hid]; exact Bool.false_ne_true),
    ← List.filter_append, List.take_append_drop]

/-- How often an id is listed after a field was added: the new one once more by its owner. -/
theorem Inserted.count_memberList (h : a.Inserted b owner position (.field f) id) (t i : NodeId) :
    (b.memberList t).count i =
      (a.memberList t).count i + if t = owner ∧ i = id then 1 else 0 := by
  by_cases ht : t = owner
  · subst ht
    have hiff : (id == i) = true ↔ t = t ∧ i = id := by
      rw [beq_iff_eq, eq_comm]
      exact (and_iff_right rfl).symm
    rw [h.memberList_owner, (insertAt_perm _ position id).count_eq, List.count_cons]
    simp only [hiff]
  · rw [h.memberList_of_ne (fun _ => Declaration.noConfusion) ht, if_neg fun hand => ht hand.1,
      Nat.add_zero]

/-- Taking the new id out again. -/
theorem Inserted.filter_memberList (h : a.Inserted b owner position (.field f) id)
    {keep : NodeId → Bool} (hid : keep id = false) (t : NodeId) :
    (b.memberList t).filter keep = (a.memberList t).filter keep := by
  by_cases ht : t = owner
  · subst ht
    rw [h.memberList_owner, filter_insertAt _ position hid]
  · rw [h.memberList_of_ne (fun _ => Declaration.noConfusion) ht]

/-- The id that is given out next is listed nowhere. -/
theorem Closed.count_size (ha : a.Closed) (t : NodeId) : (a.memberList t).count ⟨a.size⟩ = 0 := by
  rw [List.count_eq_zero]
  intro hmem
  exact absurd (ha t _ hmem) (Nat.lt_irrefl _)

end Arena

namespace RoundEffect

variable {types : TypeResolver} {a : Arena} {accepted : List Turn} {p p' : Progress}

/-- In the beginning nothing is new. -/
theorem start (ha : a.Closed) (harena : p.arena = a) (hsummary : p.summary.injected = []) :
    RoundEffect types a [] p where
  injected_eq := hsummary
  size_eq := by rw [harena, hsummary]; rfl
  new_eq := fun k x h => by cases h
  count_eq := fun k x h => by cases h
  old_eq := fun i n h => .inl (harena ▸ h)
  members_eq := by
    intro t
    rw [harena, List.filter_eq_self]
    intro m hm
    exact decide_eq_true (ha t m hm)

theorem length_injected (h : RoundEffect types a accepted p) :
    p.summary.injected.length = accepted.length := by
  rw [h.injected_eq, List.length_mapIdx]

theorem skips (h : RoundEffect types a accepted p) (hs : p.Skips p') :
    RoundEffect types a accepted p' := by
  obtain ⟨harena, hinjected, -⟩ := hs
  -- the statements speak of the arena and the additions only
  obtain ⟨hinj, hsize, hnew, hcount, hold, hmembers⟩ := h
  rw [← harena] at hsize hnew hcount hold hmembers
  rw [← hinjected] at hinj hsize
  exact ⟨hinj, hsize, hnew, hcount, hold, hmembers⟩

/-- The node of an earlier addition is a field, so it is not the owner of a later one. -/
theorem get?_new_eq (h : RoundEffect types a accepted p) {k : Nat} {x : Turn}
    (hk : accepted[k]? = some x) {owner id : NodeId} {position : Nat} {d : Declaration} {b : Arena}
    (hinsert : p.arena.insertMember owner position d = .ok (b, id)) :
    b.get? ⟨a.size + k⟩ = p.arena.get? ⟨a.size + k⟩ := by
  obtain ⟨ty, -, hnode⟩ := h.new_eq k x hk
  have hins := Arena.insertMember_eq_ok hinsert
  -- an owner is a type, and the node of a turn is a field
  have howner : (⟨a.size + k⟩ : NodeId) ≠ owner := by
    rintro rfl
    obtain ⟨decl, hdecl, -⟩ := hins.owner_eq
    rw [Arena.declaration?, hnode] at hdecl
    cases hdecl
  have hlt : k < accepted.length := (List.getElem?_eq_some_iff.mp hk).1
  have hnew : (⟨a.size + k⟩ : NodeId) ≠ id := by
    refine hins.ne_of_lt ?_
    rw [h.size_eq, h.length_injected]
    exact Nat.add_lt_add_left hlt _
  rw [Arena.insertMember_get? hinsert, if_neg howner, if_neg hnew]

/-- An addition changes an old node only if it is the target, which is a struct. -/
theorem old_eq_of_adds (h : RoundEffect types a accepted p) {x : Turn} {position : Nat}
    {f : FieldDecl} (hrecord : p.arena.isRecord x.target = true)
    (hadds : p.Adds p' x.target position f ⟨p.arena.size⟩) {i : NodeId} {n : Node}
    (hi : a.get? i = some n) :
    p'.arena.get? i = some n ∨
      i ∈ (accepted ++ [x]).map Turn.target ∧
        ∃ decl ms, n.declaration = .type decl ∧ decl.kind = .record ∧
          p'.arena.get? i = some { n with declaration := .type { decl with members := ms } } := by
  have hget := Arena.insertMember_get? hadds.insert_eq i
  have hlt : i.index < a.size := by
    obtain ⟨hlt, -⟩ := Array.getElem?_eq_some_iff.mp hi
    exact hlt
  have hne : i ≠ ⟨p.arena.size⟩ := by
    rintro rfl
    rw [h.size_eq] at hlt
    exact absurd hlt (by simp)
  by_cases hx : i = x.target
  · -- the target: a struct, whether or not it had received fields before
    right
    refine ⟨by simp [hx], ?_⟩
    rw [if_pos hx] at hget
    rcases h.old_eq i n hi with hsame | ⟨-, decl, ms, hdecl, hkind, hgrown⟩
    · have hty := hrecord
      unfold Arena.isRecord Arena.typeDecl at hty
      rw [← hx, hsame] at hty
      obtain ⟨declaration, parent, location⟩ := n
      cases declaration with
      | type decl => exact ⟨decl, _, rfl, by simpa using hty, by rw [hget, hsame]; rfl⟩
      | field f => cases hty
      | constructor k => cases hty
    · exact ⟨decl, _, hdecl, hkind, by rw [hget, hgrown]; rfl⟩
  · rw [if_neg hx, if_neg hne] at hget
    rw [hget]
    rcases h.old_eq i n hi with hsame | ⟨htarget, hgrown⟩
    · exact .inl hsame
    · exact .inr ⟨by rw [List.map_append]; exact List.mem_append_left _ htarget, hgrown⟩

/-- One more accepted request. -/
theorem adds (h : RoundEffect types a accepted p) (hclosed : p.arena.Closed) {x : Turn}
    {ty : TypeName} {position : Nat} (hrecord : p.arena.isRecord x.target = true)
    (hty : types.resolveRef x.request.ty = .ok ty)
    (hadds : p.Adds p' x.target position (x.request.field ty) ⟨p.arena.size⟩) :
    RoundEffect types a (accepted ++ [x]) p' := by
  have hins := hadds.inserted
  have hsize : p.arena.size = a.size + accepted.length := by
    rw [h.size_eq, h.length_injected]
  refine ⟨?_, ?_, ?_, ?_, fun i n hi => h.old_eq_of_adds hrecord hadds hi, ?_⟩
  · -- the new id is the size, which every addition so far has raised by one
    rw [hadds.injected_eq, h.injected_eq, List.mapIdx_concat, hsize]
  · rw [hins.size_eq, h.size_eq, hadds.injected_eq, List.length_append, List.length_singleton,
      Nat.add_assoc]
  · -- the node of an earlier addition stays, the new one is what was inserted
    intro k y hk
    rcases getElem?_concat_cases hk with hk | ⟨rfl, rfl⟩
    · rw [h.get?_new_eq hk hadds.insert_eq]
      exact h.new_eq k y hk
    · refine ⟨ty, hty, ?_⟩
      -- the owner is a node there was before, so it is not the new one
      have howner : (⟨p.arena.size⟩ : NodeId) ≠ y.target := by
        obtain ⟨decl, hdecl, -⟩ := hins.owner_eq
        exact (hins.ne_of_lt (Arena.index_lt_of_declaration? hdecl)).symm
      rw [← hsize, Arena.insertMember_get? hadds.insert_eq, if_neg howner, if_pos rfl]
      rfl
  · intro k y hk t
    rw [hins.count_memberList]
    rcases getElem?_concat_cases hk with hk | ⟨rfl, rfl⟩
    · -- an earlier addition is not the new node
      have hlt : k < accepted.length := (List.getElem?_eq_some_iff.mp hk).1
      have hne : ¬ (t = x.target ∧ (⟨a.size + k⟩ : NodeId) = ⟨p.arena.size⟩) := by
        rintro ⟨-, heq⟩
        rw [hsize, NodeId.mk.injEq] at heq
        omega
      rw [if_neg hne, h.count_eq k y hk, Nat.add_zero]
    · -- no list mentioned the id before it was given out
      rw [← hsize, hclosed.count_size]
      simp
  · intro t
    have hnew : decide ((⟨p.arena.size⟩ : NodeId).index < a.size) = false := by
      rw [hsize]
      simp
    rw [hins.filter_memberList hnew]
    exact h.members_eq t

/-- One turn. -/
theorem step {seen : List Turn}
    (h : p.arena.Closed ∧ RoundEffect types a (acceptedTurns types seen) p)
    (placement : Placement) (count : Nat) (t : NodeId) (r : Request) :
    (Progress.request types placement t p count r).1.arena.Closed ∧
      RoundEffect types a (acceptedTurns types (seen ++ [⟨t, r, p.arena⟩]))
        (Progress.request types placement t p count r).1 := by
  obtain ⟨hclosed, heffect⟩ := h
  -- a turn is accepted or leaves the arena alone
  cases hj : (Turn.mk t r p.arena).isAccepted types with
  | false =>
    obtain ⟨hskips, -⟩ := Progress.request_of_rejected placement count hj
    rw [acceptedTurns_concat_of_rejected seen hj, hskips.arena_eq]
    exact ⟨hclosed, heffect.skips hskips⟩
  | true =>
    obtain ⟨ty, hty⟩ := Judgement.isAccepted_iff.mp hj
    obtain ⟨hadds, -⟩ := Progress.request_of_accepted placement count hty
    have hrecord := Arena.isRecord_of_accepted hty
    have hresolved := (Arena.judge_eq_accepted_iff.mp hty).2
    rw [acceptedTurns_concat_of_accepted seen hj]
    refine ⟨hadds.inserted.closed (fun _ => Declaration.noConfusion) hclosed, ?_⟩
    exact heffect.adds hclosed (x := ⟨t, r, p.arena⟩) hrecord hresolved hadds

end RoundEffect

namespace Arena

/-- **The effect of a round.** It is that of the accepted requests, and nothing else happens to the
arena. The arena is one that the operations build; in it a type that was inserted with members of
its own lists ids only that were given out by then (`Operation.UsesHandles`). -/
theorem process_effect {a : Arena} (ha : a.Reachable) (capability : Capability)
    (placement : Placement) (types : TypeResolver) (batch : List Target) :
    RoundEffect types a (acceptedTurns types (a.turns placement types batch))
      (a.process capability placement types batch) := by
  -- bounds on the member lists go along, as a turn may rely on them
  have hround : (a.process capability placement types batch).arena.Closed ∧
      RoundEffect types a (acceptedTurns types (a.turns placement types batch))
        (a.process capability placement types batch) :=
    processInto_induction
      (motive := fun seen p =>
        p.arena.Closed ∧ RoundEffect types a (acceptedTurns types seen) p)
      (fun _ _ count t r h => RoundEffect.step h placement count t r) [] capability batch
      ⟨ha.closed, .start ha.closed rfl rfl⟩
  exact hround.2

/-- Nothing is known by its name. -/
def nothingKnown : TypeResolver := ⟨fun ty => .error (.unknown ty)⟩

/-- Requests for `Car` under two targets, and for a node that becomes a field in between: `x` and
`y` come with their types, `b` is there already, and the type of `z` is not found. -/
def carPlan : List Target :=
  let request (name : String) : Request := ⟨name, .resolved ⟨"core::u8", "u8"⟩, Modifiers.none⟩
  [⟨⟨0⟩, [request "x", request "b", ⟨"z", .pending ⟨"Ghost"⟩, Modifiers.none⟩]⟩,
    ⟨⟨3⟩, [request "x"]⟩, ⟨⟨0⟩, [request "y", request "x"]⟩]

/-- `Car` receives `x` as node 3 and `y` as node 4, both in front of its old members. -/
theorem process_effect_car :
    carArena.Reachable ∧
      RoundEffect nothingKnown carArena
        (acceptedTurns nothingKnown (carArena.turns .prepend nothingKnown carPlan))
        (carArena.process ⟨"cli", "direct"⟩ .prepend nothingKnown carPlan) ∧
      (acceptedTurns nothingKnown (carArena.turns .prepend nothingKnown carPlan)).map
        (fun x => (x.target, x.request.name)) = [(⟨0⟩, "x"), (⟨0⟩, "y")] ∧
      (carArena.process ⟨"cli", "direct"⟩ .prepend nothingKnown carPlan).arena.memberList ⟨0⟩ =
        [⟨4⟩, ⟨3⟩, ⟨1⟩, ⟨2⟩] := by
  refine ⟨carArena_reachable, process_effect carArena_reachable _ _ _ _, ?_, ?_⟩
  · decide
  · decide

end Arena

end FieldGraft
