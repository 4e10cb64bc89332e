import FieldGraft.Proofs.RoundSteps
import Mathlib.Data.List.Count
import Mathlib.Data.List.Nodup

/-!
# Field names along rounds

A round never gives a type a second field of a name. The check for duplicates runs against the
member list that the round itself is changing, and a batch may name one type several times, so the
statement is about every state in between.

* `Arena.Reachable` — the arenas that the operations can build. All that counts here is that their
  member lists are within bounds (`Arena.Reachable.closed`).
* `Arena.KeepsNames` — between two arenas, the number of fields of a given name at a given type
  stays the same, or goes from none to one. One request keeps names (`Progress.request_keepsNames`),
  hence so do the requests of a target, the targets of a batch and any number of rounds.
* `Arena.process_fieldNames_count` — what this says about a round and about a sequence of rounds.
-/

namespace FieldGraft

namespace Arena

variable {a b c : Arena} {owner t id : NodeId} {position : Nat} {f : FieldDecl}

/-! ### Reachable arenas -/

/-- What can be done to an arena. -/
inductive Operation where
  | addType (name : String) (kind : DeclKind)
  | insertMember (owner : NodeId) (position : Nat) (declaration : Declaration)
  | pushField (owner : NodeId) (decl : FieldDecl)
  | pushConstructor (owner : NodeId) (decl : ConstructorDecl)
  | setLocation (id : NodeId) (location : Location)

namespace Operation

/-- The arena after an operation, if it succeeds. -/
def run (a : Arena) : Operation → Except ArenaError Arena
  | addType name kind => .ok (a.addType name kind).1
  | insertMember owner position d => (a.insertMember owner position d).map Prod.fst
  | pushField owner decl => (a.pushField owner decl).map Prod.fst
  | pushConstructor owner decl => (a.pushConstructor owner decl).map Prod.fst
  | setLocation id location => a.setLocation id location

/-- Ids are not made up: each is a handle that the arena has given out. So a type that comes with a
member list of its own lists nodes that exist. A handle for a node to come would make that type a
second owner of the member that is added next. -/
def UsesHandles (a : Arena) : Operation → Prop
  | insertMember _ _ d => ∀ decl, d = .type decl → ∀ m ∈ decl.members, m.index < a.size
  | _ => True

end Operation

/-- **The arenas that the operations build**, from the empty one on. -/
inductive Reachable : Arena → Prop where
  | empty : Reachable {}
  | step {a b : Arena} (o : Operation) : Reachable a → o.UsesHandles a → o.run a = .ok b →
      Reachable b

theorem map_fst_eq_ok {x : Except ArenaError (Arena × NodeId)} (h : x.map Prod.fst = .ok b) :
    ∃ id, x = .ok (b, id) := by
  cases x with
  | error e => cases h
  | ok r =>
    obtain ⟨b', id⟩ := r
    cases h
    exact ⟨id, rfl⟩

/-- Every operation keeps member lists within bounds. -/
theorem Operation.closed_of_run {o : Operation} (hhandles : o.UsesHandles a) (ha : a.Closed)
    (h : o.run a = .ok b) : b.Closed := by
  cases o with
  | addType name kind =>
    -- the new node has no members of its own
    cases h
    intro t m hm
    rw [addType_memberList] at hm
    have hsize : (a.addType name kind).1.size = a.size + 1 := alloc_size a _ none
    rw [hsize]
    exact Nat.lt_succ_of_lt (ha t m hm)
  | insertMember owner position d =>
    -- here `hhandles` is needed: the members of an inserted type lie within the old bounds
    obtain ⟨id, hid⟩ := map_fst_eq_ok h
    exact (insertMember_eq_ok hid).closed hhandles ha
  | pushField owner f =>
    obtain ⟨id, hid⟩ := map_fst_eq_ok h
    -- a field or constructor has no members, so nothing has to be asked of the ids
    rw [pushField_eq] at hid
    exact (insertMember_eq_ok hid).closed (fun _ => Declaration.noConfusion) ha
  | pushConstructor owner k =>
    obtain ⟨id, hid⟩ := map_fst_eq_ok h
    rw [pushConstructor_eq] at hid
    exact (insertMember_eq_ok hid).closed (fun _ => Declaration.noConfusion) ha
  | setLocation id location =>
    intro t m hm
    rw [memberList_eq, setLocation_declaration? h, ← memberList_eq] at hm
    rw [setLocation_size h]
    exact ha t m hm

theorem Reachable.closed (h : a.Reachable) : a.Closed := by
  induction h with
  | empty => exact closed_empty
  | step o _ hhandles hrun ih => exact Operation.closed_of_run hhandles ih hrun

/-! ### Names after one addition -/

/-- **Names are kept.** For each type and name, the number of fields stays, or goes from none to
one. -/
structure KeepsNames (a b : Arena) : Prop where
  closed : a.Closed → b.Closed
  count_eq : a.Closed → ∀ (t : NodeId) (n : String),
    (b.fieldNames t).count n = (a.fieldNames t).count n ∨
      (a.fieldNames t).count n = 0 ∧ (b.fieldNames t).count n = 1

namespace KeepsNames

theorem refl (a : Arena) : KeepsNames a a where
  closed := id
  count_eq := fun _ _ _ => .inl rfl

/-- A name that came up in the first part is there in the second, so it is not added again. -/
theorem trans (h₁ : KeepsNames a b) (h₂ : KeepsNames b c) : KeepsNames a c where
  closed := h₂.closed ∘ h₁.closed
  count_eq := by
    intro ha t n
    have hfirst := h₁.count_eq ha t n
    have hsecond := h₂.count_eq (h₁.closed ha) t n
    omega

/-- The two halves in which this is used. -/
theorem count_cases (h : KeepsNames a b) (ha : a.Closed) (t : NodeId) (n : String) :
    (1 ≤ (a.fieldNames t).count n → (b.fieldNames t).count n = (a.fieldNames t).count n) ∧
      ((a.fieldNames t).count n = 0 → (b.fieldNames t).count n ≤ 1) := by
  have hcount := h.count_eq ha t n
  omega

/-- A list of names without repetition stays one. -/
theorem nodup (h : KeepsNames a b) (ha : a.Closed) (hnodup : ∀ t, (a.fieldNames t).Nodup) :
    ∀ t, (b.fieldNames t).Nodup := by
  intro t
  rw [List.nodup_iff_count_le_one]
  intro n
  have hbefore := List.nodup_iff_count_le_one.mp (hnodup t) n
  have hcount := h.count_eq ha t n
  omega

end KeepsNames

theorem insertAt_perm (ms : List NodeId) (position : Nat) (id : NodeId) :
    (insertAt ms position id).Perm (id :: ms) := by
  have hmiddle : (insertAt ms position id).Perm (id :: (ms.take position ++ ms.drop position)) :=
    List.perm_middle
  rwa [List.take_append_drop] at hmiddle

/-- The owner of a new field has its name once more, wherever the field stands. -/
theorem Inserted.fieldNames_perm (h : a.Inserted b owner position (.field f) id)
    (ha : a.Closed) : (b.fieldNames owner).Perm (f.name :: a.fieldNames owner) := by
  have hnew : b.field? id = some f := by rw [field?_eq, h.new_eq]
  -- below the old bounds the fields are the old ones
  have hold : (a.memberList owner).filterMap (fun m => (b.field? m).map (fun g => (m, g))) =
      a.fields owner := by
    refine List.filterMap_congr fun m hm => ?_
    rw [(h.leaf_of_lt (ha owner m hm)).1]
  have hfields : (b.fields owner).Perm ((id, f) :: a.fields owner) := by
    -- the owner has the new id somewhere among the old ones, and the order does not matter
    have hperm := (insertAt_perm (a.memberList owner) position id).filterMap
      (fun m => (b.field? m).map (fun g => (m, g)))
    rw [List.filterMap_cons, hnew, hold, ← h.memberList_owner] at hperm
    exact hperm
  exact hfields.map (fun g => g.2.name)

/-- Adding a field of a new name keeps names. -/
theorem Inserted.keepsNames (h : a.Inserted b owner position (.field f) id)
    (hname : f.name ∉ a.fieldNames owner) : KeepsNames a b where
  closed := h.closed fun _ => Declaration.noConfusion
  count_eq := by
    intro ha t n
    by_cases ht : t = owner
    · subst ht
      rw [(h.fieldNames_perm ha).count_eq]
      by_cases hn : f.name = n
      · -- the new name: it was not there
        subst hn
        right
        rw [List.count_cons_self, List.count_eq_zero.mpr hname]
        exact ⟨rfl, rfl⟩
      · -- every other name occurs as often as before
        left
        exact List.count_cons_of_ne hn
    · -- another type has the fields that it had
      left
      rw [fieldNames, h.fields_of_ne (fun _ => Declaration.noConfusion) ha ht, fieldNames]

end Arena

/-! ### Names after a round -/

namespace Progress

variable (types : TypeResolver) (placement : Placement)

/-- **One request keeps names**: it is skipped, or its field has a name that the target does not
have. -/
theorem request_keepsNames (target : NodeId) (p : Progress) (count : Nat) (r : Request) :
    p.arena.KeepsNames (request types placement target p count r).1.arena := by
  rcases request_cases types placement target p count r with
    ⟨-, hskips, -⟩ | ⟨ty, ⟨-, hname⟩, -, hadds, -⟩
  · rw [hskips.arena_eq]
    exact .refl _
  · exact hadds.inserted.keepsNames hname

/-- The requests of one target, one after the other. -/
theorem requests_keepsNames (target : NodeId) (p : Progress) (count : Nat) (rs : List Request) :
    p.arena.KeepsNames (requests types placement target p count rs).arena := by
  induction rs generalizing p count with
  | nil => exact .refl _
  | cons r rs ih => exact (request_keepsNames types placement target p count r).trans (ih _ _)

/-- The targets of a batch. One type may be named by several of them. -/
theorem foldl_target_keepsNames (p : Progress) (batch : List Target) :
    p.arena.KeepsNames (batch.foldl (target types placement) p).arena := by
  induction batch generalizing p with
  | nil => exact .refl _
  | cons x batch ih =>
    exact (requests_keepsNames types placement x.node p 0 x.requests).trans (ih _)

end Progress

/-- What a round is run with. -/
structure RoundInput where
  capability : Capability
  placement : Placement
  types : TypeResolver
  batch : List Target

namespace Arena

/-- The arena after a round. -/
def afterRound (a : Arena) (r : RoundInput) : Arena :=
  (a.process r.capability r.placement r.types r.batch).arena

theorem afterRound_keepsNames (a : Arena) (r : RoundInput) : a.KeepsNames (a.afterRound r) :=
  Progress.foldl_target_keepsNames r.types r.placement
    { arena := a, log := [roundRecord r.capability r.placement r.batch] } r.batch

theorem foldl_afterRound_keepsNames (a : Arena) (rounds : List RoundInput) :
    a.KeepsNames (rounds.foldl afterRound a) := by
  induction rounds generalizing a with
  | nil => exact .refl _
  | cons r rounds ih => exact (a.afterRound_keepsNames r).trans (ih _)

/-- **Names over rounds.** A type with fields of a name has as many of them after a round, and a
type with none has at most one. So no name is ever doubled by a sequence of rounds, if none was
double in the beginning. The arena is one that the operations build: they are given ids that the
arena gave out before, and this includes the members that an inserted type comes with
(`Operation.UsesHandles`). -/
theorem process_fieldNames_count {a : Arena} (ha : a.Reachable) :
    (∀ (capability : Capability) (placement : Placement) (types : TypeResolver)
        (batch : List Target) (t : NodeId) (n : String),
      (1 ≤ (a.fieldNames t).count n →
        ((a.process capability placement types batch).arena.fieldNames t).count n =
          (a.fieldNames t).count n) ∧
      ((a.fieldNames t).count n = 0 →
        ((a.process capability placement types batch).arena.fieldNames t).count n ≤ 1)) ∧
    ∀ rounds : List RoundInput, (∀ t, (a.fieldNames t).Nodup) →
      ∀ t, ((rounds.foldl afterRound a).fieldNames t).Nodup := by
  refine ⟨fun capability placement types batch t n => ?_, fun rounds hnodup => ?_⟩
  · -- one round, seen as the last of a sequence of rounds
    exact (a.afterRound_keepsNames ⟨capability, placement, types, batch⟩).count_cases ha.closed t n
  · exact (a.foldl_afterRound_keepsNames rounds).nodup ha.closed hnodup

/-- A field of `Car` as its source declares it. -/
def carField : FieldDecl :=
  { name := "b", ty := "String", modifiers := Modifiers.publicOnly, synthetic := false }

/-- The struct `Car` with a field `b` and a constructor without parameters. -/
def carArena : Arena :=
  ⟨#[{ declaration := .type { name := "Car", kind := .record, members := [⟨1⟩, ⟨2⟩] } },
    { declaration := .field carField, parent := some ⟨0⟩ },
    { declaration := .constructor { name := "new", params := 0 }, parent := some ⟨0⟩ }]⟩

/-- It is built by adding the type, its field and its constructor. -/
theorem carArena_reachable : carArena.Reachable := by
  have htype : Reachable (({} : Arena).addType "Car" .record).1 :=
    .step (.addType "Car" .record) .empty trivial rfl
  obtain ⟨b, hfield, hconstructor⟩ : ∃ b,
      (Operation.pushField ⟨0⟩ carField).run (({} : Arena).addType "Car" .record).1 = .ok b ∧
      (Operation.pushConstructor ⟨0⟩ { name := "new", params := 0 }).run b = .ok carArena :=
    ⟨_, rfl, rfl⟩
  have hb : b.Reachable := .step (.pushField ⟨0⟩ carField) htype trivial hfield
  exact .step (.pushConstructor ⟨0⟩ { name := "new", params := 0 }) hb trivial hconstructor

/-- A batch with two targets for `Car`, and one for a node that does not exist: `x` is requested
three times for `Car`, and `b` although it is there. -/
def carBatch : List Target :=
  let request (name : String) : Request := ⟨name, .ofText "u8", Modifiers.none⟩
  [⟨⟨0⟩, [request "x", request "x"]⟩, ⟨⟨7⟩, [request "x"]⟩, ⟨⟨0⟩, [request "b", request "x"]⟩]

/-- `Car` keeps its one `b` and gets at most one `x`. -/
theorem process_fieldNames_count_car :
    carArena.Reachable ∧
      ((carArena.process ⟨"cli", "direct"⟩ .prepend TypeTable.standard carBatch).arena.fieldNames
        ⟨0⟩).count "b" = 1 ∧
      ((carArena.process ⟨"cli", "direct"⟩ .prepend TypeTable.standard carBatch).arena.fieldNames
        ⟨0⟩).count "x" ≤ 1 := by
  have hcount := (process_fieldNames_count carArena_reachable).1 ⟨"cli", "direct"⟩ .prepend
    TypeTable.standard carBatch ⟨0⟩
  -- `b` was there before, and `x` was not
  have hb : (carArena.fieldNames ⟨0⟩).count "b" = 1 := by decide
  have hx : (carArena.fieldNames ⟨0⟩).count "x" = 0 := by decide
  exact ⟨carArena_reachable, ((hcount "b").1 (Nat.le_of_eq hb.symm)).trans hb, (hcount "x").2 hx⟩

end Arena

end FieldGraft
