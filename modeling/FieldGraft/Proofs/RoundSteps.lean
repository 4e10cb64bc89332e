import FieldGraft.Proofs.ArenaDeclarations
import FieldGraft.Round
import Mathlib.Data.List.Induction

/-!
# The steps of a round

A request has one of two effects on a round: it is skipped, which leaves the arena alone, or its
field becomes a member of the target. `Progress.request_cases` says so once, with the condition that
tells the two apart; nothing below it opens the definition of a round again.

* `Arena.evaluate_cases` — the verdicts, with the condition for each. A field may be added iff its
  type takes fields at all (`Arena.takesFields`) and none of its fields has the name.
* `Progress.requests_grown` — the requests of one target keep what `keptRequests` says, a fold that
  mentions no arena; the fields stand in front of the old members, in the order of the placement.
* `Progress.foldl_target_receivedAt` — so it is for every type of a batch that names each type once,
  whatever the other targets are: a target changes no member list but its own (`Arena.GrowsAt`).
-/

namespace FieldGraft

/-! ### When a field may be added -/

namespace Arena

/-- The type has a constructor without parameters. -/
def hasFreeConstructor (a : Arena) (t : NodeId) : Bool :=
  (a.constructors t).any (fun k => k.2.params == 0)

/-- The node is a struct with named fields. -/
def isRecord (a : Arena) (t : NodeId) : Bool :=
  match a.typeDecl t with
  | .ok decl => decl.kind = .record
  | .error _ => false

/-- The node is a struct with named fields and a constructor without parameters. -/
def takesFields (a : Arena) (t : NodeId) : Bool :=
  match a.typeDecl t with
  | .ok decl => decl.kind = .record && a.hasFreeConstructor t
  | .error _ => false

theorem takesFields_eq (a : Arena) (t : NodeId) :
    a.takesFields t = match a.declaration? t with
      | some (.type decl) => decl.kind = .record && a.hasFreeConstructor t
      | _ => false := by
  unfold takesFields
  cases hty : a.typeDecl t with
  | ok decl => rw [typeDecl_eq_ok_iff.mp hty]
  | error e =>
    cases hd : a.declaration? t with
    | none => rfl
    -- what is declared but is no type takes no fields
    | some d =>
      cases d with
      | type decl =>
        rw [typeDecl_eq_ok_iff.mpr hd] at hty
        cases hty
      | field f => rfl
      | constructor k => rfl

theorem takesFields_eq_and (a : Arena) (t : NodeId) :
    a.takesFields t = (a.isRecord t && a.hasFreeConstructor t) := by
  unfold takesFields isRecord
  cases a.typeDecl t <;> rfl

/-- What takes fields is a type. -/
theorem exists_typeDecl_of_takesFields {a : Arena} {t : NodeId} (h : a.takesFields t = true) :
    ∃ decl, a.typeDecl t = .ok decl := by
  unfold takesFields at h
  split at h
  · exact ⟨_, ‹_›⟩
  · cases h

/-- The names of the fields of a type. -/
def fieldNames (a : Arena) (t : NodeId) : List String :=
  (a.fields t).map (fun f => f.2.name)

/-- **What a verdict says**, one case for each. -/
theorem evaluate_cases (a : Arena) (t : NodeId) (name : String) :
    (a.isRecord t = false ∧ ∃ kind, a.evaluate t name = .kindNotSupported t kind) ∨
    (a.isRecord t = true ∧ ∃ f, (a.fields t).find? (fun f => f.2.name == name) = some f ∧
      a.evaluate t name = .duplicateField t f.1 name) ∨
    (a.isRecord t = true ∧ (a.fields t).find? (fun f => f.2.name == name) = none ∧
      ((a.hasFreeConstructor t = false ∧ a.evaluate t name = .missingConstructor t name) ∨
        (a.hasFreeConstructor t = true ∧ a.evaluate t name = .eligible))) := by
  unfold evaluate isRecord
  cases a.typeDecl t with
  | error e => exact .inl ⟨rfl, _, rfl⟩
  | ok decl =>
    -- the kind is asked first, then the name, then the constructors
    by_cases hkind : decl.kind = .record
    · cases hfind : (a.fields t).find? (fun f => f.2.name == name) with
      | some f => exact .inr (.inl ⟨by simp [hkind], f, rfl, by simp [hkind]⟩)
      | none =>
        refine .inr (.inr ⟨by simp [hkind], rfl, ?_⟩)
        rw [← hasFreeConstructor]
        cases a.hasFreeConstructor t with
        | false => exact .inl ⟨rfl, by simp [hkind]⟩
        | true => exact .inr ⟨rfl, by simp [hkind]⟩
    · exact .inl ⟨by simp [hkind], decl.kind, by simp [hkind]⟩

/-- A field may be added iff the type takes fields and the name is free. -/
theorem evaluate_eq_eligible_iff {a : Arena} {t : NodeId} {name : String} :
    a.evaluate t name = .eligible ↔ a.takesFields t = true ∧ name ∉ a.fieldNames t := by
  rw [takesFields_eq_and]
  rcases a.evaluate_cases t name with
    ⟨hrecord, kind, hverdict⟩ | ⟨-, f, hfind, hverdict⟩ | ⟨hrecord, hfind, hfree⟩
  · simp [hverdict, hrecord]
  · -- the name is that of a field
    have hmem : name ∈ a.fieldNames t := by
      have hname := List.find?_some hfind
      exact List.mem_map.mpr ⟨f, List.mem_of_find?_eq_some hfind, beq_iff_eq.mp hname⟩
    simp [hverdict, hmem]
  · have hname : name ∉ a.fieldNames t := by
      intro hmem
      obtain ⟨f, hf, rfl⟩ := List.mem_map.mp hmem
      exact List.find?_eq_none.mp hfind f hf (beq_self_eq_true _)
    -- the name is free, so the constructors decide
    rcases hfree with ⟨hfree, hverdict⟩ | ⟨hfree, hverdict⟩
    · simp [hverdict, hfree]
    · simp [hverdict, hrecord, hfree, hname]

end Arena

/-- The field that a request stands for once its type is known. -/
def Request.field (r : Request) (ty : TypeName) : FieldDecl :=
  { name := r.name, ty := ty.simple, modifiers := r.modifiers, synthetic := true }

/-! ### One request -/

namespace Progress

/-- A request was skipped: it is counted, and nothing else happened to the arena or to the list of
additions. -/
structure Skips (p p' : Progress) : Prop where
  arena_eq : p'.arena = p.arena
  injected_eq : p'.summary.injected = p.summary.injected
  skipped_eq : p'.summary.skipped = p.summary.skipped + 1

/-- A field was added to a target at a position of its member list, and a note says so. -/
structure Adds (p q : Progress) (target : NodeId) (position : Nat) (f : FieldDecl)
    (id : NodeId) : Prop where
  insert_eq : p.arena.insertMember target position (.field f) = .ok (q.arena, id)
  injected_eq : q.summary.injected = p.summary.injected ++ [⟨target, id⟩]
  skipped_eq : q.summary.skipped = p.summary.skipped
  diagnostics_eq : q.diagnostics = p.diagnostics ++
    [.report .note (some target) s!"adding field `{f.name}` to `{q.arena.typeName target}`"]

theorem Adds.inserted {p p' : Progress} {target : NodeId} {position : Nat} {f : FieldDecl}
    {id : NodeId} (h : p.Adds p' target position f id) :
    p.arena.Inserted p'.arena target position (.field f) id :=
  Arena.insertMember_eq_ok h.insert_eq

theorem skips_skip (p : Progress) (r : LogRecord) (d : Diagnostic) :
    p.Skips ((p.note r).skip d) :=
  ⟨rfl, rfl, rfl⟩

/-- A refusal always has a diagnostic, so it is always counted. -/
theorem skips_refuse (p : Progress) (field : String) {v : Verdict} (hv : v ≠ .eligible) :
    p.Skips (p.refuse field v) := by
  cases v with
  | eligible => exact absurd rfl hv
  | kindNotSupported target kind => exact ⟨rfl, rfl, rfl⟩
  | duplicateField target existing field => exact ⟨rfl, rfl, rfl⟩
  | missingConstructor target field => exact ⟨rfl, rfl, rfl⟩

/-- An addition to a type is carried out. -/
theorem exists_commit (p : Progress) {target : NodeId} {decl : TypeDecl}
    (h : p.arena.typeDecl target = .ok decl) (position : Nat) (f : FieldDecl) :
    ∃ p', p.commit target position f = .ok p' ∧ p.Adds p' target position f ⟨p.arena.size⟩ := by
  obtain ⟨b, hb⟩ := Arena.exists_insertMember h position (.field f)
  let added : Progress :=
    { p with
      arena := b
      summary := { p.summary with injected := p.summary.injected ++ [⟨target, ⟨p.arena.size⟩⟩] } }
  have hcommit : p.commit target position f = .ok (added.report
      (.report .note (some target) s!"adding field `{f.name}` to `{b.typeName target}`")) := by
    simp only [commit, hb]
    rfl
  exact ⟨_, hcommit, hb, rfl, rfl, rfl⟩

variable {types : TypeResolver} {target : NodeId} {p : Progress} {r : Request}
  (placement : Placement) (count : Nat)

/-- A request that the arena refuses. -/
theorem request_of_refusal (hv : p.arena.evaluate target r.name ≠ .eligible) :
    request types placement target p count r =
      (p.refuse r.name (p.arena.evaluate target r.name), count) := by
  unfold request
  cases hverdict : p.arena.evaluate target r.name with
  | eligible => exact absurd hverdict hv
  | kindNotSupported t kind => rfl
  | duplicateField t existing field => rfl
  | missingConstructor t field => rfl

/-- A request whose type is not found. -/
theorem request_of_unresolved {e : ResolveError}
    (hv : p.arena.evaluate target r.name = .eligible) (hty : types.resolveRef r.ty = .error e) :
    request types placement target p count r =
      ((p.note (p.arena.eligibleRecord target r.name)).skip
        (.report .error (some target) (SynthesisError.message ⟨r.name, e⟩)), count) := by
  simp only [request, hv, Request.synthesize, hty]

/-- A request that is carried out. The target is a type, so the arena does not refuse the new
member. -/
theorem request_of_resolved {ty : TypeName} (hv : p.arena.evaluate target r.name = .eligible)
    (hty : types.resolveRef r.ty = .ok ty) :
    p.Adds (request types placement target p count r).1 target (placement.position count)
        (r.field ty) ⟨p.arena.size⟩ ∧
      (request types placement target p count r).2 = count + 1 := by
  -- a target that takes a field is a type, so the insertion cannot fail
  obtain ⟨decl, hdecl⟩ := Arena.exists_typeDecl_of_takesFields
    (Arena.evaluate_eq_eligible_iff.mp hv).1
  -- logging before the addition changes neither the arena nor the summary
  obtain ⟨p', hp', hadds⟩ :=
    exists_commit (p.note (p.arena.eligibleRecord target r.name)) hdecl
      (placement.position count) (r.field ty)
  have hrequest : request types placement target p count r = (p', count + 1) := by
    simp only [request, hv, Request.synthesize, hty]
    rw [show (p.note (p.arena.eligibleRecord target r.name)).commit target
        (placement.position count)
        { name := r.name, ty := ty.simple, modifiers := r.modifiers, synthetic := true } =
      .ok p' from hp']
  rw [hrequest]
  exact ⟨⟨hadds.insert_eq, hadds.injected_eq, hadds.skipped_eq, hadds.diagnostics_eq⟩, rfl⟩

/-- **The effect of one request.** Either it is skipped, because the target does not take the name
or the type is not found, or its field is added. -/
theorem request_cases (types : TypeResolver) (placement : Placement) (target : NodeId)
    (p : Progress) (count : Nat) (r : Request) :
    ((¬ (p.arena.takesFields target = true ∧ r.name ∉ p.arena.fieldNames target) ∨
        ∃ e, types.resolveRef r.ty = .error e) ∧
      p.Skips (request types placement target p count r).1 ∧
      (request types placement target p count r).2 = count) ∨
    (∃ ty, (p.arena.takesFields target = true ∧ r.name ∉ p.arena.fieldNames target) ∧
      types.resolveRef r.ty = .ok ty ∧
      p.Adds (request types placement target p count r).1 target (placement.position count)
        (r.field ty) ⟨p.arena.size⟩ ∧
      (request types placement target p count r).2 = count + 1) := by
  rw [← Arena.evaluate_eq_eligible_iff]
  -- what is eligible may still name a type that does not resolve
  by_cases hv : p.arena.evaluate target r.name = .eligible
  · cases hty : types.resolveRef r.ty with
    | error e =>
      left
      rw [request_of_unresolved placement count hv hty]
      exact ⟨.inr ⟨e, rfl⟩, skips_skip _ _ _, rfl⟩
    | ok ty =>
      right
      obtain ⟨hadds, hcount⟩ := request_of_resolved placement count hv hty
      exact ⟨ty, hv, rfl, hadds, hcount⟩
  · left
    rw [request_of_refusal placement count hv]
    exact ⟨.inl hv, skips_refuse p r.name hv, rfl⟩

end Progress

/-! ### What one target leaves alone -/

namespace Arena

variable {a b c : Arena} {t u : NodeId} {position : Nat} {f : FieldDecl} {id : NodeId}

/-- **Growth at one type.** Every declaration of `a` stands in `b`, except that the member list of
`u` may differ. -/
structure GrowsAt (u : NodeId) (a b : Arena) : Prop where
  size_le : a.size ≤ b.size
  closed : a.Closed → b.Closed
  field_eq : ∀ i f, a.declaration? i = some (.field f) → b.declaration? i = some (.field f)
  constructor_eq : ∀ i k, a.declaration? i = some (.constructor k) →
    b.declaration? i = some (.constructor k)
  type_eq : ∀ i decl, a.declaration? i = some (.type decl) →
    ∃ ms, b.declaration? i = some (.type { decl with members := ms }) ∧
      (i ≠ u → ms = decl.members)

namespace GrowsAt

theorem refl (u : NodeId) (a : Arena) : GrowsAt u a a where
  size_le := Nat.le_refl _
  closed := id
  field_eq := fun _ _ h => h
  constructor_eq := fun _ _ h => h
  type_eq := fun _ decl h => ⟨decl.members, h, fun _ => rfl⟩

theorem trans (h₁ : GrowsAt u a b) (h₂ : GrowsAt u b c) : GrowsAt u a c where
  size_le := Nat.le_trans h₁.size_le h₂.size_le
  closed := h₂.closed ∘ h₁.closed
  field_eq := fun i f h => h₂.field_eq i f (h₁.field_eq i f h)
  constructor_eq := fun i k h => h₂.constructor_eq i k (h₁.constructor_eq i k h)
  type_eq := by
    intro i decl h
    obtain ⟨ms, hb, hms⟩ := h₁.type_eq i decl h
    obtain ⟨ms', hc, hms'⟩ := h₂.type_eq i _ hb
    exact ⟨ms', hc, fun hi => (hms' hi).trans (hms hi)⟩

theorem of_inserted (h : a.Inserted b u position (.field f) id) : GrowsAt u a b := by
  -- an old node other than the owner declares what it did
  have hold : ∀ i d, a.declaration? i = some d → i ≠ u → b.declaration? i = some d := by
    intro i d hi hiu
    rw [h.other_eq i hiu (h.ne_of_lt (index_lt_of_declaration? hi)), hi]
  -- the owner keeps all of its declaration but the member list
  obtain ⟨decl, hown, hown'⟩ := h.owner_eq
  refine ⟨by rw [h.size_eq]; exact Nat.le_succ _, h.closed fun _ => Declaration.noConfusion,
    ?_, ?_, ?_⟩
  · intro i g hi
    refine hold i _ hi ?_
    rintro rfl
    rw [hown] at hi
    cases hi
  · intro i k hi
    refine hold i _ hi ?_
    rintro rfl
    rw [hown] at hi
    cases hi
  · intro i decl' hi
    by_cases hiu : i = u
    · subst hiu
      rw [hown] at hi
      cases hi
      exact ⟨_, hown', fun h => absurd rfl h⟩
    · exact ⟨decl'.members, hold i _ hi hiu, fun _ => rfl⟩

/-- An old node is a type, whose members may have changed, or declares what it did. -/
theorem declaration?_of_lt (h : GrowsAt u a b) {i : NodeId} (hi : i.index < a.size) :
    (∃ decl ms, a.declaration? i = some (.type decl) ∧
      b.declaration? i = some (.type { decl with members := ms }) ∧
      (i ≠ u → ms = decl.members)) ∨
    b.declaration? i = a.declaration? i := by
  obtain ⟨d, hd⟩ := Option.isSome_iff_exists.mp (declaration?_isSome_iff.mpr hi)
  cases d with
  | type decl =>
    obtain ⟨ms, hb, hms⟩ := h.type_eq i decl hd
    exact .inl ⟨decl, ms, hd, hb, hms⟩
  | field f => exact .inr ((h.field_eq i f hd).trans hd.symm)
  | constructor k => exact .inr ((h.constructor_eq i k hd).trans hd.symm)

/-- Whether an old node is a field or a constructor is settled. -/
theorem leaf_of_lt (h : GrowsAt u a b) {i : NodeId} (hi : i.index < a.size) :
    b.field? i = a.field? i ∧ b.constructor? i = a.constructor? i := by
  rw [field?_eq, field?_eq, constructor?_eq, constructor?_eq]
  rcases h.declaration?_of_lt hi with ⟨decl, ms, hold, hnew, -⟩ | hsame
  · rw [hold, hnew]
    exact ⟨rfl, rfl⟩
  · rw [hsame]
    exact ⟨rfl, rfl⟩

/-- Another type keeps its member list. -/
theorem memberList_eq (h : GrowsAt u a b) (ht : t.index < a.size) (htu : t ≠ u) :
    b.memberList t = a.memberList t := by
  rw [Arena.memberList_eq, Arena.memberList_eq]
  rcases h.declaration?_of_lt ht with ⟨decl, ms, hold, hnew, hms⟩ | hsame
  · rw [hold, hnew, hms htu]
  · rw [hsame]

theorem fields_eq (h : GrowsAt u a b) (ha : a.Closed) (ht : t.index < a.size) (htu : t ≠ u) :
    b.fields t = a.fields t := by
  unfold fields
  rw [h.memberList_eq ht htu]
  refine List.filterMap_congr fun m hm => ?_
  rw [(h.leaf_of_lt (ha t m hm)).1]

/-- A type that keeps its constructors takes fields if it did before. -/
theorem takesFields_eq (h : GrowsAt u a b) (ht : t.index < a.size)
    (hcons : b.constructors t = a.constructors t) : b.takesFields t = a.takesFields t := by
  rw [Arena.takesFields_eq, Arena.takesFields_eq, hasFreeConstructor, hasFreeConstructor, hcons]
  rcases h.declaration?_of_lt ht with ⟨decl, ms, hold, hnew, -⟩ | hsame
  · rw [hold, hnew]
  · rw [hsame]

end GrowsAt

end Arena

/-! ### The requests of one target -/

/-- One request, after the requests in `kept` were carried out: it is kept if the struct is open for
fields, its name is neither declared nor taken by an earlier request, and its type is found. -/
def keepRequest (types : TypeResolver) (opened : Bool) (declared : List String)
    (kept : List (Request × TypeName)) (r : Request) : List (Request × TypeName) :=
  match types.resolveRef r.ty with
  | .ok ty =>
    if opened ∧ r.name ∉ declared ∧ r.name ∉ kept.map (fun k => k.1.name) then kept ++ [(r, ty)]
    else kept
  | .error _ => kept

/-- **The requests that a struct keeps**, from left to right, each with its type. -/
def keptRequests (types : TypeResolver) (opened : Bool) (declared : List String)
    (requests : List Request) : List (Request × TypeName) :=
  requests.foldl (keepRequest types opened declared) []

/-- Kept requests are among the given ones, and their names are new and distinct. -/
theorem keptRequests_fresh (types : TypeResolver) (opened : Bool) (declared : List String)
    (requests : List Request) :
    ((keptRequests types opened declared requests).map (fun k => k.1.name)).Nodup ∧
      (∀ k ∈ keptRequests types opened declared requests, k.1.name ∉ declared) ∧
      ∀ k ∈ keptRequests types opened declared requests, k.1 ∈ requests := by
  -- from the right, so that the last request is judged against those kept before it
  induction requests using List.reverseRecOn with
  | nil => simp [keptRequests]
  | append_singleton rs r ih =>
    obtain ⟨hnodup, hnew, hmem⟩ := ih
    have hmem' : ∀ k ∈ keptRequests types opened declared rs, k.1 ∈ rs ++ [r] :=
      fun k hk => List.mem_append_left _ (hmem k hk)
    have hstep : keptRequests types opened declared (rs ++ [r]) =
        keepRequest types opened declared (keptRequests types opened declared rs) r := by
      simp [keptRequests]
    rw [hstep]
    unfold keepRequest
    split
    · split
      · next hkeep =>
        -- a kept request is new to the fields and to what was kept before it
        rw [List.map_append, List.map_singleton, List.nodup_append]
        refine ⟨⟨hnodup, by simp, ?_⟩, ?_, ?_⟩
        · intro i hi j hj
          rw [List.mem_singleton.mp hj]
          rintro rfl
          exact hkeep.2.2 hi
        · rw [List.forall_mem_append, List.forall_mem_singleton]
          exact ⟨hnew, hkeep.2.1⟩
        · rw [List.forall_mem_append, List.forall_mem_singleton]
          exact ⟨hmem', List.mem_append_right _ List.mem_cons_self⟩
      · exact ⟨hnodup, hnew, hmem'⟩
    · exact ⟨hnodup, hnew, hmem'⟩

/-- The order in which fields added one after the other end up. -/
def Placement.arrange {α : Type} (placement : Placement) (added : List α) : List α :=
  match placement with
  | .prepend => added.reverse
  | .declarationOrder => added

/-- The fields of kept requests, with ids from `start` on. -/
def keptFields (start : Nat) (kept : List (Request × TypeName)) : List (NodeId × FieldDecl) :=
  kept.mapIdx (fun k x => (⟨start + k⟩, x.1.field x.2))

@[simp] theorem keptFields_concat (start : Nat) (kept : List (Request × TypeName))
    (x : Request × TypeName) :
    keptFields start (kept ++ [x]) =
      keptFields start kept ++ [(⟨start + kept.length⟩, x.1.field x.2)] := by
  simp [keptFields]

theorem keptFields_map {α : Type} (g : FieldDecl → α) (start : Nat)
    (kept : List (Request × TypeName)) :
    (keptFields start kept).map (fun f => g f.2) = kept.map (fun k => g (k.1.field k.2)) := by
  induction kept using List.reverseRecOn with
  | nil => rfl
  | append_singleton kept x ih => simp [ih]

theorem keptFields_names (start : Nat) (kept : List (Request × TypeName)) :
    (keptFields start kept).map (fun f => f.2.name) = kept.map (fun k => k.1.name) :=
  keptFields_map FieldDecl.name start kept

theorem Placement.map_arrange {α β : Type} (placement : Placement) (g : α → β)
    (added : List α) : (placement.arrange added).map g = placement.arrange (added.map g) := by
  cases placement <;> simp [arrange]

theorem Placement.mem_arrange {α : Type} (placement : Placement) {x : α} {added : List α} :
    x ∈ placement.arrange added ↔ x ∈ added := by
  cases placement <;> simp [arrange]

/-- The position of the next field is right behind the fields added before it, or in front. -/
theorem Placement.insertAt_arrange (placement : Placement) (added old : List NodeId)
    (id : NodeId) :
    Arena.insertAt (placement.arrange added ++ old) (placement.position added.length) id =
      placement.arrange (added ++ [id]) ++ old := by
  cases placement <;> simp [arrange, position, Arena.insertAt]

namespace Progress

variable {placement : Placement} {t u : NodeId} {p p' p₀ : Progress}
  {kept : List (Request × TypeName)}

/-- **A target after some of its requests.** The state `p` is `p₀` with the fields of `kept` added
to `t` in the order of the placement, under consecutive ids. -/
structure Grown (placement : Placement) (t : NodeId) (p₀ p : Progress)
    (kept : List (Request × TypeName)) : Prop where
  size_eq : p.arena.size = p₀.arena.size + kept.length
  grows : p₀.arena.GrowsAt t p.arena
  members_eq : p.arena.memberList t =
    placement.arrange ((keptFields p₀.arena.size kept).map Prod.fst) ++ p₀.arena.memberList t
  constructors_eq : p₀.arena.Closed → p.arena.constructors t = p₀.arena.constructors t
  field_eq : ∀ x ∈ keptFields p₀.arena.size kept, p.arena.field? x.1 = some x.2
  injected_eq : p.summary.injected =
    p₀.summary.injected ++ (keptFields p₀.arena.size kept).map (fun x => ⟨t, x.1⟩)
  /-- A node that did not exist has received nothing. -/
  known : kept ≠ [] → t.index < p₀.arena.size

namespace Grown

theorem refl (placement : Placement) (t : NodeId) (p : Progress) : Grown placement t p p [] where
  size_eq := rfl
  grows := .refl t p.arena
  members_eq := by cases placement <;> rfl
  constructors_eq := fun _ => rfl
  field_eq := fun _ hx => absurd hx List.not_mem_nil
  injected_eq := by simp [keptFields]
  known := fun h => absurd rfl h

/-- A skipped request changes nothing. -/
theorem skips (h : Grown placement t p₀ p kept) (hs : p.Skips p') :
    Grown placement t p₀ p' kept := by
  obtain ⟨harena, hinjected, -⟩ := hs
  obtain ⟨hsize, hgrows, hmembers, hcons, hfield, hinj, hknown⟩ := h
  rw [← harena] at hsize hgrows hmembers hcons hfield
  exact ⟨hsize, hgrows, hmembers, hcons, hfield, hinjected.trans hinj, hknown⟩

/-- An addition appends its request. -/
theorem adds {r : Request} {ty : TypeName} (h : Grown placement t p₀ p kept)
    (ha : p.Adds p' t (placement.position kept.length) (r.field ty) ⟨p.arena.size⟩) :
    Grown placement t p₀ p' (kept ++ [(r, ty)]) := by
  have hins := ha.inserted
  have hgrows := Arena.GrowsAt.of_inserted hins
  refine ⟨?_, h.grows.trans hgrows, ?_, ?_, ?_, ?_, ?_⟩
  · rw [hins.size_eq, h.size_eq, List.length_append, List.length_singleton, Nat.add_assoc]
  · -- the placement counts the fields added so far, so the new id lands beside theirs
    have hlen : ((keptFields p₀.arena.size kept).map Prod.fst).length = kept.length := by
      simp [keptFields]
    rw [hins.memberList_owner, h.members_eq, ← hlen, Placement.insertAt_arrange, h.size_eq,
      keptFields_concat, List.map_append]
    rfl
  · intro hclosed
    rw [hins.constructors_eq, h.constructors_eq hclosed]
  · intro x hx
    rw [keptFields_concat, List.mem_append, List.mem_singleton] at hx
    rcases hx with hx | rfl
    · -- an earlier field is an old node by now
      have hold := h.field_eq x hx
      rw [(hgrows.leaf_of_lt (Arena.index_lt_of_field? hold)).1, hold]
    · rw [← h.size_eq, Arena.field?_eq, hins.new_eq]
  · rw [ha.injected_eq, h.injected_eq, keptFields_concat, List.map_append, List.append_assoc,
      h.size_eq]
    rfl
  · -- the owner is a type of the state before, and new nodes are fields
    intro _
    obtain ⟨decl, hown, -⟩ := hins.owner_eq
    have hlt := Arena.index_lt_of_declaration? hown
    rw [h.size_eq] at hlt
    cases kept with
    | nil => exact hlt
    | cons x kept => exact h.known (List.cons_ne_nil _ _)

/-- The fields of the target: those of the kept requests, then the old ones. -/
theorem fields_eq (h : Grown placement t p₀ p kept) (hclosed : p₀.arena.Closed) :
    p.arena.fields t =
      placement.arrange (keptFields p₀.arena.size kept) ++ p₀.arena.fields t := by
  unfold Arena.fields
  rw [h.members_eq, List.filterMap_append, ← Placement.map_arrange]
  congr 1
  · -- the new members read back as the fields they were made for
    rw [List.filterMap_map]
    refine (List.filterMap_congr (g := some) fun x hx => ?_).trans List.filterMap_some
    rw [Function.comp_apply, h.field_eq x ((Placement.mem_arrange _).mp hx)]
    rfl
  · refine List.filterMap_congr fun m hm => ?_
    rw [(h.grows.leaf_of_lt (hclosed t m hm)).1]

/-- The additions to a type: only the target has new ones. -/
theorem injectedInto_eq (h : Grown placement u p₀ p kept) (t : NodeId) :
    p.summary.injectedInto t = p₀.summary.injectedInto t ++
      if t = u then (keptFields p₀.arena.size kept).map Prod.fst else [] := by
  unfold Summary.injectedInto
  rw [h.injected_eq, List.filter_append, List.map_append, List.filter_map, List.map_map]
  congr 1
  split
  · next htu =>
    subst htu
    simp [Function.comp_def]
  · next htu => simp [Function.comp_def, Ne.symm htu]

/-- What the target takes next: a name that is neither declared nor kept. -/
theorem takes_iff (h : Grown placement t p₀ p kept) (hclosed : p₀.arena.Closed)
    (name : String) :
    (p.arena.takesFields t = true ∧ name ∉ p.arena.fieldNames t) ↔
      p₀.arena.takesFields t = true ∧ name ∉ p₀.arena.fieldNames t ∧
        name ∉ kept.map (fun k => k.1.name) := by
  have hnames : name ∈ p.arena.fieldNames t ↔
      name ∈ kept.map (fun k => k.1.name) ∨ name ∈ p₀.arena.fieldNames t := by
    unfold Arena.fieldNames
    rw [h.fields_eq hclosed, List.map_append, List.mem_append, Placement.map_arrange,
      Placement.mem_arrange, keptFields_names]
  have htakes : p.arena.takesFields t = p₀.arena.takesFields t := by
    by_cases ht : t.index < p₀.arena.size
    · exact h.grows.takesFields_eq ht (h.constructors_eq hclosed)
    · -- an unknown node has received nothing, so it is unknown still
      have hnil : kept = [] := by
        by_contra hne
        exact ht (h.known hne)
      have hsize : p.arena.size = p₀.arena.size := by rw [h.size_eq, hnil]; rfl
      have hle : p₀.arena.size ≤ t.index := Nat.le_of_not_lt ht
      rw [Arena.takesFields_eq, Arena.takesFields_eq, Arena.declaration?_eq_none hle,
        Arena.declaration?_eq_none (hsize ▸ hle)]
  rw [htakes, hnames]
  tauto

end Grown

/-- One request of a target is one step of the fold. -/
theorem request_grown (types : TypeResolver) (h : Grown placement t p₀ p kept)
    (hclosed : p₀.arena.Closed) (r : Request) :
    Grown placement t p₀ (request types placement t p kept.length r).1
        (keepRequest types (p₀.arena.takesFields t) (p₀.arena.fieldNames t) kept r) ∧
      (request types placement t p kept.length r).2 =
        (keepRequest types (p₀.arena.takesFields t) (p₀.arena.fieldNames t) kept r).length := by
  rcases request_cases types placement t p kept.length r with
    ⟨hwhy, hskips, hcount⟩ | ⟨ty, htakes, hty, hadds, hcount⟩
  · -- skipped: the fold drops the request for the same reason
    have hkeep : keepRequest types (p₀.arena.takesFields t) (p₀.arena.fieldNames t) kept r =
        kept := by
      unfold keepRequest
      rcases hwhy with hno | ⟨e, he⟩
      · rw [h.takes_iff hclosed] at hno
        cases types.resolveRef r.ty with
        | error e => rfl
        | ok ty => exact if_neg hno
      · rw [he]
    rw [hkeep]
    exact ⟨h.skips hskips, hcount⟩
  · -- added: the fold keeps the request with the same type
    have hkeep : keepRequest types (p₀.arena.takesFields t) (p₀.arena.fieldNames t) kept r =
        kept ++ [(r, ty)] := by
      unfold keepRequest
      rw [hty]
      exact if_pos ((h.takes_iff hclosed r.name).mp htakes)
    rw [hkeep]
    exact ⟨h.adds hadds, by rw [hcount, List.length_append, List.length_singleton]⟩

/-- **The requests of one target.** What they add is the fold of `keepRequest`. -/
theorem requests_grown (types : TypeResolver) (h : Grown placement t p₀ p kept)
    (hclosed : p₀.arena.Closed) (rs : List Request) :
    Grown placement t p₀ (requests types placement t p kept.length rs)
      (rs.foldl (keepRequest types (p₀.arena.takesFields t) (p₀.arena.fieldNames t)) kept) := by
  -- the number of fields added so far is the length of what is kept so far
  induction rs generalizing p kept with
  | nil => exact h
  | cons r rs ih =>
    obtain ⟨hgrown, hcount⟩ := request_grown types h hclosed r
    rw [List.foldl_cons]
    change Grown placement t p₀ (requests types placement t
      (request types placement t p kept.length r).1
      (request types placement t p kept.length r).2 rs) _
    rw [hcount]
    exact ih hgrown

/-! ### The targets of a batch -/

/-- All requests of one target, from any state. -/
theorem target_grown (types : TypeResolver) (placement : Placement) (p : Progress)
    (hclosed : p.arena.Closed) (x : Target) :
    Grown placement x.node p (target types placement p x)
      (keptRequests types (p.arena.takesFields x.node) (p.arena.fieldNames x.node) x.requests) :=
  requests_grown types (.refl placement x.node p) hclosed x.requests

/-- The two states agree about the type `t`, about all old nodes and about what `t` received. -/
structure SameAt (t : NodeId) (p p' : Progress) : Prop where
  size_le : p.arena.size ≤ p'.arena.size
  closed : p'.arena.Closed
  fields_eq : p'.arena.fields t = p.arena.fields t
  takes_eq : p'.arena.takesFields t = p.arena.takesFields t
  field_eq : ∀ i : NodeId, i.index < p.arena.size → p'.arena.field? i = p.arena.field? i
  injected_eq : p'.summary.injectedInto t = p.summary.injectedInto t

theorem SameAt.trans {p₁ p₂ p₃ : Progress} (h₁ : SameAt t p₁ p₂) (h₂ : SameAt t p₂ p₃) :
    SameAt t p₁ p₃ where
  size_le := Nat.le_trans h₁.size_le h₂.size_le
  closed := h₂.closed
  fields_eq := h₂.fields_eq.trans h₁.fields_eq
  takes_eq := h₂.takes_eq.trans h₁.takes_eq
  field_eq := fun i hi =>
    (h₂.field_eq i (Nat.lt_of_lt_of_le hi h₁.size_le)).trans (h₁.field_eq i hi)
  injected_eq := h₂.injected_eq.trans h₁.injected_eq

/-- A target does not change another type. -/
theorem Grown.sameAt (h : Grown placement u p p' kept) (hclosed : p.arena.Closed)
    (ht : t.index < p.arena.size) (htu : t ≠ u) : SameAt t p p' where
  size_le := h.grows.size_le
  closed := h.grows.closed hclosed
  fields_eq := h.grows.fields_eq hclosed ht htu
  takes_eq := by
    refine h.grows.takesFields_eq ht ?_
    unfold Arena.constructors
    rw [h.grows.memberList_eq ht htu]
    refine List.filterMap_congr fun m hm => ?_
    rw [(h.grows.leaf_of_lt (hclosed t m hm)).2]
  field_eq := fun i hi => (h.grows.leaf_of_lt hi).1
  injected_eq := by
    rw [h.injectedInto_eq, if_neg htu, List.append_nil]

/-- Targets other than `t`, one after the other. -/
theorem foldl_target_sameAt (types : TypeResolver) (placement : Placement) (batch : List Target)
    (p : Progress) (hclosed : p.arena.Closed) (ht : t.index < p.arena.size)
    (hbatch : ∀ x ∈ batch, x.node ≠ t) :
    SameAt t p (batch.foldl (target types placement) p) := by
  induction batch generalizing p with
  | nil => exact ⟨Nat.le_refl _, hclosed, rfl, rfl, fun _ _ => rfl, rfl⟩
  | cons x batch ih =>
    have hstep : SameAt t p (target types placement p x) :=
      (target_grown types placement p hclosed x).sameAt hclosed ht
        (hbatch x List.mem_cons_self).symm
    refine hstep.trans ?_
    exact ih _ hstep.closed (Nat.lt_of_lt_of_le ht hstep.size_le)
      fun y hy => hbatch y (List.mem_cons_of_mem _ hy)

/-- **What a type received** between two states: the fields of `kept`, which stand in front of its
old ones and are the latest in the list of additions. -/
structure ReceivedAt (placement : Placement) (t : NodeId) (start : Nat) (p p' : Progress)
    (kept : List (Request × TypeName)) : Prop where
  start_le : p.arena.size ≤ start
  fields_eq : p'.arena.fields t = placement.arrange (keptFields start kept) ++ p.arena.fields t
  injected_eq : p'.summary.injectedInto t =
    p.summary.injectedInto t ++ (keptFields start kept).map Prod.fst
  field_eq : ∀ x ∈ keptFields start kept, p'.arena.field? x.1 = some x.2

theorem SameAt.receivedAt (h : SameAt t p p') (placement : Placement) :
    ReceivedAt placement t p.arena.size p p' [] where
  start_le := Nat.le_refl _
  fields_eq := by rw [h.fields_eq]; cases placement <;> rfl
  injected_eq := by rw [h.injected_eq]; simp [keptFields]
  field_eq := fun _ hx => absurd hx List.not_mem_nil

/-- The entry of `t` between entries of other types. -/
theorem Grown.receivedAt {q q' : Progress} (h : Grown placement t p p' kept)
    (hclosed : p.arena.Closed) (hbefore : SameAt t q p) (hafter : SameAt t p' q') :
    ReceivedAt placement t p.arena.size q q' kept where
  start_le := hbefore.size_le
  fields_eq := by rw [hafter.fields_eq, h.fields_eq hclosed, hbefore.fields_eq]
  injected_eq := by
    rw [hafter.injected_eq, h.injectedInto_eq, if_pos rfl, hbefore.injected_eq]
  field_eq := by
    intro x hx
    have hold := h.field_eq x hx
    rw [hafter.field_eq x.1 (Arena.index_lt_of_field? hold), hold]

end Progress

/-- The requests that a batch holds for a type. -/
def requestsFor (t : NodeId) (batch : List Target) : List Request :=
  (batch.filter (fun x => x.node == t)).flatMap Target.requests

theorem requestsFor_eq_nil {t : NodeId} {batch : List Target} (h : ∀ x ∈ batch, x.node ≠ t) :
    requestsFor t batch = [] := by
  have hnone : batch.filter (fun x => x.node == t) = [] := by
    simpa [List.filter_eq_nil_iff] using h
  rw [requestsFor, hnone]
  rfl

theorem requestsFor_append (t : NodeId) (batch batch' : List Target) :
    requestsFor t (batch ++ batch') = requestsFor t batch ++ requestsFor t batch' := by
  simp [requestsFor]

/-- **What a round does to one type.** If no type is named twice in the batch, every known type
receives the fields of the requests that it keeps, whatever the other targets are. -/
theorem Progress.foldl_target_receivedAt (types : TypeResolver) (placement : Placement)
    {batch : List Target} {p : Progress} {t : NodeId} (hclosed : p.arena.Closed)
    (ht : t.index < p.arena.size) (hbatch : (batch.map Target.node).Nodup) :
    ∃ start, ReceivedAt placement t start p (batch.foldl (target types placement) p)
      (keptRequests types (p.arena.takesFields t) (p.arena.fieldNames t)
        (requestsFor t batch)) := by
  by_cases hmem : t ∈ batch.map Target.node
  · -- the batch up to the one entry for `t`, that entry, and the rest
    obtain ⟨x, hx, rfl⟩ := List.mem_map.mp hmem
    obtain ⟨before, after, rfl⟩ := List.append_of_mem hx
    rw [List.map_append, List.map_cons, List.nodup_append, List.nodup_cons] at hbatch
    obtain ⟨-, ⟨hafter, -⟩, hdisjoint⟩ := hbatch
    have hbefore : ∀ y ∈ before, y.node ≠ x.node := fun y hy =>
      hdisjoint _ (List.mem_map_of_mem hy) _ List.mem_cons_self
    have hafter' : ∀ y ∈ after, y.node ≠ x.node := fun y hy heq =>
      hafter (heq ▸ List.mem_map_of_mem hy)
    have hrequests : requestsFor x.node (before ++ x :: after) = x.requests := by
      rw [requestsFor_append, requestsFor_eq_nil hbefore, ← List.singleton_append,
        requestsFor_append, requestsFor_eq_nil hafter']
      simp [requestsFor]
    have hsame := foldl_target_sameAt types placement before p hclosed ht hbefore
    have hgrown := target_grown types placement _ hsame.closed x
    have hlt := Nat.lt_of_lt_of_le ht (Nat.le_trans hsame.size_le hgrown.grows.size_le)
    have hsame' := foldl_target_sameAt types placement after _
      (hgrown.grows.closed hsame.closed) hlt hafter'
    rw [List.foldl_append, List.foldl_cons, hrequests]
    have hreceived := hgrown.receivedAt hsame.closed hsame hsame'
    rw [hsame.takes_eq, Arena.fieldNames, hsame.fields_eq] at hreceived
    exact ⟨_, hreceived⟩
  · -- no entry for `t`: nothing is requested, and nothing is received
    have hbatch' : ∀ x ∈ batch, x.node ≠ t := fun x hx heq =>
      hmem (heq ▸ List.mem_map_of_mem hx)
    rw [requestsFor_eq_nil hbatch']
    exact ⟨_, (foldl_target_sameAt types placement batch p hclosed ht
      hbatch').receivedAt placement⟩

end FieldGraft
