import FieldGraft.Verdict
import Mathlib.Data.List.Basic

/-!
# What the arena declares, and what its operations change

All queries of an arena read one partial function, `Arena.declaration?`, which gives the declaration
of a node without its parent and its place. Each operation is described once by its effect on that
function, and the queries follow:

* `alloc_declaration?` — a new node declares what it was given, and no other declaration changes;
* `setLocation_declaration?` — recording a place changes no declaration;
* `Arena.Inserted` — a new member: its owner's member list has one more entry, the new node declares
  the member, and all else stays. This is what `insertMember` does (`insertMember_eq_ok`, and
  `insertMember_get?` for whole nodes), and it succeeds for every type (`exists_insertMember`).

Queries about members look at nodes by id, so they are stable only if no member list mentions an id
that is still to be given out. This is `Arena.Closed`, kept by all operations.
-/

namespace FieldGraft

namespace Arena

variable {a b : Arena} {id owner t : NodeId} {position : Nat} {d : Declaration}

/-- What a node declares. -/
def declaration? (a : Arena) (id : NodeId) : Option Declaration :=
  (a.get? id).map Node.declaration

/-! ### The queries read declarations -/

theorem typeDecl_eq_ok_iff {decl : TypeDecl} :
    a.typeDecl id = .ok decl ↔ a.declaration? id = some (.type decl) := by
  unfold typeDecl declaration?
  cases hn : a.get? id with
  | none => simp
  | some n => obtain ⟨n, p, l⟩ := n; cases n <;> simp

theorem field?_eq (a : Arena) (id : NodeId) :
    a.field? id = match a.declaration? id with
      | some (.field f) => some f
      | _ => none := by
  unfold field? declaration?
  cases hn : a.get? id with
  | none => simp
  | some n => obtain ⟨n, p, l⟩ := n; cases n <;> simp

theorem constructor?_eq (a : Arena) (id : NodeId) :
    a.constructor? id = match a.declaration? id with
      | some (.constructor c) => some c
      | _ => none := by
  unfold constructor? declaration?
  cases hn : a.get? id with
  | none => simp
  | some n => obtain ⟨n, p, l⟩ := n; cases n <;> simp

theorem memberList_eq (a : Arena) (id : NodeId) :
    a.memberList id = match a.declaration? id with
      | some (.type decl) => decl.members
      | _ => [] := by
  unfold memberList typeDecl declaration?
  cases hn : a.get? id with
  | none => simp
  | some n => obtain ⟨n, p, l⟩ := n; cases n <;> simp

theorem memberList_of_type {decl : TypeDecl} (h : a.declaration? id = some (.type decl)) :
    a.memberList id = decl.members := by
  rw [memberList_eq, h]

/-- A node declares something exactly if its id has been given out. -/
theorem declaration?_isSome_iff : (a.declaration? id).isSome ↔ id.index < a.size := by
  unfold declaration? get? size
  simp

theorem index_lt_of_declaration? (h : a.declaration? id = some d) : id.index < a.size := by
  rw [← declaration?_isSome_iff, h]
  rfl

theorem index_lt_of_field? {f : FieldDecl} (h : a.field? id = some f) : id.index < a.size := by
  rw [field?_eq] at h
  split at h
  · exact index_lt_of_declaration? ‹_›
  · cases h

theorem declaration?_eq_none (h : a.size ≤ id.index) : a.declaration? id = none := by
  rw [← Option.not_isSome_iff_eq_none, declaration?_isSome_iff]
  omega

/-- Two arenas with the same declarations answer alike about fields and members. -/
theorem fields_congr (h : ∀ i, b.declaration? i = a.declaration? i) (t : NodeId) :
    b.fields t = a.fields t := by
  have hf : b.field? = a.field? := funext fun i => by rw [field?_eq, field?_eq, h]
  unfold fields
  rw [memberList_eq, h, ← memberList_eq, hf]

/-! ### Member lists within bounds -/

/-- Every member has been given out. -/
def Closed (a : Arena) : Prop :=
  ∀ t, ∀ m ∈ a.memberList t, m.index < a.size

theorem closed_empty : ({} : Arena).Closed := by
  intro t m hm
  have hnone : ({} : Arena).declaration? t = none := declaration?_eq_none (Nat.zero_le _)
  rw [memberList_eq, hnone] at hm
  cases hm

/-! ### New nodes -/

theorem alloc_id (a : Arena) (d : Declaration) (p : Option NodeId) :
    (a.alloc d p).2 = ⟨a.size⟩ := rfl

theorem alloc_size (a : Arena) (d : Declaration) (p : Option NodeId) :
    (a.alloc d p).1.size = a.size + 1 := by
  simp [alloc, size]

theorem alloc_get? (a : Arena) (d : Declaration) (p : Option NodeId) (i : NodeId) :
    (a.alloc d p).1.get? i =
      if i = ⟨a.size⟩ then some { declaration := d, parent := p } else a.get? i := by
  obtain ⟨i⟩ := i
  by_cases hi : i = a.nodes.size <;>
    simp [alloc, get?, size, Array.getElem?_push, hi]

theorem alloc_declaration? (a : Arena) (d : Declaration) (p : Option NodeId) (i : NodeId) :
    (a.alloc d p).1.declaration? i = if i = ⟨a.size⟩ then some d else a.declaration? i := by
  unfold declaration?
  rw [alloc_get?]
  split <;> rfl

/-- The next id is not given out. -/
theorem declaration?_size (a : Arena) : a.declaration? ⟨a.size⟩ = none :=
  declaration?_eq_none (Nat.le_refl _)

theorem addType_declaration? (a : Arena) (name : String) (kind : DeclKind) (i : NodeId) :
    (a.addType name kind).1.declaration? i =
      if i = ⟨a.size⟩ then some (.type { name, kind }) else a.declaration? i :=
  alloc_declaration? a _ none i

/-- A new type has no members, as the id had none before. -/
theorem addType_memberList (a : Arena) (name : String) (kind : DeclKind) (t : NodeId) :
    (a.addType name kind).1.memberList t = a.memberList t := by
  rw [memberList_eq, memberList_eq, addType_declaration?]
  by_cases ht : t = ⟨a.size⟩
  · rw [if_pos ht, ht, declaration?_size]
  · rw [if_neg ht]

/-! ### Places -/

theorem setLocation_size {loc : Location} (h : a.setLocation id loc = .ok b) :
    b.size = a.size := by
  unfold setLocation at h
  split at h
  · cases h
    simp [size]
  · cases h

theorem setLocation_declaration? {loc : Location} (h : a.setLocation id loc = .ok b)
    (i : NodeId) : b.declaration? i = a.declaration? i := by
  unfold setLocation at h
  split at h
  · cases h
    unfold declaration? get?
    rw [Array.getElem?_modify]
    split
    · cases a.nodes[i.index]? <;> rfl
    · rfl
  · cases h

/-! ### New members -/

/-- **A member was inserted.** The arena `b` is `a` with a new node `id`, which declares `d` and
stands at `position` in the member list of `owner`; every other declaration is as before. -/
structure Inserted (a b : Arena) (owner : NodeId) (position : Nat) (d : Declaration)
    (id : NodeId) : Prop where
  id_eq : id = ⟨a.size⟩
  size_eq : b.size = a.size + 1
  owner_eq : ∃ decl, a.declaration? owner = some (.type decl) ∧
    b.declaration? owner =
      some (.type { decl with members := insertAt decl.members position id })
  new_eq : b.declaration? id = some d
  other_eq : ∀ i, i ≠ owner → i ≠ id → b.declaration? i = a.declaration? i

/-- What `insertMember` gives for a type. -/
theorem insertMember_of_type {decl : TypeDecl} (h : a.typeDecl owner = .ok decl)
    (position : Nat) (d : Declaration) :
    a.insertMember owner position d =
      .ok (⟨(a.alloc d (some owner)).1.nodes.modify owner.index
        (withMember · position ⟨a.size⟩)⟩, ⟨a.size⟩) := by
  simp [insertMember, h, alloc_id]

theorem insertMember_of_error {e : ArenaError} (h : a.typeDecl owner = .error e) (position : Nat)
    (d : Declaration) : a.insertMember owner position d = .error e := by
  simp only [insertMember, h]
  rfl

/-- Only types get members. -/
theorem exists_typeDecl_of_insertMember (h : a.insertMember owner position d = .ok (b, id)) :
    ∃ decl, a.typeDecl owner = .ok decl := by
  cases hty : a.typeDecl owner with
  | ok decl => exact ⟨decl, rfl⟩
  | error e =>
    rw [insertMember_of_error hty] at h
    cases h

theorem exists_insertMember {decl : TypeDecl} (h : a.typeDecl owner = .ok decl) (position : Nat)
    (d : Declaration) : ∃ b, a.insertMember owner position d = .ok (b, ⟨a.size⟩) :=
  ⟨_, insertMember_of_type h position d⟩

/-- **Nodes after an insertion.** The owner has one more member, the new node is there with its
parent and without a place, and every other node is as before. -/
theorem insertMember_get? (h : a.insertMember owner position d = .ok (b, id)) (i : NodeId) :
    b.get? i =
      if i = owner then (a.get? i).map (withMember · position id)
      else if i = id then some { declaration := d, parent := some owner }
      else a.get? i := by
  obtain ⟨decl, hty⟩ := exists_typeDecl_of_insertMember h
  have hne : owner ≠ ⟨a.size⟩ := by
    rintro rfl
    have hlt := index_lt_of_declaration? (typeDecl_eq_ok_iff.mp hty)
    exact absurd hlt (Nat.lt_irrefl _)
  -- ids are equal when their indices are
  have hindex : owner.index = i.index ↔ i = owner := by
    obtain ⟨i⟩ := i
    obtain ⟨o⟩ := owner
    simp [eq_comm]
  rw [insertMember_of_type hty] at h
  cases h
  -- the arena that has the new node, with one node modified
  have hmodify : get? ⟨(a.alloc d (some owner)).1.nodes.modify owner.index
        (withMember · position ⟨a.size⟩)⟩ i =
      if i = owner then ((a.alloc d (some owner)).1.get? i).map (withMember · position ⟨a.size⟩)
      else (a.alloc d (some owner)).1.get? i := by
    simp only [get?, Array.getElem?_modify, hindex]
  refine hmodify.trans ?_
  rw [alloc_get?]
  split
  · -- the owner is an old node, so the new one does not hide it
    next hi => rw [if_neg (hi ▸ hne)]
  · rfl

/-- **`insertMember` inserts a member.** Nothing else can come out of it. -/
theorem insertMember_eq_ok {d : Declaration} (h : a.insertMember owner position d = .ok (b, id)) :
    a.Inserted b owner position d id := by
  have hget := insertMember_get? h
  obtain ⟨decl, hty⟩ := exists_typeDecl_of_insertMember h
  have hdecl := typeDecl_eq_ok_iff.mp hty
  rw [insertMember_of_type hty] at h
  cases h
  -- the new id is past the end, and the owner was there before
  have hne : (⟨a.size⟩ : NodeId) ≠ owner := by
    rintro rfl
    exact absurd (index_lt_of_declaration? hdecl) (Nat.lt_irrefl _)
  refine ⟨rfl, by simp [size, alloc], ⟨decl, hdecl, ?_⟩, ?_, ?_⟩
  · unfold declaration? at hdecl ⊢
    obtain ⟨n, hn, hn'⟩ := Option.map_eq_some_iff.mp hdecl
    rw [hget, if_pos rfl, hn, Option.map_some, Option.map_some, withMember, hn']
  · unfold declaration?
    rw [hget, if_neg hne, if_pos rfl]
    rfl
  · intro i hio hid
    unfold declaration?
    rw [hget, if_neg hio, if_neg hid]

/-- Adding at the end is inserting after the last member. -/
theorem pushField_of_type {decl : TypeDecl} {f : FieldDecl} (h : a.typeDecl owner = .ok decl) :
    a.pushField owner f = a.insertMember owner decl.members.length (.field f) := by
  simp [pushField, members, h]
  rfl

theorem pushConstructor_of_type {decl : TypeDecl} {k : ConstructorDecl}
    (h : a.typeDecl owner = .ok decl) :
    a.pushConstructor owner k = a.insertMember owner decl.members.length (.constructor k) := by
  simp [pushConstructor, members, h]
  rfl

theorem pushField_eq (a : Arena) (owner : NodeId) (f : FieldDecl) :
    a.pushField owner f = a.insertMember owner (a.memberList owner).length (.field f) := by
  cases hty : a.typeDecl owner with
  | error e =>
    rw [insertMember_of_error hty]
    simp only [pushField, members, hty]
    rfl
  | ok decl => rw [pushField_of_type hty, memberList_of_type (typeDecl_eq_ok_iff.mp hty)]

theorem pushConstructor_eq (a : Arena) (owner : NodeId) (k : ConstructorDecl) :
    a.pushConstructor owner k =
      a.insertMember owner (a.memberList owner).length (.constructor k) := by
  cases hty : a.typeDecl owner with
  | error e =>
    rw [insertMember_of_error hty]
    simp only [pushConstructor, members, hty]
    rfl
  | ok decl => rw [pushConstructor_of_type hty, memberList_of_type (typeDecl_eq_ok_iff.mp hty)]

/-- What is added at the end is inserted somewhere. -/
theorem exists_inserted_of_push {d : Declaration}
    (h : (do let ms ← a.members owner
             a.insertMember owner ms.length d) = Except.ok (b, id)) :
    ∃ position, a.Inserted b owner position d id := by
  cases hms : a.members owner with
  | error e =>
    rw [hms] at h
    cases h
  | ok ms =>
    rw [hms] at h
    exact ⟨ms.length, insertMember_eq_ok h⟩

/-! ### Queries after an insertion

Fields and constructors have no members of their own, so inserting one changes a single member list.
-/

namespace Inserted

theorem ne_of_lt (h : a.Inserted b owner position d id) {i : NodeId} (hi : i.index < a.size) :
    i ≠ id := by
  rw [h.id_eq]
  rintro rfl
  exact absurd hi (Nat.lt_irrefl _)

theorem memberList_owner (h : a.Inserted b owner position d id) :
    b.memberList owner = insertAt (a.memberList owner) position id := by
  obtain ⟨decl, hold, hnew⟩ := h.owner_eq
  rw [memberList_of_type hold, memberList_of_type hnew]

theorem memberList_of_ne (h : a.Inserted b owner position d id) (hd : ∀ decl, d ≠ .type decl)
    (ht : t ≠ owner) : b.memberList t = a.memberList t := by
  by_cases hid : t = id
  · -- neither the new node nor, before it, nothing at all has members
    have hnone : a.declaration? t = none := by
      rw [hid, h.id_eq, declaration?_size]
    rw [memberList_eq, memberList_eq, hnone, hid, h.new_eq]
    cases d with
    | type decl => exact absurd rfl (hd decl)
    | field f => rfl
    | constructor k => rfl
  · rw [memberList_eq, memberList_eq, h.other_eq t ht hid]

/-- The new id is in bounds, and so are the old ones. A new type may have members of its own, if
they are in bounds. -/
theorem closed (h : a.Inserted b owner position d id)
    (hd : ∀ decl, d = .type decl → ∀ m ∈ decl.members, m.index < a.size) (ha : a.Closed) :
    b.Closed := by
  intro t m hm
  rw [h.size_eq]
  by_cases ht : t = owner
  · subst ht
    rw [h.memberList_owner, insertAt, List.mem_append, List.mem_cons] at hm
    -- before the new member, the new member, behind it
    rcases hm with hm | rfl | hm
    · exact Nat.lt_succ_of_lt (ha t m (List.mem_of_mem_take hm))
    · rw [h.id_eq]
      exact Nat.lt_succ_self _
    · exact Nat.lt_succ_of_lt (ha t m (List.mem_of_mem_drop hm))
  · by_cases hid : t = id
    · -- the new node has the members that it came with, if it is a type
      rw [memberList_eq, hid, h.new_eq] at hm
      cases d with
      | type decl => exact Nat.lt_succ_of_lt (hd decl rfl m hm)
      | field f => exact absurd hm List.not_mem_nil
      | constructor k => exact absurd hm List.not_mem_nil
    · rw [memberList_eq, h.other_eq t ht hid, ← memberList_eq] at hm
      exact Nat.lt_succ_of_lt (ha t m hm)

/-- Old nodes are the fields and constructors that they were; the owner is neither. -/
theorem leaf_of_lt (h : a.Inserted b owner position d id) {i : NodeId} (hi : i.index < a.size) :
    b.field? i = a.field? i ∧ b.constructor? i = a.constructor? i := by
  rw [field?_eq, field?_eq, constructor?_eq, constructor?_eq]
  by_cases hio : i = owner
  · -- a type before, with other members after
    obtain ⟨decl, hold, hnew⟩ := h.owner_eq
    rw [hio, hold, hnew]
    exact ⟨rfl, rfl⟩
  · rw [h.other_eq i hio (h.ne_of_lt hi)]
    exact ⟨rfl, rfl⟩

theorem fields_of_ne (h : a.Inserted b owner position d id) (hd : ∀ decl, d ≠ .type decl)
    (ha : a.Closed) (ht : t ≠ owner) : b.fields t = a.fields t := by
  unfold fields
  rw [h.memberList_of_ne hd ht]
  refine List.filterMap_congr fun m hm => ?_
  rw [(h.leaf_of_lt (ha t m hm)).1]

/-- A list of old ids with the new one in it, read by a query that does not know the new one. -/
private theorem filterMap_insertAt {α : Type} {g g' : NodeId → Option α} {ms : List NodeId}
    (hnew : g' id = none) (hold : ∀ m ∈ ms, g' m = g m) :
    (insertAt ms position id).filterMap g' = ms.filterMap g := by
  -- the old ids stand in front of the new one and behind it
  have htake : (ms.take position).filterMap g' = (ms.take position).filterMap g :=
    List.filterMap_congr fun m hm => hold m (List.mem_of_mem_take hm)
  have hdrop : (ms.drop position).filterMap g' = (ms.drop position).filterMap g :=
    List.filterMap_congr fun m hm => hold m (List.mem_of_mem_drop hm)
  rw [insertAt, List.filterMap_append, List.filterMap_cons_none hnew, htake, hdrop,
    ← List.filterMap_append, List.take_append_drop]

/-- A new field is no constructor, nor was the id one before. -/
theorem constructor?_eq {f : FieldDecl} (h : a.Inserted b owner position (.field f) id)
    (i : NodeId) : b.constructor? i = a.constructor? i := by
  by_cases hid : i = id
  · rw [Arena.constructor?_eq, Arena.constructor?_eq, hid, h.new_eq, h.id_eq, declaration?_size]
  · by_cases hio : i = owner
    · obtain ⟨decl, hold, hnew⟩ := h.owner_eq
      rw [Arena.constructor?_eq, Arena.constructor?_eq, hio, hold, hnew]
    · rw [Arena.constructor?_eq, Arena.constructor?_eq, h.other_eq i hio hid]

theorem constructors_eq {f : FieldDecl} (h : a.Inserted b owner position (.field f) id)
    (t : NodeId) : b.constructors t = a.constructors t := by
  unfold constructors
  simp only [h.constructor?_eq]
  by_cases ht : t = owner
  · subst ht
    have hnew : a.constructor? id = none := by
      rw [Arena.constructor?_eq, h.id_eq, declaration?_size]
    rw [h.memberList_owner]
    exact filterMap_insertAt (by rw [hnew]; rfl) fun _ _ => rfl
  · rw [h.memberList_of_ne (fun _ => Declaration.noConfusion) ht]

/-- A new constructor is no field of any type. -/
theorem fields_eq {k : ConstructorDecl} (h : a.Inserted b owner position (.constructor k) id)
    (ha : a.Closed) (t : NodeId) : b.fields t = a.fields t := by
  by_cases ht : t = owner
  · subst ht
    unfold fields
    rw [h.memberList_owner]
    refine filterMap_insertAt ?_ fun m hm => ?_
    · rw [field?_eq, h.new_eq]
      rfl
    · rw [(h.leaf_of_lt (ha t m hm)).1]
  · exact h.fields_of_ne (fun _ => Declaration.noConfusion) ha ht

/-- A field inserted at the end is the last one. -/
theorem fields_push {f : FieldDecl} (h : a.Inserted b owner position (.field f) id)
    (ha : a.Closed) (hposition : position = (a.memberList owner).length) :
    b.fields owner = a.fields owner ++ [(id, f)] := by
  have hnew : b.field? id = some f := by rw [field?_eq, h.new_eq]
  unfold fields
  rw [h.memberList_owner, hposition, insertAt, List.take_length, List.drop_length,
    List.filterMap_append, List.filterMap_cons, hnew]
  congr 1
  refine List.filterMap_congr fun m hm => ?_
  rw [(h.leaf_of_lt (ha owner m hm)).1]

/-- A type keeps its name and its kind. -/
theorem typeDecl_of_lt (h : a.Inserted b owner position d id) {decl : TypeDecl}
    (ht : a.typeDecl t = .ok decl) :
    ∃ ms, b.typeDecl t = .ok { decl with members := ms } := by
  rw [typeDecl_eq_ok_iff] at ht
  by_cases hto : t = owner
  · obtain ⟨decl', hold, hnew⟩ := h.owner_eq
    rw [hto, hold] at ht
    cases ht
    exact ⟨_, typeDecl_eq_ok_iff.mpr (hto ▸ hnew)⟩
  · have hlt := index_lt_of_declaration? ht
    refine ⟨decl.members, typeDecl_eq_ok_iff.mpr ?_⟩
    rw [h.other_eq t hto (h.ne_of_lt hlt), ht]

end Inserted

end Arena

end FieldGraft
