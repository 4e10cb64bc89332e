import FieldGraft.Proofs.RoundNames
import Mathlib.Data.List.Perm.Basic

/-!
# Parents and member lists

An arena says twice who belongs to whom: a member has its type as parent, and the type lists its
members. Nothing in the data keeps the two together; the operations do.

* `Arena.Step` — a step changes the arena as it goes, and if it fails, what it did before stays
  done. The operations are such steps (`Operation.step`): a member is allocated before it is listed.
* `Operation.Answers` — when an operation fails, that it then leaves the arena alone, and what it
  does otherwise. This holds of every operation on every arena (`Operation.step_answers`).
* `Arena.Linked` — parents and member lists agree. Whatever an operation does keeps this
  (`Arena.Linked.of_effect`), so it holds after any operations, the failed ones included
  (`Arena.linked_afterAll`).
-/

namespace FieldGraft

namespace Arena

variable {a b : Arena} {owner id i p t : NodeId} {position : Nat} {d : Declaration}

/-! ### Operations as steps -/

/-- A step on an arena. An error keeps what was done before it. -/
abbrev Step (α : Type) :=
  ExceptT ArenaError (StateM Arena) α

namespace Step

/-- Looks a type up. -/
def typeDecl (id : NodeId) : Step TypeDecl :=
  fun a => (a.typeDecl id, a)

/-- Adds a node. -/
def alloc (d : Declaration) (parent : Option NodeId) : Step NodeId :=
  fun a => (.ok (a.alloc d parent).2, (a.alloc d parent).1)

/-- Enters an id in a member list. -/
def list (owner : NodeId) (position : Nat) (id : NodeId) : Step Unit :=
  fun a => (.ok (), ⟨a.nodes.modify owner.index (withMember · position id)⟩)

/-- Adds a member. Its owner is looked up once more when the member is there. -/
def insertMember (owner : NodeId) (position : Nat) (d : Declaration) : Step NodeId := do
  let _ ← typeDecl owner
  let id ← alloc d (some owner)
  let _ ← typeDecl owner
  list owner position id
  return id

/-- Adds a member at the end. -/
def push (owner : NodeId) (d : Declaration) : Step NodeId := do
  let decl ← typeDecl owner
  insertMember owner decl.members.length d

/-- Records a place. -/
def setLocation (id : NodeId) (location : Location) : Step Unit :=
  fun a =>
    match a.setLocation id location with
    | .ok b => (.ok (), b)
    | .error e => (.error e, a)

end Step

/-- An operation as a step. It answers with the new node, if it makes one. -/
def Operation.step : Operation → Step (Option NodeId)
  | addType name kind => do return some (← Step.alloc (.type { name, kind }) none)
  | insertMember owner position d => do return some (← Step.insertMember owner position d)
  | pushField owner f => do return some (← Step.push owner (.field f))
  | pushConstructor owner k => do return some (← Step.push owner (.constructor k))
  | setLocation id location => do
    Step.setLocation id location
    return none

/-- The arena and the answer that an operation gives, if it succeeds. -/
def Operation.result (a : Arena) : Operation → Except ArenaError (Arena × Option NodeId)
  | addType name kind => .ok ((a.addType name kind).1, some (a.addType name kind).2)
  | insertMember owner position d =>
    (a.insertMember owner position d).map fun r => (r.1, some r.2)
  | pushField owner f => (a.pushField owner f).map fun r => (r.1, some r.2)
  | pushConstructor owner k => (a.pushConstructor owner k).map fun r => (r.1, some r.2)
  | setLocation id location => (a.setLocation id location).map fun b => (b, none)

/-- The arena after some operations, from the empty one on. Those that fail are among them. -/
def afterAll (operations : List Operation) : Arena :=
  operations.foldl (fun a o => (o.step a).2) {}

/-! ### What an operation does -/

/-- The parent of a node. -/
def parent? (a : Arena) (id : NodeId) : Option NodeId :=
  (a.get? id).bind Node.parent

/-- A type was added: the node is new, has neither parent nor members, and no other node changed. -/
structure TypeAdded (a b : Arena) (name : String) (kind : DeclKind) (id : NodeId) : Prop where
  id_eq : id = ⟨a.size⟩
  size_eq : b.size = a.size + 1
  new_eq : b.get? id = some { declaration := .type { name, kind } }
  old_eq : ∀ i, i ≠ id → b.get? i = a.get? i

/-- A member was added. Its owner lists it at the position, or at the end if the list is shorter,
and without it the list is the old one. No other node changed. -/
structure MemberAdded (a b : Arena) (owner : NodeId) (position : Nat) (d : Declaration)
    (id : NodeId) : Prop where
  id_eq : id = ⟨a.size⟩
  size_eq : b.size = a.size + 1
  new_eq : b.get? id = some { declaration := d, parent := some owner }
  listed : (b.memberList owner)[min position (a.memberList owner).length]? = some id
  order_eq : (b.memberList owner).eraseIdx (min position (a.memberList owner).length) =
    a.memberList owner
  owner_eq : ∃ n decl ms, a.get? owner = some n ∧ n.declaration = .type decl ∧
    b.get? owner = some { n with declaration := .type { decl with members := ms } }
  old_eq : ∀ i, i ≠ owner → i ≠ id → b.get? i = a.get? i

/-- A place was recorded, and nothing else changed. -/
structure Located (a b : Arena) (id : NodeId) (location : Location) : Prop where
  size_eq : b.size = a.size
  node_eq : ∃ n, a.get? id = some n ∧ b.get? id = some { n with location := some location }
  old_eq : ∀ i, i ≠ id → b.get? i = a.get? i

/-- A node cannot get members: it is unknown, or it is no type. -/
def RefusesMember (a : Arena) (owner : NodeId) (e : ArenaError) : Prop :=
  (a.size ≤ owner.index ∧ e = .unknownNode owner) ∨
    ∃ n, a.get? owner = some n ∧ (∀ decl, n.declaration ≠ .type decl) ∧ e = .notAType owner

namespace Operation

/-- When an operation fails. -/
def Fails (a : Arena) (e : ArenaError) : Operation → Prop
  | addType _ _ => False
  | insertMember owner _ _ => a.RefusesMember owner e
  | pushField owner _ => a.RefusesMember owner e
  | pushConstructor owner _ => a.RefusesMember owner e
  | setLocation id _ => a.size ≤ id.index ∧ e = .unknownNode id

/-- What an operation that answers does. -/
def Effect (a b : Arena) (answer : Option NodeId) : Operation → Prop
  | addType name kind => ∃ id, answer = some id ∧ a.TypeAdded b name kind id
  | insertMember owner position d => ∃ id, answer = some id ∧ a.MemberAdded b owner position d id
  | pushField owner f =>
    ∃ id, answer = some id ∧ a.MemberAdded b owner (a.memberList owner).length (.field f) id
  | pushConstructor owner k =>
    ∃ id, answer = some id ∧ a.MemberAdded b owner (a.memberList owner).length (.constructor k) id
  | setLocation id location => answer = none ∧ a.Located b id location

/-- **What an operation answers**, and what becomes of the arena. -/
structure Answers (o : Operation) (a : Arena) (r : Except ArenaError (Option NodeId) × Arena) :
    Prop where
  fails_iff : ∀ e, r.1 = .error e ↔ o.Fails a e
  unchanged : ∀ e, r.1 = .error e → r.2 = a
  effect : ∀ answer, r.1 = .ok answer → o.Effect a r.2 answer

theorem Answers.of_error {o : Operation} {e : ArenaError} (h : ∀ e', o.Fails a e' ↔ e = e') :
    o.Answers a (.error e, a) where
  fails_iff := fun e' => by rw [h, Except.error.injEq]
  unchanged := fun _ _ => rfl
  effect := fun _ hok => by cases hok

theorem Answers.of_ok {o : Operation} {answer : Option NodeId} (h : ∀ e, ¬ o.Fails a e)
    (heffect : o.Effect a b answer) : o.Answers a (.ok answer, b) where
  fails_iff := fun e => iff_of_false (fun herror => by cases herror) (h e)
  unchanged := fun _ herror => by cases herror
  effect := fun _ hok => by cases hok; exact heffect

end Operation

/-! ### Steps in order -/

namespace Step

variable {α β : Type} {x : Step α} {f : α → Step β} {v : α} {e : ArenaError}

theorem bind_of_ok (h : x a = (.ok v, b)) : (x >>= f) a = f v b := by
  show (ExceptT.bindCont f (x a).1) (x a).2 = _
  rw [h]
  rfl

theorem bind_of_error (h : x a = (.error e, b)) : (x >>= f) a = (.error e, b) := by
  show (ExceptT.bindCont f (x a).1) (x a).2 = _
  rw [h]
  rfl

theorem bind_congr {y : Step α} (h : x a = y a) : (x >>= f) a = (y >>= f) a := by
  rcases hx : x a with ⟨e | v, b⟩
  · rw [bind_of_error hx, bind_of_error (h ▸ hx)]
  · rw [bind_of_ok hx, bind_of_ok (h ▸ hx)]

theorem typeDecl_of_ok {decl : TypeDecl} (h : a.typeDecl owner = .ok decl) :
    typeDecl owner a = (.ok decl, a) := by
  rw [typeDecl, h]

theorem typeDecl_of_error (h : a.typeDecl owner = .error e) :
    typeDecl owner a = (.error e, a) := by
  rw [typeDecl, h]

/-- A new node does not hide a type. -/
theorem typeDecl_alloc {decl : TypeDecl} (h : a.typeDecl owner = .ok decl) (d : Declaration)
    (parent : Option NodeId) : (a.alloc d parent).1.typeDecl owner = .ok decl := by
  rw [typeDecl_eq_ok_iff] at h ⊢
  have hne : owner ≠ ⟨a.size⟩ := by
    rintro rfl
    exact absurd (index_lt_of_declaration? h) (Nat.lt_irrefl _)
  rw [alloc_declaration?, if_neg hne, h]

/-- The step gives what `Arena.insertMember` gives. The owner that is found before the new node is
there is found again after it, so the step does not stop half-way. -/
theorem insertMember_eq (a : Arena) (owner : NodeId) (position : Nat) (d : Declaration) :
    insertMember owner position d a =
      match a.insertMember owner position d with
      | .ok (b, id) => (.ok id, b)
      | .error e => (.error e, a) := by
  cases hty : a.typeDecl owner with
  | error e =>
    rw [insertMember_of_error hty]
    exact bind_of_error (typeDecl_of_error hty)
  | ok decl =>
    -- the node that was allocated first is not the owner, whose type is found again
    have hagain := typeDecl_alloc hty d (some owner)
    rw [insertMember_of_type hty]
    refine (bind_of_ok (typeDecl_of_ok hty)).trans ?_
    -- the four stages of an insertion, each of which succeeds
    refine (bind_of_ok (v := NodeId.mk a.size) (b := (a.alloc d (some owner)).1) rfl).trans ?_
    refine (bind_of_ok (typeDecl_of_ok hagain)).trans ?_
    exact bind_of_ok rfl

theorem push_eq (a : Arena) (owner : NodeId) (d : Declaration) :
    push owner d a = insertMember owner (a.memberList owner).length d a := by
  cases hty : a.typeDecl owner with
  | error e =>
    have herror : insertMember owner (a.memberList owner).length d a = (.error e, a) :=
      bind_of_error (typeDecl_of_error hty)
    rw [herror]
    exact bind_of_error (typeDecl_of_error hty)
  | ok decl =>
    rw [memberList_of_type (typeDecl_eq_ok_iff.mp hty)]
    exact bind_of_ok (typeDecl_of_ok hty)

end Step

namespace Operation

/-- An answer with the new node. -/
theorem insert_eq (a : Arena) (owner : NodeId) (position : Nat) (d : Declaration) :
    (do return some (← Step.insertMember owner position d) : Step (Option NodeId)) a =
      match (a.insertMember owner position d).map fun r => (r.1, some r.2) with
      | .ok (b, answer) => (.ok answer, b)
      | .error e => (.error e, a) := by
  have hstep := Step.insertMember_eq a owner position d
  cases hinsert : a.insertMember owner position d with
  | error e =>
    rw [hinsert] at hstep
    exact Step.bind_of_error hstep
  | ok r =>
    rw [hinsert] at hstep
    exact Step.bind_of_ok hstep

/-- **A step gives what the functions of the arena give**, and an error leaves the arena alone. -/
theorem step_eq (o : Operation) (a : Arena) :
    o.step a = match o.result a with
      | .ok (b, answer) => (.ok answer, b)
      | .error e => (.error e, a) := by
  cases o with
  | addType name kind => rfl
  | insertMember owner position d => exact insert_eq a owner position d
  -- a field goes behind the members that are there
  | pushField owner f =>
    rw [step, Step.bind_congr (Step.push_eq a owner _), result, pushField_eq]
    exact insert_eq a owner _ _
  | pushConstructor owner k =>
    rw [step, Step.bind_congr (Step.push_eq a owner _), result, pushConstructor_eq]
    exact insert_eq a owner _ _
  | setLocation id location =>
    -- a location is set at a known id and refused at any other
    cases hset : a.setLocation id location with
    | error e =>
      have hstep : Step.setLocation id location a = (.error e, a) := by
        rw [Step.setLocation, hset]
      rw [step, Step.bind_of_error hstep, result, hset]
      rfl
    | ok b =>
      have hstep : Step.setLocation id location a = (.ok (), b) := by
        rw [Step.setLocation, hset]
      rw [step, Step.bind_of_ok hstep, result, hset]
      rfl

end Operation

/-! ### Every operation answers as it should -/

theorem index_lt_of_get? {n : Node} (h : a.get? i = some n) : i.index < a.size :=
  (Array.getElem?_eq_some_iff.mp h).1

theorem typeDecl_eq_error_iff {e : ArenaError} :
    a.typeDecl owner = .error e ↔ a.RefusesMember owner e := by
  unfold typeDecl RefusesMember
  cases hn : a.get? owner with
  | none =>
    -- the lookup fails beyond the end of the nodes
    have hsize : a.size ≤ owner.index := by
      simpa [get?, size] using hn
    simp [hsize, eq_comm]
  | some n =>
    have hsize : ¬ a.size ≤ owner.index := Nat.not_le.mpr (index_lt_of_get? hn)
    obtain ⟨declaration, parent, location⟩ := n
    cases declaration <;> simp [hsize, eq_comm]

theorem not_refuses_of_type {decl : TypeDecl} (h : a.typeDecl owner = .ok decl)
    (e : ArenaError) : ¬ a.RefusesMember owner e := by
  rw [← typeDecl_eq_error_iff, h]
  exact fun herror => by cases herror

theorem refuses_iff_of_error {e e' : ArenaError} (h : a.typeDecl owner = .error e) :
    a.RefusesMember owner e' ↔ e = e' := by
  rw [← typeDecl_eq_error_iff, h, Except.error.injEq]

/-- A position past the end is the end, and the others keep their order. -/
theorem insertAt_listed (ms : List NodeId) (position : Nat) (id : NodeId) :
    (insertAt ms position id)[min position ms.length]? = some id ∧
      (insertAt ms position id).eraseIdx (min position ms.length) = ms := by
  have hlength : (ms.take position).length = min position ms.length := List.length_take
  unfold insertAt
  constructor
  · rw [List.getElem?_append_right (Nat.le_of_eq hlength), hlength, Nat.sub_self]
    rfl
  · rw [List.eraseIdx_append_of_length_le (Nat.le_of_eq hlength), hlength, Nat.sub_self,
      List.eraseIdx_cons_zero, List.take_append_drop]

theorem memberAdded_of_insertMember (h : a.insertMember owner position d = .ok (b, id)) :
    a.MemberAdded b owner position d id := by
  have hins := insertMember_eq_ok h
  have hget := insertMember_get? h
  obtain ⟨decl, hold, -⟩ := hins.owner_eq
  -- the new id is that of no node of before, so it is not the owner
  have hne : id ≠ owner := (hins.ne_of_lt (index_lt_of_declaration? hold)).symm
  obtain ⟨hlisted, horder⟩ := insertAt_listed (a.memberList owner) position id
  refine ⟨hins.id_eq, hins.size_eq, ?_, ?_, ?_, ?_, ?_⟩
  · rw [hget, if_neg hne, if_pos rfl]
  · rw [hins.memberList_owner, hlisted]
  · rw [hins.memberList_owner, horder]
  · -- the owner keeps its parent and its place
    obtain ⟨n, hn, hdecl⟩ := Option.map_eq_some_iff.mp hold
    refine ⟨n, decl, insertAt decl.members position id, hn, hdecl, ?_⟩
    rw [hget, if_pos rfl, hn, Option.map_some, withMember, hdecl]
  · intro i howner hid
    rw [hget, if_neg howner, if_neg hid]

theorem typeAdded_addType (a : Arena) (name : String) (kind : DeclKind) :
    a.TypeAdded (a.addType name kind).1 name kind ⟨a.size⟩ where
  id_eq := rfl
  size_eq := alloc_size a _ _
  new_eq := (alloc_get? a _ _ _).trans (if_pos rfl)
  old_eq := fun i hi => (alloc_get? a _ _ i).trans (if_neg hi)

theorem located_of_setLocation {location : Location} (h : a.setLocation id location = .ok b) :
    a.Located b id location := by
  have hsize := setLocation_size h
  unfold setLocation at h
  split at h
  · next hlt =>
    cases h
    refine ⟨hsize, ⟨a.nodes[id.index], Array.getElem?_eq_getElem hlt, ?_⟩, ?_⟩
    · rw [get?, Array.getElem?_modify, if_pos rfl, Array.getElem?_eq_getElem hlt]
      rfl
    · intro i hi
      -- only the node at this index is changed
      have hindex : id.index ≠ i.index := fun heq => hi (congrArg NodeId.mk heq.symm)
      rw [get?, Array.getElem?_modify, if_neg hindex]
      rfl
  · cases h

namespace Operation

/-- Adding a member, wherever it goes. -/
theorem answers_insert {o : Operation}
    (hresult : o.result a = (a.insertMember owner position d).map fun r => (r.1, some r.2))
    (hfails : ∀ e, o.Fails a e ↔ a.RefusesMember owner e)
    (heffect : ∀ b id, a.MemberAdded b owner position d id → o.Effect a b (some id)) :
    o.Answers a (o.step a) := by
  rw [step_eq, hresult]
  -- the owner decides alone whether the insertion succeeds
  cases hty : a.typeDecl owner with
  | error e =>
    rw [insertMember_of_error hty]
    exact .of_error fun e' => (hfails e').trans (refuses_iff_of_error hty)
  | ok decl =>
    obtain ⟨b, hinsert⟩ := exists_insertMember hty position d
    rw [hinsert]
    exact .of_ok (fun e => (hfails e).not.mpr (not_refuses_of_type hty e))
      (heffect b _ (memberAdded_of_insertMember hinsert))

theorem answers_setLocation (id : NodeId) (location : Location) (a : Arena) :
    (setLocation id location).Answers a ((setLocation id location).step a) := by
  rw [step_eq, result]
  cases hset : a.setLocation id location with
  | ok b =>
    have hlocated := located_of_setLocation hset
    refine .of_ok (fun e hfails => ?_) ⟨rfl, hlocated⟩
    obtain ⟨n, hn, -⟩ := hlocated.node_eq
    exact absurd (index_lt_of_get? hn) (Nat.not_lt.mpr hfails.1)
  -- the only error is an id beyond the end
  | error e =>
    unfold Arena.setLocation at hset
    split at hset
    · cases hset
    · next hlt =>
      cases hset
      exact .of_error fun e' => by simp [Fails, Nat.le_of_not_lt hlt, eq_comm]

/-- **Every operation answers as it should**, on any arena. -/
theorem step_answers (o : Operation) (a : Arena) : o.Answers a (o.step a) := by
  cases o with
  | addType name kind =>
    exact .of_ok (fun _ => not_false) ⟨_, rfl, typeAdded_addType a name kind⟩
  | insertMember owner position d =>
    exact answers_insert rfl (fun _ => Iff.rfl) fun b id hadded => ⟨id, rfl, hadded⟩
  | pushField owner f =>
    exact answers_insert (by rw [result, pushField_eq]) (fun _ => Iff.rfl)
      fun b id hadded => ⟨id, rfl, hadded⟩
  | pushConstructor owner k =>
    exact answers_insert (by rw [result, pushConstructor_eq]) (fun _ => Iff.rfl)
      fun b id hadded => ⟨id, rfl, hadded⟩
  | setLocation id location => exact answers_setLocation id location a

end Operation

/-! ### Parents and member lists agree -/

/-- **Parents and member lists agree.** -/
structure Linked (a : Arena) : Prop where
  /-- A node has a parent exactly if the parent lists it. -/
  parent_eq_some_iff : ∀ i p, a.parent? i = some p ↔ i ∈ a.memberList p
  /-- The parent lists it once, and no other type does. -/
  count_eq : ∀ i p, a.parent? i = some p → ∀ t, (a.memberList t).count i = if t = p then 1 else 0
  /-- A parent is a type, and it is older. -/
  parent_type : ∀ i p, a.parent? i = some p → p.index < i.index ∧ ∃ decl, a.typeDecl p = .ok decl
  /-- Without a parent stand only types. -/
  root_type : ∀ i n, a.get? i = some n → n.parent = none → ∃ decl, n.declaration = .type decl

theorem typeDecl_of_get? {n : Node} {decl : TypeDecl} (h : a.get? t = some n)
    (hdecl : n.declaration = .type decl) : a.typeDecl t = .ok decl := by
  rw [typeDecl_eq_ok_iff, declaration?, h, Option.map_some, hdecl]

theorem memberList_congr (h : b.get? t = a.get? t) : b.memberList t = a.memberList t := by
  unfold memberList typeDecl
  rw [h]

theorem parent?_congr (h : b.get? i = a.get? i) : b.parent? i = a.parent? i := by
  unfold parent?
  rw [h]

theorem index_lt_of_parent? (h : a.parent? i = some p) : i.index < a.size := by
  obtain ⟨n, hn, -⟩ := Option.bind_eq_some_iff.mp h
  exact index_lt_of_get? hn

/-- In a linked arena all members have been given out. -/
theorem Linked.closed (h : a.Linked) : a.Closed :=
  fun t m hm => index_lt_of_parent? ((h.parent_eq_some_iff m t).mpr hm)

theorem Linked.not_mem_size (h : a.Linked) (t : NodeId) : (⟨a.size⟩ : NodeId) ∉ a.memberList t :=
  fun hm => absurd (h.closed t _ hm) (Nat.lt_irrefl _)

/-- Old types are types. -/
def KeepsTypes (a b : Arena) : Prop :=
  ∀ t, (∃ decl, a.typeDecl t = .ok decl) → ∃ decl, b.typeDecl t = .ok decl

theorem linked_empty : ({} : Arena).Linked := by
  have hnone : ∀ i, ({} : Arena).get? i = none := fun i => rfl
  have hmembers : ∀ t, ({} : Arena).memberList t = [] := fun t => rfl
  -- there are neither nodes nor members
  refine ⟨fun i p => ?_, fun i p hp => ?_, fun i p hp => ?_, fun i n hn => ?_⟩
  · simp [parent?, hnone, hmembers]
  · cases hp
  · cases hp
  · cases hn

/-- Links stay if parents and lists are the same, old types are types, and so is every new root. -/
theorem Linked.of_same (h : a.Linked) (hparent : ∀ i, b.parent? i = a.parent? i)
    (hmembers : ∀ t, b.memberList t = a.memberList t) (htypes : a.KeepsTypes b)
    (hroots : ∀ i n, b.get? i = some n → n.parent = none → ∃ decl, n.declaration = .type decl) :
    b.Linked where
  parent_eq_some_iff := fun i p => by rw [hparent, hmembers, h.parent_eq_some_iff]
  count_eq := fun i p hp t => by rw [hmembers, h.count_eq i p (hparent i ▸ hp)]
  parent_type := by
    intro i p hp
    obtain ⟨hlt, htype⟩ := h.parent_type i p (hparent i ▸ hp)
    exact ⟨hlt, htypes p htype⟩
  root_type := hroots

theorem TypeAdded.linked {name : String} {kind : DeclKind} (hadded : a.TypeAdded b name kind id)
    (h : a.Linked) : b.Linked := by
  obtain ⟨rfl, -, hnew, hold⟩ := hadded
  -- nothing was stored under the new id before
  have hnone : a.get? ⟨a.size⟩ = none := Array.getElem?_eq_none (Nat.le_refl _)
  refine h.of_same (fun i => ?_) (fun t => ?_) ?_ (fun i n hn hroot => ?_)
  · by_cases hi : i = ⟨a.size⟩
    · rw [hi, parent?, parent?, hnew, hnone]
      rfl
    · exact parent?_congr (hold i hi)
  · by_cases ht : t = ⟨a.size⟩
    · -- the new type has no members, and the id had none before
      rw [ht, memberList, memberList, typeDecl, typeDecl, hnew, hnone]
    · exact memberList_congr (hold t ht)
  · -- the types of before are old nodes, which did not change
    rintro t ⟨decl, hdecl⟩
    have hne : t ≠ ⟨a.size⟩ := by
      rintro rfl
      exact absurd (index_lt_of_declaration? (typeDecl_eq_ok_iff.mp hdecl)) (Nat.lt_irrefl _)
    exact ⟨decl, by rw [typeDecl, hold t hne, ← typeDecl, hdecl]⟩
  · by_cases hi : i = ⟨a.size⟩
    · rw [hi, hnew] at hn
      cases hn
      exact ⟨_, rfl⟩
    · exact h.root_type i n (hold i hi ▸ hn) hroot

theorem Located.linked {location : Location} (hlocated : a.Located b id location) (h : a.Linked) :
    b.Linked := by
  obtain ⟨-, ⟨n, hn, hn'⟩, hold⟩ := hlocated
  -- a location is no part of a declaration
  have hdeclaration : ∀ i, b.declaration? i = a.declaration? i := by
    intro i
    by_cases hi : i = id
    · rw [hi, declaration?, declaration?, hn, hn']
      rfl
    · rw [declaration?, declaration?, hold i hi]
  refine h.of_same (fun i => ?_) (fun t => ?_) ?_ (fun i m hm hroot => ?_)
  · by_cases hi : i = id
    · rw [hi, parent?, parent?, hn, hn']
      rfl
    · exact parent?_congr (hold i hi)
  · rw [memberList_eq, hdeclaration, ← memberList_eq]
  · rintro t ⟨decl, hdecl⟩
    exact ⟨decl, by rw [typeDecl_eq_ok_iff, hdeclaration, ← typeDecl_eq_ok_iff, hdecl]⟩
  · by_cases hi : i = id
    · rw [hi, hn'] at hm
      cases hm
      exact h.root_type id n hn hroot
    · exact h.root_type i m (hold i hi ▸ hm) hroot

/-! ### A new member -/

namespace MemberAdded

variable (h : a.MemberAdded b owner position d id)
include h

theorem parent?_eq (i : NodeId) : b.parent? i = if i = id then some owner else a.parent? i := by
  by_cases hid : i = id
  · rw [if_pos hid, hid, parent?, h.new_eq]
    rfl
  · rw [if_neg hid]
    by_cases howner : i = owner
    · -- the owner has the parent that it had
      obtain ⟨n, decl, ms, hn, -, hn'⟩ := h.owner_eq
      rw [howner, parent?, parent?, hn, hn']
      rfl
    · exact parent?_congr (h.old_eq i howner hid)

/-- The list of the owner is the old one with the new id in it. -/
theorem memberList_perm : (b.memberList owner).Perm (id :: a.memberList owner) := by
  obtain ⟨hlt, hget⟩ := List.getElem?_eq_some_iff.mp h.listed
  have hperm := List.getElem_cons_eraseIdx_perm hlt
  rw [hget, h.order_eq] at hperm
  exact hperm.symm

/-- How often an id is listed: the new one once more by its owner. -/
theorem count_memberList (hd : ∀ decl, d = .type decl → decl.members = []) (t i : NodeId) :
    (b.memberList t).count i =
      (a.memberList t).count i + if t = owner ∧ i = id then 1 else 0 := by
  by_cases ht : t = owner
  · -- the owner has the new id once more than before
    subst ht
    rw [h.memberList_perm.count_eq, List.count_cons]
    by_cases hi : i = id
    · simp [hi]
    · simp [hi, Ne.symm hi]
  · rw [if_neg fun hand => ht hand.1, Nat.add_zero]
    by_cases hid : t = id
    · -- neither the new node nor, before it, nothing at all has members
      have hnone : a.declaration? t = none := by rw [hid, h.id_eq, declaration?_size]
      have hnew : b.declaration? t = some d := by rw [hid, declaration?, h.new_eq]; rfl
      rw [memberList_eq, memberList_eq, hnone, hnew]
      cases d with
      | type decl => exact congrArg (List.count i) (hd decl rfl)
      | field f => rfl
      | constructor k => rfl
    · rw [memberList_congr (h.old_eq t ht hid)]

theorem keepsTypes : a.KeepsTypes b := by
  rintro t ⟨decl, hdecl⟩
  by_cases ht : t = owner
  · obtain ⟨n, decl', ms, -, -, hn'⟩ := h.owner_eq
    exact ⟨_, ht ▸ typeDecl_of_get? hn' rfl⟩
  · have hid : t ≠ id := by
      rw [h.id_eq]
      rintro rfl
      exact absurd (index_lt_of_declaration? (typeDecl_eq_ok_iff.mp hdecl)) (Nat.lt_irrefl _)
    exact ⟨decl, by rw [typeDecl, h.old_eq t ht hid, ← typeDecl, hdecl]⟩

/-- A member without members of its own keeps parents and lists together. -/
theorem linked (hd : ∀ decl, d = .type decl → decl.members = []) (ha : a.Linked) : b.Linked := by
  obtain ⟨n, decl, ms, hn, hdecl, hn'⟩ := h.owner_eq
  -- no list mentioned the new id before
  have hnew : ∀ t, (a.memberList t).count id = 0 := fun t => by
    rw [h.id_eq]
    exact List.count_eq_zero.mpr (ha.not_mem_size t)
  refine ⟨fun i p => ?_, fun i p hp t => ?_, fun i p hp => ?_, fun i m hm hroot => ?_⟩
  · -- the owner lists the new node, and nobody else does
    rw [h.parent?_eq, ← List.count_pos_iff, h.count_memberList hd]
    by_cases hid : i = id
    · rw [if_pos hid, hid, hnew]
      by_cases hp : p = owner
      · simp [hp]
      · simp [hp, Ne.symm hp]
    · rw [if_neg hid, if_neg fun hand => hid hand.2, Nat.add_zero, List.count_pos_iff,
        ha.parent_eq_some_iff]
  · -- it is listed once
    rw [h.parent?_eq] at hp
    rw [h.count_memberList hd]
    by_cases hid : i = id
    · rw [if_pos hid] at hp
      cases hp
      rw [hid, hnew]
      simp
    · rw [if_neg hid] at hp
      rw [if_neg fun hand => hid hand.2, Nat.add_zero, ha.count_eq i p hp]
  · -- its parent was there before it
    rw [h.parent?_eq] at hp
    by_cases hid : i = id
    · rw [if_pos hid] at hp
      cases hp
      rw [hid, h.id_eq]
      exact ⟨index_lt_of_get? hn, _, typeDecl_of_get? hn' rfl⟩
    · rw [if_neg hid] at hp
      obtain ⟨hlt, htype⟩ := ha.parent_type i p hp
      exact ⟨hlt, h.keepsTypes p htype⟩
  · by_cases hid : i = id
    · -- the new node has a parent
      rw [hid, h.new_eq] at hm
      cases hm
      cases hroot
    · by_cases howner : i = owner
      · rw [howner, hn'] at hm
        cases hm
        exact ⟨_, rfl⟩
      · exact ha.root_type i m (h.old_eq i howner hid ▸ hm) hroot

end MemberAdded

/-! ### Any operations -/

/-- A type that an operation inserts comes without members. -/
def Operation.IsBare (o : Operation) : Prop :=
  ∀ owner position decl, o = .insertMember owner position (.type decl) → decl.members = []

/-- **Whatever an operation does keeps parents and lists together.** -/
theorem Linked.of_effect {o : Operation} {answer : Option NodeId} (h : a.Linked) (ho : o.IsBare)
    (heffect : o.Effect a b answer) : b.Linked := by
  cases o with
  | addType name kind =>
    obtain ⟨id, -, hadded⟩ := heffect
    exact hadded.linked h
  | insertMember owner position d =>
    -- a type comes with no members of its own here, since the operation is bare
    obtain ⟨id, -, hadded⟩ := heffect
    exact hadded.linked (fun decl hdecl => ho owner position decl (by rw [hdecl])) h
  | pushField owner f =>
    obtain ⟨id, -, hadded⟩ := heffect
    exact hadded.linked (fun _ => Declaration.noConfusion) h
  | pushConstructor owner k =>
    obtain ⟨id, -, hadded⟩ := heffect
    exact hadded.linked (fun _ => Declaration.noConfusion) h
  | setLocation id location => exact heffect.2.linked h

/-- One operation, whether or not it fails. -/
theorem Linked.step {o : Operation} (h : a.Linked) (ho : o.IsBare) : (o.step a).2.Linked := by
  have hanswers := o.step_answers a
  cases hr : (o.step a).1 with
  | error e =>
    rw [hanswers.unchanged e hr]
    exact h
  | ok answer => exact h.of_effect ho (hanswers.effect answer hr)

/-- **Parents and member lists agree after any operations**, whatever their owners and positions
are, if the types that they insert come without members. And every operation after them fails
exactly if its owner or node is unknown or no type, leaves the arena alone if it fails, and does
what `Operation.Effect` says if it does not. -/
theorem linked_afterAll {operations : List Operation} (hbare : ∀ o ∈ operations, o.IsBare) :
    (afterAll operations).Linked ∧
      ∀ o : Operation, o.Answers (afterAll operations) (o.step (afterAll operations)) ∧
        o.step (afterAll operations) = match o.result (afterAll operations) with
          | .ok (b, answer) => (.ok answer, b)
          | .error e => (.error e, afterAll operations) := by
  refine ⟨?_, fun o => ⟨o.step_answers _, o.step_eq _⟩⟩
  -- the arena that the operations begin with, in general
  suffices h : ∀ a : Arena, a.Linked →
      (operations.foldl (fun a o => (Operation.step o a).2) a).Linked from h {} linked_empty
  induction operations with
  | nil => exact fun a ha => ha
  | cons o rest ih =>
    intro a ha
    exact ih (fun o' ho' => hbare o' (List.mem_cons_of_mem _ ho')) _
      (ha.step (hbare o List.mem_cons_self))

/-- A struct with a field, a struct inside it that has a constructor, and one more member in front.
Two of the operations fail: a field gets no members, and there is no node 9. -/
def nestedOperations : List Operation :=
  [.addType "Car" .record, .pushField ⟨0⟩ carField, .pushField ⟨1⟩ carField,
    .insertMember ⟨0⟩ 18446744073709551615 (.type { name := "Door", kind := .record }),
    .pushConstructor ⟨2⟩ { name := "new", params := 0 },
    .insertMember ⟨9⟩ 0 (.field carField),
    .insertMember ⟨0⟩ 0 (.constructor { name := "new", params := 1 })]

/-- The struct inside has the end of the list, and nothing is left of the two that failed. -/
theorem linked_afterAll_nested :
    (∀ o ∈ nestedOperations, o.IsBare) ∧ (afterAll nestedOperations).Linked ∧
      (afterAll nestedOperations).size = 5 ∧
      (afterAll nestedOperations).memberList ⟨0⟩ = [⟨4⟩, ⟨1⟩, ⟨2⟩] ∧
      ((Operation.pushField ⟨1⟩ carField).step (afterAll nestedOperations)).1 =
        .error (.notAType ⟨1⟩) := by
  -- the one type that is inserted has no members
  have hbare : ∀ o ∈ nestedOperations, o.IsBare := by
    rintro o ho owner position decl rfl
    simp only [nestedOperations, List.mem_cons, reduceCtorEq, Operation.insertMember.injEq,
      Declaration.type.injEq, false_or, List.not_mem_nil, or_false, and_false] at ho
    rw [ho.2.2]
  obtain ⟨hlinked, hanswers⟩ := linked_afterAll hbare
  have hfield : (afterAll nestedOperations).get? ⟨1⟩ =
      some { declaration := .field carField, parent := some ⟨0⟩ } := by decide
  refine ⟨hbare, hlinked, by decide, by decide, ?_⟩
  exact ((hanswers (.pushField ⟨1⟩ carField)).1.fails_iff _).mpr
    (.inr ⟨_, hfield, fun _ => Declaration.noConfusion, rfl⟩)

end Arena

end FieldGraft
