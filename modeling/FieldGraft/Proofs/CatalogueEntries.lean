import FieldGraft.Catalogue
import FieldGraft.Proofs.RoundSteps
import Mathlib.Data.List.Forall2

/-!
# The structs of a catalogue

The structs of an item list, at file level and in inline modules at any depth, are listed by
`Item.structDeclsList` in the order of their items. A catalogue enters them in the same order, so
the two lists run in parallel: `Catalogue.ofItems_entered`.

What is known about an entered struct (`Catalogue.Entered`) is its kind, its fields under
consecutive ids with their positions, and its requests. The rest of the items adds types,
constructors, fields of other types and requests for them; none of this touches the struct.
`Catalogue.Extends n` is that statement for all nodes below `n`, so each function of the catalogue
needs one lemma: what it keeps.
-/

namespace FieldGraft

/-! ### The structs of an item list -/

/-- A struct at file level or in an inline module. -/
structure StructDecl where
  /-- The names of the modules around it, the outermost first. -/
  scope : List String
  attrs : List Attribute
  name : Word
  body : StructBody

namespace StructDecl

/-- The path of the struct from file level. -/
def path (d : StructDecl) : List String :=
  d.scope ++ [d.name.text]

/-- The well-formed requests on the struct, in the order of their attributes and entries. -/
def requests (d : StructDecl) : List Request :=
  (readRequests d.attrs).filterMap Except.toOption

/-- The names of the declared fields. -/
def fieldNames (d : StructDecl) : List String :=
  d.body.fields.map (fun f => f.name.text)

end StructDecl

mutual

/-- The structs of an item in the scope with the given path. -/
def Item.structDecls (scope : List String) : Item → List StructDecl
  | .struct attrs _ name _ body => [⟨scope, attrs, name, body⟩]
  | .module _ _ name _ items => Item.structDeclsList (scope ++ [name.text]) items
  | .nominal _ _ _ _ _ => []
  | .use _ _ _ _ => []
  | .impl _ _ _ _ _ _ _ => []
  | .other _ _ => []

/-- The structs of the items of a scope. -/
def Item.structDeclsList (scope : List String) : List Item → List StructDecl
  | [] => []
  | i :: is => i.structDecls scope ++ Item.structDeclsList scope is

end

namespace Catalogue

variable {c c' c'' : Catalogue} {n m : Nat} {id owner t : NodeId}

/-! ### What is kept -/

/-- Ids are in bounds, and the batch names no type twice. -/
structure WellFormed (c : Catalogue) : Prop where
  closed : c.arena.Closed
  batch_lt : ∀ x ∈ c.batch, x.node.index < c.arena.size
  batch_nodup : (c.batch.map Target.node).Nodup
  slots_lt : ∀ x ∈ c.slots, x.1.index < c.arena.size

theorem wellFormed_empty : ({} : Catalogue).WellFormed where
  closed := Arena.closed_empty
  batch_lt := fun _ h => absurd h List.not_mem_nil
  batch_nodup := List.nodup_nil
  slots_lt := fun _ h => absurd h List.not_mem_nil

/-- **Everything about nodes below `n` is kept**: fields, name and kind, requests and positions. -/
structure Extends (n : Nat) (c c' : Catalogue) : Prop where
  wellFormed : c'.WellFormed
  size_le : c.arena.size ≤ c'.arena.size
  fields_eq : ∀ t : NodeId, t.index < n → c'.arena.fields t = c.arena.fields t
  type_eq : ∀ (t : NodeId) decl, t.index < n → c.arena.typeDecl t = .ok decl →
    ∃ ms, c'.arena.typeDecl t = .ok { decl with members := ms }
  requests_eq : ∀ t : NodeId, t.index < n → requestsFor t c'.batch = requestsFor t c.batch
  slot_eq : ∀ i : NodeId, i.index < n → c'.slots.lookup i = c.slots.lookup i

namespace Extends

theorem refl (hc : c.WellFormed) (n : Nat) : Extends n c c where
  wellFormed := hc
  size_le := Nat.le_refl _
  fields_eq := fun _ _ => rfl
  type_eq := fun _ decl _ h => ⟨decl.members, h⟩
  requests_eq := fun _ _ => rfl
  slot_eq := fun _ _ => rfl

theorem trans (h₁ : Extends n c c') (h₂ : Extends n c' c'') : Extends n c c'' where
  wellFormed := h₂.wellFormed
  size_le := Nat.le_trans h₁.size_le h₂.size_le
  fields_eq := fun t ht => (h₂.fields_eq t ht).trans (h₁.fields_eq t ht)
  type_eq := by
    intro t decl ht h
    obtain ⟨ms, h'⟩ := h₁.type_eq t decl ht h
    obtain ⟨ms', h''⟩ := h₂.type_eq t _ ht h'
    exact ⟨ms', h''⟩
  requests_eq := fun t ht => (h₂.requests_eq t ht).trans (h₁.requests_eq t ht)
  slot_eq := fun i hi => (h₂.slot_eq i hi).trans (h₁.slot_eq i hi)

theorem mono (h : Extends m c c') (hnm : n ≤ m) : Extends n c c' where
  wellFormed := h.wellFormed
  size_le := h.size_le
  fields_eq := fun t ht => h.fields_eq t (Nat.lt_of_lt_of_le ht hnm)
  type_eq := fun t decl ht => h.type_eq t decl (Nat.lt_of_lt_of_le ht hnm)
  requests_eq := fun t ht => h.requests_eq t (Nat.lt_of_lt_of_le ht hnm)
  slot_eq := fun i hi => h.slot_eq i (Nat.lt_of_lt_of_le hi hnm)

end Extends

/-! ### Places and constructors -/

@[simp] theorem place_batch (c : Catalogue) (id : NodeId) (pos : Position) :
    (c.place id pos).batch = c.batch := by
  unfold place
  split <;> rfl

@[simp] theorem place_slots (c : Catalogue) (id : NodeId) (pos : Position) :
    (c.place id pos).slots = c.slots := by
  unfold place
  split <;> rfl

@[simp] theorem place_structs (c : Catalogue) (id : NodeId) (pos : Position) :
    (c.place id pos).structs = c.structs := by
  unfold place
  split <;> rfl

@[simp] theorem place_size (c : Catalogue) (id : NodeId) (pos : Position) :
    (c.place id pos).arena.size = c.arena.size := by
  unfold place
  split
  · exact Arena.setLocation_size ‹_›
  · rfl

/-- A place is no part of a declaration. -/
@[simp] theorem place_declaration? (c : Catalogue) (id : NodeId) (pos : Position) (i : NodeId) :
    (c.place id pos).arena.declaration? i = c.arena.declaration? i := by
  unfold place
  split
  · exact Arena.setLocation_declaration? ‹_› i
  · rfl

theorem WellFormed.place (hc : c.WellFormed) (id : NodeId) (pos : Position) :
    (c.place id pos).WellFormed where
  closed := by
    intro t m hm
    rw [Arena.memberList_eq, place_declaration?, ← Arena.memberList_eq] at hm
    rw [place_size]
    exact hc.closed t m hm
  batch_lt := by
    rw [place_batch, place_size]
    exact hc.batch_lt
  batch_nodup := by
    rw [place_batch]
    exact hc.batch_nodup
  slots_lt := by
    rw [place_slots, place_size]
    exact hc.slots_lt

theorem place_extends (hc : c.WellFormed) (id : NodeId) (pos : Position) (n : Nat) :
    Extends n c (c.place id pos) where
  wellFormed := hc.place id pos
  size_le := Nat.le_of_eq (place_size c id pos).symm
  fields_eq := fun t _ => Arena.fields_congr (place_declaration? c id pos) t
  type_eq := by
    intro t decl _ h
    rw [Arena.typeDecl_eq_ok_iff] at h
    refine ⟨decl.members, ?_⟩
    rw [Arena.typeDecl_eq_ok_iff, place_declaration?, h]
  requests_eq := fun t _ => by rw [place_batch]
  slot_eq := fun i _ => by rw [place_slots]

/-- A new member that is a constructor, or a field of a type from `n` on, keeps what is below
`n`. -/
theorem extends_of_inserted {arena : Arena} {position : Nat} {d : Declaration}
    (hc : c.WellFormed) (h : c.arena.Inserted arena owner position d id)
    (hd : (∃ k, d = .constructor k) ∨ ((∃ f, d = .field f) ∧ n ≤ owner.index)) :
    Extends n c { c with arena } := by
  -- what is added has no members, so no list of them is new
  have hleaf : ∀ decl, d ≠ .type decl := by
    rintro decl rfl
    rcases hd with ⟨k, hk⟩ | ⟨⟨f, hf⟩, -⟩
    · cases hk
    · cases hf
  have hclosed := h.closed (fun decl heq => absurd heq (hleaf decl)) hc.closed
  refine ⟨⟨hclosed, ?_, hc.batch_nodup, ?_⟩, ?_, ?_, ?_, ?_, ?_⟩
  · intro x hx
    rw [h.size_eq]
    exact Nat.lt_succ_of_lt (hc.batch_lt x hx)
  · intro x hx
    rw [h.size_eq]
    exact Nat.lt_succ_of_lt (hc.slots_lt x hx)
  · rw [h.size_eq]
    exact Nat.le_succ _
  · intro t ht
    rcases hd with ⟨k, rfl⟩ | ⟨-, howner⟩
    · exact h.fields_eq hc.closed t
    · -- the owner is not below `n`, so it is not `t`
      refine h.fields_of_ne hleaf hc.closed ?_
      rintro rfl
      omega
  · intro t decl _ ht
    exact h.typeDecl_of_lt ht
  · exact fun _ _ => rfl
  · exact fun _ _ => rfl

theorem addConstructor_extends (hc : c.WellFormed) (owner : NodeId) (name : String)
    (params : Nat) (pos : Position) (n : Nat) :
    Extends n c (c.addConstructor owner name params pos) := by
  unfold addConstructor
  cases hty : c.arena.typeDecl owner with
  | error e =>
    -- no such type: the constructor is dropped
    have herr : c.arena.pushConstructor owner { name, params } = .error e := by
      simp [Arena.pushConstructor, Arena.members, hty]
      rfl
    rw [herr]
    exact .refl hc n
  | ok decl =>
    rw [Arena.pushConstructor_of_type hty]
    obtain ⟨arena, harena⟩ :=
      Arena.exists_insertMember hty decl.members.length (.constructor { name, params })
    rw [harena]
    have hext : Extends n c { c with arena } :=
      extends_of_inserted hc (Arena.insertMember_eq_ok harena) (.inl ⟨_, rfl⟩)
    exact hext.trans (place_extends hext.wellFormed _ pos n)

@[simp] theorem addConstructor_structs (c : Catalogue) (owner : NodeId) (name : String)
    (params : Nat) (pos : Position) :
    (c.addConstructor owner name params pos).structs = c.structs := by
  unfold addConstructor
  split <;> simp

/-! ### Fields -/

/-- The nodes of declared fields, from `start` on. -/
def declaredFields (start : Nat) (fs : List FieldDef) : List (NodeId × FieldDecl) :=
  fs.mapIdx (fun k f => (⟨start + k⟩, f.decl))

theorem declaredFields_cons (start : Nat) (f : FieldDef) (fs : List FieldDef) :
    declaredFields start (f :: fs) = (⟨start⟩, f.decl) :: declaredFields (start + 1) fs := by
  simp only [declaredFields, List.mapIdx_cons, Nat.add_zero, List.cons.injEq, true_and]
  congr 1
  funext k g
  rw [Nat.add_assoc, Nat.add_comm 1 k]

/-- The positions of declared fields, from `start` and `slot` on. -/
def declaredSlots (start slot : Nat) (fs : List FieldDef) : List (NodeId × Nat) :=
  fs.mapIdx (fun k _ => (⟨start + k⟩, slot + k))

theorem declaredSlots_cons (start slot : Nat) (f : FieldDef) (fs : List FieldDef) :
    declaredSlots start slot (f :: fs) =
      (⟨start⟩, slot) :: declaredSlots (start + 1) (slot + 1) fs := by
  simp only [declaredSlots, List.mapIdx_cons, Nat.add_zero, List.cons.injEq, true_and]
  congr 1
  funext k g
  rw [Nat.add_assoc, Nat.add_assoc, Nat.add_comm 1 k]

theorem lookup_declaredSlots (fs : List FieldDef) (start slot : Nat) {k : Nat}
    (hk : k < fs.length) :
    (declaredSlots start slot fs).lookup ⟨start + k⟩ = some (slot + k) := by
  induction fs generalizing start slot k with
  | nil => exact absurd hk (Nat.not_lt_zero k)
  | cons f fs ih =>
    rw [declaredSlots_cons]
    cases k with
    | zero => exact List.lookup_cons_self
    | succ k =>
      have hne : ((⟨start + (k + 1)⟩ : NodeId) == ⟨start⟩) = false := by
        simp
      rw [List.lookup_cons, hne]
      -- the first field has the first id, and the others are looked up behind it
      have hrest := ih (start + 1) (slot + 1) (Nat.lt_of_succ_lt_succ hk)
      rw [Nat.add_assoc, Nat.add_comm 1 k, Nat.add_assoc, Nat.add_comm 1 k] at hrest
      exact hrest

/-- A position is recorded for a node from `n` on. -/
theorem addSlot_extends (id : NodeId) (slot : Nat) (hc : c.WellFormed) (hn : n ≤ id.index)
    (hid : id.index < c.arena.size) :
    Extends n c { c with slots := c.slots ++ [(id, slot)] } where
  wellFormed := by
    refine ⟨hc.closed, hc.batch_lt, hc.batch_nodup, fun x hx => ?_⟩
    rcases List.mem_append.mp hx with hx | hx
    · exact hc.slots_lt x hx
    · rw [List.mem_singleton.mp hx]
      exact hid
  size_le := Nat.le_refl _
  fields_eq := fun _ _ => rfl
  type_eq := fun _ decl _ h => ⟨decl.members, h⟩
  requests_eq := fun _ _ => rfl
  slot_eq := by
    intro i hi
    have hne : (i == id) = false := by
      rw [beq_eq_false_iff_ne]
      rintro rfl
      omega
    rw [List.lookup_append, List.lookup_cons, hne]
    exact Option.or_none

/-- The catalogue `c'` is `c` with the fields `fs` entered for `owner`. -/
structure FieldsEntered (n : Nat) (owner : NodeId) (slot : Nat) (fs : List FieldDef)
    (c c' : Catalogue) : Prop where
  keeps : Extends n c c'
  size_eq : c'.arena.size = c.arena.size + fs.length
  fields_eq : c'.arena.fields owner = c.arena.fields owner ++ declaredFields c.arena.size fs
  type_eq : ∀ decl, c.arena.typeDecl owner = .ok decl →
    ∃ ms, c'.arena.typeDecl owner = .ok { decl with members := ms }
  batch_eq : c'.batch = c.batch
  structs_eq : c'.structs = c.structs
  slots_eq : c'.slots = c.slots ++ declaredSlots c.arena.size slot fs

/-- One field. -/
theorem addField_entered (f : FieldDef) (hc : c.WellFormed) (slot : Nat) {decl : TypeDecl}
    (howner : c.arena.typeDecl owner = .ok decl) (hn : n ≤ owner.index) {arena : Arena}
    (h : c.arena.insertMember owner decl.members.length (.field f.decl) =
      .ok (arena, ⟨c.arena.size⟩)) (pos : Position) :
    FieldsEntered n owner slot [f] c
      (({ c with arena, slots := c.slots ++ [(⟨c.arena.size⟩, slot)] } : Catalogue).place
        ⟨c.arena.size⟩ pos) := by
  have hins := Arena.insertMember_eq_ok h
  have hmembers := Arena.memberList_of_type (Arena.typeDecl_eq_ok_iff.mp howner)
  have hlt := Arena.index_lt_of_declaration? (Arena.typeDecl_eq_ok_iff.mp howner)
  -- the member, its position and its place, each keeping what is below `n`
  have hext₁ : Extends n c { c with arena } :=
    extends_of_inserted hc hins (.inr ⟨⟨_, rfl⟩, hn⟩)
  have hnew : c.arena.size < arena.size := by
    rw [hins.size_eq]
    exact Nat.lt_succ_self _
  have hext₂ := addSlot_extends ⟨c.arena.size⟩ slot hext₁.wellFormed
    (Nat.le_of_lt (Nat.lt_of_le_of_lt hn hlt)) hnew
  have hext₃ := place_extends hext₂.wellFormed ⟨c.arena.size⟩ pos n
  refine ⟨(hext₁.trans hext₂).trans hext₃, ?_, ?_, ?_, ?_, ?_, ?_⟩
  · rw [place_size, hins.size_eq]
    rfl
  · rw [Arena.fields_congr (place_declaration? _ _ pos),
      hins.fields_push hc.closed (by rw [hmembers])]
    rfl
  · intro decl' hdecl'
    obtain ⟨ms, hms⟩ := hins.typeDecl_of_lt hdecl'
    rw [Arena.typeDecl_eq_ok_iff] at hms
    refine ⟨ms, ?_⟩
    rw [Arena.typeDecl_eq_ok_iff, place_declaration?]
    exact hms
  · exact place_batch _ _ _
  · exact place_structs _ _ _
  · rw [place_slots]
    rfl

/-- **The fields of a struct are entered one by one**, each with its position. -/
theorem addFields_entered (fs : List FieldDef) (hc : c.WellFormed) (slot : Nat) {decl : TypeDecl}
    (howner : c.arena.typeDecl owner = .ok decl) (hn : n ≤ owner.index) :
    FieldsEntered n owner slot fs c (addFields owner c slot fs) := by
  induction fs generalizing c slot decl with
  | nil =>
    exact ⟨.refl hc n, rfl, by simp [addFields, declaredFields],
      fun decl h => ⟨decl.members, h⟩, rfl, rfl, by simp [addFields, declaredSlots]⟩
  | cons f fs ih =>
    obtain ⟨arena, harena⟩ := Arena.exists_insertMember howner decl.members.length (.field f.decl)
    have hfirst := addField_entered f hc slot howner hn harena f.name.pos
    rw [addFields, Arena.pushField_of_type howner, harena]
    obtain ⟨ms, hms⟩ := hfirst.type_eq decl howner
    -- the owner is still a type, with one more member
    have hrest := ih hfirst.keeps.wellFormed (slot + 1) hms
    refine ⟨hfirst.keeps.trans hrest.keeps, ?_, ?_, ?_, ?_, ?_, ?_⟩
    · rw [hrest.size_eq, hfirst.size_eq, List.length_singleton, List.length_cons]
      omega
    · rw [hrest.fields_eq, hfirst.fields_eq, hfirst.size_eq, List.append_assoc,
        declaredFields_cons _ f fs]
      rfl
    · intro decl' hdecl'
      obtain ⟨ms', hms'⟩ := hfirst.type_eq decl' hdecl'
      obtain ⟨ms'', hms''⟩ := hrest.type_eq _ hms'
      exact ⟨ms'', hms''⟩
    · rw [hrest.batch_eq, hfirst.batch_eq]
    · rw [hrest.structs_eq, hfirst.structs_eq]
    · rw [hrest.slots_eq, hfirst.slots_eq, hfirst.size_eq, List.append_assoc,
        declaredSlots_cons _ _ f fs]
      rfl

/-! ### Types with their requests -/

/-- A new type has no members, and the old types do not see it. -/
theorem addType_extends (hc : c.WellFormed) (name : String) (kind : DeclKind) :
    Extends c.arena.size c { c with arena := (c.arena.addType name kind).1 } := by
  have hsize : (c.arena.addType name kind).1.size = c.arena.size + 1 := Arena.alloc_size _ _ _
  -- the new id is the size, so no old id is hidden
  have hold : ∀ i : NodeId, i.index < c.arena.size →
      (c.arena.addType name kind).1.declaration? i = c.arena.declaration? i := by
    intro i hi
    rw [Arena.addType_declaration?, if_neg]
    rintro rfl
    exact absurd hi (Nat.lt_irrefl _)
  refine ⟨⟨?_, ?_, hc.batch_nodup, ?_⟩, ?_, ?_, ?_, fun _ _ => rfl, fun _ _ => rfl⟩
  · intro t m hm
    rw [Arena.addType_memberList] at hm
    exact hsize ▸ Nat.lt_succ_of_lt (hc.closed t m hm)
  · exact fun x hx => hsize ▸ Nat.lt_succ_of_lt (hc.batch_lt x hx)
  · exact fun x hx => hsize ▸ Nat.lt_succ_of_lt (hc.slots_lt x hx)
  · exact hsize ▸ Nat.le_succ _
  · -- the members of a type are old ids, and at these the fields are those of before
    intro t _
    unfold Arena.fields
    rw [Arena.addType_memberList]
    refine List.filterMap_congr fun m hm => ?_
    rw [Arena.field?_eq, hold m (hc.closed t m hm), ← Arena.field?_eq]
  · intro t decl ht h
    rw [Arena.typeDecl_eq_ok_iff] at h
    refine ⟨decl.members, ?_⟩
    rw [Arena.typeDecl_eq_ok_iff, hold t ht, h]

/-- The batch after a type with requests was declared. -/
def extendBatch (batch : List Target) (id : NodeId) (requests : List Request) : List Target :=
  if requests.isEmpty then batch else batch ++ [⟨id, requests⟩]

theorem requestsFor_extendBatch (batch : List Target) (id t : NodeId) (requests : List Request) :
    requestsFor t (extendBatch batch id requests) =
      requestsFor t batch ++ if t = id then requests else [] := by
  unfold extendBatch
  cases requests with
  | nil => simp
  | cons r rs =>
    rw [if_neg (by simp), requestsFor_append]
    by_cases ht : t = id
    · simp [requestsFor, ht]
    · simp [requestsFor, ht, Ne.symm ht]

/-- A known type for which there were no requests before may enter the batch. -/
theorem WellFormed.extendBatch (hc : c.WellFormed) (hid : id.index < c.arena.size)
    (hnew : ∀ x ∈ c.batch, x.node ≠ id) (requests : List Request)
    (errors : List (NodeId × AnnotationError)) :
    { c with batch := Catalogue.extendBatch c.batch id requests, errors }.WellFormed where
  closed := hc.closed
  batch_lt := by
    intro x hx
    unfold Catalogue.extendBatch at hx
    split at hx
    · exact hc.batch_lt x hx
    · rcases List.mem_append.mp hx with hx | hx
      · exact hc.batch_lt x hx
      · rw [List.mem_singleton.mp hx]
        exact hid
  batch_nodup := by
    simp only [Catalogue.extendBatch]
    split
    · exact hc.batch_nodup
    · -- the new entry is for a node that had none
      rw [List.map_append, List.nodup_append]
      refine ⟨hc.batch_nodup, by simp, ?_⟩
      intro i hi j hj
      obtain ⟨x, hx, rfl⟩ := List.mem_map.mp hi
      rw [List.map_singleton, List.mem_singleton] at hj
      rw [hj]
      exact hnew x hx
  slots_lt := hc.slots_lt

/-- The requests of a type from `n` on, for which there were none before. -/
theorem extendBatch_extends (hc : c.WellFormed) (hn : n ≤ id.index)
    (hid : id.index < c.arena.size) (hnew : ∀ x ∈ c.batch, x.node ≠ id) (requests : List Request)
    (errors : List (NodeId × AnnotationError)) :
    Extends n c { c with batch := extendBatch c.batch id requests, errors } where
  wellFormed := hc.extendBatch hid hnew requests errors
  size_le := Nat.le_refl _
  fields_eq := fun _ _ => rfl
  type_eq := fun _ decl _ h => ⟨decl.members, h⟩
  requests_eq := by
    intro t ht
    have hne : t ≠ id := by
      rintro rfl
      omega
    rw [requestsFor_extendBatch, if_neg hne, List.append_nil]
  slot_eq := fun _ _ => rfl

/-- What is known of a type that was just declared. -/
structure Declared (name : String) (kind : DeclKind) (requests : List Request)
    (c c' : Catalogue) (id : NodeId) : Prop where
  id_eq : id = ⟨c.arena.size⟩
  size_eq : c'.arena.size = c.arena.size + 1
  keeps : Extends c.arena.size c c'
  type_eq : c'.arena.typeDecl id = .ok { name, kind }
  requests_eq : requestsFor id c'.batch = requests
  structs_eq : c'.structs = c.structs

theorem declare_declared (hc : c.WellFormed) (name : Word) (kind : DeclKind)
    (attrs : List Attribute) :
    Declared name.text kind ((readRequests attrs).filterMap Except.toOption) c
      (c.declare name kind attrs).1 (c.declare name kind attrs).2 := by
  -- the type and its place, and then its requests
  let c₁ : Catalogue := { c with arena := (c.arena.addType name.text kind).1 }
  let c₂ : Catalogue := c₁.place ⟨c.arena.size⟩ name.pos
  let requests := (readRequests attrs).filterMap Except.toOption
  obtain ⟨errors, hdeclare⟩ : ∃ errors, c.declare name kind attrs =
      ({ c₂ with batch := extendBatch c₂.batch ⟨c.arena.size⟩ requests, errors },
        ⟨c.arena.size⟩) := ⟨_, rfl⟩
  have hext₁ : Extends c.arena.size c c₁ := addType_extends hc name.text kind
  have hext₂ : Extends c.arena.size c₁ c₂ := place_extends hext₁.wellFormed _ _ _
  have hsize : c₂.arena.size = c.arena.size + 1 :=
    (place_size c₁ _ _).trans (Arena.alloc_size _ _ _)
  have hnew : ∀ x ∈ c₂.batch, x.node ≠ ⟨c.arena.size⟩ := by
    intro x hx heq
    have hlt := hc.batch_lt x ((place_batch c₁ _ _) ▸ hx)
    rw [heq] at hlt
    exact absurd hlt (Nat.lt_irrefl _)
  have hext₃ : Extends c.arena.size c₂
      { c₂ with batch := extendBatch c₂.batch ⟨c.arena.size⟩ requests, errors } :=
    extendBatch_extends hext₂.wellFormed (Nat.le_refl _) (hsize ▸ Nat.lt_succ_self _) hnew _ _
  rw [hdeclare]
  refine ⟨rfl, hsize, (hext₁.trans hext₂).trans hext₃, ?_, ?_, place_structs c₁ _ _⟩
  · rw [Arena.typeDecl_eq_ok_iff]
    refine (place_declaration? c₁ _ _ _).trans ?_
    rw [Arena.addType_declaration?, if_pos rfl]
  · rw [requestsFor_extendBatch, if_pos rfl, requestsFor_eq_nil hnew]
    rfl

/-! ### Entered structs -/

/-- **A struct is entered at a node**: the node declares its kind and its fields, whose ids follow
the node's own, and the batch holds its requests. -/
structure Entered (c : Catalogue) (d : StructDecl) (node : NodeId) : Prop where
  lt_size : node.index + d.body.fields.length < c.arena.size
  type_eq : ∃ ms, c.arena.typeDecl node = .ok ⟨d.name.text, d.body.kind, ms⟩
  fields_eq : c.arena.fields node = declaredFields (node.index + 1) d.body.fields
  slot_eq : ∀ k < d.body.fields.length, c.slots.lookup ⟨node.index + 1 + k⟩ = some k
  requests_eq : requestsFor node c.batch = d.requests

theorem Entered.known {d : StructDecl} {node : NodeId} (h : c.Entered d node) :
    node.index < c.arena.size :=
  Nat.lt_of_le_of_lt (Nat.le_add_right _ _) h.lt_size

/-- What is entered stays so. -/
theorem Entered.mono {d : StructDecl} {node : NodeId} (h : c.Entered d node)
    (hext : Extends c.arena.size c c') : c'.Entered d node where
  lt_size := Nat.lt_of_lt_of_le h.lt_size hext.size_le
  type_eq := by
    obtain ⟨ms, hms⟩ := h.type_eq
    obtain ⟨ms', hms'⟩ := hext.type_eq node _ h.known hms
    exact ⟨ms', hms'⟩
  fields_eq := (hext.fields_eq node h.known).trans h.fields_eq
  slot_eq := by
    intro k hk
    have hlt := h.lt_size
    rw [hext.slot_eq _ (by show node.index + 1 + k < _; omega), h.slot_eq k hk]
  requests_eq := (hext.requests_eq node h.known).trans h.requests_eq

/-- Declaring a struct and entering its fields enters the struct. -/
theorem addStruct_entered (hc : c.WellFormed) (scope : List String) (attrs : List Attribute)
    (name : Word) (body : StructBody) :
    let declared := c.declare name body.kind attrs
    let c' := addFields declared.2
      { declared.1 with structs := declared.1.structs ++ [declared.2] } 0 body.fields
    Extends c.arena.size c c' ∧ c'.structs = c.structs ++ [declared.2] ∧
      c'.Entered ⟨scope, attrs, name, body⟩ declared.2 := by
  intro declared c'
  have hdecl := declare_declared hc name body.kind attrs
  have hwf : ({ declared.1 with structs := declared.1.structs ++ [declared.2] } :
      Catalogue).WellFormed := by
    obtain ⟨hclosed, hbatch, hnodup, hslots⟩ := hdecl.keeps.wellFormed
    exact ⟨hclosed, hbatch, hnodup, hslots⟩
  have hkeep : Extends c.arena.size declared.1
      { declared.1 with structs := declared.1.structs ++ [declared.2] } := by
    -- what is entered so far is not touched by the list of structs
    obtain ⟨-, hsize, hfields, htype, hrequests, hslot⟩ :=
      Extends.refl hdecl.keeps.wellFormed c.arena.size
    exact ⟨hwf, hsize, hfields, htype, hrequests, hslot⟩
  have hid : declared.2.index = c.arena.size := by rw [hdecl.id_eq]
  have hfields := addFields_entered body.fields hwf 0 hdecl.type_eq (Nat.le_of_eq hid.symm)
  have hsize : declared.1.arena.size = declared.2.index + 1 := by rw [hdecl.size_eq, hid]
  have hnone : declared.1.arena.fields declared.2 = [] := by
    unfold Arena.fields
    rw [Arena.memberList_of_type (Arena.typeDecl_eq_ok_iff.mp hdecl.type_eq)]
    rfl
  refine ⟨(hdecl.keeps.trans hkeep).trans hfields.keeps, ?_, ?_, ?_, ?_, ?_, ?_⟩
  · rw [hfields.structs_eq, hdecl.structs_eq]
  · rw [hfields.size_eq]
    show _ < declared.1.arena.size + _
    rw [hsize]
    exact Nat.add_lt_add_right (Nat.lt_succ_self _) _
  · exact hfields.type_eq _ hdecl.type_eq
  · rw [hfields.fields_eq]
    show declared.1.arena.fields declared.2 ++ declaredFields declared.1.arena.size _ = _
    rw [hnone, hsize]
    rfl
  · intro k hk
    -- no older position is recorded for the new fields
    have hold : declared.1.slots.lookup ⟨declared.2.index + 1 + k⟩ = none := by
      rw [List.lookup_eq_none_iff]
      intro x hx
      have hlt := hdecl.keeps.wellFormed.slots_lt x hx
      rw [bne_iff_ne]
      rintro hx'
      rw [← hx', hsize] at hlt
      exact absurd hlt (Nat.not_lt.mpr (Nat.le_add_right _ _))
    rw [hfields.slots_eq, List.lookup_append]
    show (declared.1.slots.lookup _).or ((declaredSlots declared.1.arena.size 0 _).lookup _) = _
    rw [hold, hsize, lookup_declaredSlots _ _ _ hk, Nat.zero_add]
    rfl
  · rw [hfields.batch_eq]
    exact hdecl.requests_eq

/-! ### Impl blocks and items -/

theorem addMember_extends (hc : c.WellFormed) (owner : NodeId) (selfName : String)
    (member : Code) (n : Nat) : Extends n c (addMember owner selfName c member) := by
  unfold addMember
  split
  · split
    · exact .refl hc n
    · exact addConstructor_extends hc _ _ _ _ n
  · exact .refl hc n

@[simp] theorem addMember_structs (c : Catalogue) (owner : NodeId) (selfName : String)
    (member : Code) : (addMember owner selfName c member).structs = c.structs := by
  unfold addMember
  split
  · split <;> simp
  · rfl

/-- A fold of steps that keep what is below `n` keeps it, and so with the list of structs. -/
theorem foldl_extends {α : Type} (step : Catalogue → α → Catalogue)
    (hstep : ∀ c, c.WellFormed → ∀ x, Extends n c (step c x) ∧ (step c x).structs = c.structs)
    (xs : List α) (hc : c.WellFormed) :
    Extends n c (xs.foldl step c) ∧ (xs.foldl step c).structs = c.structs := by
  induction xs generalizing c with
  | nil => exact ⟨.refl hc n, rfl⟩
  | cons x xs ih =>
    obtain ⟨hext, hstructs⟩ := hstep c hc x
    obtain ⟨hext', hstructs'⟩ := ih hext.wellFormed
    exact ⟨hext.trans hext', hstructs'.trans hstructs⟩

/-- An `impl` block adds constructors and nothing else. -/
theorem addImpl_extends (hc : c.WellFormed) (names : ScopeNames) (item : Item) (n : Nat) :
    Extends n c (addImpl names c item) ∧ (addImpl names c item).structs = c.structs := by
  unfold addImpl
  split
  · split
    · exact ⟨.refl hc n, rfl⟩
    · split
      · exact ⟨.refl hc n, rfl⟩
      · split
        · split
          · exact ⟨addConstructor_extends hc _ _ _ _ n, addConstructor_structs _ _ _ _ _⟩
          · exact ⟨.refl hc n, rfl⟩
        · exact foldl_extends _
            (fun c hc x => ⟨addMember_extends hc _ _ x n, addMember_structs c _ _ x⟩) _ hc
  · exact ⟨.refl hc n, rfl⟩

/-- What entering some items does: the structs among them are entered in order. -/
structure ItemsEntered (decls : List StructDecl) (c c' : Catalogue) : Prop where
  keeps : Extends c.arena.size c c'
  entered : ∃ new, c'.structs = c.structs ++ new ∧ List.Forall₂ c'.Entered decls new

theorem ItemsEntered.of_keeps (h : Extends c.arena.size c c') (hstructs : c'.structs = c.structs) :
    ItemsEntered [] c c' :=
  ⟨h, [], by rw [hstructs, List.append_nil], .nil⟩

theorem ItemsEntered.append {decls decls' : List StructDecl} (h₁ : ItemsEntered decls c c')
    (h₂ : ItemsEntered decls' c' c'') : ItemsEntered (decls ++ decls') c c'' := by
  obtain ⟨hkeeps₁, new₁, hstructs₁, hall₁⟩ := h₁
  obtain ⟨hkeeps₂, new₂, hstructs₂, hall₂⟩ := h₂
  refine ⟨hkeeps₁.trans (hkeeps₂.mono hkeeps₁.size_le), new₁ ++ new₂, ?_, ?_⟩
  · rw [hstructs₂, hstructs₁, List.append_assoc]
  · exact List.rel_append (hall₁.imp fun _ _ h => h.mono hkeeps₂) hall₂

mutual

/-- One item. -/
theorem addItem_entered (c : Catalogue) (hc : c.WellFormed) (names : ScopeNames)
    (scope : List String) :
    ∀ item : Item, ItemsEntered (item.structDecls scope) c (addItem c names item).1
  | .struct attrs vis name generics body => by
    let node := (c.declare name body.kind attrs).2
    let c₁ := addFields node { (c.declare name body.kind attrs).1 with
      structs := (c.declare name body.kind attrs).1.structs ++ [node] } 0 body.fields
    obtain ⟨hkeeps, hstructs, hentered⟩ :
        Extends c.arena.size c c₁ ∧ c₁.structs = c.structs ++ [node] ∧
          c₁.Entered ⟨scope, attrs, name, body⟩ node :=
      addStruct_entered hc scope attrs name body
    change ItemsEntered [⟨scope, attrs, name, body⟩] c
      (if derivesDefault attrs then c₁.addConstructor node "default" 0 name.pos else c₁)
    -- a derived constructor is a member, but no field
    split
    · have hcons := addConstructor_extends hkeeps.wellFormed node "default" 0 name.pos
      refine ⟨hkeeps.trans (hcons _), [node], ?_, .cons (hentered.mono (hcons _)) .nil⟩
      rw [addConstructor_structs, hstructs]
    · exact ⟨hkeeps, [node], hstructs, .cons hentered .nil⟩
  | .nominal kind attrs lead name tail => by
    have hdecl := declare_declared hc name kind.kind attrs
    exact .of_keeps hdecl.keeps hdecl.structs_eq
  | .use attrs vis global tree => by
    obtain ⟨hclosed, hbatch, hnodup, hslots⟩ := hc
    exact .of_keeps ⟨⟨hclosed, hbatch, hnodup, hslots⟩, Nat.le_refl _, fun _ _ => rfl,
      fun _ decl _ h => ⟨decl.members, h⟩, fun _ _ => rfl, fun _ _ => rfl⟩ rfl
  | .module attrs lead name inner items => by
    -- the items of the module, then its own `impl` blocks
    have hitems := addItems_entered c hc [] (scope ++ [name.text]) items
    obtain ⟨hkeeps, hstructs⟩ := foldl_extends (n := (addItems c [] items).1.arena.size)
      (addImpl (addItems c [] items).2) (fun c hc x => addImpl_extends hc _ x _) items
      hitems.keeps.wellFormed
    have happend := hitems.append (.of_keeps hkeeps hstructs)
    rw [List.append_nil] at happend
    exact happend
  | .impl attrs lead trait selfTy clause inner members => .of_keeps (.refl hc _) rfl
  | .other shape parts => .of_keeps (.refl hc _) rfl

/-- The items of a scope. -/
theorem addItems_entered (c : Catalogue) (hc : c.WellFormed) (names : ScopeNames)
    (scope : List String) :
    ∀ items : List Item,
      ItemsEntered (Item.structDeclsList scope items) c (addItems c names items).1
  | [] => .of_keeps (.refl hc _) rfl
  | i :: is => by
    have hfirst := addItem_entered c hc names scope i
    exact hfirst.append
      (addItems_entered _ hfirst.keeps.wellFormed (addItem c names i).2 scope is)

end

/-- **A catalogue lists the structs of its items in order**, and each is entered at its node. -/
theorem ofItems_entered (items : List Item) :
    (ofItems items).WellFormed ∧
      List.Forall₂ (ofItems items).Entered (Item.structDeclsList [] items)
        (ofItems items).structs := by
  -- `impl` blocks come last and only add constructors
  have hitems := addItems_entered {} wellFormed_empty [] [] items
  obtain ⟨hkeeps, hstructs⟩ := foldl_extends (n := (addItems {} [] items).1.arena.size)
    (addImpl (addItems {} [] items).2) (fun c hc x => addImpl_extends hc _ x _) items
    hitems.keeps.wellFormed
  obtain ⟨-, new, hnew, hall⟩ := hitems
  have hlist : (ofItems items).structs = new := hstructs.trans hnew
  refine ⟨hkeeps.wellFormed, ?_⟩
  rw [hlist]
  exact hall.imp fun _ _ h => h.mono hkeeps

end Catalogue

end FieldGraft
