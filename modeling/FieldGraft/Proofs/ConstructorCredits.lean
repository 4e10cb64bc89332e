import FieldGraft.Proofs.CatalogueEntries

/-!
# The constructors of a struct

A struct has a constructor for a derived `Default` and those that the `impl` blocks of its scope
give to its name. The blocks may stand anywhere in the scope: they are read when all types of the
scope are known, and among types of one name the last one has them.

* `ScopedStruct` — a struct with the items of its scope; `scopedStructs` lists those of a unit.
* `ScopedStruct.constructors` — its constructors, read off these items and no others.
* `Catalogue.addImpl_constructorDecls` — what one block adds, and to which node.
* `Catalogue.Awaiting` — the state of a struct between its declaration and the blocks of its scope.
  Every further item keeps it, whatever is declared there or inside inner modules.
* `Catalogue.ofItems_constructorDecls` — so a catalogue has exactly these constructors.
-/

namespace FieldGraft

/-! ### Structs in their scopes -/

/-- The name of the type that an item declares. -/
def Item.typeName? : Item → Option String
  | .struct _ _ name _ _ => some name.text
  | .nominal _ _ _ name _ => some name.text
  | .use _ _ _ _ => none
  | .module _ _ _ _ _ => none
  | .impl _ _ _ _ _ _ _ => none
  | .other _ _ => none

/-- A struct and its scope. -/
structure ScopedStruct where
  decl : StructDecl
  /-- The items of the scope, the struct among them. -/
  siblings : List Item
  /-- Those behind the struct. -/
  later : List Item

mutual

/-- The structs of an item that stands among `siblings` and before `later`. -/
def Item.scopedStructs (scope : List String) (siblings later : List Item) :
    Item → List ScopedStruct
  | .struct attrs _ name _ body => [⟨⟨scope, attrs, name, body⟩, siblings, later⟩]
  | .module _ _ name _ items => Item.scopedStructsList (scope ++ [name.text]) items items
  | .nominal _ _ _ _ _ => []
  | .use _ _ _ _ => []
  | .impl _ _ _ _ _ _ _ => []
  | .other _ _ => []

/-- The structs of some items of a scope that has no others behind them. -/
def Item.scopedStructsList (scope : List String) (siblings : List Item) :
    List Item → List ScopedStruct
  | [] => []
  | i :: is => i.scopedStructs scope siblings is ++ Item.scopedStructsList scope siblings is

end

/-- The structs of a unit with their scopes, in the order of the items. -/
def scopedStructs (items : List Item) : List ScopedStruct :=
  Item.scopedStructsList [] items items

mutual

theorem Item.map_decl_scopedStructs (scope : List String) (siblings later : List Item) :
    ∀ i : Item, (i.scopedStructs scope siblings later).map ScopedStruct.decl = i.structDecls scope
  | .struct _ _ _ _ _ => rfl
  | .module _ _ name _ items => Item.map_decl_scopedStructsList (scope ++ [name.text]) items items
  | .nominal _ _ _ _ _ => rfl
  | .use _ _ _ _ => rfl
  | .impl _ _ _ _ _ _ _ => rfl
  | .other _ _ => rfl

/-- These are the structs that a catalogue enters. -/
theorem Item.map_decl_scopedStructsList (scope : List String) (siblings : List Item) :
    ∀ is : List Item, (Item.scopedStructsList scope siblings is).map ScopedStruct.decl =
      Item.structDeclsList scope is
  | [] => rfl
  | i :: is => by
    rw [scopedStructsList, structDeclsList, List.map_append,
      Item.map_decl_scopedStructs scope siblings is i,
      Item.map_decl_scopedStructsList scope siblings is]

end

namespace ScopedStruct

/-- The name of the struct. -/
def name (x : ScopedStruct) : String :=
  x.decl.name.text

/-- No type behind the struct has its name. -/
def IsLast (x : ScopedStruct) : Prop :=
  x.name ∉ x.later.filterMap Item.typeName?

instance (x : ScopedStruct) : Decidable x.IsLast :=
  inferInstanceAs (Decidable (_ ∉ _))

/-- No other type of the scope has the name of the struct. -/
def IsUnique (x : ScopedStruct) : Prop :=
  (x.siblings.filterMap Item.typeName?).count x.name = 1

/-- The struct stands in its scope, before the items behind it. -/
def Stands (x : ScopedStruct) : Prop :=
  ∃ before vis generics,
    x.siblings = before ++ .struct x.decl.attrs vis x.decl.name generics x.decl.body :: x.later

/-- A struct without namesakes is the last of its name. -/
theorem Stands.isLast {x : ScopedStruct} (h : x.Stands) (hunique : x.IsUnique) : x.IsLast := by
  obtain ⟨before, vis, generics, hsiblings⟩ := h
  intro hlater
  have hpos := List.count_pos_iff.mpr hlater
  -- the struct itself and its namesake
  have hcount : (x.siblings.filterMap Item.typeName?).count x.name =
      (before.filterMap Item.typeName?).count x.name +
        ((x.later.filterMap Item.typeName?).count x.name + 1) := by
    rw [hsiblings, List.filterMap_append, List.filterMap_cons, List.count_append]
    exact congrArg _ List.count_cons_self
  rw [IsUnique, hcount] at hunique
  omega

end ScopedStruct

mutual

theorem Item.stands_of_mem_scopedStructs (scope : List String) (before later : List Item) :
    ∀ i : Item, ∀ x ∈ i.scopedStructs scope (before ++ i :: later) later, x.Stands
  | .struct attrs vis name generics body, x, hx => by
    rw [List.mem_singleton.mp hx]
    exact ⟨before, vis, generics, rfl⟩
  | .module _ _ name _ items, x, hx =>
    Item.stands_of_mem_scopedStructsList (scope ++ [name.text]) [] items x hx
  | .nominal _ _ _ _ _, _, hx => absurd hx List.not_mem_nil
  | .use _ _ _ _, _, hx => absurd hx List.not_mem_nil
  | .impl _ _ _ _ _ _ _, _, hx => absurd hx List.not_mem_nil
  | .other _ _, _, hx => absurd hx List.not_mem_nil

theorem Item.stands_of_mem_scopedStructsList (scope : List String) (before : List Item) :
    ∀ is : List Item, ∀ x ∈ Item.scopedStructsList scope (before ++ is) is, x.Stands
  | [], _, hx => absurd hx List.not_mem_nil
  | i :: is, x, hx => by
    rw [Item.scopedStructsList, List.mem_append] at hx
    rcases hx with hx | hx
    · exact Item.stands_of_mem_scopedStructs scope before is i x hx
    · rw [List.append_cons] at hx
      exact Item.stands_of_mem_scopedStructsList scope (before ++ [i]) is x hx

end

/-! ### What the blocks of a scope give -/

/-- The constructor that a member of an inherent `impl` block for `selfName` is. -/
def Code.constructor? (selfName : String) : Code → Option ConstructorDecl
  | .fn _ name _ params _ output _ =>
    if params.any Catalogue.isReceiver || !Catalogue.returnsSelf selfName output then none
    else some ⟨name.text, (params.filter Catalogue.isCounted).length⟩
  | _ => none

/-- The name that an `impl` block is for. -/
def Item.selfName? : Item → Option String
  | .impl _ _ _ selfTy _ _ _ => selfTy.simpleName?
  | _ => none

/-- The constructors that an item gives to the types of its scope with a name. -/
def Item.constructorsFor (name : String) : Item → List ConstructorDecl
  | .impl _ _ trait selfTy _ _ members =>
    if selfTy.simpleName? = some name then
      match trait with
      | .of _ path => if path.lastName? = some "Default" then [⟨"default", 0⟩] else []
      | .inherent => members.filterMap (Code.constructor? name)
    else []
  | _ => []

theorem Item.constructorsFor_eq_nil {name : String} {item : Item}
    (h : item.selfName? ≠ some name) : item.constructorsFor name = [] := by
  cases item with
  | impl attrs lead trait selfTy clause inner members => exact if_neg h
  | _ => rfl

/-- **The constructors of a struct**: first the derived one, then those of the `impl` blocks of its
scope, wherever these stand. -/
def ScopedStruct.constructors (x : ScopedStruct) : List ConstructorDecl :=
  (if derivesDefault x.decl.attrs then [⟨"default", 0⟩] else []) ++
    if x.IsLast then x.siblings.flatMap (Item.constructorsFor x.name) else []

/-! ### Constructors in an arena -/

namespace Arena

variable {a b : Arena} {owner id t : NodeId} {position : Nat}

/-- What the constructors of a type are, in member order. -/
def constructorDecls (a : Arena) (t : NodeId) : List ConstructorDecl :=
  (a.memberList t).filterMap a.constructor?

theorem map_snd_constructors (a : Arena) (t : NodeId) :
    (a.constructors t).map Prod.snd = a.constructorDecls t := by
  unfold constructors constructorDecls
  rw [List.map_filterMap]
  simp only [Option.map_map, Function.comp_def, Option.map_id']

theorem hasFreeConstructor_eq (a : Arena) (t : NodeId) :
    a.hasFreeConstructor t = (a.constructorDecls t).any (fun k => k.params == 0) := by
  rw [hasFreeConstructor, ← map_snd_constructors, List.any_map]
  rfl

theorem constructorDecls_congr (h : ∀ i, b.declaration? i = a.declaration? i) (t : NodeId) :
    b.constructorDecls t = a.constructorDecls t := by
  have hk : b.constructor? = a.constructor? :=
    funext fun i => by rw [constructor?_eq, constructor?_eq, h]
  unfold constructorDecls
  rw [memberList_eq, h, ← memberList_eq, hk]

/-- An id that is not given out has none. -/
theorem constructorDecls_size (a : Arena) : a.constructorDecls ⟨a.size⟩ = [] := by
  rw [constructorDecls, memberList_eq, declaration?_size]
  rfl

theorem addType_constructorDecls (ha : a.Closed) (name : String) (kind : DeclKind) (t : NodeId) :
    (a.addType name kind).1.constructorDecls t = a.constructorDecls t := by
  unfold constructorDecls
  rw [addType_memberList]
  refine List.filterMap_congr fun m hm => ?_
  -- a member is not the new type
  have hne : m ≠ ⟨a.size⟩ := by
    rintro rfl
    exact absurd (ha t _ hm) (Nat.lt_irrefl _)
  rw [constructor?_eq, addType_declaration?, if_neg hne, ← constructor?_eq]

theorem Inserted.constructorDecls_of_field {f : FieldDecl}
    (h : a.Inserted b owner position (.field f) id) (t : NodeId) :
    b.constructorDecls t = a.constructorDecls t := by
  rw [← map_snd_constructors, ← map_snd_constructors, h.constructors_eq]

/-- A constructor inserted at the end is the last one of its type, and of no other type. -/
theorem Inserted.constructorDecls_push {k : ConstructorDecl}
    (h : a.Inserted b owner position (.constructor k) id) (ha : a.Closed)
    (hposition : position = (a.memberList owner).length) (t : NodeId) :
    b.constructorDecls t = a.constructorDecls t ++ if t = owner then [k] else [] := by
  have hold : (a.memberList t).filterMap b.constructor? = a.constructorDecls t :=
    List.filterMap_congr fun m hm => (h.leaf_of_lt (ha t m hm)).2
  by_cases ht : t = owner
  · have hnew : b.constructor? id = some k := by rw [Arena.constructor?_eq, h.new_eq]
    rw [if_pos ht, constructorDecls, ht, h.memberList_owner, hposition, insertAt, List.take_length,
      List.drop_length, List.filterMap_append, List.filterMap_cons, hnew, ← ht, hold]
    rfl
  · rw [if_neg ht, List.append_nil, constructorDecls,
      h.memberList_of_ne (fun _ => Declaration.noConfusion) ht, hold]

end Arena

namespace Catalogue

variable {c c' c'' : Catalogue} {names names' : ScopeNames} {owner t : NodeId}

/-! ### Constructors in a catalogue -/

@[simp] theorem place_constructorDecls (c : Catalogue) (id : NodeId) (pos : Position)
    (t : NodeId) : (c.place id pos).arena.constructorDecls t = c.arena.constructorDecls t :=
  Arena.constructorDecls_congr (place_declaration? c id pos) t

theorem declare_constructorDecls (hc : c.WellFormed) (name : Word) (kind : DeclKind)
    (attrs : List Attribute) (t : NodeId) :
    (c.declare name kind attrs).1.arena.constructorDecls t = c.arena.constructorDecls t :=
  (place_constructorDecls { c with arena := (c.arena.addType name.text kind).1 } _ _ t).trans
    (Arena.addType_constructorDecls hc.closed name.text kind t)

theorem addFields_constructorDecls (owner : NodeId) (c : Catalogue) (slot : Nat)
    (fs : List FieldDef) (t : NodeId) :
    (addFields owner c slot fs).arena.constructorDecls t = c.arena.constructorDecls t := by
  induction fs generalizing c slot with
  | nil => rfl
  | cons f fs ih =>
    rw [addFields]
    split
    · next arena id hpush =>
      rw [Arena.pushField_eq] at hpush
      rw [ih, place_constructorDecls]
      exact (Arena.insertMember_eq_ok hpush).constructorDecls_of_field t
    · exact ih c (slot + 1)

theorem addConstructor_constructorDecls (hc : c.WellFormed) {decl : TypeDecl}
    (howner : c.arena.typeDecl owner = .ok decl) (name : String) (params : Nat) (pos : Position)
    (t : NodeId) :
    (c.addConstructor owner name params pos).arena.constructorDecls t =
      c.arena.constructorDecls t ++ if t = owner then [⟨name, params⟩] else [] := by
  obtain ⟨arena, harena⟩ :=
    Arena.exists_insertMember howner decl.members.length (.constructor { name, params })
  have hmembers := Arena.memberList_of_type (Arena.typeDecl_eq_ok_iff.mp howner)
  rw [addConstructor, Arena.pushConstructor_of_type howner, harena]
  simp only [place_constructorDecls]
  exact (Arena.insertMember_eq_ok harena).constructorDecls_push hc.closed (by rw [hmembers]) t

/-- A type stays one. -/
theorem Extends.typeDecl (h : Extends c.arena.size c c')
    (ht : ∃ decl, c.arena.typeDecl t = .ok decl) : ∃ decl, c'.arena.typeDecl t = .ok decl := by
  obtain ⟨decl, hdecl⟩ := ht
  have hlt := Arena.index_lt_of_declaration? (Arena.typeDecl_eq_ok_iff.mp hdecl)
  obtain ⟨ms, hms⟩ := h.type_eq t decl hlt hdecl
  exact ⟨_, hms⟩

/-! ### One block -/

/-- Steps that each add constructors to `t` add all of them, in order. -/
theorem foldl_constructorDecls {α : Type} (step : Catalogue → α → Catalogue)
    (inv : Catalogue → Prop) {added : α → List ConstructorDecl}
    (hstep : ∀ c, inv c → ∀ x, inv (step c x) ∧
      (step c x).arena.constructorDecls t = c.arena.constructorDecls t ++ added x)
    (xs : List α) (hc : inv c) :
    (xs.foldl step c).arena.constructorDecls t =
      c.arena.constructorDecls t ++ xs.flatMap added := by
  induction xs generalizing c with
  | nil => exact (List.append_nil _).symm
  | cons x xs ih =>
    obtain ⟨hinv, hadded⟩ := hstep c hc x
    rw [List.foldl_cons, ih hinv, hadded, List.append_assoc, List.flatMap_cons]

theorem addMember_constructorDecls (hc : c.WellFormed)
    (howner : ∃ decl, c.arena.typeDecl owner = .ok decl) (selfName : String) (member : Code)
    (t : NodeId) :
    (addMember owner selfName c member).arena.constructorDecls t =
      c.arena.constructorDecls t ++
        if t = owner then (member.constructor? selfName).toList else [] := by
  obtain ⟨decl, hdecl⟩ := howner
  cases member with
  | fn lead name generics params trailing output tail =>
    simp only [addMember, Code.constructor?]
    split
    · simp
    · exact addConstructor_constructorDecls hc hdecl _ _ _ t
  | _ => simp [addMember, Code.constructor?]

/-- The names of a scope stand for types. -/
def Known (c : Catalogue) (names : ScopeNames) : Prop :=
  ∀ m id, names.lookup m = some id → ∃ decl, c.arena.typeDecl id = .ok decl

theorem Known.mono (h : c.Known names) (hext : Extends c.arena.size c c') : c'.Known names :=
  fun m id hid => hext.typeDecl (h m id hid)

theorem Known.index_lt (h : c.Known names) {m : String} {id : NodeId}
    (hid : names.lookup m = some id) : id.index < c.arena.size := by
  obtain ⟨decl, hdecl⟩ := h m id hid
  exact Arena.index_lt_of_declaration? (Arena.typeDecl_eq_ok_iff.mp hdecl)

/-- A block for no type of the scope. -/
theorem addImpl_of_none {item : Item}
    (h : ∀ m, item.selfName? = some m → names.lookup m = none) : addImpl names c item = c := by
  cases item with
  | impl attrs lead trait selfTy clause inner members =>
    simp only [addImpl]
    cases hself : selfTy.simpleName? with
    | none => rfl
    | some selfName => simp only [h selfName hself]
  | _ => rfl

/-- A block gives its constructors to the node that its name stands for. -/
theorem addImpl_of_owner (hc : c.WellFormed) (hknown : c.Known names) {item : Item}
    {selfName : String} (hself : item.selfName? = some selfName)
    (howner : names.lookup selfName = some owner) (t : NodeId) :
    (addImpl names c item).arena.constructorDecls t =
      c.arena.constructorDecls t ++
        if t = owner then item.constructorsFor selfName else [] := by
  have htype := hknown selfName owner howner
  cases item with
  | impl attrs lead trait selfTy clause inner members =>
    simp only [Item.selfName?] at hself
    simp only [addImpl, Item.constructorsFor, hself, howner, if_true]
    cases trait with
    | of negative path =>
      obtain ⟨decl, hdecl⟩ := htype
      -- a block for `Default` counts whatever its polarity, and other traits do not
      by_cases hpath : path.lastName? = some "Default"
      · simp only [hpath, beq_self_eq_true, if_true]
        exact addConstructor_constructorDecls hc hdecl _ _ _ t
      · simp [hpath]
    | inherent =>
      -- each member in turn; the owner stays a type
      have hfold := foldl_constructorDecls (t := t) (addMember owner selfName)
        (fun c => c.WellFormed ∧ ∃ decl, c.arena.typeDecl owner = .ok decl)
        (fun c hinv m =>
          have hext := addMember_extends hinv.1 owner selfName m c.arena.size
          ⟨⟨hext.wellFormed, hext.typeDecl hinv.2⟩,
            addMember_constructorDecls hinv.1 hinv.2 selfName m t⟩)
        members ⟨hc, htype⟩
      refine hfold.trans (congrArg _ ?_)
      split
      · exact (List.filterMap_eq_flatMap_toList _ _).symm
      · exact List.flatMap_eq_nil_iff.mpr fun _ _ => rfl
  | _ => cases hself

/-- **What one block adds.** If a node has no name but `name`, it gets the constructors that the
block gives to this name, provided that the name stands for the node. -/
theorem addImpl_constructorDecls (hc : c.WellFormed) (hknown : c.Known names) {name : String}
    (hname : ∀ m, names.lookup m = some t → m = name) (item : Item) :
    (addImpl names c item).arena.constructorDecls t =
      c.arena.constructorDecls t ++
        if names.lookup name = some t then item.constructorsFor name else [] := by
  cases hself : item.selfName? with
  -- a block for no name has no constructor for `name`
  | none =>
    have hnone : item.constructorsFor name = [] :=
      Item.constructorsFor_eq_nil (by simp [hself])
    rw [addImpl_of_none (by simp [hself]), hnone, ite_self, List.append_nil]
  | some selfName =>
    cases howner : names.lookup selfName with
    | none =>
      rw [addImpl_of_none fun m hm => by cases hself.symm.trans hm; exact howner]
      split
      · next hlookup =>
        rw [Item.constructorsFor_eq_nil, List.append_nil]
        rintro heq
        cases hself.symm.trans heq
        cases howner.symm.trans hlookup
      · rw [List.append_nil]
    | some owner =>
      rw [addImpl_of_owner hc hknown hself howner]
      congr 1
      by_cases ht : t = owner
      · obtain rfl := hname selfName (ht ▸ howner)
        rw [if_pos ht, if_pos (ht ▸ howner)]
      · -- the block is for another node, so not for `name`, or `name` stands for another node
        rw [if_neg ht]
        split
        · next hlookup =>
          refine (Item.constructorsFor_eq_nil ?_).symm
          rintro heq
          cases hself.symm.trans heq
          exact ht (Option.some.inj (hlookup.symm.trans howner))
        · rfl

/-- The blocks of a scope. -/
theorem foldl_addImpl_constructorDecls (hc : c.WellFormed) (hknown : c.Known names) {name : String}
    (hname : ∀ m, names.lookup m = some t → m = name) (items : List Item) :
    (items.foldl (addImpl names) c).arena.constructorDecls t =
      c.arena.constructorDecls t ++
        if names.lookup name = some t then items.flatMap (Item.constructorsFor name) else [] := by
  have hfold := foldl_constructorDecls (t := t) (addImpl names)
    (fun c => c.WellFormed ∧ c.Known names)
    (fun c hinv i =>
      have hext := (addImpl_extends hinv.1 names i c.arena.size).1
      ⟨⟨hext.wellFormed, hinv.2.mono hext⟩, addImpl_constructorDecls hinv.1 hinv.2 hname i⟩)
    items ⟨hc, hknown⟩
  refine hfold.trans (congrArg _ ?_)
  split
  · rfl
  · exact List.flatMap_eq_nil_iff.mpr fun _ _ => rfl

/-! ### Between the declaration of a struct and the blocks of its scope -/

/-- **A struct awaits the blocks of its scope.** Its node is one from `start` on; the scope knows
the node by no other name, and `rest` is still to be entered. When the blocks of `siblings` are
read, the constructors of the struct are complete. -/
structure Awaiting (start : Nat) (siblings rest : List Item) (c : Catalogue) (names : ScopeNames)
    (x : ScopedStruct) (node : NodeId) : Prop where
  start_le : start ≤ node.index
  index_lt : node.index < c.arena.size
  name_eq : ∀ m, names.lookup m = some node → m = x.name
  constructors_eq : c.arena.constructorDecls node ++
      (if names.lookup x.name = some node ∧ x.name ∉ rest.filterMap Item.typeName? then
        siblings.flatMap (Item.constructorsFor x.name) else []) = x.constructors

/-- **What entering the items `done` of a scope does** to constructors and names: no old node gets a
constructor, a name stands for an old node as long as no new type has it, and the new structs await
the blocks of their scope. -/
structure ItemsAwaiting (siblings done rest : List Item) (xs : List ScopedStruct)
    (c : Catalogue) (names : ScopeNames) (c' : Catalogue) (names' : ScopeNames) : Prop where
  kept : ∀ t : NodeId, t.index < c.arena.size →
    c'.arena.constructorDecls t = c.arena.constructorDecls t
  lookup_iff : ∀ m (t : NodeId), t.index < c.arena.size →
    (names'.lookup m = some t ↔ names.lookup m = some t ∧ m ∉ done.filterMap Item.typeName?)
  known : c'.Known names'
  awaiting : ∃ new, c'.structs = c.structs ++ new ∧
    List.Forall₂ (Awaiting c.arena.size siblings rest c' names') xs new

variable {siblings done done' rest : List Item} {xs xs' : List ScopedStruct}

/-- A struct goes on waiting while the rest of its scope is entered. -/
theorem Awaiting.mono {start : Nat} {x : ScopedStruct} {node : NodeId}
    (h : Awaiting start siblings done c names x node)
    (hnext : ItemsAwaiting siblings done [] xs c names c' names')
    (hsize : c.arena.size ≤ c'.arena.size) : Awaiting start siblings [] c' names' x node where
  start_le := h.start_le
  index_lt := Nat.lt_of_lt_of_le h.index_lt hsize
  name_eq := fun m hm => h.name_eq m ((hnext.lookup_iff m node h.index_lt).mp hm).1
  constructors_eq := by
    rw [hnext.kept node h.index_lt, ← h.constructors_eq]
    simp only [hnext.lookup_iff _ node h.index_lt, List.filterMap_nil, List.not_mem_nil,
      not_false_eq_true, and_true]

theorem ItemsAwaiting.append
    (h₁ : ItemsAwaiting siblings done done' xs c names c' names')
    {names'' : ScopeNames} (h₂ : ItemsAwaiting siblings done' [] xs' c' names' c'' names'')
    (hsize : c.arena.size ≤ c'.arena.size) (hsize' : c'.arena.size ≤ c''.arena.size) :
    ItemsAwaiting siblings (done ++ done') [] (xs ++ xs') c names c'' names'' := by
  refine ⟨?_, ?_, h₂.known, ?_⟩
  · -- neither part touches what was there before it
    intro t ht
    rw [h₂.kept t (Nat.lt_of_lt_of_le ht hsize), h₁.kept t ht]
  · intro m t ht
    rw [h₂.lookup_iff m t (Nat.lt_of_lt_of_le ht hsize), h₁.lookup_iff m t ht,
      List.filterMap_append, List.mem_append, not_or, and_assoc]
  · obtain ⟨new, hnew, hall⟩ := h₁.awaiting
    obtain ⟨new', hnew', hall'⟩ := h₂.awaiting
    refine ⟨new ++ new', by rw [hnew', hnew, List.append_assoc], ?_⟩
    -- the earlier structs wait on, and the later ones began after `c`
    refine List.rel_append (hall.imp fun x node h => h.mono h₂ hsize') ?_
    exact hall'.imp fun x node h =>
      ⟨Nat.le_trans hsize h.start_le, h.index_lt, h.name_eq, h.constructors_eq⟩

/-- Some items without types of their own scope. -/
theorem ItemsAwaiting.of_kept {i : Item} (hi : i.typeName? = none)
    (hkept : ∀ t : NodeId, t.index < c.arena.size →
      c'.arena.constructorDecls t = c.arena.constructorDecls t)
    (hknown : c'.Known names) {new : List NodeId} (hnew : c'.structs = c.structs ++ new)
    (hall : List.Forall₂ (Awaiting c.arena.size siblings rest c' names) xs new) :
    ItemsAwaiting siblings [i] rest xs c names c' names where
  kept := hkept
  lookup_iff := by
    intro m t _
    rw [List.filterMap_cons_none hi]
    simp
  known := hknown
  awaiting := ⟨new, hnew, hall⟩

/-- A new type hides the older ones of its name. -/
theorem lookup_cons_iff {name m : String} {t : NodeId} (ht : t.index < c.arena.size) :
    ((name, ⟨c.arena.size⟩) :: names : ScopeNames).lookup m = some t ↔
      names.lookup m = some t ∧ m ∉ [name] := by
  rw [List.lookup_cons, List.mem_singleton]
  by_cases hm : m = name
  · rw [beq_iff_eq.mpr hm]
    simp only [Option.some.injEq, hm, not_true_eq_false, and_false, iff_false]
    rintro rfl
    exact absurd ht (Nat.lt_irrefl _)
  · rw [beq_eq_false_iff_ne.mpr hm]
    exact ⟨fun h => ⟨h, hm⟩, fun h => h.1⟩

/-- The names of a scope with one more type. -/
theorem Known.cons {name : String} {id : NodeId} (h : c.Known names)
    (hid : ∃ decl, c.arena.typeDecl id = .ok decl) : c.Known ((name, id) :: names) := by
  intro m t ht
  rw [List.lookup_cons] at ht
  split at ht
  · cases ht
    exact hid
  · exact h m t ht

/-- A new type has no other name. -/
theorem Known.name_eq (h : c.Known names) {name m : String}
    (hm : ((name, ⟨c.arena.size⟩) :: names : ScopeNames).lookup m = some ⟨c.arena.size⟩) :
    m = name := by
  rw [List.lookup_cons] at hm
  split at hm
  · exact beq_iff_eq.mp ‹_›
  · exact absurd (h.index_lt hm) (Nat.lt_irrefl _)

/-- The blocks of a scope complete its structs and leave everything else alone. -/
theorem ItemsAwaiting.complete (hc : c'.WellFormed)
    (h : ItemsAwaiting siblings done [] xs c [] c' names') :
    (∀ t : NodeId, t.index < c.arena.size →
      (siblings.foldl (addImpl names') c').arena.constructorDecls t =
        c.arena.constructorDecls t) ∧
    ∃ new, c'.structs = c.structs ++ new ∧
      List.Forall₂ (fun x node => c.arena.size ≤ node.index ∧ node.index < c'.arena.size ∧
        (siblings.foldl (addImpl names') c').arena.constructorDecls node = x.constructors)
        xs new := by
  refine ⟨?_, ?_⟩
  · intro t ht
    -- the scope has no name for an old node, so any name will do
    have hnone : ∀ m, names'.lookup m ≠ some t := by
      intro m hm
      cases ((h.lookup_iff m t ht).mp hm).1
    have hblocks := foldl_addImpl_constructorDecls hc h.known
      (fun m hm => absurd hm (hnone m) : ∀ m, names'.lookup m = some t → m = "") siblings
    rw [hblocks, if_neg (hnone _), List.append_nil, h.kept t ht]
  · obtain ⟨new, hnew, hall⟩ := h.awaiting
    refine ⟨new, hnew, hall.imp fun x node hx => ⟨hx.start_le, hx.index_lt, ?_⟩⟩
    rw [foldl_addImpl_constructorDecls hc h.known hx.name_eq, ← hx.constructors_eq]
    simp

/-! ### All items -/

/-- The derived constructor, if there is one. -/
theorem addDerived_constructorDecls (hc : c.WellFormed)
    (howner : ∃ decl, c.arena.typeDecl owner = .ok decl) (attrs : List Attribute)
    (pos : Position) (n : Nat) :
    let c' := if derivesDefault attrs then c.addConstructor owner "default" 0 pos else c
    Extends n c c' ∧ c'.structs = c.structs ∧
      ∀ t, c'.arena.constructorDecls t = c.arena.constructorDecls t ++
        if t = owner then (if derivesDefault attrs then [⟨"default", 0⟩] else []) else [] := by
  obtain ⟨decl, hdecl⟩ := howner
  by_cases hd : derivesDefault attrs = true
  · simp only [if_pos hd]
    exact ⟨addConstructor_extends hc _ _ _ _ n, addConstructor_structs _ _ _ _ _,
      addConstructor_constructorDecls hc hdecl _ _ _⟩
  · simp only [if_neg hd, ite_self, List.append_nil, implies_true, and_true]
    exact .refl hc n

/-- A struct awaits the blocks of its scope as soon as it is entered. -/
theorem addStruct_awaiting (hc : c.WellFormed) (hknown : c.Known names) (scope : List String)
    (siblings rest : List Item) (attrs : List Attribute) (vis : Visibility) (name : Word)
    (generics : List Code) (body : StructBody) :
    let i : Item := .struct attrs vis name generics body
    ItemsAwaiting siblings [i] rest [⟨⟨scope, attrs, name, body⟩, siblings, rest⟩] c names
      (addItem c names i).1 (addItem c names i).2 := by
  -- the struct is declared with its fields first, and a derived constructor comes last
  intro i
  let node := (c.declare name body.kind attrs).2
  let c₁ := addFields node { (c.declare name body.kind attrs).1 with
    structs := (c.declare name body.kind attrs).1.structs ++ [node] } 0 body.fields
  let c₂ := if derivesDefault attrs then c₁.addConstructor node "default" 0 name.pos else c₁
  obtain ⟨hkeeps, hstructs, hentered⟩ :
      Extends c.arena.size c c₁ ∧ c₁.structs = c.structs ++ [node] ∧
        c₁.Entered ⟨scope, attrs, name, body⟩ node := addStruct_entered hc scope attrs name body
  have hnode : node = ⟨c.arena.size⟩ := (declare_declared hc name body.kind attrs).id_eq
  have htype : ∃ decl, c₁.arena.typeDecl node = .ok decl := by
    obtain ⟨ms, hms⟩ := hentered.type_eq
    exact ⟨_, hms⟩
  have hold : ∀ t, c₁.arena.constructorDecls t = c.arena.constructorDecls t := fun t =>
    (addFields_constructorDecls node _ 0 body.fields t).trans
      (declare_constructorDecls hc name body.kind attrs t)
  obtain ⟨hext, hstructs', hderived⟩ :
      Extends c₁.arena.size c₁ c₂ ∧ c₂.structs = c₁.structs ∧ _ :=
    addDerived_constructorDecls hkeeps.wellFormed htype attrs name.pos _
  -- from now on the name stands for the new node
  have hknown₂ : c₂.Known ((name.text, node) :: names) :=
    ((hknown.mono hkeeps).mono hext).cons (hext.typeDecl htype)
  change ItemsAwaiting siblings [i] rest [⟨⟨scope, attrs, name, body⟩, siblings, rest⟩] c names
    c₂ ((name.text, node) :: names)
  refine ⟨?_, ?_, hknown₂, [node], hstructs'.trans hstructs, .cons ?_ .nil⟩
  · intro t ht
    have hne : t ≠ node := by
      rintro rfl
      rw [hnode] at ht
      exact absurd ht (Nat.lt_irrefl _)
    rw [hderived, if_neg hne, List.append_nil, hold]
  · intro m t ht
    rw [hnode]
    exact lookup_cons_iff ht
  · refine ⟨Nat.le_of_eq (by rw [hnode]), ?_, ?_, ?_⟩
    · exact Nat.lt_of_lt_of_le hentered.known hext.size_le
    · intro m hm
      rw [hnode] at hm
      exact hknown.name_eq hm
    · -- the node is new, so the derived constructor is its only one
      have hlookup : ((name.text, node) :: names : ScopeNames).lookup name.text = some node :=
        List.lookup_cons_self
      rw [hderived, if_pos rfl, hold, hnode, Arena.constructorDecls_size, ← hnode,
        List.nil_append]
      simp only [ScopedStruct.name, hlookup, true_and]
      rfl

mutual

/-- One item. -/
theorem addItem_awaiting (c : Catalogue) (hc : c.WellFormed) (names : ScopeNames)
    (hknown : c.Known names) (scope : List String) (siblings rest : List Item) :
    ∀ i : Item, ItemsAwaiting siblings [i] rest (i.scopedStructs scope siblings rest) c names
      (addItem c names i).1 (addItem c names i).2
  | .struct attrs vis name generics body =>
    addStruct_awaiting hc hknown scope siblings rest attrs vis name generics body
  | .nominal kind attrs lead name tail => by
    -- a type that is no struct is declared only, and none of the structs waits for it
    have hdecl := declare_declared hc name kind.kind attrs
    refine ⟨fun t _ => declare_constructorDecls hc name kind.kind attrs t, ?_, ?_, [],
      hdecl.structs_eq.trans (List.append_nil _).symm, .nil⟩
    · exact fun m t ht => lookup_cons_iff ht
    · exact (hknown.mono hdecl.keeps).cons ⟨_, hdecl.type_eq⟩
  | .use attrs vis global tree =>
    .of_kept rfl (fun _ _ => rfl) hknown (List.append_nil _).symm .nil
  | .module attrs lead name inner items => by
    -- the module is a scope of its own, complete when its blocks have been read
    have hentered := addItems_entered c hc [] (scope ++ [name.text]) items
    have hitems := addItems_awaiting c hc [] (fun _ _ h => by cases h) (scope ++ [name.text])
      items items
    obtain ⟨hkept, new, hnew, hall⟩ := hitems.complete hentered.keeps.wellFormed
    obtain ⟨hext, hstructs⟩ := foldl_extends (n := c.arena.size)
      (addImpl (addItems c [] items).2) (fun c hc x => addImpl_extends hc _ x _) items
      hentered.keeps.wellFormed
    refine .of_kept rfl hkept (hknown.mono (hentered.keeps.trans hext)) (hstructs.trans hnew)
      (hall.imp fun x node hx => ?_)
    obtain ⟨hstart, hlt, hconstructors⟩ := hx
    -- the scope around the module does not know its structs
    have hnone : ∀ m, names.lookup m ≠ some node := fun m hm =>
      absurd (hknown.index_lt hm) (Nat.not_lt.mpr hstart)
    refine ⟨hstart, Nat.lt_of_lt_of_le hlt hext.size_le, fun m hm => absurd hm (hnone m), ?_⟩
    rw [if_neg fun h => hnone _ h.1, List.append_nil]
    exact hconstructors
  | .impl attrs lead trait selfTy clause inner members =>
    .of_kept rfl (fun _ _ => rfl) hknown (List.append_nil _).symm .nil
  | .other shape parts =>
    .of_kept rfl (fun _ _ => rfl) hknown (List.append_nil _).symm .nil

/-- The items of a scope. -/
theorem addItems_awaiting (c : Catalogue) (hc : c.WellFormed) (names : ScopeNames)
    (hknown : c.Known names) (scope : List String) (siblings : List Item) :
    ∀ is : List Item, ItemsAwaiting siblings is [] (Item.scopedStructsList scope siblings is)
      c names (addItems c names is).1 (addItems c names is).2
  | [] => ⟨fun _ _ => rfl, by simp [addItems], hknown, [], (List.append_nil _).symm, .nil⟩
  | i :: is => by
    have hfirst := addItem_awaiting c hc names hknown scope siblings is i
    have hkeeps := (addItem_entered c hc names scope i).keeps
    have hrest := addItems_awaiting (addItem c names i).1 hkeeps.wellFormed (addItem c names i).2
      hfirst.known scope siblings is
    have hkeeps' := (addItems_entered (addItem c names i).1 hkeeps.wellFormed
      (addItem c names i).2 scope is).keeps
    exact hfirst.append hrest hkeeps.size_le hkeeps'.size_le

end

/-- **The constructors of a unit.** Every struct of a catalogue has the constructors that its own
derives and the `impl` blocks of its own scope give it, in this order, and no others. -/
theorem ofItems_constructorDecls (items : List Item) :
    List.Forall₂ (fun x node => (ofItems items).arena.constructorDecls node = x.constructors)
      (scopedStructs items) (ofItems items).structs := by
  have hentered := addItems_entered {} wellFormed_empty [] [] items
  have hitems := addItems_awaiting {} wellFormed_empty [] (fun _ _ h => by cases h) [] items items
  obtain ⟨-, new, hnew, hall⟩ := hitems.complete hentered.keeps.wellFormed
  obtain ⟨-, hstructs⟩ := foldl_extends (n := 0) (addImpl (addItems {} [] items).2)
    (fun c hc x => addImpl_extends hc _ x _) items hentered.keeps.wellFormed
  have hlist : (ofItems items).structs = new := hstructs.trans hnew
  rw [hlist]
  exact hall.imp fun x node hx => hx.2.2

end Catalogue

end FieldGraft
