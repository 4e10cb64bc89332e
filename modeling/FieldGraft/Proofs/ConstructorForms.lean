import FieldGraft.Proofs.ConstructorCredits
import FieldGraft.Proofs.RoundTurns

/-!
# What counts as a constructor

A struct takes fields if one of its constructors has no parameters. The catalogue finds these
constructors by name: it looks at the last segment of a self type, of a return type and of a trait,
and at nothing in front of it, at no `!` before the trait and at no `...` among the parameters.

* `ConstructorReading` — how the parts of an `impl` block are understood; `byName` is what the
  catalogue does, and `exact` is what the parts say.
* `Item.constructs_byName_iff` — where the two differ: a block that only `byName` takes for a
  constructor is `Item.Misread`, in one of four ways.
* `Catalogue.ofItems_hasFreeConstructor_iff` — the structs that have a constructor without
  parameters according to the catalogue.
* `Catalogue.ofItems_constructible` — no constructor is overlooked, and none is lost in a round.
-/

namespace FieldGraft

/-! ### Paths by their last segment -/

/-- A plain path that ends in `name`; the segments before it satisfy `front`. -/
inductive Path.Ends (front : List Segment → Prop) (name : String) : Path → Prop where
  | named {root : Option Position} {before : List Segment} {word : Word} {args : List Code}
      (hfront : front before) (hname : word.text = name) :
      Ends front name (.named root (before ++ [.mk word args]))

/-- Such a path as a type, with or without parentheses. -/
inductive Code.Ends (front : List Segment → Prop) (name : String) : Code → Prop where
  | path {p : Path} (h : p.Ends front name) : Ends front name (.path p)
  | paren {pos : Position} {c : Code} (h : c.Ends front name) :
      Ends front name (.node .parenType [.group pos .paren [c]])

/-- Any segments at all. -/
def Segment.Anything (_ : List Segment) : Prop :=
  True

/-- The segments `self` and `crate`, which lead to no other module. -/
def Segment.AllLocal (before : List Segment) : Prop :=
  ∀ s ∈ before, s.name.text = "self" ∨ s.name.text = "crate"

theorem Path.ends_anything_iff {p : Path} {name : String} :
    p.Ends Segment.Anything name ↔ p.lastName? = some name := by
  cases p with
  | qualified parts =>
    constructor <;> rintro ⟨⟩
  | named root segments =>
    constructor
    · rintro ⟨-, hname⟩
      simp [lastName?, Segment.name, hname]
    · -- back: the last segment has that name, whatever its arguments
      intro h
      obtain ⟨⟨word, args⟩, hlast, hname⟩ := Option.map_eq_some_iff.mp h
      obtain ⟨before, rfl⟩ := List.getLast?_eq_some_iff.mp hlast
      exact .named trivial hname

theorem Code.ends_anything_iff {c : Code} {name : String} :
    c.Ends Segment.Anything name ↔ c.simpleName? = some name := by
  constructor
  · intro h
    induction h with
    | path h => exact Path.ends_anything_iff.mp h
    | paren _ ih => exact ih
  · intro h
    induction c using Code.simpleName?.induct with
    | case1 p => exact .path (Path.ends_anything_iff.mpr h)
    | case2 pos c ih => exact .paren (ih h)
    -- neither a path nor one in parentheses has a name
    | case3 c hpath hparen =>
      rw [Code.simpleName?] at h
      · cases h
      · exact hpath
      · exact hparen

theorem Path.Ends.mono {front front' : List Segment → Prop} {name : String} {p : Path}
    (h : p.Ends front name) (hfront : ∀ before, front before → front' before) :
    p.Ends front' name := by
  obtain ⟨hbefore, hname⟩ := h
  exact .named (hfront _ hbefore) hname

theorem Code.Ends.mono {front front' : List Segment → Prop} {name : String} {c : Code}
    (h : c.Ends front name) (hfront : ∀ before, front before → front' before) :
    c.Ends front' name := by
  induction h with
  | path h => exact .path (h.mono hfront)
  | paren _ ih => exact .paren ih

/-! ### Derived constructors -/

/-- An attribute `derive` with a well-formed list of paths, one of which ends in `name`. -/
inductive Attribute.Derives (name : String) : Attribute → Prop where
  | list {inner global : Bool} {path : List Word} {delim : Delimiter} {body : List TokenTree}
      {paths : List Path} {trailing : Bool} {p : Path}
      (hderive : (Attribute.mk inner global path (.list delim body)).ident? = some "derive")
      (hread : Parser.runAll (Parser.terminated ((grammarFor body).namedPath false)) body =
        .ok (paths, trailing))
      (hmem : p ∈ paths) (hname : p.Ends Segment.Anything name) :
      Derives name (.mk inner global path (.list delim body))

theorem derivesDefault_iff {attrs : List Attribute} :
    derivesDefault attrs = true ↔ ∃ a ∈ attrs, a.Derives "Default" := by
  rw [derivesDefault, List.any_eq_true]
  refine exists_congr fun a => and_congr_right fun _ => ?_
  constructor
  · -- an attribute that is not read as a list of paths derives nothing
    intro h
    split at h
    · next inner global path delim body hderive =>
      split at h
      · next paths trailing hread =>
        obtain ⟨p, hmem, hname⟩ := List.any_eq_true.mp h
        exact .list hderive hread hmem (Path.ends_anything_iff.mpr (beq_iff_eq.mp hname))
      · cases h
    · cases h
  · rintro ⟨hderive, hread, hmem, hname⟩
    simp only [hderive, hread]
    exact List.any_eq_true.mpr
      ⟨_, hmem, beq_iff_eq.mpr (Path.ends_anything_iff.mp hname)⟩

/-! ### Constructors in `impl` blocks -/

/-- How the parts of an `impl` block are understood. -/
structure ConstructorReading where
  /-- The self types that are the struct. -/
  self : Code → Prop
  /-- The return types that are the struct. -/
  returns : Code → Prop
  /-- The parameter lists without parameters. -/
  free : List Param → Prop
  /-- Whether `!Default` counts as `Default`. -/
  negative : Prop

namespace ConstructorReading

/-- By the last names of paths, and with `...` for no parameter. -/
def byName (name : String) : ConstructorReading where
  self := Code.Ends Segment.Anything name
  returns := fun ty => ty.Ends Segment.Anything "Self" ∨ ty.Ends Segment.Anything name
  free := fun params => ∀ p ∈ params, Catalogue.isCounted p = false
  negative := True

/-- By what is written: a path to another module is another type. -/
def exact (name : String) : ConstructorReading where
  self := Code.Ends Segment.AllLocal name
  returns := fun ty => ty.Ends (· = []) "Self" ∨ ty.Ends Segment.AllLocal name
  free := (· = [])
  negative := False

/-- By name, the return type being one of another module. -/
def foreignReturn (name : String) : ConstructorReading :=
  { byName name with returns := fun ty => (byName name).returns ty ∧ ¬ (exact name).returns ty }

/-- By name, with a `...` that is no parameter. -/
def variadic (name : String) : ConstructorReading :=
  { byName name with free := fun params => (byName name).free params ∧ params ≠ [] }

end ConstructorReading

/-- A function that makes a value of the struct out of nothing. -/
inductive Code.Makes (m : ConstructorReading) : Code → Prop where
  | fn {lead generics tail : List Code} {name : Word} {params : List Param} {trailing : Bool}
      {arrow ty : Code} (hfree : m.free params) (hreturns : m.returns ty) :
      Makes m (.fn lead name generics params trailing [arrow, ty] tail)

/-- An `impl` block with a constructor without parameters: one of `Default`, or an inherent one with
a function that is one. -/
inductive Item.Constructs (m : ConstructorReading) : Item → Prop where
  | default {attrs inner : List Attribute} {lead clause members : List Code} {negative : Bool}
      {path : Path} {selfTy : Code} (hself : m.self selfTy) (hsign : negative = true → m.negative)
      (hpath : path.Ends Segment.Anything "Default") :
      Constructs m (.impl attrs lead (.of negative path) selfTy clause inner members)
  | member {attrs inner : List Attribute} {lead clause members : List Code} {selfTy member : Code}
      (hself : m.self selfTy) (hmem : member ∈ members) (hmakes : member.Makes m) :
      Constructs m (.impl attrs lead .inherent selfTy clause inner members)

/-- **The blocks that are misread** as a constructor of the type `name` of their scope: a negative
block, a block for a type of another module, a function that returns such a type, and a function
with a `...` parameter. -/
inductive Item.Misread (name : String) : Item → Prop where
  | negative {attrs inner : List Attribute} {lead clause members : List Code} {path : Path}
      {selfTy : Code} (hself : (ConstructorReading.byName name).self selfTy)
      (hpath : path.Ends Segment.Anything "Default") :
      Misread name (.impl attrs lead (.of true path) selfTy clause inner members)
  | foreignSelf {attrs inner : List Attribute} {lead clause members : List Code}
      {trait : TraitRef} {selfTy : Code}
      (hread : (Item.impl attrs lead trait selfTy clause inner members).Constructs (.byName name))
      (hforeign : ¬ (ConstructorReading.exact name).self selfTy) :
      Misread name (.impl attrs lead trait selfTy clause inner members)
  | foreignReturn {attrs inner : List Attribute} {lead clause members : List Code}
      {selfTy member : Code} (hself : (ConstructorReading.byName name).self selfTy)
      (hmem : member ∈ members) (hmakes : member.Makes (.foreignReturn name)) :
      Misread name (.impl attrs lead .inherent selfTy clause inner members)
  | variadic {attrs inner : List Attribute} {lead clause members : List Code}
      {selfTy member : Code} (hself : (ConstructorReading.byName name).self selfTy)
      (hmem : member ∈ members) (hmakes : member.Makes (.variadic name)) :
      Misread name (.impl attrs lead .inherent selfTy clause inner members)

/-- What is written as a constructor is found by name. -/
theorem Item.Constructs.byName {name : String} {i : Item} (h : i.Constructs (.exact name)) :
    i.Constructs (.byName name) := by
  have hself : ∀ ty, (ConstructorReading.exact name).self ty →
      (ConstructorReading.byName name).self ty := fun ty hty => hty.mono fun _ _ => trivial
  cases h with
  | default hty _ hpath => exact .default (hself _ hty) (fun _ => trivial) hpath
  | member hty hmem hmakes =>
    obtain ⟨rfl, hreturns⟩ := hmakes
    refine .member (hself _ hty) hmem (.fn (fun _ hp => absurd hp List.not_mem_nil) ?_)
    exact hreturns.imp (fun h => h.mono fun _ _ => trivial) (fun h => h.mono fun _ _ => trivial)

theorem Item.Misread.constructs {name : String} {i : Item} (h : i.Misread name) :
    i.Constructs (.byName name) := by
  cases h with
  | negative hself hpath => exact .default hself (fun _ => trivial) hpath
  | foreignSelf hread _ => exact hread
  | foreignReturn hself hmem hmakes =>
    obtain ⟨hfree, hreturns⟩ := hmakes
    exact .member hself hmem (.fn hfree hreturns.1)
  | variadic hself hmem hmakes =>
    obtain ⟨hfree, hreturns⟩ := hmakes
    exact .member hself hmem (.fn hfree.1 hreturns)

/-- **What is found by name** is written as a constructor or misread. -/
theorem Item.constructs_byName_iff {name : String} {i : Item} :
    i.Constructs (.byName name) ↔ i.Constructs (.exact name) ∨ i.Misread name := by
  refine ⟨fun h => ?_, fun h => h.elim Item.Constructs.byName Item.Misread.constructs⟩
  -- the first part that the exact reading objects to says how the block is misread
  cases h with
  | @default attrs inner lead clause members negative path selfTy hself _ hpath =>
    -- the block is for the type itself or for another of that name
    by_cases hforeign : (ConstructorReading.exact name).self selfTy
    · cases negative with
      | true => exact .inr (.negative hself hpath)
      | false => exact .inl (.default hforeign Bool.noConfusion hpath)
    · exact .inr (.foreignSelf (.default hself (fun _ => trivial) hpath) hforeign)
  | @member attrs inner lead clause members selfTy member hself hmem hmakes =>
    by_cases hforeign : (ConstructorReading.exact name).self selfTy
    · obtain @⟨_, _, _, _, params, _, _, ty, hfree, hreturns⟩ := hmakes
      by_cases hexact : (ConstructorReading.exact name).returns ty
      · by_cases hparams : params = []
        · exact .inl (.member hforeign hmem (.fn hparams hexact))
        · exact .inr (.variadic hself hmem (.fn ⟨hfree, hparams⟩ hreturns))
      · exact .inr (.foreignReturn hself hmem (.fn hfree ⟨hreturns, hexact⟩))
    · exact .inr (.foreignSelf (.member hself hmem hmakes) hforeign)

/-! ### What the catalogue finds -/

theorem Catalogue.returnsSelf_iff {name : String} {output : List Code} :
    Catalogue.returnsSelf name output = true ↔
      ∃ arrow ty, output = [arrow, ty] ∧ (ConstructorReading.byName name).returns ty := by
  have hname : ∀ ty : Code, ty.simpleName?.any (fun n => n == "Self" || n == name) = true ↔
      (ConstructorReading.byName name).returns ty := by
    intro ty
    simp only [ConstructorReading.byName, Code.ends_anything_iff]
    cases ty.simpleName? <;> simp
  unfold Catalogue.returnsSelf
  split
  · next arrow ty => simp [hname]
  · next hshape =>
    simp only [Bool.false_eq_true, false_iff]
    rintro ⟨arrow, ty, rfl, -⟩
    exact hshape arrow ty rfl

/-- A list without counted parameters has no receiver either. -/
theorem ConstructorReading.byName_free_iff {name : String} {params : List Param} :
    (byName name).free params ↔ params.any Catalogue.isReceiver = false ∧
      (params.filter Catalogue.isCounted).length = 0 := by
  rw [List.length_eq_zero_iff, List.filter_eq_nil_iff, List.any_eq_false]
  simp only [byName, Bool.not_eq_true]
  refine ⟨fun h => ⟨fun p hp => ?_, h⟩, fun h => h.2⟩
  -- what is not counted is `...`
  obtain ⟨role, parts⟩ := p
  have hrole := h _ hp
  cases role with
  | variadic => rfl
  | receiver => cases hrole
  | typed => cases hrole

theorem Code.constructor?_free_iff {name : String} {c : Code} :
    (∃ k, c.constructor? name = some k ∧ k.params = 0) ↔ c.Makes (.byName name) := by
  constructor
  · -- what counts as a constructor has no receiver, as one would be counted
    rintro ⟨k, hk, hparams⟩
    unfold Code.constructor? at hk
    split at hk
    · next lead fnName generics params trailing output tail =>
      split at hk
      · cases hk
      · next hreads =>
        rw [Bool.or_eq_true, not_or, Bool.not_eq_true, Bool.not_eq_true,
          Bool.not_eq_false'] at hreads
        obtain ⟨arrow, ty, rfl, hreturns⟩ := Catalogue.returnsSelf_iff.mp hreads.2
        cases hk
        exact .fn (ConstructorReading.byName_free_iff.mpr ⟨hreads.1, hparams⟩) hreturns
    · cases hk
  · rintro @⟨lead, generics, tail, fnName, params, trailing, arrow, ty, hfree, hreturns⟩
    obtain ⟨hreceiver, hlength⟩ := ConstructorReading.byName_free_iff.mp hfree
    have hself := Catalogue.returnsSelf_iff.mpr ⟨arrow, ty, rfl, hreturns⟩
    exact ⟨⟨fnName.text, _⟩, by simp [Code.constructor?, hreceiver, hself], hlength⟩

/-- **A block gives a constructor without parameters** iff it constructs the type by name. -/
theorem Item.constructorsFor_free_iff {name : String} {i : Item} :
    (∃ k ∈ i.constructorsFor name, k.params = 0) ↔ i.Constructs (.byName name) := by
  constructor
  · rintro ⟨k, hk, hparams⟩
    unfold Item.constructorsFor at hk
    split at hk
    · next attrs lead trait selfTy clause inner members =>
      split at hk
      · next hself =>
        have hends := Code.ends_anything_iff.mpr hself
        -- a block for a trait gives the one constructor, an inherent one those of its members
        cases trait with
        | of negative path =>
          simp only at hk
          split at hk
          · next hpath =>
            exact .default hends (fun _ => trivial) (Path.ends_anything_iff.mpr hpath)
          · exact absurd hk List.not_mem_nil
        | inherent =>
          obtain ⟨member, hmem, hmember⟩ := List.mem_filterMap.mp hk
          exact .member hends hmem (Code.constructor?_free_iff.mp ⟨k, hmember, hparams⟩)
      · exact absurd hk List.not_mem_nil
    · exact absurd hk List.not_mem_nil
  · intro h
    cases h with
    | default hself _ hpath =>
      refine ⟨⟨"default", 0⟩, ?_, rfl⟩
      simp [Item.constructorsFor, Code.ends_anything_iff.mp hself,
        Path.ends_anything_iff.mp hpath]
    | member hself hmem hmakes =>
      obtain ⟨k, hk, hparams⟩ := Code.constructor?_free_iff.mpr hmakes
      refine ⟨k, ?_, hparams⟩
      simp only [Item.constructorsFor, Code.ends_anything_iff.mp hself, if_true]
      exact List.mem_filterMap.mpr ⟨_, hmem, hk⟩

/-- A struct has a constructor without parameters if `Default` is derived, or if it is the last of
its name and a block of its scope constructs it by name. -/
theorem ScopedStruct.constructors_free_iff {x : ScopedStruct} :
    x.constructors.any (fun k => k.params == 0) = true ↔
      (∃ a ∈ x.decl.attrs, a.Derives "Default") ∨
        x.IsLast ∧ ∃ i ∈ x.siblings, i.Constructs (.byName x.name) := by
  have hderived : ((if derivesDefault x.decl.attrs then [⟨"default", 0⟩] else [] :
      List ConstructorDecl).any fun k => k.params == 0) = true ↔
        ∃ a ∈ x.decl.attrs, a.Derives "Default" := by
    rw [← derivesDefault_iff]
    split <;> simp_all
  -- the node that the blocks serve is that of the last struct of the name
  have hblocks : ((if x.IsLast then x.siblings.flatMap (Item.constructorsFor x.name) else []).any
      fun k => k.params == 0) = true ↔
        x.IsLast ∧ ∃ i ∈ x.siblings, i.Constructs (.byName x.name) := by
    by_cases hlast : x.IsLast
    · rw [if_pos hlast]
      simp only [List.any_flatMap, List.any_eq_true, beq_iff_eq, Item.constructorsFor_free_iff,
        hlast, true_and]
    · simp [hlast]
  rw [constructors, List.any_append, Bool.or_eq_true, hderived, hblocks]

/-! ### Rounds -/

/-- A type keeps its constructors throughout a round. -/
theorem Arena.turns_constructorDecls (a : Arena) (placement : Placement) (types : TypeResolver)
    (batch : List Target) (t : NodeId) :
    ∀ x ∈ a.turns placement types batch, x.arena.constructorDecls t = a.constructorDecls t := by
  -- of the turns so far, and of the arena that the next one meets
  let motive : List Turn → Progress → Prop := fun seen p =>
    (∀ x ∈ seen, x.arena.constructorDecls t = a.constructorDecls t) ∧
      p.arena.constructorDecls t = a.constructorDecls t
  refine (Progress.turns_induction (motive := motive) ?_ ⟨by simp, rfl⟩ batch).1
  rintro seen p count u r ⟨hseen, hp⟩
  refine ⟨?_, ?_⟩
  · rw [List.forall_mem_append, List.forall_mem_singleton]
    exact ⟨hseen, hp⟩
  · rcases Progress.request_cases types placement u p count r with
      ⟨-, hskips, -⟩ | ⟨ty, -, -, hadds, -⟩
    · rw [hskips.arena_eq, hp]
    · -- a field is no constructor
      rw [hadds.inserted.constructorDecls_of_field, hp]

/-- A type with a constructor without parameters is not refused for want of one. -/
theorem Arena.evaluate_ne_missing {a : Arena} {t : NodeId} (h : a.hasFreeConstructor t = true)
    (name : String) (u : NodeId) (field : String) :
    a.evaluate t name ≠ .missingConstructor u field := by
  rcases a.evaluate_cases t name with
    ⟨-, kind, hv⟩ | ⟨-, f, -, hv⟩ | ⟨-, -, ⟨hno, -⟩ | ⟨-, hv⟩⟩
  · rw [hv]
    exact Verdict.noConfusion
  · rw [hv]
    exact Verdict.noConfusion
  · rw [h] at hno
    cases hno
  · rw [hv]
    exact Verdict.noConfusion

namespace Catalogue

/-- The structs of a unit with their nodes, and when they have a constructor without parameters. -/
theorem ofItems_credited (items : List Item) :
    List.Forall₂ (fun x node => x.Stands ∧ (ofItems items).Entered x.decl node ∧
      ((ofItems items).arena.hasFreeConstructor node = true ↔
        (∃ a ∈ x.decl.attrs, a.Derives "Default") ∨
          x.IsLast ∧ ∃ i ∈ x.siblings, i.Constructs (.byName x.name)))
      (scopedStructs items) (ofItems items).structs := by
  have hentered := (ofItems_entered items).2
  rw [← Item.map_decl_scopedStructsList [] items items, List.forall₂_map_left_iff,
    List.forall₂_iff_zip] at hentered
  have hconstructors := List.forall₂_iff_zip.mp (ofItems_constructorDecls items)
  refine List.forall₂_iff_zip.mpr ⟨hentered.1, fun {x node} hmem => ⟨?_, hentered.2 hmem, ?_⟩⟩
  · exact Item.stands_of_mem_scopedStructsList [] [] items x (List.of_mem_zip hmem).1
  · rw [Arena.hasFreeConstructor_eq, hconstructors.2 hmem, ScopedStruct.constructors_free_iff]

/-- **Which structs have a constructor without parameters.** It is derived, or the struct is the
last of its name and a block of its own scope is a constructor of it, as it is written or because it
is misread. -/
theorem ofItems_hasFreeConstructor_iff (items : List Item) :
    List.Forall₂ (fun x node => (ofItems items).Entered x.decl node ∧
      ((ofItems items).arena.hasFreeConstructor node = true ↔
        (∃ a ∈ x.decl.attrs, a.Derives "Default") ∨
          x.IsLast ∧ ∃ i ∈ x.siblings, i.Constructs (.exact x.name) ∨ i.Misread x.name))
      (scopedStructs items) (ofItems items).structs := by
  refine (ofItems_credited items).imp fun x node h => ⟨h.2.1, ?_⟩
  simp only [← Item.constructs_byName_iff]
  exact h.2.2

/-- A type that is one name. -/
def typeNamed (name : String) : Code :=
  .path (.named none [.mk ⟨name, {}⟩ []])

/-- A struct without fields. -/
def emptyStruct (name : String) : Item :=
  .struct [] .inherited ⟨name, {}⟩ [] (.named [] [] false)

/-- `impl !Default for T` gives `T` a constructor. -/
example :
    (ofItems [emptyStruct "T",
      .impl [] [] (.of true (.named none [.mk ⟨"Default", {}⟩ []])) (typeNamed "T") [] [] []]
    ).arena.hasFreeConstructor ⟨0⟩ = true := by
  decide

/-- **No constructor is overlooked.** The structs of the unit and their nodes go in pairs. If no
other type of its scope has the name of a struct, and `Default` is derived or some block of the
scope, before the struct or behind it, constructs the struct by name, then its node has a
constructor without parameters, and no turn of any round refuses the struct for want of one. -/
theorem ofItems_constructible (items : List Item) :
    (scopedStructs items).map ScopedStruct.decl = Item.structDeclsList [] items ∧
    List.Forall₂ (fun x node => (ofItems items).Entered x.decl node ∧
      (x.IsUnique →
        (∃ a ∈ x.decl.attrs, a.Derives "Default") ∨
          (∃ i ∈ x.siblings, i.Constructs (.byName x.name)) →
        (ofItems items).arena.hasFreeConstructor node = true ∧
        ∀ placement types batch, ∀ turn ∈ (ofItems items).arena.turns placement types batch,
          turn.target = node → ∀ u field,
            turn.arena.evaluate turn.target turn.request.name ≠ .missingConstructor u field))
      (scopedStructs items) (ofItems items).structs := by
  refine ⟨Item.map_decl_scopedStructsList [] items items, (ofItems_credited items).imp ?_⟩
  rintro x node ⟨hstands, hentered, hiff⟩
  refine ⟨hentered, fun hunique hgiven => ?_⟩
  -- the only struct of its name is the last one, so the blocks are its own
  have hfree : (ofItems items).arena.hasFreeConstructor node = true :=
    hiff.mpr (hgiven.imp_right fun h => ⟨hstands.isLast hunique, h⟩)
  refine ⟨hfree, ?_⟩
  rintro placement types batch turn hturn rfl u field
  refine Arena.evaluate_ne_missing ?_ _ u field
  -- earlier turns add fields and no constructors
  rw [Arena.hasFreeConstructor_eq] at hfree ⊢
  rw [Arena.turns_constructorDecls _ placement types batch _ turn hturn, hfree]

/-- `impl T { fn new() -> Self }` before `mod m { struct T {} }` and the struct `T` that it is for.
-/
def constructedBefore : List Item :=
  [.impl [] [] .inherent (typeNamed "T") [] []
      [.fn [] ⟨"new", {}⟩ [] [] false [.op {} "->", typeNamed "Self"] []],
    .module [] [] ⟨"m", {}⟩ [] [emptyStruct "T"],
    emptyStruct "T"]

/-- The struct behind the module. -/
def structBehind : ScopedStruct :=
  ⟨⟨[], [], ⟨"T", {}⟩, .named [] [] false⟩, constructedBefore, []⟩

/-- The struct behind the module has the constructor, the one inside has none. -/
theorem ofItems_constructible_before :
    (structBehind, ⟨1⟩) ∈
      (scopedStructs constructedBefore).zip (ofItems constructedBefore).structs ∧
    structBehind.IsUnique ∧
    (∃ i ∈ structBehind.siblings, i.Constructs (.byName structBehind.name)) ∧
    (ofItems constructedBefore).arena.hasFreeConstructor ⟨0⟩ = false ∧
    (ofItems constructedBefore).arena.hasFreeConstructor ⟨1⟩ = true ∧
    ∀ placement types batch,
      ∀ turn ∈ (ofItems constructedBefore).arena.turns placement types batch,
        turn.target = ⟨1⟩ → ∀ u field,
          turn.arena.evaluate turn.target turn.request.name ≠ .missingConstructor u field := by
  have hmem : (structBehind, ⟨1⟩) ∈
      (scopedStructs constructedBefore).zip (ofItems constructedBefore).structs :=
    List.mem_of_getElem? (i := 1) rfl
  have hunique : structBehind.IsUnique := rfl
  have hself : (ConstructorReading.byName "T").self (typeNamed "T") :=
    Code.ends_anything_iff.mpr rfl
  have hreturns : (ConstructorReading.byName "T").returns (typeNamed "Self") :=
    .inl (Code.ends_anything_iff.mpr rfl)
  have hgiven : ∃ i ∈ structBehind.siblings, i.Constructs (.byName structBehind.name) :=
    ⟨_, List.mem_cons_self, .member hself List.mem_cons_self
      (.fn (fun _ hp => absurd hp List.not_mem_nil) hreturns)⟩
  obtain ⟨-, hconstructible⟩ :=
    (List.forall₂_iff_zip.mp (ofItems_constructible constructedBefore).2).2 hmem
  exact ⟨hmem, hunique, hgiven, by decide, hconstructible hunique (.inr hgiven)⟩

end Catalogue

end FieldGraft
