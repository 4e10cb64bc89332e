import FieldGraft.Proofs.FieldPlacement

/-!
# Rounds that add nothing

A round in which no field is added, for whatever reason, still removes the annotations. What is left
of the items is described without the round: `Item.erased` takes the attributes `fielder` and
`add_fields` off every type at file level and in inline modules, and touches nothing else.

* `Item.emitList_removed` — how many annotations emission removes depends on the items alone.
* `Item.emitList_erased` — without new fields emission is erasure. The cursor over the structs moves
  on as always; it is only that no struct is rebuilt and no scope has anything to complete.
* `Item.erasedList_eq_self_iff` — erasure changes the items exactly if there is something to erase,
  so the number of removed annotations tells whether the items are the old ones.
-/

namespace FieldGraft

/-! ### The attributes of types -/

mutual

/-- The attributes that a round reads: those of types, in inline modules as well. -/
def Item.typeAttrs : Item → List Attribute
  | .struct attrs _ _ _ _ => attrs
  | .nominal _ attrs _ _ _ => attrs
  | .module _ _ _ _ items => Item.typeAttrsList items
  | .use _ _ _ _ => []
  | .impl _ _ _ _ _ _ _ => []
  | .other _ _ => []

/-- The attributes of the types in a list of items. -/
def Item.typeAttrsList : List Item → List Attribute
  | [] => []
  | i :: is => i.typeAttrs ++ Item.typeAttrsList is

end

/-- None of the attributes requests a field. -/
def Unannotated (attrs : List Attribute) : Prop :=
  ∀ a ∈ attrs, a.isAnnotation = false

@[simp] theorem unannotated_nil : Unannotated [] :=
  fun _ ha => absurd ha List.not_mem_nil

@[simp] theorem unannotated_append {as bs : List Attribute} :
    Unannotated (as ++ bs) ↔ Unannotated as ∧ Unannotated bs :=
  List.forall_mem_append

theorem unannotated_stripAnnotations (attrs : List Attribute) :
    Unannotated (stripAnnotations attrs) := by
  intro a ha
  obtain ⟨-, hkept⟩ := List.mem_filter.mp ha
  simpa using hkept

/-! ### Erasure -/

/-- The attribute is named `fielder` or `add_fields`. -/
def Attribute.isRequest (a : Attribute) : Bool :=
  a.ident? = some "fielder" ∨ a.ident? = some "add_fields"

mutual

/-- **The item without its annotations.** Only those of types go, in inline modules as well. -/
def Item.erased : Item → Item
  | .struct attrs vis name generics body =>
    .struct (attrs.filter (fun a => !a.isRequest)) vis name generics body
  | .nominal kind attrs lead name tail =>
    .nominal kind (attrs.filter (fun a => !a.isRequest)) lead name tail
  | .module attrs lead name inner items => .module attrs lead name inner (Item.erasedList items)
  | .use attrs vis global tree => .use attrs vis global tree
  | .impl attrs lead trait selfTy clause inner members =>
    .impl attrs lead trait selfTy clause inner members
  | .other shape parts => .other shape parts

def Item.erasedList : List Item → List Item
  | [] => []
  | i :: is => i.erased :: Item.erasedList is

end

theorem Attribute.isAnnotation_eq (a : Attribute) : a.isAnnotation = a.isRequest := by
  unfold isAnnotation isRequest Annotations.single Annotations.multiple
  cases a.ident? with
  | none => rfl
  | some name => simp [Bool.beq_eq_decide_eq]

theorem stripAnnotations_eq (attrs : List Attribute) :
    stripAnnotations attrs = attrs.filter (fun a => !a.isRequest) := by
  simp only [stripAnnotations, Attribute.isAnnotation_eq]

theorem countAnnotations_eq (attrs : List Attribute) :
    countAnnotations attrs = attrs.countP Attribute.isRequest := by
  rw [countAnnotations, List.countP_eq_length_filter, funext Attribute.isAnnotation_eq]

theorem Unannotated.filter_eq {attrs : List Attribute} (h : Unannotated attrs) :
    attrs.filter (fun a => !a.isRequest) = attrs := by
  refine List.filter_eq_self.mpr fun a ha => ?_
  rw [← Attribute.isAnnotation_eq, h a ha]
  rfl

theorem unannotated_iff_countP {attrs : List Attribute} :
    Unannotated attrs ↔ attrs.countP Attribute.isRequest = 0 := by
  simp only [Unannotated, List.countP_eq_zero, Attribute.isAnnotation_eq, Bool.not_eq_true]

mutual

/-- The attributes that erasure leaves. -/
theorem Item.typeAttrs_erased :
    ∀ i : Item, i.erased.typeAttrs = i.typeAttrs.filter (fun a => !a.isRequest)
  | .struct _ _ _ _ _ => rfl
  | .nominal _ _ _ _ _ => rfl
  | .module _ _ _ _ items => Item.typeAttrsList_erasedList items
  | .use _ _ _ _ => rfl
  | .impl _ _ _ _ _ _ _ => rfl
  | .other _ _ => rfl

theorem Item.typeAttrsList_erasedList :
    ∀ is : List Item, Item.typeAttrsList (Item.erasedList is) =
      (Item.typeAttrsList is).filter (fun a => !a.isRequest)
  | [] => rfl
  | i :: is => by
    rw [Item.erasedList, Item.typeAttrsList, Item.typeAttrsList, List.filter_append,
      Item.typeAttrs_erased i, Item.typeAttrsList_erasedList is]

end

mutual

theorem Item.erased_eq_self : ∀ i : Item, Unannotated i.typeAttrs → i.erased = i
  | .struct attrs _ _ _ _, h => by
    have hkept : attrs.filter (fun a => !a.isRequest) = attrs := Unannotated.filter_eq h
    rw [Item.erased, hkept]
  | .nominal _ attrs _ _ _, h => by
    have hkept : attrs.filter (fun a => !a.isRequest) = attrs := Unannotated.filter_eq h
    rw [Item.erased, hkept]
  | .module _ _ _ _ items, h => by
    rw [Item.erased, Item.erasedList_eq_self items h]
  | .use _ _ _ _, _ => rfl
  | .impl _ _ _ _ _ _ _, _ => rfl
  | .other _ _, _ => rfl

theorem Item.erasedList_eq_self :
    ∀ is : List Item, Unannotated (Item.typeAttrsList is) → Item.erasedList is = is
  | [], _ => rfl
  | i :: is, h => by
    obtain ⟨hi, his⟩ := unannotated_append.mp h
    rw [Item.erasedList, Item.erased_eq_self i hi, Item.erasedList_eq_self is his]

end

/-- **Erasure leaves exactly those items alone that have nothing to erase.** -/
theorem Item.erasedList_eq_self_iff {items : List Item} :
    Item.erasedList items = items ↔ Unannotated (Item.typeAttrsList items) := by
  refine ⟨fun h => ?_, Item.erasedList_eq_self items⟩
  -- the attributes of the types are what erasure leaves of them
  have hattrs := Item.typeAttrsList_erasedList items
  rw [h, ← stripAnnotations_eq] at hattrs
  rw [hattrs]
  exact unannotated_stripAnnotations _

/-! ### Emission without new fields -/

mutual

/-- How many annotations emission removes depends on the item alone. -/
theorem Item.emit_removed (e : Emission) (structs : List NodeId) :
    ∀ i : Item, (i.emit e structs).removed = i.typeAttrs.countP Attribute.isRequest
  | .struct attrs vis name generics body => by
    -- with or without a node for the struct
    cases structs <;> exact countAnnotations_eq attrs
  | .nominal kind attrs lead name tail => countAnnotations_eq attrs
  | .module attrs lead name inner items => Item.emitList_removed e structs items
  | .use attrs vis global tree => rfl
  | .impl attrs lead trait selfTy clause inner members => rfl
  | .other shape parts => rfl

theorem Item.emitList_removed (e : Emission) (structs : List NodeId) :
    ∀ is : List Item, (Item.emitList e structs is).removed =
      (Item.typeAttrsList is).countP Attribute.isRequest
  | [] => rfl
  | i :: is => by
    rw [Item.emitList, Item.typeAttrsList, List.countP_append]
    exact congrArg₂ (· + ·) (Item.emit_removed e structs i) (Item.emitList_removed e _ is)

end

/-- No struct has received a name. -/
theorem Emission.structBody_self {e : Emission} (he : e.summary.injected = []) (node : NodeId)
    (body : StructBody) : e.structBody node body = (body, []) := by
  have hnames : e.newNames node = [] := by
    rw [newNames, Summary.injectedInto, he]
    rfl
  unfold structBody
  rw [hnames]
  cases body <;> rfl

mutual

/-- **Without new fields an item is only erased**, and it reports nothing to the scope around it. -/
theorem Item.emit_erased {e : Emission} (he : e.summary.injected = []) (structs : List NodeId) :
    ∀ i : Item, (i.emit e structs).value = i.erased ∧ (i.emit e structs).received = []
  | .struct attrs vis name generics body => by
    cases structs with
    | nil =>
      rw [Item.emit, Item.erased, stripAnnotations_eq]
      exact ⟨rfl, rfl⟩
    | cons node rest =>
      -- the node of the struct is taken off the list, and nothing comes of it
      rw [Item.emit, Item.erased, stripAnnotations_eq, Emission.structBody_self he]
      exact ⟨rfl, rfl⟩
  | .nominal kind attrs lead name tail => by
    rw [Item.emit, Item.erased, stripAnnotations_eq]
    exact ⟨rfl, rfl⟩
  | .module attrs lead name inner items => by
    obtain ⟨hvalue, hreceived⟩ := Item.emitList_erased he structs items
    rw [Item.emit, Item.erased]
    dsimp only
    -- nothing was received in the module, so it is not completed
    rw [hvalue, hreceived]
    exact ⟨rfl, rfl⟩
  | .use attrs vis global tree => ⟨rfl, rfl⟩
  | .impl attrs lead trait selfTy clause inner members => ⟨rfl, rfl⟩
  | .other shape parts => ⟨rfl, rfl⟩

theorem Item.emitList_erased {e : Emission} (he : e.summary.injected = [])
    (structs : List NodeId) :
    ∀ is : List Item, (Item.emitList e structs is).value = Item.erasedList is ∧
      (Item.emitList e structs is).received = []
  | [] => ⟨rfl, rfl⟩
  | i :: is => by
    obtain ⟨hvalue, hreceived⟩ := Item.emit_erased he structs i
    obtain ⟨hvalues, hreceiveds⟩ := Item.emitList_erased he (i.emit e structs).structs is
    rw [Item.emitList, Item.erasedList]
    dsimp only
    rw [hvalue, hvalues, hreceived, hreceiveds]
    exact ⟨rfl, rfl⟩

end

namespace Session

theorem annotations_eq (s : Session) (items : List Item) :
    (s.injectItems items).2.2.annotations =
      (Item.typeAttrsList items).countP Attribute.isRequest :=
  Item.emitList_removed _ _ items

theorem items_eq_erasedList {s : Session} {items : List Item}
    (h : (s.injectItems items).2.2.summary.injected = []) :
    (s.injectItems items).2.1 = Item.erasedList items := by
  obtain ⟨hvalue, hreceived⟩ := Item.emitList_erased
    (e := (Catalogue.ofItems items).emission s.placement s.authorize.2.1) h
    (Catalogue.ofItems items).structs items
  -- the unit is a scope too, and it has received as little as the others
  calc (s.injectItems items).2.1
      = completeScope
          (Item.emitList ((Catalogue.ofItems items).emission s.placement s.authorize.2.1)
            (Catalogue.ofItems items).structs items).received
          (Item.emitList ((Catalogue.ofItems items).emission s.placement s.authorize.2.1)
            (Catalogue.ofItems items).structs items).value := rfl
    _ = completeScope [] (Item.erasedList items) := by rw [hreceived, hvalue]
    _ = Item.erasedList items := rfl

/-- **Without new fields only annotations disappear.** If a round adds no field, be it that access
is denied, that every request is refused or that there is none, then the emitted items are the
erased ones. The reported number of annotations is the number of those that were removed, and it is
zero exactly if the items are what they were. -/
theorem injectItems_erases (s : Session) (items : List Item)
    (h : (s.injectItems items).2.2.summary.injected = []) :
    (s.injectItems items).2.1 = Item.erasedList items ∧
    (s.injectItems items).2.2.annotations =
      (Item.typeAttrsList items).countP Attribute.isRequest ∧
    ((s.injectItems items).2.2.annotated = false ↔ (s.injectItems items).2.1 = items) := by
  have herased := items_eq_erasedList h
  refine ⟨herased, s.annotations_eq items, ?_⟩
  -- both sides say that no type carries an annotation
  rw [herased, Item.erasedList_eq_self_iff, unannotated_iff_countP, RoundReport.annotated,
    s.annotations_eq items]
  simp

end Session

/-- A module with a struct that has the requested field already, and with an enumeration. -/
def rejectedUnit : List Item :=
  let malformed : Attribute := .mk false false [⟨"add_fields", {}⟩] .empty
  [.module [malformed] [.tree (keywordTree "mod")] ⟨"m", {}⟩ []
    [requestingStruct "a",
      .nominal .enumeration [malformed] [.tree (keywordTree "enum")] ⟨"E", {}⟩
        [.group {} .brace []]]]

/-- One request is refused and one annotation is malformed; both are removed. The one on the module
is not read. -/
theorem injectItems_erases_rejected :
    (commandLineSession.injectItems rejectedUnit).2.2.summary.injected = [] ∧
      (commandLineSession.injectItems rejectedUnit).2.1 = Item.erasedList rejectedUnit ∧
      (commandLineSession.injectItems rejectedUnit).2.2.annotations = 2 := by
  have hnone : (commandLineSession.injectItems rejectedUnit).2.2.summary.injected = [] := by
    decide +kernel
  obtain ⟨hitems, hcount, -⟩ := commandLineSession.injectItems_erases rejectedUnit hnone
  refine ⟨hnone, hitems, hcount.trans ?_⟩
  decide +kernel

end FieldGraft
