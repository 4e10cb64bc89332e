import FieldGraft.Proofs.AnnotationErasure
import FieldGraft.Proofs.RequestAccounts

/-!
# Rounds over emitted items

A second round over what a round wrote finds nothing to do: `Session.injectItems_again`. Whether a
round has something to do is decided by the attributes of the types at file level and in inline
modules at any depth, which `Item.typeAttrsList` collects.

* What emission writes has no annotation among them (`Item.emitList_unannotated`), and completion,
  which goes through the attributes as well, makes none.
* Where there is none a catalogue records no request (`Catalogue.ofItems_readings`), so the round
  adds no field, and emission gives the items back, as there is nothing to erase
  (`Item.erasedList_eq_self`).

Only a refusal of access is reported again.
-/

namespace FieldGraft

/-! ### Attributes without annotations -/

/-- Completion turns no attribute into an annotation. -/
theorem Unannotated.completeList {attrs : List Attribute} (h : Unannotated attrs)
    (s : Completion) : Unannotated (Attribute.completeList s attrs) := by
  induction attrs with
  | nil => exact unannotated_nil
  | cons a as ih =>
    obtain ⟨ha, has⟩ := List.forall_mem_cons.mp h
    refine List.forall_mem_cons.mpr ⟨?_, ih has⟩
    rw [Attribute.isAnnotation_complete]
    exact ha

/-- There is nothing to read: what is no annotation has neither of the two names. -/
theorem Unannotated.readRequests_eq {attrs : List Attribute} (h : Unannotated attrs) :
    readRequests attrs = [] := by
  rw [readRequests, List.flatMap_eq_nil_iff]
  intro a ha
  have hno := h a ha
  unfold Attribute.isAnnotation at hno
  unfold Annotations.read
  -- an attribute without one of the two names asks for nothing
  obtain ⟨inner, global, path, args⟩ := a
  cases hident : (Attribute.mk inner global path args).ident? with
  | none => rfl
  | some name =>
    rw [hident] at hno
    obtain ⟨hsingle, hmultiple⟩ := Bool.or_eq_false_iff.mp hno
    simp only [if_neg (beq_eq_false_iff_ne.mp hsingle), if_neg (beq_eq_false_iff_ne.mp hmultiple)]

/-! ### What emission writes -/

/-- Completion goes through the attributes of a type and leaves modules alone. -/
theorem Item.complete_unannotated (s : Completion) {i : Item} (h : Unannotated i.typeAttrs) :
    Unannotated (i.complete s).typeAttrs := by
  -- completion keeps the attributes on items, apart from the code inside them
  cases i with
  | struct attrs vis name generics body =>
    rw [Item.complete]
    exact Unannotated.completeList h s
  | nominal kind attrs lead name tail =>
    rw [Item.complete]
    exact Unannotated.completeList h s
  | module attrs lead name inner items =>
    rw [Item.complete]
    exact h
  | use attrs vis global tree =>
    rw [Item.complete]
    exact unannotated_nil
  | impl attrs lead trait selfTy clause inner members =>
    rw [Item.complete]
    exact unannotated_nil
  | other shape parts =>
    by_cases hshape : shape = .moduleDecl
    · subst hshape
      exact unannotated_nil
    · rw [Item.complete_other _ hshape]
      exact unannotated_nil

theorem completeScope_unannotated (received : Received) {items : List Item}
    (h : Unannotated (Item.typeAttrsList items)) :
    Unannotated (Item.typeAttrsList (completeScope received items)) := by
  rw [completeScope_eq]
  induction items with
  | nil => exact unannotated_nil
  | cons i is ih =>
    obtain ⟨hi, his⟩ := unannotated_append.mp h
    exact unannotated_append.mpr ⟨Item.complete_unannotated _ hi, ih his⟩

mutual

/-- **An emitted item has no annotation left** on any type, whatever its structs received. -/
theorem Item.emit_unannotated (e : Emission) (structs : List NodeId) :
    ∀ i : Item, Unannotated (i.emit e structs).value.typeAttrs
  | .struct attrs vis name generics body => by
    cases structs with
    | nil => exact unannotated_stripAnnotations attrs
    | cons node rest => exact unannotated_stripAnnotations attrs
  | .nominal kind attrs lead name tail => by
    rw [Item.emit]
    exact unannotated_stripAnnotations attrs
  | .module attrs lead name inner items => by
    rw [Item.emit]
    exact completeScope_unannotated _ (Item.emitList_unannotated e structs items)
  | .use attrs vis global tree => unannotated_nil
  | .impl attrs lead trait selfTy clause inner members => unannotated_nil
  | .other shape parts => unannotated_nil

theorem Item.emitList_unannotated (e : Emission) (structs : List NodeId) :
    ∀ is : List Item, Unannotated (Item.typeAttrsList (Item.emitList e structs is).value)
  | [] => unannotated_nil
  | i :: is => by
    rw [Item.emitList, Item.typeAttrsList, unannotated_append]
    exact ⟨Item.emit_unannotated e structs i,
      Item.emitList_unannotated e (i.emit e structs).structs is⟩

end

/-! ### What a catalogue reads -/

mutual

/-- The attributes that a round reads are those of the types. -/
theorem Item.typeAttrs_eq : ∀ i : Item, i.typeAttrs = i.typeItems.flatMap TypeItem.attrs
  | .struct attrs _ _ _ _ => (List.append_nil attrs).symm
  | .nominal _ attrs _ _ _ => (List.append_nil attrs).symm
  | .module _ _ _ _ items => Item.typeAttrsList_eq items
  | .use _ _ _ _ => rfl
  | .impl _ _ _ _ _ _ _ => rfl
  | .other _ _ => rfl

theorem Item.typeAttrsList_eq :
    ∀ is : List Item, Item.typeAttrsList is = (Item.typeItemsList is).flatMap TypeItem.attrs
  | [] => rfl
  | i :: is => by
    rw [Item.typeAttrsList, Item.typeItemsList, List.flatMap_append, Item.typeAttrs_eq i,
      Item.typeAttrsList_eq is]

end

namespace Catalogue

/-- **Without annotations there are no requests**, and none is refused. -/
theorem ofItems_readings {items : List Item} (h : Unannotated (Item.typeAttrsList items)) :
    (ofItems items).batch = [] ∧ (ofItems items).errors = [] := by
  obtain ⟨hitems, -, herrors, hbatch⟩ := ofItems_recorded items
  have hread : ∀ x ∈ typeEntries items, readRequests x.item.attrs = [] := by
    -- the types of a catalogue are those of the items, with the same attributes
    intro x hx
    have hmem : x.item ∈ Item.typeItemsList items := hitems ▸ List.mem_map_of_mem hx
    refine Unannotated.readRequests_eq fun a ha => h a ?_
    rw [Item.typeAttrsList_eq]
    exact List.mem_flatMap.mpr ⟨x.item, hmem, ha⟩
  rw [hbatch, herrors]
  refine ⟨List.flatMap_eq_nil_iff.mpr fun x hx => ?_, List.flatMap_eq_nil_iff.mpr fun x hx => ?_⟩
  · -- no annotation was read, so there is neither a request nor a refusal
    rw [TypeEntry.targets, TypeItem.requests, hread x hx]
    rfl
  · rw [TypeEntry.refusals, TypeItem.errors, hread x hx]
    rfl

/-- A round without requests adds nothing, and reports at most that access was refused. -/
theorem round_of_readings {c : Catalogue} (hbatch : c.batch = []) (herrors : c.errors = [])
    (placement : Placement) (access : Except HostError Capability) :
    (c.round placement access).summary = {} ∧
      ((c.round placement access).diagnostics = [] ↔ ∃ capability, access = .ok capability) := by
  unfold round
  cases access with
  | ok capability =>
    rw [hbatch, herrors]
    exact ⟨rfl, iff_of_true rfl ⟨capability, rfl⟩⟩
  | error e =>
    rw [hbatch]
    exact ⟨rfl, iff_of_false (List.cons_ne_nil _ _) fun ⟨_, h⟩ => nomatch h⟩

end Catalogue

namespace Session

/-- What a round writes has no annotation left. -/
theorem injectItems_unannotated (s : Session) (items : List Item) :
    Unannotated (Item.typeAttrsList (s.injectItems items).2.1) :=
  completeScope_unannotated _ (Item.emitList_unannotated _ _ items)

/-- A round over items without annotations leaves them as they are. -/
theorem injectItems_of_unannotated (s : Session) {items : List Item}
    (h : Unannotated (Item.typeAttrsList items)) :
    (s.injectItems items).2.1 = items ∧
      (s.injectItems items).2.2.summary = {} ∧
      (s.injectItems items).2.2.annotations = 0 ∧
      ((s.injectItems items).2.2.diagnostics = [] ↔
        ∃ capability, s.authorize.2.1 = .ok capability) := by
  obtain ⟨hbatch, herrors⟩ := Catalogue.ofItems_readings h
  obtain ⟨hsummary, hdiagnostics⟩ :=
    Catalogue.round_of_readings hbatch herrors s.placement s.authorize.2.1
  -- nothing is added, so the items are erased, and there is nothing to erase
  have hinjected : (s.injectItems items).2.2.summary.injected = [] :=
    congrArg Summary.injected hsummary
  refine ⟨?_, hsummary, ?_, hdiagnostics⟩
  · -- nothing was removed, so the erased items are the items
    rw [items_eq_erasedList hinjected, Item.erasedList_eq_self items h]
  · rw [s.annotations_eq items, unannotated_iff_countP.mp h]

/-- **Injection is idempotent on code.** A round over what a round wrote, in the same session or in
another one, leaves the items exactly as they are: it adds and skips nothing and removes no
annotation. It reports nothing exactly if the host grants access. -/
theorem injectItems_again (s s' : Session) (items : List Item) :
    (s'.injectItems (s.injectItems items).2.1).2.1 = (s.injectItems items).2.1 ∧
    (s'.injectItems (s.injectItems items).2.1).2.2.summary = { injected := [], skipped := 0 } ∧
    (s'.injectItems (s.injectItems items).2.1).2.2.annotations = 0 ∧
    (s'.injectItems (s.injectItems items).2.1).2.2.annotated = false ∧
    ((s'.injectItems (s.injectItems items).2.1).2.2.diagnostics = [] ↔
      ∃ capability, s'.authorize.2.1 = .ok capability) := by
  obtain ⟨hitems, hsummary, hremoved, hdiagnostics⟩ :=
    s'.injectItems_of_unannotated (s.injectItems_unannotated items)
  refine ⟨hitems, hsummary, hremoved, ?_, hdiagnostics⟩
  rw [RoundReport.annotated, hremoved]
  rfl

end Session

end FieldGraft
