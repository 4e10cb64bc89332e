import FieldGraft.Catalogue
import FieldGraft.Completion

/-!
# Writing new fields into items

Emission takes the items that a catalogue was made from and the arena after a round. It removes the
annotations, gives every struct that received fields its new field list, and completes the literals
and patterns of these structs. The structs of the items come in the order in which the catalogue
lists them.
-/

namespace FieldGraft

/-- The visibility of a field with the given modifiers; the other modifiers have no counterpart. -/
def Modifiers.fieldVisibility (m : Modifiers) : Visibility :=
  if m.isPublic then .exported
  else if m.isProtected then .restricted [.tree (keywordTree "crate")]
  else .inherited

/-- The definition of a synthesized field. -/
def FieldDecl.definition (f : FieldDecl) : FieldDef :=
  .mk [] f.modifiers.fieldVisibility (Word.ofText f.name)
    (.path (.named none [.mk (Word.ofText f.ty) []]))

/-- A round as emission sees it. -/
structure Emission where
  /-- The arena after the round. -/
  arena : Arena
  summary : Summary
  /-- The position of each declared field among the fields of its struct. -/
  slots : List (NodeId × Nat)

namespace Emission

/-- The names of the fields that a struct received. -/
def newNames (e : Emission) (node : NodeId) : List String :=
  (e.summary.injectedInto node).filterMap (fun id => (e.arena.field? id).map FieldDecl.name)

/-- The field list of a struct in the order of the arena: declared fields stay as they are. -/
def rebuild (e : Emission) (node : NodeId) (declared : List FieldDef) : List FieldDef :=
  (e.arena.fields node).map fun (id, f) =>
    match (e.slots.lookup id).bind (fun slot => declared[slot]?) with
    | some d => d
    | none => f.definition

/-- The body of a struct after the round, with the names it received. -/
def structBody (e : Emission) (node : NodeId) (body : StructBody) : StructBody × List String :=
  match body, e.newNames node with
  | .named clause fields _, name :: names =>
    (.named clause (e.rebuild node fields) false, name :: names)
  | body, _ => (body, [])

end Emission

/-- Items after emission. -/
structure Emitted (α : Type) where
  value : α
  /-- The structs of the catalogue that are still to come. -/
  structs : List NodeId
  /-- How many annotations were removed. -/
  removed : Nat := 0
  received : Received := []

/-- Completes the items of a scope, if any struct in it received fields. -/
def completeScope (received : Received) (items : List Item) : List Item :=
  if received.isEmpty then items else items.map (Item.complete { received })

mutual

/-- Emits one item; `structs` lists the structs from this item on. -/
def Item.emit (e : Emission) (structs : List NodeId) : Item → Emitted Item
  | .struct attrs vis name generics body =>
    let kept := stripAnnotations attrs
    let removed := countAnnotations attrs
    match structs with
    | [] => { value := .struct kept vis name generics body, structs := [], removed }
    | node :: rest =>
      let (body, names) := e.structBody node body
      { value := .struct kept vis name generics body, structs := rest, removed
        received := if names.isEmpty then [] else [(name.text, names)] }
  | .nominal kind attrs lead name tail =>
    { value := .nominal kind (stripAnnotations attrs) lead name tail, structs
      removed := countAnnotations attrs }
  | .module attrs lead name inner items =>
    let content := Item.emitList e structs items
    { value := .module attrs lead name inner (completeScope content.received content.value)
      structs := content.structs
      removed := content.removed
      received := content.received.map (fun r => (name.text ++ "::" ++ r.1, r.2)) }
  | item => { value := item, structs }

/-- Emits the items of a scope, without the completion that the scope as a whole then gets. -/
def Item.emitList (e : Emission) (structs : List NodeId) : List Item → Emitted (List Item)
  | [] => { value := [], structs }
  | i :: is =>
    let first := i.emit e structs
    let rest := Item.emitList e first.structs is
    { value := first.value :: rest.value
      structs := rest.structs
      removed := first.removed + rest.removed
      received := rest.received ++ first.received }

end

/-- The items of a unit after a round, and how many annotations were removed. -/
def Catalogue.emit (c : Catalogue) (arena : Arena) (summary : Summary) (items : List Item) :
    List Item × Nat :=
  let content := Item.emitList { arena, summary, slots := c.slots } c.structs items
  (completeScope content.received content.value, content.removed)

end FieldGraft
