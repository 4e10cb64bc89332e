import FieldGraft.TypeRef

/-!
# The names that imports make known

An import tree stands for a list of single imports, each of which binds at most one name. A type
table learns the word at the end of each import instead. The two differ in two places: `self` in a
group binds the last name of the path in front of the group, and `as _` binds nothing.

* `UseTree.imports` lists the imports of a tree; `Import.bound?` is what one binds, and
  `Import.registered` what the table learns from it.
* `TypeTable.importTree_contains_iff` says what a table knows after an import, and when these are
  the names that it knew before and those that the tree binds.
-/

namespace FieldGraft

/-! ### Imports -/

/-- One of the imports that an import tree stands for. -/
inductive Import where
  /-- A name that is imported as it is. -/
  | plain (name : String)
  /-- `self` in a group behind a path that ends in `before`, if there is a path at all. -/
  | groupSelf (before : Option String)
  /-- A name that is imported as `shown`. -/
  | renamed (shown : String)
deriving DecidableEq, Repr

namespace Import

/-- **The name that an import binds.** -/
def bound? : Import → Option String
  | plain name => some name
  | groupSelf before => before
  | renamed shown => if shown = "_" then none else some shown

/-- The word that a type table learns from an import. -/
def registered : Import → String
  | plain name => name
  | groupSelf _ => "self"
  | renamed shown => shown

end Import

mutual

/-- The imports of a tree that stands behind a path ending in `before`. Only as a member of a group
is `self` more than a name. -/
def UseTree.importsBehind (before : Option String) (inGroup : Bool) : UseTree → List Import
  | .path head tail => tail.importsBehind (some head.text) false
  | .name w => [if inGroup && w.text == "self" then .groupSelf before else .plain w.text]
  | .rename _ shown => [.renamed shown.text]
  | .group trees _ => UseTree.memberImports before trees
  | .glob => []

/-- The imports of the members of a group. -/
def UseTree.memberImports (before : Option String) : List UseTree → List Import
  | [] => []
  | t :: ts => t.importsBehind before true ++ UseTree.memberImports before ts

end

/-- The imports of a whole tree. -/
def UseTree.imports (tree : UseTree) : List Import :=
  tree.importsBehind none false

/-- The tree brings a name into scope. -/
def UseTree.Binds (tree : UseTree) (name : String) : Prop :=
  ∃ i ∈ tree.imports, i.bound? = some name

/-! ### What a table learns -/

mutual

theorem UseTree.bound_eq_importsBehind (before : Option String) (inGroup : Bool) :
    ∀ tree : UseTree, tree.bound = (tree.importsBehind before inGroup).map Import.registered
  -- on the way down a path, the last name passed is the one that a `self` in a group binds
  | .path head tail => UseTree.bound_eq_importsBehind (some head.text) false tail
  | .name w => by
    rw [bound, importsBehind]
    split
    · next hself =>
      -- the word of a `self` is `self`
      rw [Bool.and_eq_true, beq_iff_eq] at hself
      rw [hself.2]
      rfl
    · rfl
  | .rename _ _ => rfl
  | .group trees _ => UseTree.boundList_eq_memberImports before trees
  | .glob => rfl

theorem UseTree.boundList_eq_memberImports (before : Option String) :
    ∀ trees : List UseTree,
      UseTree.boundList trees = (UseTree.memberImports before trees).map Import.registered
  | [] => rfl
  | t :: ts => by
    rw [boundList, memberImports, List.map_append, UseTree.bound_eq_importsBehind before true t,
      UseTree.boundList_eq_memberImports before ts]

end

namespace TypeTable

theorem contains_declare (t : TypeTable) (name n : String) :
    (t.declare name).contains n = true ↔ t.contains n = true ∨ n = name := by
  unfold declare
  split
  · next hknown =>
    constructor
    · exact .inl
    · rintro (h | rfl)
      · exact h
      · exact hknown
  · simp [contains]

theorem contains_declareAll (t : TypeTable) (names : List String) (n : String) :
    (t.declareAll names).contains n = true ↔ t.contains n = true ∨ n ∈ names := by
  unfold declareAll
  induction names generalizing t with
  | nil => simp
  | cons name names ih => rw [List.foldl_cons, ih, contains_declare, List.mem_cons, or_assoc]

/-- A table learns the word of each import. -/
theorem contains_importTree (t : TypeTable) (tree : UseTree) (n : String) :
    (t.importTree tree).contains n = true ↔
      t.contains n = true ∨ ∃ i ∈ tree.imports, i.registered = n := by
  rw [importTree, contains_declareAll, UseTree.bound_eq_importsBehind none false, List.mem_map]
  rfl

end TypeTable

/-- **An import does no harm to a table.** The word `self` of a group and the `_` of a renaming are
no names that the import binds, so they have to be known or bound for another reason; and the name
that the `self` binds has to be known or learnt for another reason. -/
def Import.Harmless (t : TypeTable) (tree : UseTree) : Import → Prop
  | plain _ => True
  | groupSelf before =>
    (t.contains "self" = true ∨ tree.Binds "self") ∧
      ∀ name ∈ before, t.contains name = true ∨ ∃ i ∈ tree.imports, i.registered = name
  | renamed shown => shown = "_" → t.contains "_" = true ∨ tree.Binds "_"

namespace Import

variable {t : TypeTable} {tree : UseTree} {i : Import}

/-- What a harmless import binds is known afterwards. -/
theorem Harmless.known (h : i.Harmless t tree) (hi : i ∈ tree.imports) {name : String}
    (hbound : i.bound? = some name) :
    t.contains name = true ∨ ∃ j ∈ tree.imports, j.registered = name := by
  cases i with
  | plain text => exact .inr ⟨_, hi, Option.some.inj hbound⟩
  | groupSelf before => exact h.2 name hbound
  | renamed shown =>
    by_cases hhidden : shown = "_"
    · rw [bound?, if_pos hhidden] at hbound
      cases hbound
    · rw [bound?, if_neg hhidden] at hbound
      exact .inr ⟨_, hi, Option.some.inj hbound⟩

/-- What is learnt from a harmless import was known or is bound. -/
theorem Harmless.justified (h : i.Harmless t tree) (hi : i ∈ tree.imports) :
    t.contains i.registered = true ∨ tree.Binds i.registered := by
  cases i with
  | plain text => exact .inr ⟨_, hi, rfl⟩
  | groupSelf before => exact h.1
  | renamed shown =>
    by_cases hhidden : shown = "_"
    · rw [registered, hhidden]
      exact h hhidden
    · exact .inr ⟨_, hi, if_neg hhidden⟩

end Import

/-- **What an import makes known.** A table learns the word of each import of the tree. These are
the names that the tree binds, beside those that were known, iff every import is harmless: that is
so for plain names, for renamings other than `as _`, for groups of these and for globs. -/
theorem TypeTable.importTree_contains_iff (t : TypeTable) (tree : UseTree) :
    (∀ name, (t.importTree tree).contains name = true ↔
      t.contains name = true ∨ ∃ i ∈ tree.imports, i.registered = name) ∧
    ((∀ name, (t.importTree tree).contains name = true ↔
        t.contains name = true ∨ tree.Binds name) ↔
      ∀ i ∈ tree.imports, i.Harmless t tree) := by
  refine ⟨t.contains_importTree tree, fun h i hi => ?_, fun h name => ?_⟩
  · -- a name that is known afterwards, and one that is bound
    have hlearnt : ∀ j ∈ tree.imports,
        t.contains j.registered = true ∨ tree.Binds j.registered := fun j hj =>
      (h _).mp ((t.contains_importTree tree _).mpr (.inr ⟨j, hj, rfl⟩))
    -- and a name that an import binds is known or registered
    have hbinds : ∀ name, i.bound? = some name →
        t.contains name = true ∨ ∃ j ∈ tree.imports, j.registered = name := fun name hname =>
      (t.contains_importTree tree name).mp ((h name).mpr (.inr ⟨i, hi, hname⟩))
    cases i with
    | plain text => trivial
    | groupSelf before => exact ⟨hlearnt _ hi, hbinds⟩
    | renamed shown =>
      rintro rfl
      exact hlearnt _ hi
  · -- what the table learns is justified, and what the tree binds is known
    rw [t.contains_importTree tree]
    constructor
    · rintro (hknown | ⟨i, hi, rfl⟩)
      · exact .inl hknown
      · exact (h i hi).justified hi
    · rintro (hknown | ⟨i, hi, hbound⟩)
      · exact .inl hknown
      · exact (h i hi).known hi hbound

/-- After `use a::Kind::{self, A}` the word `self` is known, and `Kind` is not. -/
example :
    let tree : UseTree := .path ⟨"a", {}⟩ (.path ⟨"Kind", {}⟩
      (.group [.name ⟨"self", {}⟩, .name ⟨"A", {}⟩] false))
    tree.imports.map Import.bound? = [some "Kind", some "A"] ∧
      (TypeTable.empty.importTree tree).known = ["self", "A"] := by
  decide

end FieldGraft
