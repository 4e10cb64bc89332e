import FieldGraft.CommandLine.Project

/-!
# The order of paths

Components are ordered, and paths are ordered like their components in a dictionary. Two paths are
on one place of that order if they denote the same (`FilePath.order_eq_iff`). A sorted list from
which repetitions are dropped therefore rises strictly, and it has each path of the list or another
spelling of it (`Project.pairwise_dropRepeated`, `Project.exists_same_dropRepeated`).
-/

namespace FieldGraft

open Std

namespace Component

/-- Components are compared by their kind, and those of one kind by their text. -/
instance : TransCmp order :=
  inferInstanceAs (TransCmp (compareLex (compareOn rank) (compareOn text)))

/-- The kind of a component and its text say which it is. -/
instance : LawfulEqCmp order where
  eq_of_compare {a b} h := by
    obtain ⟨hrank, htext⟩ := Ordering.then_eq_eq.mp h
    have hkind : a.rank = b.rank := LawfulEqOrd.eq_of_compare hrank
    have hspelling : a.text = b.text := LawfulEqOrd.eq_of_compare htext
    cases a <;> cases b <;> first | rfl | exact congrArg name hspelling | cases hkind

theorem orderList_eq : orderList = List.compareLex order := by
  funext as bs
  induction as generalizing bs with
  | nil => cases bs <;> rfl
  | cons a as ih =>
    cases bs with
    | nil => rfl
    | cons b bs =>
      rw [orderList, ih, List.compareLex_cons_cons]

end Component

namespace FilePath

variable {p q r : FilePath}

theorem order_eq (p q : FilePath) :
    p.order q = List.compareLex Component.order p.components q.components := by
  rw [order, Component.orderList_eq]

instance : TransCmp order where
  eq_swap {p q} := by
    rw [order_eq, order_eq]
    exact OrientedCmp.eq_swap
  isLE_trans {p q r} hpq hqr := by
    rw [order_eq] at hpq hqr ⊢
    exact TransCmp.isLE_trans hpq hqr

/-- **Two paths are on one place** iff they denote the same. -/
theorem order_eq_iff : p.order q = .eq ↔ p.same q = true := by
  rw [order_eq, LawfulEqCmp.compare_eq_iff_eq, same, beq_iff_eq]

theorem same_trans (hpq : p.same q = true) (hqr : q.same r = true) : p.same r = true :=
  order_eq_iff.mp (TransCmp.eq_trans (order_eq_iff.mpr hpq) (order_eq_iff.mpr hqr))

theorem same_refl (p : FilePath) : p.same p = true :=
  beq_self_eq_true _

theorem notAfter_iff : p.notAfter q = true ↔ (p.order q).isLE = true := by
  rw [notAfter, bne_iff_ne]
  cases p.order q <;> simp

theorem notAfter_trans (hpq : p.notAfter q = true) (hqr : q.notAfter r = true) :
    p.notAfter r = true :=
  notAfter_iff.mpr (TransCmp.isLE_trans (notAfter_iff.mp hpq) (notAfter_iff.mp hqr))

theorem notAfter_total (p q : FilePath) : (p.notAfter q || q.notAfter p) = true := by
  have hswap : q.order p = (p.order q).swap := OrientedCmp.eq_swap
  rw [notAfter, notAfter, hswap]
  cases p.order q <;> rfl

/-- A sorted list rises. -/
theorem pairwise_mergeSort (found : List FilePath) :
    (found.mergeSort notAfter).Pairwise (fun x y => x.notAfter y = true) := by
  apply List.pairwise_mergeSort
  · exact fun _ _ _ hpq hqr => notAfter_trans hpq hqr
  · exact notAfter_total

/-- A path that is not after another one is before it or denotes the same. -/
theorem order_eq_lt (h : p.notAfter q = true) (hsame : p.same q = false) : p.order q = .lt := by
  cases horder : p.order q with
  | lt => rfl
  | eq => rw [order_eq_iff.mp horder] at hsame; cases hsame
  | gt => rw [notAfter, horder] at h; cases h

end FilePath

namespace Project

open FilePath

variable {x : FilePath} {found : List FilePath}

/-- The first path stays the first. -/
theorem dropRepeated_cons (x : FilePath) (found : List FilePath) :
    ∃ more, dropRepeated (x :: found) = x :: more := by
  rw [dropRepeated]
  cases dropRepeated found with
  | nil => exact ⟨[], rfl⟩
  | cons y more =>
    dsimp only
    split
    · exact ⟨more, rfl⟩
    · exact ⟨y :: more, rfl⟩

/-- **Without repetitions a sorted list rises strictly.** -/
theorem pairwise_dropRepeated (h : found.Pairwise (fun x y => x.notAfter y = true)) :
    (dropRepeated found).Pairwise (fun x y => x.order y = .lt) := by
  -- what is kept of the rest rises strictly, so its head alone is to be compared with `x`
  induction found with
  | nil => exact .nil
  | cons x found ih =>
    obtain ⟨hx, hrest⟩ := List.pairwise_cons.mp h
    have hstrict := ih hrest
    rw [dropRepeated]
    cases found with
    | nil => exact .cons (fun _ hno => absurd hno List.not_mem_nil) .nil
    | cons y found =>
      -- what is left of the rest starts with its first path
      obtain ⟨more, heq⟩ := dropRepeated_cons y found
      rw [heq] at hstrict ⊢
      obtain ⟨hafter, hmore⟩ := List.pairwise_cons.mp hstrict
      have hle := hx y List.mem_cons_self
      dsimp only
      split
      · -- `x` replaces the path it equals, and is before whatever that one was before
        next hsame =>
        exact .cons (fun z hz =>
          TransCmp.lt_of_eq_of_lt (order_eq_iff.mpr hsame) (hafter z hz)) hmore
      · next hsame =>
        have hlt := order_eq_lt hle (Bool.eq_false_iff.mpr hsame)
        refine .cons (fun z hz => ?_) hstrict
        rcases List.mem_cons.mp hz with rfl | hz
        · exact hlt
        · exact TransCmp.lt_trans hlt (hafter z hz)

/-- A path in front takes the place of one that denotes the same. -/
theorem exists_same_dropRepeated_cons (x : FilePath) {y : FilePath} (hy : y ∈ dropRepeated found) :
    ∃ y' ∈ dropRepeated (x :: found), y'.same y = true := by
  rw [dropRepeated]
  cases hrest : dropRepeated found with
  -- with nothing kept of the rest there is no `y`
  | nil =>
    rw [hrest] at hy
    cases hy
  | cons w more =>
    rw [hrest] at hy
    dsimp only
    split
    · -- the dropped path is the one `x` stands for
      next hsame =>
      rcases List.mem_cons.mp hy with rfl | hy
      · exact ⟨x, List.mem_cons_self, hsame⟩
      · exact ⟨y, List.mem_cons_of_mem _ hy, y.same_refl⟩
    · exact ⟨y, List.mem_cons_of_mem _ hy, y.same_refl⟩

/-- **Each path of a list stays**, or one that denotes the same. -/
theorem exists_same_dropRepeated (hx : x ∈ found) : ∃ y ∈ dropRepeated found, y.same x = true := by
  induction found with
  | nil => cases hx
  | cons z found ih =>
    rcases List.mem_cons.mp hx with rfl | hx
    · obtain ⟨more, heq⟩ := dropRepeated_cons x found
      exact ⟨x, heq ▸ List.mem_cons_self, x.same_refl⟩
    · obtain ⟨y, hy, hsame⟩ := ih hx
      obtain ⟨y', hy', hsame'⟩ := exists_same_dropRepeated_cons z hy
      exact ⟨y', hy', same_trans hsame' hsame⟩

end Project

end FieldGraft
