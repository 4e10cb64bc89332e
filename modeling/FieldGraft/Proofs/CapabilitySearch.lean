import FieldGraft.Host
import Mathlib.Data.List.Basic

/-!
# Searching the layers of a host

A host is a chain of layers, from the outermost to the innermost (`Host.layers`). If no layer
changes its answer (`Host.Steady`), a grant depends on these answers alone, and each provider is a
search for the outermost open layer in a range of the chain (`Host.Finds`).

* `Provider.finds_direct`, `Provider.finds_unwrapping` — the ranges of the two kinds of providers.
* `Host.Finds.of_le`, `Host.Finds.or` — longer ranges, and ranges that follow each other.
* `Host.probe_outcome` — a list of providers gives the first grant.
* `Host.probe_layers` — all of this together, and the range of the standard providers.
-/

namespace FieldGraft

namespace Host

variable {h layer : Host} {first mid last last' : Nat} {via via' : Nat → String}
  {grant grant' : Option Capability} {c : Capability}

/-! ### Layers -/

/-- **The layers of a host**, from the outermost to the innermost. -/
def layers (h : Host) : List Host :=
  h :: match h with
    | wrapped _ inner => inner.layers
    | custom _ _ (some inner) => inner.layers
    | _ => []

/-- The layers from one on, if there is one. -/
def layersFrom : Option Host → List Host
  | none => []
  | some h => h.layers

theorem layers_eq (h : Host) : h.layers = h :: layersFrom h.inner? := by
  unfold layers
  cases h with
  | custom name answers inner => cases inner <;> rfl
  | _ => rfl

/-- Whether a layer exposes its tree when it is asked first. -/
def isOpen (layer : Host) : Bool :=
  (layer.exposes 0).1

/-- Every layer gives one answer, however many questions were asked before. -/
def Steady (h : Host) : Prop :=
  ∀ layer ∈ h.layers, ∀ asked, (layer.exposes asked).1 = layer.isOpen

/-- The layers from number `first` to number `last`. The host itself has number zero. -/
def layersBetween (h : Host) (first last : Nat) : List Host :=
  (h.layers.drop first).take (last + 1 - first)

theorem getElem?_layersBetween (h : Host) (first last i : Nat) :
    (h.layersBetween first last)[i]? =
      if first + i ≤ last then h.layers[first + i]? else none := by
  rw [layersBetween, List.getElem?_take, List.getElem?_drop]
  exact if_congr (by omega) rfl rfl

/-! ### Searches -/

/-- **The outermost open layer in a range**: layer number `i` is open, and those in front of it from
number `first` on are not. -/
structure Outermost (h : Host) (first last i : Nat) (layer : Host) : Prop where
  first_le : first ≤ i
  le_last : i ≤ last
  getElem?_eq : h.layers[i]? = some layer
  opens : layer.isOpen = true
  closed : ∀ j, first ≤ j → j < i → ∀ layer', h.layers[j]? = some layer' → layer'.isOpen = false

/-- **A search for the outermost open layer in a range.** It is granted if one of the layers is
open, and the grant names the outermost of these, together with the provider that found it. -/
structure Finds (h : Host) (first last : Nat) (via : Nat → String) (grant : Option Capability) :
    Prop where
  isSome_iff : grant.isSome = true ↔
    ∃ i layer, first ≤ i ∧ i ≤ last ∧ h.layers[i]? = some layer ∧ layer.isOpen = true
  outermost : ∀ c, grant = some c →
    ∃ i layer, h.Outermost first last i layer ∧ c = ⟨layer.name, via i⟩

theorem Outermost.unique {i j : Nat} {layer' : Host} (hi : h.Outermost first last i layer)
    (hj : h.Outermost first last' j layer') : i = j ∧ layer = layer' := by
  -- the layer that comes first is closed for the other one
  have hij : i = j := by
    rcases Nat.lt_trichotomy i j with hlt | heq | hlt
    · have hclosed := hj.closed i hi.first_le hlt _ hi.getElem?_eq
      rw [hi.opens] at hclosed
      cases hclosed
    · exact heq
    · have hclosed := hi.closed j hj.first_le hlt _ hj.getElem?_eq
      rw [hj.opens] at hclosed
      cases hclosed
  subst hij
  exact ⟨rfl, Option.some.inj (hi.getElem?_eq.symm.trans hj.getElem?_eq)⟩

/-- What is found in the list of the layers is the outermost one. -/
theorem Finds.of_find? (provider : String)
    (hgrant : grant = ((h.layersBetween first last).find? isOpen).map
      fun layer => ⟨layer.name, provider⟩) :
    h.Finds first last (fun _ => provider) grant where
  isSome_iff := by
    rw [hgrant, Option.isSome_map, List.find?_isSome]
    constructor
    · rintro ⟨layer, hmem, hopen⟩
      obtain ⟨i, hi⟩ := List.mem_iff_getElem?.mp hmem
      rw [getElem?_layersBetween, Option.ite_none_right_eq_some] at hi
      exact ⟨first + i, layer, Nat.le_add_right _ _, hi.1, hi.2, hopen⟩
    · rintro ⟨i, layer, hfirst, hlast, hget, hopen⟩
      obtain ⟨k, rfl⟩ := Nat.exists_eq_add_of_le hfirst
      refine ⟨layer, List.mem_iff_getElem?.mpr ⟨k, ?_⟩, hopen⟩
      rw [getElem?_layersBetween, if_pos hlast, hget]
  outermost c hc := by
    rw [hgrant] at hc
    obtain ⟨layer, hfind, rfl⟩ := Option.map_eq_some_iff.mp hc
    obtain ⟨hopen, i, hi, hget, hbefore⟩ := List.find?_eq_some_iff_getElem.mp hfind
    have hlayer : (h.layersBetween first last)[i]? = some layer := by
      rw [List.getElem?_eq_getElem hi, hget]
    rw [getElem?_layersBetween, Option.ite_none_right_eq_some] at hlayer
    refine ⟨first + i, layer, ⟨Nat.le_add_right _ _, hlayer.1, hlayer.2, hopen, ?_⟩, rfl⟩
    -- layer number `first + k` stands at place `k` of the list
    intro j hj hlt layer' hget'
    obtain ⟨k, rfl⟩ := Nat.exists_eq_add_of_le hj
    have hk : k < i := Nat.lt_of_add_lt_add_left hlt
    have hclosed := hbefore k hk
    have hlayer' : (h.layersBetween first last)[k]? = some layer' := by
      rw [getElem?_layersBetween, if_pos (by omega), hget']
    rw [List.getElem?_eq_getElem (Nat.lt_trans hk hi), Option.some_inj] at hlayer'
    rwa [hlayer', Bool.not_eq_true'] at hclosed

/-- **A longer range does not change a grant.** -/
theorem Finds.of_le (hle : last ≤ last') (hshort : h.Finds first last via grant)
    (hlong : h.Finds first last' via grant') (hgrant : grant = some c) : grant' = some c := by
  obtain ⟨i, layer, hfound, rfl⟩ := hshort.outermost c hgrant
  -- the layer found is open in the longer range too, where nothing comes in front of it
  have hsome : grant'.isSome = true := hlong.isSome_iff.mpr
    ⟨i, layer, hfound.first_le, Nat.le_trans hfound.le_last hle, hfound.getElem?_eq, hfound.opens⟩
  obtain ⟨c', hc'⟩ := Option.isSome_iff_exists.mp hsome
  obtain ⟨j, layer', hfound', rfl⟩ := hlong.outermost c' hc'
  obtain ⟨rfl, rfl⟩ := hfound.unique hfound'
  exact hc'

/-- A range holds all that a search depends on. -/
theorem Finds.unique (hgrant : h.Finds first last via grant)
    (hgrant' : h.Finds first last via grant') : grant = grant' :=
  Option.ext fun _ => ⟨hgrant.of_le (Nat.le_refl _) hgrant', hgrant'.of_le (Nat.le_refl _) hgrant⟩

/-- **A search that goes on** behind a range, in which nothing was found. -/
theorem Finds.or (hfirst : first ≤ mid + 1) (hmid : mid ≤ last)
    (hfront : h.Finds first mid via grant) (hback : h.Finds (mid + 1) last via' grant') :
    h.Finds first last (fun i => if i ≤ mid then via i else via' i) (grant.or grant') where
  isSome_iff := by
    rw [Option.isSome_or, Bool.or_eq_true, hfront.isSome_iff, hback.isSome_iff]
    constructor
    · rintro (⟨i, layer, hi, hi', hget, hopen⟩ | ⟨i, layer, hi, hi', hget, hopen⟩)
      · exact ⟨i, layer, hi, Nat.le_trans hi' hmid, hget, hopen⟩
      · exact ⟨i, layer, Nat.le_trans hfirst hi, hi', hget, hopen⟩
    · rintro ⟨i, layer, hi, hi', hget, hopen⟩
      rcases Nat.lt_or_ge mid i with hlt | hle
      · exact .inr ⟨i, layer, hlt, hi', hget, hopen⟩
      · exact .inl ⟨i, layer, hi, hle, hget, hopen⟩
  outermost c hc := by
    -- a grant of the front range is the answer, and only without it the back range is asked
    cases hgrant : grant with
    | some found =>
      rw [hgrant, Option.some_or] at hc
      obtain ⟨i, layer, hfound, rfl⟩ := hfront.outermost c (hgrant.trans hc)
      refine ⟨i, layer, { hfound with le_last := Nat.le_trans hfound.le_last hmid }, ?_⟩
      rw [if_pos hfound.le_last]
    | none =>
      rw [hgrant, Option.none_or] at hc
      obtain ⟨i, layer, hfound, rfl⟩ := hback.outermost c hc
      refine ⟨i, layer, ⟨Nat.le_trans hfirst hfound.first_le, hfound.le_last, hfound.getElem?_eq,
        hfound.opens, fun j hj hlt layer' hget => ?_⟩, ?_⟩
      · rcases Nat.lt_or_ge mid j with hbehind | hwithin
        · exact hfound.closed j hbehind hlt layer' hget
        · -- an open layer in the front range would have been granted
          refine Bool.eq_false_iff.mpr fun hopen => ?_
          have hsome := hfront.isSome_iff.mpr ⟨j, layer', hj, hwithin, hget, hopen⟩
          rw [hgrant] at hsome
          cases hsome
      · rw [if_neg (Nat.not_le.mpr hfound.first_le)]

end Host

/-! ### Providers -/

namespace Provider

open Host

variable {h : Host} {name : String} {depth asked : Nat}

/-- A provider of one of the two kinds that look at the layers. -/
def IsPlain : Provider → Prop
  | custom _ _ => False
  | _ => True

/-- Looking through layers is a search in the list of them. -/
theorem grant_unwrap {inner : Option Host}
    (hsteady : ∀ layer ∈ layersFrom inner, ∀ asked, (layer.exposes asked).1 = layer.isOpen) :
    (unwrap name depth inner asked).grant =
      (((layersFrom inner).take depth).find? isOpen).map
        fun layer => ⟨layer.name, "unwrapping"⟩ := by
  induction depth generalizing inner asked with
  | zero => rfl
  | succ depth ih =>
    cases inner with
    | none => rfl
    | some layer =>
      rw [layersFrom, layers_eq] at hsteady ⊢
      obtain ⟨hlayer, hinner⟩ := List.forall_mem_cons.mp hsteady
      -- an open layer ends both searches, and a closed one takes one of the depth
      rw [unwrap, List.take_succ_cons, List.find?_cons]
      simp only [hlayer asked]
      cases layer.isOpen with
      | true => rfl
      | false => exact ih hinner

/-- **Direct access** asks the host itself. -/
theorem finds_direct (hsteady : h.Steady) (asked : Nat) :
    h.Finds 0 0 (fun _ => "direct") (direct.acquire h asked).grant := by
  refine .of_find? "direct" ?_
  have hhost := hsteady h (h.layers_eq ▸ List.mem_cons_self) asked
  have hlayers : h.layersBetween 0 0 = [h] := by
    rw [layersBetween, layers_eq]
    rfl
  rw [hlayers, List.find?_singleton]
  simp only [acquire, hhost]
  cases h.isOpen <;> rfl

/-- **Unwrapping** asks the layers inside the host, no more of them than its depth. -/
theorem finds_unwrapping (hsteady : h.Steady) (depth asked : Nat) :
    h.Finds 1 depth (fun _ => "unwrapping") ((unwrapping depth).acquire h asked).grant := by
  refine .of_find? "unwrapping" ?_
  have hinner : ∀ layer ∈ layersFrom h.inner?, ∀ asked, (layer.exposes asked).1 = layer.isOpen :=
    fun layer hlayer => hsteady layer (h.layers_eq ▸ List.mem_cons_of_mem h hlayer)
  rw [acquire, grant_unwrap hinner, layersBetween, layers_eq, Nat.add_sub_cancel]
  rfl

/-- How many questions were asked before makes no difference to a grant. -/
theorem grant_acquire {p : Provider} (hsteady : h.Steady) (hp : p.IsPlain) (asked alone : Nat) :
    (p.acquire h asked).grant = (p.acquire h alone).grant := by
  cases p with
  | direct => exact (finds_direct hsteady asked).unique (finds_direct hsteady alone)
  | unwrapping depth =>
    exact (finds_unwrapping hsteady depth asked).unique (finds_unwrapping hsteady depth alone)
  | custom => exact hp.elim

end Provider

namespace Host

open Provider

variable {h : Host} {providers : List Provider}

/-- **A probe gives the first grant.** -/
theorem probe_outcome (hsteady : h.Steady) (hplain : ∀ p ∈ providers, p.IsPlain)
    (asked alone : Nat) : (h.probe providers asked).outcome =
      match providers.findSome? fun p => (p.acquire h alone).grant with
      | some c => .ok c
      | none => .error ⟨h.name⟩ := by
  induction providers generalizing asked with
  | nil => rfl
  | cons p ps ih =>
    obtain ⟨hp, hps⟩ := List.forall_mem_cons.mp hplain
    rw [probe, List.findSome?_cons, grant_acquire hsteady hp asked alone]
    cases (p.acquire h alone).grant with
    | some c => rfl
    | none => exact ih hps _

theorem probe_eq_ok_iff {c : Capability} (hsteady : h.Steady)
    (hplain : ∀ p ∈ providers, p.IsPlain) (asked alone : Nat) :
    (h.probe providers asked).outcome = .ok c ↔
      providers.findSome? (fun p => (p.acquire h alone).grant) = some c := by
  rw [probe_outcome hsteady hplain asked alone]
  split
  · next c' hfound => rw [hfound, Except.ok.injEq, Option.some_inj]
  · next hnone => rw [hnone]; simp

theorem probe_eq_error_iff {e : HostError} (hsteady : h.Steady)
    (hplain : ∀ p ∈ providers, p.IsPlain) (asked alone : Nat) :
    (h.probe providers asked).outcome = .error e ↔
      e = ⟨h.name⟩ ∧ ∀ p ∈ providers, (p.acquire h alone).grant = none := by
  rw [probe_outcome hsteady hplain asked alone, ← List.findSome?_eq_none_iff]
  split
  · next c hfound => rw [hfound]; simp
  · next hnone => rw [hnone, Except.error.injEq, eq_comm, and_iff_left rfl]

/-- The standard providers look at the host and at four layers inside it. -/
theorem finds_standard (hsteady : h.Steady) (asked : Nat) :
    h.Finds 0 4 (fun i => if i = 0 then "direct" else "unwrapping")
      (h.probe Provider.standard asked).outcome.toOption := by
  have hplain : ∀ p ∈ Provider.standard, p.IsPlain := by simp [Provider.standard, IsPlain]
  have hgrants : (h.probe Provider.standard asked).outcome.toOption =
      (direct.acquire h asked).grant.or ((unwrapping 4).acquire h asked).grant := by
    rw [probe_outcome hsteady hplain asked asked, Provider.standard, List.findSome?_cons,
      List.findSome?_cons, List.findSome?_nil]
    cases (direct.acquire h asked).grant with
    | some c => rfl
    | none => cases ((unwrapping 4).acquire h asked).grant <;> rfl
  rw [hgrants]
  simpa only [Nat.le_zero] using (finds_direct hsteady asked).or (Nat.zero_le _) (Nat.zero_le _)
    (finds_unwrapping hsteady 4 asked)

/-- **What a probe finds.** Take a host whose layers do not change their answers, any list of direct
and unwrapping providers, and any numbers of questions asked before. Alone, direct access is a
search in the host itself, and unwrapping is one in as many layers inside it as its depth says. The
probe is granted if one of the providers is, with the grant of the first one that is, and otherwise
it is refused. More depth does not change a grant that the provider has, nor one that a probe has
from it or from those before it. The standard providers search the host and four layers inside
it. -/
theorem probe_layers (hsteady : h.Steady) (hplain : ∀ p ∈ providers, p.IsPlain)
    (asked alone : Nat) :
    h.Finds 0 0 (fun _ => "direct") (direct.acquire h alone).grant ∧
    (∀ depth, h.Finds 1 depth (fun _ => "unwrapping")
      ((unwrapping depth).acquire h alone).grant) ∧
    ((∃ c, (h.probe providers asked).outcome = .ok c) ↔
      ∃ p ∈ providers, (p.acquire h alone).grant.isSome = true) ∧
    (∀ c, (h.probe providers asked).outcome = .ok c ↔
      ∃ before p after, providers = before ++ p :: after ∧ (p.acquire h alone).grant = some c ∧
        ∀ q ∈ before, (q.acquire h alone).grant = none) ∧
    (∀ e, (h.probe providers asked).outcome = .error e ↔
      e = ⟨h.name⟩ ∧ ∀ p ∈ providers, (p.acquire h alone).grant = none) ∧
    (∀ depth depth' c, depth ≤ depth' → ((unwrapping depth).acquire h alone).grant = some c →
      ((unwrapping depth').acquire h alone).grant = some c) ∧
    (∀ depth depth' c later, depth ≤ depth' → (∀ p ∈ later, p.IsPlain) →
      (h.probe (providers ++ [unwrapping depth]) asked).outcome = .ok c →
        (h.probe (providers ++ unwrapping depth' :: later) asked).outcome = .ok c) ∧
    h.Finds 0 4 (fun i => if i = 0 then "direct" else "unwrapping")
      (h.probe Provider.standard asked).outcome.toOption := by
  have hdeeper : ∀ depth depth' c, depth ≤ depth' →
      ((unwrapping depth).acquire h alone).grant = some c →
        ((unwrapping depth').acquire h alone).grant = some c := fun depth depth' c hle =>
    (finds_unwrapping hsteady depth alone).of_le hle (finds_unwrapping hsteady depth' alone)
  refine ⟨finds_direct hsteady alone, fun depth => finds_unwrapping hsteady depth alone, ?_,
    fun c => ?_, fun e => probe_eq_error_iff hsteady hplain asked alone, hdeeper, ?_,
    finds_standard hsteady asked⟩
  · simp only [probe_eq_ok_iff hsteady hplain asked alone]
    rw [← Option.isSome_iff_exists, List.findSome?_isSome_iff]
  · rw [probe_eq_ok_iff hsteady hplain asked alone, List.findSome?_eq_some_iff]
  · intro depth depth' c later hle hlater hshort
    have hplain' : ∀ p ∈ providers ++ [unwrapping depth], p.IsPlain := by
      simpa [or_imp, forall_and, IsPlain] using hplain
    have hplain'' : ∀ p ∈ providers ++ unwrapping depth' :: later, p.IsPlain := by
      simpa [or_imp, forall_and, IsPlain] using ⟨hplain, hlater⟩
    rw [probe_eq_ok_iff hsteady hplain' asked alone, List.findSome?_append] at hshort
    rw [probe_eq_ok_iff hsteady hplain'' asked alone, List.findSome?_append]
    -- the grant is that of an earlier provider or that of the one with more depth
    cases hearlier : providers.findSome? fun p => (p.acquire h alone).grant with
    | some found =>
      rw [hearlier] at hshort
      exact hshort
    | none =>
      rw [hearlier, Option.none_or, List.findSome?_singleton] at hshort
      rw [Option.none_or, List.findSome?_cons, hdeeper depth depth' c hle hshort]

/-- Two layers that hide a third, which is open and holds one more that is. -/
def hidden : Host :=
  .custom "editor" (fun _ => false) (some (.wrapped "sandbox"
    (.custom "server" (fun _ => true) (some (.source .commandLine)))))

/-- Neither one layer nor the host itself is enough. Three layers give the outermost open one, and
so do more of them, though there is another one inside it. -/
theorem probe_layers_hidden :
    let providers : List Provider := [unwrapping 1, direct, unwrapping 3]
    (hidden.Steady ∧ ∀ p ∈ providers, p.IsPlain) ∧
    (hidden.probe providers 7).outcome = .ok ⟨"server", "unwrapping"⟩ ∧
    ((unwrapping 1).acquire hidden 0).grant = none ∧
    ((unwrapping 5).acquire hidden 0).grant = some ⟨"server", "unwrapping"⟩ ∧
    (hidden.probe Provider.standard 7).outcome.toOption.isSome = true := by
  intro providers
  have hsteady : hidden.Steady := by simp [Steady, hidden, layers, isOpen, exposes]
  have hplain : ∀ p ∈ providers, p.IsPlain := by simp [providers, IsPlain]
  obtain ⟨-, hunwrapping, -, hok, -, hdeeper, -, hstandard⟩ := probe_layers hsteady hplain 7 0
  -- the depth of 1 comes to the closed layer only
  have hrefused : ((unwrapping 1).acquire hidden 0).grant = none := by
    rw [← Option.not_isSome_iff_eq_none, (hunwrapping 1).isSome_iff]
    rintro ⟨i, layer, hfirst, hlast, hget, hopen⟩
    obtain rfl := Nat.le_antisymm hlast hfirst
    cases hget
    cases hopen
  have hbefore : ∀ q ∈ [unwrapping 1, direct], (q.acquire hidden 0).grant = none :=
    List.forall_mem_cons.mpr ⟨hrefused, List.forall_mem_singleton.mpr rfl⟩
  exact ⟨⟨hsteady, hplain⟩,
    (hok _).mpr ⟨[unwrapping 1, direct], unwrapping 3, [], rfl, rfl, hbefore⟩, hrefused,
    hdeeper 3 5 _ (by decide) rfl,
    hstandard.isSome_iff.mpr ⟨2, _, by decide, by decide, rfl, rfl⟩⟩

end Host

end FieldGraft
