import FieldGraft.Proofs.NodeContexts

/-!
# How literals and patterns are read

Completion reads a literal or pattern by the names in its path, and `Self` by the text of the self
type. In three contexts this is not what the code means:

* `Session.injectItems_selfPaths` — `Self { .. }` is not always read like the self type written out:
  not in an `impl` block of `self::T` or `(T)`, where only the written path is read, nor of
  `::m::T`, where only `Self` is.
* `Session.injectItems_assignees` — a literal to which an assignment writes takes a value apart, but
  is completed like one that makes a value.
* `Session.injectItems_localStructs` — in a block with a struct `T` of its own, the path `T` is read
  as the `T` of the module scope.

At a single node the question is whether it misses something, `NodeForm.Misses`. If so, it is
supplied with it (`NodeForm.complete_eq_supply`); if not, completion only goes inside
(`NodeForm.complete_eq_completeInside_iff`). The three theorems say for which nodes the reading does
no harm, and what becomes of the others.
-/

namespace FieldGraft

/-! ### What a node misses -/

namespace NodeForm

/-- The path of a literal or pattern. -/
def path? : NodeForm → Option Path
  | literal p _ _ _ => some p
  | pattern p _ _ _ => some p
  | declaration _ _ => none

/-- The members of a literal or pattern. -/
def members : NodeForm → List Member
  | literal _ ms _ _ => ms
  | pattern _ ms _ _ => ms
  | declaration _ _ => []

/-- The `..` of a literal or pattern with what follows it, if there is one. -/
def rest : NodeForm → List Code
  | literal _ _ _ rest => rest
  | pattern _ _ _ rest => rest
  | declaration _ _ => []

/-- The node after completion of what is inside it, with its own members and `..`. -/
def completeInside (s : Completion) : NodeForm → NodeForm
  | literal p ms trailing rest =>
    literal (p.complete s) (Member.completeList s ms) trailing (Code.completeList s rest)
  | pattern p ms trailing rest =>
    pattern (p.complete s) (Member.completeList s ms) trailing (Code.completeList s rest)
  | declaration name body => declaration name (body.complete s)

/-- The node after completion of what is inside it, supplied with the given fields: a literal gets
defaults behind its members, a pattern gets a `..`. -/
def supply (s : Completion) (fields : List String) : NodeForm → NodeForm
  | literal p ms _ _ =>
    literal (p.complete s) (Member.completeList s ms ++ missingMembers fields ms) false []
  | pattern p ms _ _ =>
    pattern (p.complete s) (Member.completeList s ms) (!ms.isEmpty) [.op {} ".."]
  | declaration name body => declaration name (body.complete s)

/-- **Something is missing**: the node has no `..`, and it means a struct that received a name which
no member gives. -/
def Misses (s : Completion) (form : NodeForm) : Prop :=
  form.rest = [] ∧ ∃ fields, form.target? s = some fields ∧
    ∃ a ∈ fields, form.members.any (Completion.names a) = false

theorem target?_of_path {s : Completion} {form : NodeForm} {p : Path}
    (hp : form.path? = some p) : form.target? s = s.target? p := by
  cases form with
  | literal q ms trailing rest =>
    rw [Option.some.inj hp.symm]
    rfl
  | pattern q ms trailing rest =>
    rw [Option.some.inj hp.symm]
    rfl
  | declaration name body => cases hp

end NodeForm

namespace Completion

/-- Defaults are only added. -/
theorem length_le_foldl_addDefault (fields : List String) (ms : List Member × Bool) :
    ms.1.length ≤ (fields.foldl addDefault ms).1.length := by
  induction fields generalizing ms with
  | nil => exact Nat.le_refl _
  | cons field fields ih =>
    refine Nat.le_trans ?_ (ih _)
    unfold addDefault
    split
    · exact Nat.le_refl _
    · rw [List.length_append]
      exact Nat.le_add_right _ _

/-- Nothing is added iff every name is given. -/
theorem foldl_addDefault_eq_self_iff (fields : List String) (ms : List Member × Bool) :
    fields.foldl addDefault ms = ms ↔ ∀ a ∈ fields, ms.1.any (names a) = true := by
  induction fields with
  | nil => simp
  | cons field fields ih =>
    rw [List.foldl_cons, List.forall_mem_cons]
    by_cases hgiven : ms.1.any (names field) = true
    · have hstep : addDefault ms field = ms := if_pos hgiven
      rw [hstep, ih, and_iff_right hgiven]
    · -- one default more, and none is taken away later
      have hstep : addDefault ms field = (ms.1 ++ [defaultMember field], false) := if_neg hgiven
      refine iff_of_false (fun heq => ?_) fun hall => hgiven hall.1
      have hlength := length_le_foldl_addDefault fields (addDefault ms field)
      rw [heq, hstep, List.length_append, List.length_singleton] at hlength
      exact absurd hlength (Nat.not_succ_le_self _)

/-- The comma at the end stays iff nothing is added. -/
theorem foldl_addDefault_snd (fields : List String) (ms : List Member) (trailing : Bool) :
    (fields.foldl addDefault (ms, trailing)).2 =
      (trailing && fields.all (fun a => ms.any (names a))) := by
  induction fields generalizing ms trailing with
  | nil => simp
  | cons field fields ih =>
    rw [List.foldl_cons, List.all_cons, addDefault]
    by_cases hgiven : ms.any (names field) = true
    · rw [if_pos hgiven, ih, hgiven, Bool.true_and]
    · -- no comma is left, and none comes back
      rw [if_neg hgiven, ih, Bool.false_and, Bool.eq_false_iff.mpr hgiven, Bool.false_and,
        Bool.and_false]

theorem fill_eq_self_iff (s : Completion) (p : Path) (ms : List Member) (trailing : Bool)
    (rest : List Code) :
    s.fill p ms trailing rest = (ms, trailing) ↔
      ¬ (rest = [] ∧ ∃ fields, s.target? p = some fields ∧
        ∃ a ∈ fields, ms.any (names a) = false) := by
  by_cases hkeep : rest ≠ [] ∨ s.target? p = none
  · -- the literal has a `..`, or its path means nothing
    refine iff_of_true (fill_eq_self hkeep ms trailing) ?_
    rintro ⟨hrest, fields, htarget, -⟩
    rcases hkeep with hne | hnone
    · exact hne hrest
    · rw [hnone] at htarget
      cases htarget
  · -- the path means a struct, and what counts is whether some name is missing
    rw [not_or, not_not] at hkeep
    obtain ⟨rfl, hsome⟩ := hkeep
    obtain ⟨fields, htarget⟩ := Option.ne_none_iff_exists'.mp hsome
    rw [fill_of_target htarget, foldl_addDefault_eq_self_iff]
    simp [htarget]

theorem cover_eq_self_iff (s : Completion) (p : Path) (ms : List Member) (trailing : Bool)
    (rest : List Code) :
    s.cover p ms trailing rest = (trailing, rest) ↔
      ¬ (rest = [] ∧ ∃ fields, s.target? p = some fields ∧
        ∃ a ∈ fields, ms.any (names a) = false) := by
  cases rest with
  | cons c cs => exact iff_of_true rfl fun h => List.cons_ne_nil _ _ h.1
  | nil =>
    rw [← cover_ne_nil_iff ms trailing, and_iff_right rfl, not_not]
    refine ⟨fun heq => congrArg Prod.snd heq, fun hnil => ?_⟩
    -- without a `..` of its own, the pattern keeps its comma
    unfold cover at hnil ⊢
    cases htarget : s.target? p with
    | none => rfl
    | some fields =>
      rw [htarget] at hnil
      simp only at hnil ⊢
      split
      · rfl
      · next hsome =>
        rw [if_neg hsome] at hnil
        cases hnil

end Completion

theorem Member.isEmpty_completeList (s : Completion) (ms : List Member) :
    (Member.completeList s ms).isEmpty = ms.isEmpty := by
  cases ms <;> rfl

namespace NodeForm

/-- **A node that misses nothing only changes inside**, and any other changes itself. -/
theorem complete_eq_completeInside_iff (s : Completion) (form : NodeForm) :
    form.complete s = form.completeInside s ↔ ¬ form.Misses s := by
  cases form with
  | literal p ms trailing rest =>
    -- completing what is inside changes neither the names of the members nor the meaning of the
    -- path
    have hfill := Completion.fill_eq_self_iff s (p.complete s) (Member.completeList s ms) trailing
      (Code.completeList s rest)
    simp only [Completion.target?_complete, Completion.any_names_completeList,
      Code.completeList_eq_nil_iff] at hfill
    refine Iff.trans ?_ hfill
    simp only [complete, completeInside, literal.injEq, true_and, and_true, Prod.ext_iff]
  | pattern p ms trailing rest =>
    have hcover := Completion.cover_eq_self_iff s (p.complete s) (Member.completeList s ms) trailing
      (Code.completeList s rest)
    simp only [Completion.target?_complete, Completion.any_names_completeList,
      Code.completeList_eq_nil_iff] at hcover
    refine Iff.trans ?_ hcover
    simp only [complete, completeInside, pattern.injEq, true_and, Prod.ext_iff]
  | declaration name body =>
    -- a struct that is declared here has no path that could mean anything
    refine iff_of_true rfl ?_
    rintro ⟨-, fields, htarget, -⟩
    cases htarget

/-- A pattern that misses something gets a `..`. -/
theorem pattern_complete_of_misses {s : Completion} {p : Path} {ms : List Member} {trailing : Bool}
    {rest : List Code} (h : (pattern p ms trailing rest).Misses s) :
    (pattern p ms trailing rest).complete s =
      pattern (p.complete s) (Member.completeList s ms) (!ms.isEmpty) [.op {} ".."] := by
  obtain ⟨hrest, fields, htarget, a, ha, hmissing⟩ := h
  obtain rfl : rest = [] := hrest
  have hfound : s.target? p = some fields := htarget
  have hsome : fields.all (fun b => ms.any (Completion.names b)) = false :=
    List.all_eq_false.mpr ⟨a, ha, Bool.eq_false_iff.mp hmissing⟩
  simp only [complete, Completion.cover, Code.completeList, Completion.target?_complete, hfound,
    Completion.any_names_completeList, hsome, Bool.false_eq_true, if_false,
    Member.isEmpty_completeList]

/-- **A node that misses something is supplied with it**, if the names are distinct and each is
written as it is. -/
theorem complete_eq_supply {s : Completion} {form : NodeForm} {fields : List String}
    (hnodup : fields.Nodup) (htext : ∀ a ∈ fields, (Word.ofText a).text = a)
    (htarget : form.target? s = some fields) (hmisses : form.Misses s) :
    form.complete s = form.supply s fields := by
  cases form with
  | literal p ms trailing rest =>
    obtain ⟨hrest, fields', htarget', a, ha, hmissing⟩ := hmisses
    obtain rfl : rest = [] := hrest
    obtain rfl : fields = fields' := Option.some.inj (htarget.symm.trans htarget')
    -- what the path means is not changed by completing the path
    have hfound : s.target? (p.complete s) = some fields := by
      rw [Completion.target?_complete]
      exact htarget
    -- something is added, so no comma is left at the end
    have hsome : fields.all (fun b => ms.any (Completion.names b)) = false :=
      List.all_eq_false.mpr ⟨a, ha, Bool.eq_false_iff.mp hmissing⟩
    have hcomma := Completion.foldl_addDefault_snd fields (Member.completeList s ms) trailing
    simp only [Completion.any_names_completeList, hsome, Bool.and_false] at hcomma
    have hmembers := Completion.foldl_addDefault_fst hnodup htext (Member.completeList s ms)
      trailing
    rw [missingMembers_completeList] at hmembers
    rw [supply, ← hmembers, ← hcomma, ← Completion.fill_of_target hfound]
    rfl
  | pattern p ms trailing rest => exact pattern_complete_of_misses hmisses
  | declaration name body => cases htarget

end NodeForm

/-! ### What a node lacks -/

/-- The node has no `..`, and lacks a field that was received by the struct which the names mean in
the scope. -/
def NodeForm.Lacks (items : List Item) (access : Except HostError Capability)
    (scope names : List String) (form : NodeForm) : Prop :=
  form.rest = [] ∧ ∃ x : StructEntry, x.IsMeant items access scope names ∧
    ∃ a ∈ x.received (Catalogue.ofItems items) access,
      form.members.any (Completion.names a) = false

namespace PlacedNode

theorem complete_outside {n : PlacedNode} (h : n.context.scope = none)
    (received : List String → Received) : n.node.complete received = n.node := by
  obtain ⟨⟨_, _, _, _⟩, _⟩ := n
  cases h
  rfl

theorem form_complete {n : PlacedNode} {scope : List String} (h : n.context.scope = some scope)
    (received : List String → Received) :
    (n.node.complete received).form = n.form.complete (n.node.completion received) := by
  obtain ⟨⟨_, _, _, _⟩, _⟩ := n
  cases h
  rfl

theorem completion_eq {n : PlacedNode} {scope : List String} (h : n.context.scope = some scope)
    (received : List String → Received) :
    n.node.completion received = ⟨received scope, n.context.selfTy.bind Code.pathText?⟩ := by
  obtain ⟨⟨_, _, _, _⟩, _⟩ := n
  cases h
  rfl

end PlacedNode

section Lacks

variable {items : List Item} {access : Except HostError Capability} {scope names : List String}
  {self : Option String} {form : NodeForm}

/-- A node that is read over some names misses what it lacks. -/
theorem misses_iff_lacks (hdistinct : Item.distinctNames items = true)
    (hplain : plainStructs items = true) (hnames : ∀ n ∈ names, isPlainName n = true)
    (hread : form.target? ⟨unitReceived items access scope, self⟩ =
      (unitReceived items access scope).lookup (String.intercalate "::" names)) :
    form.Misses ⟨unitReceived items access scope, self⟩ ↔
      form.Lacks items access scope names := by
  unfold NodeForm.Misses NodeForm.Lacks
  rw [hread]
  exact and_congr_right fun _ => exists_missing_iff hdistinct hplain hnames form.members

/-- So does a node with a path that leads over them. -/
theorem misses_iff_of_leadsOver (hdistinct : Item.distinctNames items = true)
    (hplain : plainStructs items = true) {p : Path} (hpath : form.path? = some p)
    (hp : p.LeadsOver names) :
    form.Misses ⟨unitReceived items access scope, self⟩ ↔
      form.Lacks items access scope names := by
  refine misses_iff_lacks hdistinct hplain hp.plain ?_
  rw [NodeForm.target?_of_path hpath, Completion.target?_eq_lookup hp]

/-- The same for a node that may be read or not. -/
theorem misses_iff_read_and_lacks (hdistinct : Item.distinctNames items = true)
    (hplain : plainStructs items = true) (hnames : ∀ n ∈ names, isPlainName n = true) {read : Bool}
    (hread : form.target? ⟨unitReceived items access scope, self⟩ =
      if read then (unitReceived items access scope).lookup (String.intercalate "::" names)
      else none) :
    form.Misses ⟨unitReceived items access scope, self⟩ ↔
      read = true ∧ form.Lacks items access scope names := by
  cases read with
  -- the path is read in the scope, and the scope decides
  | true =>
    rw [and_iff_right rfl]
    exact misses_iff_lacks hdistinct hplain hnames hread
  | false =>
    -- the path is not read, so nothing is found
    refine iff_of_false ?_ fun h => Bool.false_ne_true h.1
    rintro ⟨-, fields, hfound, -⟩
    rw [hread] at hfound
    cases hfound

/-- A node that lacks something is supplied with what the struct received. -/
theorem complete_of_lacks (hdistinct : Item.distinctNames items = true)
    (hplain : plainStructs items = true) (hexact : exactRequests items = true) {p : Path}
    (hpath : form.path? = some p) (hp : p.LeadsOver names) {x : StructEntry}
    (hx : x.IsMeant items access scope names) (hlacks : form.Lacks items access scope names) :
    form.complete ⟨unitReceived items access scope, self⟩ =
      form.supply ⟨unitReceived items access scope, self⟩
        (x.received (Catalogue.ofItems items) access) := by
  have htarget : form.target? ⟨unitReceived items access scope, self⟩ =
      some (x.received (Catalogue.ofItems items) access) := by
    rw [NodeForm.target?_of_path hpath]
    exact target?_of_isMeant hdistinct hplain hp hx
  -- the received names are distinct and stand for themselves
  exact NodeForm.complete_eq_supply (x.received_fresh _ access).1
    (StructEntry.received_text hexact hx.mem _ access) htarget
    ((misses_iff_of_leadsOver hdistinct hplain hpath hp).mpr hlacks)

/-- Only one struct can be meant. -/
theorem lacks_iff_of_isMeant (hdistinct : Item.distinctNames items = true) {x : StructEntry}
    (hx : x.IsMeant items access scope names) :
    form.Lacks items access scope names ↔
      form.rest = [] ∧ ∃ a ∈ x.received (Catalogue.ofItems items) access,
        form.members.any (Completion.names a) = false := by
  refine and_congr_right fun _ => ⟨?_, fun hmissing => ⟨x, hx, hmissing⟩⟩
  rintro ⟨y, hy, hmissing⟩
  -- two structs at one path are one
  rwa [structEntries_path_inj hdistinct hy.mem hx.mem (hy.path_eq.trans hx.path_eq.symm)]
    at hmissing

end Lacks

/-! ### `Self` and the self type -/

/-- The path `Self`. -/
def Path.isSelf : Path → Bool
  | .named none [.mk w _] => w.text == "Self"
  | _ => false

/-- The path is read from the scope: it has no leading `::`. -/
def Path.isRead : Path → Bool
  | .named none _ => true
  | _ => false

/-- The path that a type is, parentheses around it and generic arguments aside. -/
def Code.writtenPath? : Code → Option Path
  | .path (.named root segments) => some (.named root (segments.map (fun x => .mk x.name [])))
  | .node .parenType [.group _ .paren [c]] => c.writtenPath?
  | _ => none

/-- Inside an `impl` block of the type, `Self` is read as the type: it is a path without
parentheses that does not start with `self`. -/
def Code.isReadAsSelf : Code → Bool
  | .path (.named _ segments) => (segments.map (fun x => x.name.text)).head? != some "self"
  | _ => false

/-- The literal or pattern with another path. -/
def NodeForm.withPath (p : Path) : NodeForm → NodeForm
  | literal _ ms trailing rest => literal p ms trailing rest
  | pattern _ ms trailing rest => pattern p ms trailing rest
  | declaration name body => declaration name body

/-- No struct, and no module around one, has the name `self` or `Self`; neither can be the name of
an item. -/
def unreservedStructs (items : List Item) : Bool :=
  (Item.structDeclsList [] items).all
    (fun d => d.path.all (fun n => n != "self" && n != "Self"))

/-- The node is a literal or pattern `Self { .. }`, and the self type of the `impl` block around it
is a path. One leading `self` aside, this path leads over the given names. -/
structure PlacedNode.IsSelf (n : PlacedNode) (scope : List String) (ty : Code) (path : Path)
    (names : List String) : Prop where
  scope_eq : n.context.scope = some scope
  selfTy_eq : n.context.selfTy = some ty
  path_eq : ty.writtenPath? = some path
  names_eq : path.names?.map dropSelf = some names
  plain : ∀ n ∈ names, isPlainName n = true
  isSelf : ∃ p, n.form.path? = some p ∧ p.isSelf = true

/-- **What becomes of `Self { .. }`.** The node `n` of a unit became `n'`; inside both, everything
is completed as at the node. It is compared to the same node with the path of the self type in place
of `Self`. -/
structure SelfCompleted (items : List Item) (access : Except HostError Capability)
    (n : PlacedNode) (n' : CodeNode) : Prop where
  /-- Outside all scopes nothing changes. -/
  outside : n.context.scope = none → n' = n.node
  /-- With `Self`, the node changes iff `Self` is read as the self type and a field is lacking. -/
  changed : ∀ {scope names : List String} {ty : Code} {path : Path}, n.IsSelf scope ty path names →
    (n'.form ≠ n.form.completeInside (n.node.completion (unitReceived items access)) ↔
      ty.isReadAsSelf = true ∧ n.form.Lacks items access scope names)
  /-- With the path written out, it would change iff this path is read and a field is lacking. -/
  written : ∀ {scope names : List String} {ty : Code} {path : Path}, n.IsSelf scope ty path names →
    ((n.form.withPath path).complete (n.node.completion (unitReceived items access)) ≠
        (n.form.withPath path).completeInside (n.node.completion (unitReceived items access)) ↔
      path.isRead = true ∧ n.form.Lacks items access scope names)
  /-- Where a field is lacking, both come to the same iff both are read or neither is. -/
  agrees : ∀ {scope names : List String} {ty : Code} {path : Path}, n.IsSelf scope ty path names →
    (n'.form.withPath path =
        (n.form.withPath path).complete (n.node.completion (unitReceived items access)) ↔
      (n.form.Lacks items access scope names → ty.isReadAsSelf = path.isRead))

theorem Completion.destination?_of_self (s : Completion) {names : List String}
    (h : dropSelf names = ["Self"]) : s.destination? names = s.selfTy := by
  unfold dropSelf at h
  split at h
  · rw [h]
    rfl
  · rw [h]
    rfl

theorem Completion.target?_of_isSelf (s : Completion) {p : Path} (hp : p.isSelf = true) :
    s.target? p = s.selfTy.bind (fun d => s.received.lookup d) := by
  unfold Path.isSelf at hp
  split at hp
  · next w args =>
    have hself : dropSelf [w.text] = ["Self"] := by
      rw [beq_iff_eq.mp hp]
      rfl
    exact congrArg (fun d => Option.bind d _) (s.destination?_of_self hself)
  · cases hp

theorem eq_cons_dropSelf {names : List String} (h : names.head? = some "self") :
    names = "self" :: dropSelf names := by
  obtain ⟨rest, rfl⟩ := List.head?_eq_some_iff.mp h
  rfl

theorem dropSelf_eq_self {names : List String} (h : names.head? ≠ some "self") :
    dropSelf names = names := by
  unfold dropSelf
  split
  · exact absurd rfl h
  · rfl

section SelfPaths

variable {items : List Item} {access : Except HostError Capability} {scope names : List String}

/-- Nothing is found under a reserved word. -/
theorem lookup_of_reserved (hplain : plainStructs items = true)
    (hunreserved : unreservedStructs items = true) (hnames : ∀ n ∈ names, isPlainName n = true)
    (hreserved : "self" ∈ names ∨ "Self" ∈ names) :
    (unitReceived items access scope).lookup (String.intercalate "::" names) = none := by
  refine unitReceived_lookup_eq_none hplain hnames fun x hx _ hpath => ?_
  -- the path of the struct ends with the names, so neither of them is a reserved word
  have hwords : ∀ n ∈ names, n ≠ "self" ∧ n ≠ "Self" := by
    intro n hn
    have hall := List.all_eq_true.mp (List.all_eq_true.mp hunreserved x.decl
      (decl_mem_of_mem_structEntries hx)) n (hpath ▸ List.mem_append_right _ hn)
    rw [Bool.and_eq_true, bne_iff_ne, bne_iff_ne] at hall
    exact hall
  rcases hreserved with hself | hself
  · exact absurd rfl (hwords _ hself).1
  · exact absurd rfl (hwords _ hself).2

/-- What is found for `Self`. -/
theorem lookup_pathText? (hplain : plainStructs items = true)
    (hunreserved : unreservedStructs items = true) {ty : Code} {path : Path}
    (hty : ty.writtenPath? = some path) (hpath : path.names?.map dropSelf = some names)
    (hnames : ∀ n ∈ names, isPlainName n = true) :
    ty.pathText?.bind (fun d => (unitReceived items access scope).lookup d) =
      if ty.isReadAsSelf then
        (unitReceived items access scope).lookup (String.intercalate "::" names)
      else none := by
  unfold Code.writtenPath? at hty
  split at hty
  · next root segments =>
    -- a path as it stands: its names are joined, a leading `self` with them
    obtain rfl := Option.some.inj hty
    have hwords : dropSelf (segments.map (fun x => x.name.text)) = names := by
      rw [Path.names?, List.map_map, Option.map_some, Option.some.injEq] at hpath
      exact hpath
    show (unitReceived items access scope).lookup
      (String.intercalate "::" (segments.map (fun x => x.name.text))) = _
    by_cases hself : (segments.map (fun x => x.name.text)).head? = some "self"
    · -- the text starts with `self`, and no struct is known by such a text
      have hlost : (Code.path (.named root segments)).isReadAsSelf = false := by
        rw [Code.isReadAsSelf, hself]
        rfl
      rw [hlost, eq_cons_dropSelf hself, hwords]
      refine lookup_of_reserved hplain hunreserved ?_ (.inl List.mem_cons_self)
      exact List.forall_mem_cons.mpr ⟨by decide, hnames⟩
    · have hread : (Code.path (.named root segments)).isReadAsSelf = true := bne_iff_ne.mpr hself
      rw [hread, ← hwords, dropSelf_eq_self hself]
      rfl
  · -- in parentheses, the type has no text
    rfl
  · cases hty

/-- What is found for the path that is written out. -/
theorem target?_writtenPath (hplain : plainStructs items = true)
    (hunreserved : unreservedStructs items = true) {ty : Code} {path : Path}
    (hty : ty.writtenPath? = some path) (hpath : path.names?.map dropSelf = some names)
    (hnames : ∀ n ∈ names, isPlainName n = true) :
    (⟨unitReceived items access scope, ty.pathText?⟩ : Completion).target? path =
      if path.isRead then
        (unitReceived items access scope).lookup (String.intercalate "::" names)
      else none := by
  cases path with
  | qualified parts => rfl
  | named root segments =>
    -- with a leading `::` nothing is read
    cases root with
    | some pos => rfl
    | none =>
      have hwords : dropSelf (segments.map (fun x => x.name.text)) = names :=
        Option.some.inj hpath
      by_cases hself : names = ["Self"]
      · -- an `impl` block of `Self`: the path stands for the self type, that is, for nothing
        have hnone : (unitReceived items access scope).lookup (String.intercalate "::" names) =
            none :=
          lookup_of_reserved hplain hunreserved hnames (.inr (by rw [hself]; simp))
        have hlost : ty.pathText?.bind (fun d => (unitReceived items access scope).lookup d) =
            none := by
          rw [lookup_pathText? hplain hunreserved hty hpath hnames, hnone, ite_self]
        rw [hnone, ite_self, Completion.target?,
          Completion.destination?_of_self _ (hwords.trans hself)]
        exact hlost
      · rw [← hwords] at hself
        rw [Completion.target?, Completion.destination?_eq _ hself, hwords]
        rfl

end SelfPaths

theorem Segment.completeList_bare (s : Completion) (segments : List Segment) :
    Segment.completeList s (segments.map (fun x => .mk x.name [])) =
      segments.map (fun x => .mk x.name []) := by
  induction segments with
  | nil => rfl
  | cons x xs ih =>
    rw [List.map_cons, Segment.completeList, ih]
    rfl

/-- Completion has nothing to do in a path without generic arguments. -/
theorem Path.complete_writtenPath (s : Completion) {ty : Code} {path : Path}
    (hty : ty.writtenPath? = some path) : path.complete s = path := by
  fun_induction Code.writtenPath? ty with
  | case1 root segments =>
    obtain rfl := Option.some.inj hty
    rw [Path.complete, Segment.completeList_bare]
  | case2 pos c ih => exact ih hty
  | case3 ty hpath hparen => cases hty

namespace NodeForm

theorem path?_withPath {form : NodeForm} {p : Path} (hp : form.path? = some p) (q : Path) :
    (form.withPath q).path? = some q := by
  cases form with
  | literal _ _ _ _ => rfl
  | pattern _ _ _ _ => rfl
  | declaration _ _ => cases hp

@[simp] theorem rest_withPath (form : NodeForm) (q : Path) :
    (form.withPath q).rest = form.rest := by
  cases form <;> rfl

@[simp] theorem members_withPath (form : NodeForm) (q : Path) :
    (form.withPath q).members = form.members := by
  cases form <;> rfl

theorem completeInside_withPath {s : Completion} {q : Path} (hq : q.complete s = q)
    (form : NodeForm) :
    (form.withPath q).completeInside s = (form.completeInside s).withPath q := by
  cases form <;> simp only [withPath, completeInside, hq]

/-- Two nodes that differ in nothing but the path, and not in the path, are equal. -/
theorem withPath_inj {form form' : NodeForm} {q : Path} (hpath : form.path? = form'.path?)
    (h : form.withPath q = form'.withPath q) : form = form' := by
  cases form <;> cases form' <;> simp_all [withPath, path?]

theorem path?_complete (s : Completion) (form : NodeForm) :
    (form.complete s).path? = (form.completeInside s).path? := by
  cases form <;> rfl

/-- With another path that means the same, the same is done. -/
theorem complete_withPath {s : Completion} {form : NodeForm} {p q : Path}
    (hp : form.path? = some p) (hq : q.complete s = q) (htarget : s.target? p = s.target? q) :
    (form.withPath q).complete s = (form.complete s).withPath q := by
  -- both paths find the same, so the node is completed alike with either
  have htarget' : s.target? (p.complete s) = s.target? q := by
    rw [Completion.target?_complete, htarget]
  cases form with
  | literal p' ms trailing rest =>
    obtain rfl := Option.some.inj hp
    simp only [withPath, complete, hq, Completion.fill, htarget']
  | pattern p' ms trailing rest =>
    obtain rfl := Option.some.inj hp
    simp only [withPath, complete, hq, Completion.cover, htarget']
  | declaration _ _ => cases hp

/-- **Two paths come to the same iff something is missing under both or under neither**, if what
they mean is the same as far as they mean something. -/
theorem withPath_complete_iff {s : Completion} {form : NodeForm} {p q : Path}
    (hp : form.path? = some p) (hq : q.complete s = q)
    (hsame : s.target? p = none ∨ s.target? q = none ∨ s.target? p = s.target? q) :
    (form.complete s).withPath q = (form.withPath q).complete s ↔
      (form.Misses s ↔ (form.withPath q).Misses s) := by
  have hinside := completeInside_withPath hq form
  by_cases hself : form.Misses s <;> by_cases hwritten : (form.withPath q).Misses s
  · -- both mean something, so both mean the same
    refine iff_of_true ?_ (iff_of_true hself hwritten)
    obtain ⟨-, fields, hfound, -⟩ := hself
    obtain ⟨-, fields', hfound', -⟩ := hwritten
    rw [target?_of_path hp] at hfound
    rw [target?_of_path (path?_withPath hp q)] at hfound'
    refine (complete_withPath hp hq ?_).symm
    simpa [hfound, hfound'] using hsame
  · -- the node itself changes, but with the other path it would not
    refine iff_of_false (fun heq => ?_) fun hiff => hwritten (hiff.mp hself)
    rw [(complete_eq_completeInside_iff s _).mpr hwritten, hinside] at heq
    exact (complete_eq_completeInside_iff s form).mp
      (withPath_inj (path?_complete s form) heq) hself
  · -- with the other path the node would change, but it does not
    refine iff_of_false (fun heq => ?_) fun hiff => hself (hiff.mpr hwritten)
    rw [(complete_eq_completeInside_iff s _).mpr hself, ← hinside] at heq
    exact (complete_eq_completeInside_iff s _).mp heq.symm hwritten
  · -- completion only goes inside, and there the path does not count
    refine iff_of_true ?_ (iff_of_false hself hwritten)
    rw [(complete_eq_completeInside_iff s _).mpr hself,
      (complete_eq_completeInside_iff s _).mpr hwritten, hinside]

end NodeForm

section SelfNodes

variable {items : List Item} {access : Except HostError Capability} {n : PlacedNode}
  {scope names : List String} {ty : Code} {path : Path}

theorem PlacedNode.IsSelf.completion_eq (h : n.IsSelf scope ty path names)
    (received : List String → Received) :
    n.node.completion received = ⟨received scope, ty.pathText?⟩ := by
  rw [PlacedNode.completion_eq h.scope_eq, h.selfTy_eq]
  rfl

/-- What the node means. -/
theorem PlacedNode.IsSelf.target?_eq (h : n.IsSelf scope ty path names)
    (hplain : plainStructs items = true) (hunreserved : unreservedStructs items = true) :
    n.form.target? ⟨unitReceived items access scope, ty.pathText?⟩ =
      if ty.isReadAsSelf then
        (unitReceived items access scope).lookup (String.intercalate "::" names)
      else none := by
  obtain ⟨p, hp, hself⟩ := h.isSelf
  rw [NodeForm.target?_of_path hp, Completion.target?_of_isSelf _ hself]
  exact lookup_pathText? hplain hunreserved h.path_eq h.names_eq h.plain

/-- What it means with the path written out. -/
theorem PlacedNode.IsSelf.target?_written_eq (h : n.IsSelf scope ty path names)
    (hplain : plainStructs items = true) (hunreserved : unreservedStructs items = true) :
    (n.form.withPath path).target? ⟨unitReceived items access scope, ty.pathText?⟩ =
      if path.isRead then
        (unitReceived items access scope).lookup (String.intercalate "::" names)
      else none := by
  obtain ⟨p, hp, -⟩ := h.isSelf
  rw [NodeForm.target?_of_path (NodeForm.path?_withPath hp path)]
  exact target?_writtenPath hplain hunreserved h.path_eq h.names_eq h.plain

/-- Each of the two finds the struct at the names, or nothing. -/
theorem PlacedNode.IsSelf.target?_same (h : n.IsSelf scope ty path names)
    (hplain : plainStructs items = true) (hunreserved : unreservedStructs items = true) {p : Path}
    (hp : n.form.path? = some p) :
    (n.node.completion (unitReceived items access)).target? p = none ∨
      (n.node.completion (unitReceived items access)).target? path = none ∨
      (n.node.completion (unitReceived items access)).target? p =
        (n.node.completion (unitReceived items access)).target? path := by
  rw [h.completion_eq, ← NodeForm.target?_of_path hp,
    ← NodeForm.target?_of_path (NodeForm.path?_withPath hp path),
    h.target?_eq hplain hunreserved, h.target?_written_eq hplain hunreserved]
  cases ty.isReadAsSelf <;> cases path.isRead <;> simp

theorem PlacedNode.IsSelf.misses_iff (h : n.IsSelf scope ty path names)
    (hdistinct : Item.distinctNames items = true) (hplain : plainStructs items = true)
    (hunreserved : unreservedStructs items = true) :
    n.form.Misses (n.node.completion (unitReceived items access)) ↔
      ty.isReadAsSelf = true ∧ n.form.Lacks items access scope names := by
  rw [h.completion_eq]
  exact misses_iff_read_and_lacks hdistinct hplain h.plain (h.target?_eq hplain hunreserved)

theorem PlacedNode.IsSelf.misses_written_iff (h : n.IsSelf scope ty path names)
    (hdistinct : Item.distinctNames items = true) (hplain : plainStructs items = true)
    (hunreserved : unreservedStructs items = true) :
    (n.form.withPath path).Misses (n.node.completion (unitReceived items access)) ↔
      path.isRead = true ∧ n.form.Lacks items access scope names := by
  rw [h.completion_eq, misses_iff_read_and_lacks hdistinct hplain h.plain
    (h.target?_written_eq hplain hunreserved)]
  simp only [NodeForm.Lacks, NodeForm.rest_withPath, NodeForm.members_withPath]

end SelfNodes

/-- One node, completed by the account of the unit. -/
theorem selfCompleted_complete {items : List Item} (access : Except HostError Capability)
    (hdistinct : Item.distinctNames items = true) (hplain : plainStructs items = true)
    (hunreserved : unreservedStructs items = true) (n : PlacedNode) :
    SelfCompleted items access n (n.node.complete (unitReceived items access)) := by
  refine ⟨fun h => PlacedNode.complete_outside h _, ?_, ?_, ?_⟩
  · -- the node changes iff it misses something by the self type
    intro scope names ty path h
    rw [PlacedNode.form_complete h.scope_eq, ne_eq, NodeForm.complete_eq_completeInside_iff,
      not_not]
    exact h.misses_iff hdistinct hplain hunreserved
  · -- with the written path it changes iff it misses something by that path
    intro scope names ty path h
    rw [ne_eq, NodeForm.complete_eq_completeInside_iff, not_not]
    exact h.misses_written_iff hdistinct hplain hunreserved
  · -- the two results agree iff the two readings miss something alike
    intro scope names ty path h
    obtain ⟨p, hp, -⟩ := h.isSelf
    rw [PlacedNode.form_complete h.scope_eq,
      NodeForm.withPath_complete_iff hp (Path.complete_writtenPath _ h.path_eq)
        (h.target?_same hplain hunreserved hp),
      h.misses_iff hdistinct hplain hunreserved, h.misses_written_iff hdistinct hplain hunreserved,
      and_congr_left_iff]
    exact forall_congr' fun _ => Bool.eq_iff_iff.symm

/-- **`Self` after a round.** If names are distinct in each scope and none is reserved, the literals
and patterns `Self { .. }` of the emitted items are those of the unit, one for one, completed as
`SelfCompleted` says. -/
theorem Session.injectItems_selfPaths (s : Session) (items : List Item)
    (hdistinct : Item.distinctNames items = true) (hplain : plainStructs items = true)
    (hunreserved : unreservedStructs items = true) :
    List.Forall₂ (SelfCompleted items s.authorize.2.1) (Item.scopePlacedList [] items)
      (Item.scopeNodesList [] (s.injectItems items).2.1) := by
  rw [s.injectItems_placed hdistinct, List.forall₂_map_right_iff, List.forall₂_same]
  exact fun n _ => selfCompleted_complete _ hdistinct hplain hunreserved n

/-- The struct `T` with a request for `b`, and `impl T { fn f(T { a }: T) { T { a: 1 } } }` with the
given self type in place of the first `T`, and the given path in the pattern and the literal. -/
def implUnit (ty : Code) (path : Path) : List Item :=
  let a : MemberName := .named ⟨"a", {}⟩
  [requestingStruct "b",
    .impl [] [.tree (keywordTree "impl")] .inherent ty [] []
      [.fn [.tree (keywordTree "fn")] ⟨"f", {}⟩ []
        [.mk .typed [.structPat path [.mk [] a []] false [], .op {} ":", .path (.ofNames ["T"])]]
        false []
        [.node .block [.group {} .brace
          [.structLit path [.mk [] a [.op {} ":", .tree (.leaf {} (.literal "1"))]] false []]]]]]

/-- The path `self::T`. -/
def prefixedPath : Path := .ofNames ["self", "T"]

/-- The path `::T`. -/
def rootedPath : Path := .named (some {}) [.mk ⟨"T", {}⟩ []]

/-- The type `(T)`. -/
def parenthesised : Code := .node .parenType [.group {} .paren [.path (.ofNames ["T"])]]

/-- The names that the literals of a unit give after a round, and which of its patterns have a
`..`. -/
def completedNames (items : List Item) : List (List String) × List Bool :=
  let nodes := Item.scopeNodesList [] (commandLineSession.injectItems items).2.1
  (nodes.filterMap CodeNode.literalNames?, nodes.filterMap CodeNode.patternRest?)

/-- The unit with `Self { .. }` in an `impl` block of `self::T`. -/
def prefixedSelf : List Item := implUnit (.path prefixedPath) (.ofNames ["Self"])

/-- `Self` is left alone in an `impl` block of `self::T` or `(T)`, where the written path is
completed; in a block of `::T` it is the other way around. -/
theorem injectItems_selfPaths_prefixed :
    Item.distinctNames prefixedSelf = true ∧ plainStructs prefixedSelf = true ∧
      unreservedStructs prefixedSelf = true ∧
      List.Forall₂ (SelfCompleted prefixedSelf commandLineSession.authorize.2.1)
        (Item.scopePlacedList [] prefixedSelf)
        (Item.scopeNodesList [] (commandLineSession.injectItems prefixedSelf).2.1) ∧
      completedNames prefixedSelf = ([["a"]], [false]) ∧
      completedNames (implUnit (.path prefixedPath) prefixedPath) = ([["a", "b"]], [true]) ∧
      completedNames (implUnit parenthesised (.ofNames ["Self"])) = ([["a"]], [false]) ∧
      completedNames (implUnit parenthesised (.ofNames ["T"])) = ([["a", "b"]], [true]) ∧
      completedNames (implUnit (.path rootedPath) (.ofNames ["Self"])) = ([["a", "b"]], [true]) ∧
      completedNames (implUnit (.path rootedPath) rootedPath) = ([["a"]], [false]) := by
  have hdistinct : Item.distinctNames prefixedSelf = true := by decide +kernel
  have hplain : plainStructs prefixedSelf = true := by decide +kernel
  have hunreserved : unreservedStructs prefixedSelf = true := by decide +kernel
  refine ⟨hdistinct, hplain, hunreserved,
    commandLineSession.injectItems_selfPaths _ hdistinct hplain hunreserved, ?_⟩
  decide +kernel

/-! ### What assignments write to -/

/-- The pattern with the path, members and `..` of a literal. -/
def NodeForm.asPattern : NodeForm → NodeForm
  | literal p ms trailing rest => pattern p ms trailing rest
  | pattern p ms trailing rest => pattern p ms trailing rest
  | declaration name body => declaration name body

/-- **What becomes of a literal to which an assignment writes.** The node `n` of a unit became `n'`;
inside both, everything is completed as at the node. -/
structure AssigneeCompleted (items : List Item) (access : Except HostError Capability)
    (n : PlacedNode) (n' : CodeNode) : Prop where
  /-- Outside all scopes nothing changes. -/
  outside : n.context.scope = none → n' = n.node
  /-- The literal is treated like a pattern iff it misses nothing. -/
  likePattern : ∀ {scope : List String} {p : Path} {ms : List Member} {trailing : Bool}
    {rest : List Code}, n.context.scope = some scope → n.context.assigned = true →
    n.form = .literal p ms trailing rest →
    (n'.form.asPattern =
        n.form.asPattern.complete (n.node.completion (unitReceived items access)) ↔
      ¬ n.form.Misses (n.node.completion (unitReceived items access)))
  /-- What it misses is what the struct that it means received and no member gives. -/
  misses : ∀ {scope names : List String} {p : Path} {ms : List Member} {trailing : Bool}
    {rest : List Code}, n.context.scope = some scope → n.context.assigned = true →
    n.form = .literal p ms trailing rest → p.LeadsOver names →
    (n.form.Misses (n.node.completion (unitReceived items access)) ↔
      n.form.Lacks items access scope names)
  /-- If there is such a name, the literal gets at least one default, and no `..`. -/
  supplied : ∀ {scope names : List String} {p : Path} {ms : List Member} {trailing : Bool}
    {x : StructEntry} {a : String}, n.context.scope = some scope → n.context.assigned = true →
    n.form = .literal p ms trailing [] → p.LeadsOver names → x.IsMeant items access scope names →
    a ∈ x.received (Catalogue.ofItems items) access → ms.any (Completion.names a) = false →
    n'.form =
        .literal (p.complete (n.node.completion (unitReceived items access)))
          (Member.completeList (n.node.completion (unitReceived items access)) ms ++
            missingMembers (x.received (Catalogue.ofItems items) access) ms) false [] ∧
      Completion.defaultMember a ∈ missingMembers (x.received (Catalogue.ofItems items) access) ms

/-- A literal that misses something gets no `..`, so it does not become what the pattern does. -/
theorem NodeForm.asPattern_complete_iff (s : Completion) (p : Path) (ms : List Member)
    (trailing : Bool) (rest : List Code) :
    ((literal p ms trailing rest).complete s).asPattern = (pattern p ms trailing rest).complete s ↔
      ¬ (literal p ms trailing rest).Misses s := by
  by_cases hmisses : (literal p ms trailing rest).Misses s
  · -- the pattern gets a `..`, and the literal does not
    refine iff_of_false (fun heq => ?_) (not_not.mpr hmisses)
    -- the condition speaks of the path and the members, which the two have in common
    have hmisses' : (pattern p ms trailing rest).Misses s := hmisses
    have hrests := congrArg NodeForm.rest (heq.trans (pattern_complete_of_misses hmisses'))
    obtain rfl : rest = [] := hmisses.1
    exact absurd hrests.symm (List.cons_ne_nil _ _)
  · -- neither of them is changed but inside
    have hmisses' : ¬ (pattern p ms trailing rest).Misses s := hmisses
    rw [(complete_eq_completeInside_iff s _).mpr hmisses,
      (complete_eq_completeInside_iff s _).mpr hmisses']
    exact iff_of_true rfl hmisses

theorem defaultMember_mem_missingMembers {fields : List String} {ms : List Member} {a : String}
    (ha : a ∈ fields) (hmissing : ms.any (Completion.names a) = false) :
    Completion.defaultMember a ∈ missingMembers fields ms := by
  refine List.mem_map_of_mem (List.mem_filter.mpr ⟨ha, ?_⟩)
  rw [hmissing]
  rfl

/-- One node, completed by the account of the unit. -/
theorem assigneeCompleted_complete {items : List Item} (access : Except HostError Capability)
    (hdistinct : Item.distinctNames items = true) (hplain : plainStructs items = true)
    (hexact : exactRequests items = true) (n : PlacedNode) :
    AssigneeCompleted items access n (n.node.complete (unitReceived items access)) := by
  refine ⟨fun h => PlacedNode.complete_outside h _, ?_, ?_, ?_⟩
  · -- on the left of an assignment a literal is completed as a literal
    intro scope p ms trailing rest hscope _ hform
    rw [PlacedNode.form_complete hscope, hform]
    exact NodeForm.asPattern_complete_iff _ p ms trailing rest
  · -- whether it misses something is read off the struct at its path
    intro scope names p ms trailing rest hscope _ hform hp
    rw [PlacedNode.completion_eq hscope, hform]
    exact misses_iff_of_leadsOver hdistinct hplain rfl hp
  · -- then what it gets is a default, where a pattern would get a `..`
    intro scope names p ms trailing x a hscope _ hform hp hx ha hmissing
    have hlacks : n.form.Lacks items access scope names := by
      rw [hform]
      exact ⟨rfl, x, hx, a, ha, hmissing⟩
    have hpath : n.form.path? = some p := by
      rw [hform]
      rfl
    rw [PlacedNode.form_complete hscope, PlacedNode.completion_eq hscope,
      complete_of_lacks hdistinct hplain hexact hpath hp hx hlacks, hform]
    exact ⟨rfl, defaultMember_mem_missingMembers ha hmissing⟩

/-- **Assignments after a round.** If names are distinct in each scope and every request is written
as its identifier, the literals to which assignments write are completed as `AssigneeCompleted`
says. -/
theorem Session.injectItems_assignees (s : Session) (items : List Item)
    (hdistinct : Item.distinctNames items = true) (hplain : plainStructs items = true)
    (hexact : exactRequests items = true) :
    List.Forall₂ (AssigneeCompleted items s.authorize.2.1) (Item.scopePlacedList [] items)
      (Item.scopeNodesList [] (s.injectItems items).2.1) := by
  rw [s.injectItems_placed hdistinct, List.forall₂_map_right_iff, List.forall₂_same]
  exact fun n _ => assigneeCompleted_complete _ hdistinct hplain hexact n

/-- The function `fn f() { … }` with the given statements. -/
def functionItem (statements : List Code) : Item :=
  .other .fnItem
    [.fn [.tree (keywordTree "fn")] ⟨"f", {}⟩ [] [] false []
      [.node .block [.group {} .brace statements]]]

/-- The struct `T` with a request for `b`, and `fn f() { T { a } = t; let T { a } = t; }`. -/
def assigningUnit : List Item :=
  let a : List Member := [.mk [] (.named ⟨"a", {}⟩) []]
  [requestingStruct "b",
    functionItem
      [.node .exprStmt
          [.node .assign
              [.structLit (.ofNames ["T"]) a false [], .op {} "=", .path (.ofNames ["t"])],
            .op {} ";"],
        .node .localLet
          [.tree (keywordTree "let"), samplePattern ["T"], .op {} "=", .path (.ofNames ["t"]),
            .op {} ";"]]]

/-- An assignment to `T { a }` gets a default, where `let T { a }` gets a `..`. -/
theorem injectItems_assignees_struct :
    Item.distinctNames assigningUnit = true ∧ plainStructs assigningUnit = true ∧
      exactRequests assigningUnit = true ∧
      List.Forall₂ (AssigneeCompleted assigningUnit commandLineSession.authorize.2.1)
        (Item.scopePlacedList [] assigningUnit)
        (Item.scopeNodesList [] (commandLineSession.injectItems assigningUnit).2.1) ∧
      (Item.scopePlacedList [] assigningUnit).map (fun n => n.context.assigned) = [true, false] ∧
      completedNames assigningUnit = ([["a", "b"]], [true]) := by
  have hdistinct : Item.distinctNames assigningUnit = true := by decide +kernel
  have hplain : plainStructs assigningUnit = true := by decide +kernel
  have hexact : exactRequests assigningUnit = true := by decide +kernel
  refine ⟨hdistinct, hplain, hexact,
    commandLineSession.injectItems_assignees _ hdistinct hplain hexact, ?_⟩
  decide +kernel

/-! ### Structs of a block -/

/-- The node is a literal or pattern with a single name as its path, and a block around it declares
a struct of that name. So this struct is what it means. -/
structure PlacedNode.IsLocal (n : PlacedNode) (scope : List String) (name : String) : Prop where
  scope_eq : n.context.scope = some scope
  declared : name ∈ n.context.locals
  path_eq : ∃ p, n.form.path? = some p ∧ p.isRead = true ∧ p.names? = some [name]
  plain : isPlainName name = true
  unreserved : name ≠ "self" ∧ name ≠ "Self"

/-- **What becomes of a literal or pattern of a local struct**, if the struct `x` with the same name
in the module scope received fields. The node `n` of a unit became `n'`; inside both, everything is
completed as at the node. -/
structure LocalCompleted (items : List Item) (access : Except HostError Capability)
    (n : PlacedNode) (n' : CodeNode) : Prop where
  /-- Outside all scopes nothing changes. -/
  outside : n.context.scope = none → n' = n.node
  /-- The node is left alone iff it has a `..`, or happens to give all names that `x` received. -/
  kept : ∀ {scope : List String} {name : String} {x : StructEntry}, n.IsLocal scope name →
    x.IsMeant items access scope [name] →
    (n'.form = n.form.completeInside (n.node.completion (unitReceived items access)) ↔
      n.form.rest ≠ [] ∨ ∀ a ∈ x.received (Catalogue.ofItems items) access,
        n.form.members.any (Completion.names a) = true)
  /-- Any other node is supplied with the fields of `x`. -/
  supplied : ∀ {scope : List String} {name : String} {x : StructEntry} {a : String},
    n.IsLocal scope name → x.IsMeant items access scope [name] → n.form.rest = [] →
    a ∈ x.received (Catalogue.ofItems items) access →
    n.form.members.any (Completion.names a) = false →
    n'.form = n.form.supply (n.node.completion (unitReceived items access))
      (x.received (Catalogue.ofItems items) access)

/-- The path of the node is read as the struct of the module scope. -/
theorem PlacedNode.IsLocal.leadsOver {n : PlacedNode} {scope : List String} {name : String}
    (h : n.IsLocal scope name) : ∃ p, n.form.path? = some p ∧ p.LeadsOver [name] := by
  obtain ⟨p, hpath, hread, hnames⟩ := h.path_eq
  refine ⟨p, hpath, ?_, ?_, ?_⟩
  · -- the path of a local struct is one name, which is neither `self` nor `Self`
    unfold Path.isRead at hread
    split at hread
    · rw [Path.names?, Option.some.injEq] at hnames
      rw [Path.relativeNames?, hnames, dropSelf_eq_self]
      exact fun hself => h.unreserved.1 (Option.some.inj hself)
    · cases hread
  · exact fun hself => h.unreserved.2 (List.cons.inj hself).1
  · intro m hm
    rw [List.mem_singleton.mp hm]
    exact h.plain

/-- One node, completed by the account of the unit. -/
theorem localCompleted_complete {items : List Item} (access : Except HostError Capability)
    (hdistinct : Item.distinctNames items = true) (hplain : plainStructs items = true)
    (hexact : exactRequests items = true) (n : PlacedNode) :
    LocalCompleted items access n (n.node.complete (unitReceived items access)) := by
  refine ⟨fun h => PlacedNode.complete_outside h _, ?_, ?_⟩
  · -- the scope knows the name of a struct, and the node does not look further
    intro scope name x h hx
    obtain ⟨p, hpath, hp⟩ := h.leadsOver
    rw [PlacedNode.form_complete h.scope_eq, NodeForm.complete_eq_completeInside_iff,
      PlacedNode.completion_eq h.scope_eq, misses_iff_of_leadsOver hdistinct hplain hpath hp,
      lacks_iff_of_isMeant hdistinct hx, not_and_or]
    simp
  · -- so the local struct gets the fields of the other one
    intro scope name x a h hx hrest ha hmissing
    obtain ⟨p, hpath, hp⟩ := h.leadsOver
    rw [PlacedNode.form_complete h.scope_eq, PlacedNode.completion_eq h.scope_eq]
    exact complete_of_lacks hdistinct hplain hexact hpath hp hx ⟨hrest, x, hx, a, ha, hmissing⟩

/-- **Local structs after a round.** If names are distinct in each scope and every request is
written as its identifier, the literals and patterns of local structs are completed as
`LocalCompleted` says. -/
theorem Session.injectItems_localStructs (s : Session) (items : List Item)
    (hdistinct : Item.distinctNames items = true) (hplain : plainStructs items = true)
    (hexact : exactRequests items = true) :
    List.Forall₂ (LocalCompleted items s.authorize.2.1) (Item.scopePlacedList [] items)
      (Item.scopeNodesList [] (s.injectItems items).2.1) := by
  rw [s.injectItems_placed hdistinct, List.forall₂_map_right_iff, List.forall₂_same]
  exact fun n _ => localCompleted_complete _ hdistinct hplain hexact n

/-- The struct `T` with a request for `b`, and a function with a struct `T` of its own:
`fn f() { struct T { a: u8 } let T { a } = T { a: 1 }; }`. -/
def shadowingUnit : List Item :=
  [requestingStruct "b",
    functionItem
      [.item (.struct [] .inherited ⟨"T", {}⟩ []
          (.named [] [.mk [] .inherited ⟨"a", {}⟩ (.path (.ofNames ["u8"]))] false)),
        .node .localLet
          [.tree (keywordTree "let"), samplePattern ["T"], .op {} "=", sampleLiteral ["T"],
            .op {} ";"]]]

/-- The local struct has no field `b`, but its literal gets a default for it, and its pattern a
`..`. -/
theorem injectItems_localStructs_shadowing :
    Item.distinctNames shadowingUnit = true ∧ plainStructs shadowingUnit = true ∧
      exactRequests shadowingUnit = true ∧
      List.Forall₂ (LocalCompleted shadowingUnit commandLineSession.authorize.2.1)
        (Item.scopePlacedList [] shadowingUnit)
        (Item.scopeNodesList [] (commandLineSession.injectItems shadowingUnit).2.1) ∧
      (Item.scopePlacedList [] shadowingUnit).map (fun n => n.context.locals) =
        [["T"], ["T"], ["T"]] ∧
      completedNames shadowingUnit = ([["a", "b"]], [true]) := by
  have hdistinct : Item.distinctNames shadowingUnit = true := by decide +kernel
  have hplain : plainStructs shadowingUnit = true := by decide +kernel
  have hexact : exactRequests shadowingUnit = true := by decide +kernel
  refine ⟨hdistinct, hplain, hexact,
    commandLineSession.injectItems_localStructs _ hdistinct hplain hexact, ?_⟩
  decide +kernel

end FieldGraft
