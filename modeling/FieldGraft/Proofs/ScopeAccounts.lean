import FieldGraft.Proofs.FieldPlacement

/-!
# What a path means in a scope

Completion knows the structs of a scope by texts: the names of the modules on the way and of the
struct, joined by `::`. If the types and inline modules of each scope have distinct names, these
texts are as good as paths.

* `unitScopes_structs_eq` — the structs that a scope knows are all structs of the unit whose path
  goes through it. So one account, `unitReceived`, is right for every scope.
* `intercalate_inj` — a text determines the names that were joined.
* `unitReceived_lookup_eq_some` and `unitReceived_lookup_eq_none` — a path means, in a scope, the
  struct at the path of the scope followed by it, if that struct received fields.
-/

namespace FieldGraft

/-! ### Distinct names -/

/-- The name that an item gives to a type or an inline module. -/
def Item.scopeName? : Item → Option String
  | .struct _ _ name _ _ => some name.text
  | .nominal _ _ _ name _ => some name.text
  | .module _ _ name _ _ => some name.text
  | .use _ _ _ _ => none
  | .impl _ _ _ _ _ _ _ => none
  | .other _ _ => none

mutual

/-- Inside the item, the types and inline modules of each scope have distinct names. -/
def Item.distinctInside : Item → Bool
  | .module _ _ _ _ items =>
    decide (items.filterMap Item.scopeName?).Nodup && Item.distinctInsideList items
  | .struct _ _ _ _ _ => true
  | .nominal _ _ _ _ _ => true
  | .use _ _ _ _ => true
  | .impl _ _ _ _ _ _ _ => true
  | .other _ _ => true

def Item.distinctInsideList : List Item → Bool
  | [] => true
  | i :: is => i.distinctInside && Item.distinctInsideList is

end

/-- **The types and inline modules of each scope have distinct names.** -/
def Item.distinctNames (items : List Item) : Bool :=
  decide (items.filterMap Item.scopeName?).Nodup && Item.distinctInsideList items

mutual

/-- A struct of an item has the name of the item in its path. -/
theorem Item.scopeName?_of_mem_structDecls (path : List String) {m : String} :
    ∀ i : Item, ∀ d ∈ i.structDecls path, path ++ [m] <+: d.path → i.scopeName? = some m
  | .struct _ _ name _ _, d, hd, hm => by
    rw [Item.structDecls, List.mem_singleton] at hd
    subst hd
    rw [StructDecl.path, List.prefix_append_right_inj] at hm
    obtain ⟨rest, hrest⟩ := hm
    rw [Item.scopeName?, (List.cons.inj hrest).1]
  | .module _ _ name _ items, d, hd, hm => by
    have hname : path ++ [name.text] <+: d.path :=
      (Item.scope_of_mem_structDeclsList (path ++ [name.text]) items d hd).trans
        (List.prefix_append _ _)
    -- two prefixes of one length are equal
    have heq := List.prefix_of_prefix_length_le hm hname (by simp)
    rw [List.prefix_append_right_inj] at heq
    obtain ⟨rest, hrest⟩ := heq
    rw [Item.scopeName?, (List.cons.inj hrest).1]
  | .nominal _ _ _ _ _, _, hd, _ => absurd hd List.not_mem_nil
  | .use _ _ _ _, _, hd, _ => absurd hd List.not_mem_nil
  | .impl _ _ _ _ _ _ _, _, hd, _ => absurd hd List.not_mem_nil
  | .other _ _, _, hd, _ => absurd hd List.not_mem_nil

theorem Item.scopeName?_of_mem_structDeclsList (path : List String) {m : String} :
    ∀ is : List Item, ∀ d ∈ Item.structDeclsList path is, path ++ [m] <+: d.path →
      m ∈ is.filterMap Item.scopeName?
  | [], _, hd, _ => absurd hd List.not_mem_nil
  | i :: is, d, hd, hm => by
    rw [Item.structDeclsList, List.mem_append] at hd
    rw [List.mem_filterMap]
    rcases hd with hd | hd
    · exact ⟨i, List.mem_cons_self, Item.scopeName?_of_mem_structDecls path i d hd hm⟩
    · obtain ⟨j, hj, hname⟩ :=
        List.mem_filterMap.mp (Item.scopeName?_of_mem_structDeclsList path is d hd hm)
      exact ⟨j, List.mem_cons_of_mem _ hj, hname⟩

end

/-- A struct of an item has a first name behind the path of the scope. -/
theorem Item.exists_name_of_mem_structDecls (path : List String) (i : Item) {d : StructDecl}
    (hd : d ∈ i.structDecls path) : ∃ m, path ++ [m] <+: d.path := by
  obtain ⟨rest, hrest⟩ := Item.scope_of_mem_structDecls path i d hd
  cases rest with
  | nil =>
    rw [List.append_nil] at hrest
    exact ⟨d.name.text, [], by rw [List.append_nil, StructDecl.path, hrest]⟩
  | cons m rest =>
    refine ⟨m, rest ++ [d.name.text], ?_⟩
    rw [StructDecl.path, ← hrest]
    simp

theorem distinct_cons {i : Item} {is : List Item}
    (h : ((i :: is).filterMap Item.scopeName?).Nodup) :
    (is.filterMap Item.scopeName?).Nodup ∧
      ∀ m, i.scopeName? = some m → m ∉ is.filterMap Item.scopeName? := by
  rw [List.filterMap_cons] at h
  cases hname : i.scopeName? with
  | none =>
    rw [hname] at h
    exact ⟨h, fun _ hm => by cases hm⟩
  | some n =>
    rw [hname, List.nodup_cons] at h
    refine ⟨h.2, fun m hm => ?_⟩
    rw [← Option.some.inj hm]
    exact h.1

mutual

/-- **Distinct names make distinct paths.** -/
theorem Item.paths_nodup (path : List String) :
    ∀ i : Item, i.distinctInside = true → ((i.structDecls path).map StructDecl.path).Nodup
  | .struct _ _ _ _ _, _ => List.nodup_singleton _
  | .module _ _ name _ items, h => by
    rw [Item.distinctInside, Bool.and_eq_true, decide_eq_true_eq] at h
    exact Item.paths_nodupList (path ++ [name.text]) items h.1 h.2
  | .nominal _ _ _ _ _, _ => List.nodup_nil
  | .use _ _ _ _, _ => List.nodup_nil
  | .impl _ _ _ _ _ _ _, _ => List.nodup_nil
  | .other _ _, _ => List.nodup_nil

theorem Item.paths_nodupList (path : List String) :
    ∀ is : List Item, (is.filterMap Item.scopeName?).Nodup → Item.distinctInsideList is = true →
      ((Item.structDeclsList path is).map StructDecl.path).Nodup
  | [], _, _ => List.nodup_nil
  | i :: is, hnames, hinside => by
    rw [Item.distinctInsideList, Bool.and_eq_true] at hinside
    obtain ⟨hnames', hnew⟩ := distinct_cons hnames
    rw [Item.structDeclsList, List.map_append, List.nodup_append]
    refine ⟨Item.paths_nodup path i hinside.1, Item.paths_nodupList path is hnames' hinside.2, ?_⟩
    intro a ha b hb hab
    obtain ⟨d, hd, rfl⟩ := List.mem_map.mp ha
    obtain ⟨d', hd', rfl⟩ := List.mem_map.mp hb
    -- a path that both share would give the item and a later one the same name
    obtain ⟨m, hm⟩ := Item.exists_name_of_mem_structDecls path i hd
    exact hnew m (Item.scopeName?_of_mem_structDecls path i d hd hm)
      (Item.scopeName?_of_mem_structDeclsList path is d' hd' (hab ▸ hm))

end

/-! ### One account for all scopes -/

/-- The structs whose path goes through the scope with the given path. -/
def structsThrough (path : List String) (xs : List StructEntry) : List StructEntry :=
  xs.filter (fun x => path.isPrefixOf x.decl.scope)

/-- **What the structs of each scope of a unit received.** -/
def unitReceived (items : List Item) (access : Except HostError Capability)
    (path : List String) : Received :=
  scopeReceived (Catalogue.ofItems items) access path.length
    (structsThrough path (structEntries items))

theorem structsThrough_append (path : List String) (xs ys : List StructEntry) :
    structsThrough path (xs ++ ys) = structsThrough path xs ++ structsThrough path ys :=
  List.filter_append ..

theorem structsThrough_eq_self {path : List String} {xs : List StructEntry}
    (h : ∀ x ∈ xs, path <+: x.decl.scope) : structsThrough path xs = xs :=
  List.filter_eq_self.mpr fun x hx => List.isPrefixOf_iff_prefix.mpr (h x hx)

theorem structsThrough_eq_nil {path : List String} {xs : List StructEntry}
    (h : ∀ x ∈ xs, ¬ path <+: x.decl.scope) : structsThrough path xs = [] :=
  List.filter_eq_nil_iff.mpr fun x hx hpath => h x hx (List.isPrefixOf_iff_prefix.mp hpath)

/-- What goes through an inner scope goes through the outer one. -/
theorem structsThrough_structsThrough {path path' : List String} (h : path <+: path')
    (xs : List StructEntry) :
    structsThrough path' (structsThrough path xs) = structsThrough path' xs := by
  unfold structsThrough
  rw [List.filter_filter]
  refine List.filter_congr fun x _ => ?_
  rw [Bool.and_eq_left_iff_imp]
  intro hpath'
  exact List.isPrefixOf_iff_prefix.mpr (h.trans (List.isPrefixOf_iff_prefix.mp hpath'))

/-- No struct of an item goes through a module of another name. -/
theorem Item.structsThrough_structDecls (path : List String) (i : Item) (nodes : List NodeId)
    {m : String} (hm : i.scopeName? ≠ some m) :
    structsThrough (path ++ [m]) (List.zipWith StructEntry.mk (i.structDecls path) nodes) = [] :=
  structsThrough_eq_nil fun _ hx hpath =>
    hm (Item.scopeName?_of_mem_structDecls path i _ (mem_zipWith_entry hx)
      (hpath.trans (List.prefix_append _ _)))

theorem Item.structsThrough_structDeclsList (path : List String) (is : List Item)
    (nodes : List NodeId) {m : String} (hm : m ∉ is.filterMap Item.scopeName?) :
    structsThrough (path ++ [m])
      (List.zipWith StructEntry.mk (Item.structDeclsList path is) nodes) = [] :=
  structsThrough_eq_nil fun _ hx hpath =>
    hm (Item.scopeName?_of_mem_structDeclsList path is _ (mem_zipWith_entry hx)
      (hpath.trans (List.prefix_append _ _)))

section Scopes

variable (all : List StructEntry)

mutual

/-- The scopes inside an item, if all structs that go through it are its own. -/
theorem Item.scopes_structs_eq (path : List String) :
    ∀ (i : Item) (nodes : List NodeId), i.distinctInside = true →
      (∀ m, i.scopeName? = some m → structsThrough (path ++ [m]) all =
        structsThrough (path ++ [m]) (List.zipWith StructEntry.mk (i.structDecls path) nodes)) →
      ∀ sc ∈ i.scopes path nodes, sc.structs = structsThrough sc.path all
  | .module _ _ name _ items, nodes, hinside, hall, sc, hsc => by
    rw [Item.distinctInside, Bool.and_eq_true, decide_eq_true_eq] at hinside
    -- the structs of the module are all that go through it, in the unit as in the item
    have hblock : structsThrough (path ++ [name.text]) all = List.zipWith StructEntry.mk
        (Item.structDeclsList (path ++ [name.text]) items) nodes :=
      (hall name.text rfl).trans (structsThrough_eq_self fun x hx =>
        Item.scope_of_mem_structDeclsList _ items _ (mem_zipWith_entry hx))
    rw [Item.scopes, List.mem_cons] at hsc
    rcases hsc with rfl | hsc
    · exact hblock.symm
    · refine Item.scopesList_structs_eq (path ++ [name.text]) items nodes hinside.1 hinside.2 ?_ sc
        hsc
      intro m _
      rw [← structsThrough_structsThrough (List.prefix_append (path ++ [name.text]) [m]), hblock]
  | .struct _ _ _ _ _, _, _, _, _, hsc => absurd hsc List.not_mem_nil
  | .nominal _ _ _ _ _, _, _, _, _, hsc => absurd hsc List.not_mem_nil
  | .use _ _ _ _, _, _, _, _, hsc => absurd hsc List.not_mem_nil
  | .impl _ _ _ _ _ _ _, _, _, _, _, hsc => absurd hsc List.not_mem_nil
  | .other _ _, _, _, _, _, hsc => absurd hsc List.not_mem_nil

theorem Item.scopesList_structs_eq (path : List String) :
    ∀ (is : List Item) (nodes : List NodeId), (is.filterMap Item.scopeName?).Nodup →
      Item.distinctInsideList is = true →
      (∀ m ∈ is.filterMap Item.scopeName?, structsThrough (path ++ [m]) all =
        structsThrough (path ++ [m])
          (List.zipWith StructEntry.mk (Item.structDeclsList path is) nodes)) →
      ∀ sc ∈ Item.scopesList path nodes is, sc.structs = structsThrough sc.path all
  | [], _, _, _, _, _, hsc => absurd hsc List.not_mem_nil
  | i :: is, nodes, hnames, hinside, hall, sc, hsc => by
    rw [Item.distinctInsideList, Bool.and_eq_true] at hinside
    obtain ⟨hnames', hnew⟩ := distinct_cons hnames
    -- a name of the scope belongs to one item, so only the structs of that item go through it
    have hsplit : ∀ m ∈ (i :: is).filterMap Item.scopeName?, structsThrough (path ++ [m]) all =
        structsThrough (path ++ [m]) (List.zipWith StructEntry.mk (i.structDecls path) nodes) ++
          structsThrough (path ++ [m]) (List.zipWith StructEntry.mk
            (Item.structDeclsList path is) (nodes.drop (i.structDecls path).length)) := by
      intro m hm
      rw [hall m hm, Item.structDeclsList, zipWith_append_left, structsThrough_append]
    rw [Item.scopesList, List.mem_append] at hsc
    rcases hsc with hsc | hsc
    · refine Item.scopes_structs_eq path i nodes hinside.1 (fun m hm => ?_) sc hsc
      rw [hsplit m (List.mem_filterMap.mpr ⟨i, List.mem_cons_self, hm⟩),
        Item.structsThrough_structDeclsList path is _ (hnew m hm), List.append_nil]
    · refine Item.scopesList_structs_eq path is _ hnames' hinside.2 (fun m hm => ?_) sc hsc
      obtain ⟨j, hj, hname⟩ := List.mem_filterMap.mp hm
      rw [hsplit m (List.mem_filterMap.mpr ⟨j, List.mem_cons_of_mem _ hj, hname⟩),
        Item.structsThrough_structDecls path i _ fun hi => hnew m hi hm, List.nil_append]

end

end Scopes

/-- **A scope knows exactly the structs whose path goes through it**, if names are distinct. -/
theorem unitScopes_structs_eq {items : List Item} (h : Item.distinctNames items = true)
    {sc : ScopeEntry} (hsc : sc ∈ unitScopes items) :
    sc.structs = structsThrough sc.path (structEntries items) := by
  rw [Item.distinctNames, Bool.and_eq_true, decide_eq_true_eq] at h
  rw [unitScopes, List.mem_cons] at hsc
  rcases hsc with rfl | hsc
  · exact (structsThrough_eq_self fun _ _ => List.nil_prefix).symm
  · exact Item.scopesList_structs_eq _ [] items _ h.1 h.2 (fun _ _ => rfl) sc hsc

/-- The nodes of emitted items are the nodes of the unit, completed by the one account. -/
theorem Session.injectItems_nodes (s : Session) {items : List Item}
    (h : Item.distinctNames items = true) :
    Item.scopeNodesList [] (s.injectItems items).2.1 =
      (Item.scopeNodesList [] items).map
        (CodeNode.complete (unitReceived items s.authorize.2.1)) := by
  have hnodes := (s.injectItems_written items (fun _ f => f = unitReceived items s.authorize.2.1)
    fun sc hsc => ⟨_, rfl, by rw [unitReceived, unitScopes_structs_eq h hsc]⟩).nodes
  simp only [exists_eq_left, exists_const] at hnodes
  generalize Item.scopeNodesList [] (s.injectItems items).2.1 = ns' at hnodes ⊢
  generalize Item.scopeNodesList [] items = ns at hnodes ⊢
  induction hnodes with
  | nil => rfl
  | cons hn _ ih => rw [List.map_cons, hn, ih]

/-! ### Paths as texts -/

/-- The text can be a name in a path: like every identifier, it is not empty and has no colon. -/
def isPlainName (n : String) : Bool :=
  n != "" && !n.toList.contains ':'

theorem toList_ne_nil_of_isPlainName {n : String} (h : isPlainName n = true) :
    n.toList ≠ [] := by
  unfold isPlainName at h
  rw [Bool.and_eq_true, bne_iff_ne] at h
  exact fun hnil => h.1 (String.toList_eq_nil_iff.mp hnil)

theorem colon_notMem_of_isPlainName {n : String} (h : isPlainName n = true) : ':' ∉ n.toList := by
  unfold isPlainName at h
  rw [Bool.and_eq_true, Bool.not_eq_true', List.contains_eq_mem, decide_eq_false_iff_not] at h
  exact h.2

/-- The first of two joined parts ends at the first colon. -/
theorem append_inj_of_colon {a b as bs : List Char} (ha : ':' ∉ a) (hb : ':' ∉ b)
    (has : as = [] ∨ ∃ t, as = ':' :: t) (hbs : bs = [] ∨ ∃ t, bs = ':' :: t)
    (h : a ++ as = b ++ bs) : a = b ∧ as = bs := by
  -- each first part is what stands before the first colon
  have htake : ∀ x xs : List Char, ':' ∉ x → (xs = [] ∨ ∃ t, xs = ':' :: t) →
      (x ++ xs).takeWhile (· != ':') = x := by
    intro x xs hx hxs
    have hall : ∀ c ∈ x, (c != ':') = true := by
      intro c hc
      rw [bne_iff_ne]
      rintro rfl
      exact hx hc
    rw [List.takeWhile_append_of_pos hall]
    rcases hxs with rfl | ⟨t, rfl⟩ <;> simp
  have hab : a = b := by rw [← htake a as ha has, h, htake b bs hb hbs]
  subst hab
  exact ⟨rfl, List.append_cancel_left h⟩

/-- The text behind the first name of a path: nothing, or `::` and the text of the rest. -/
theorem toList_intercalate_cons (n : String) (ns : List String) :
    ∃ rest, (String.intercalate "::" (n :: ns)).toList = n.toList ++ rest ∧
      (rest = [] ∨ ∃ t, rest = ':' :: t) ∧
      rest = if ns = [] then [] else ':' :: ':' :: (String.intercalate "::" ns).toList := by
  cases ns with
  | nil => exact ⟨[], by simp, .inl rfl, rfl⟩
  | cons m ms =>
    refine ⟨':' :: ':' :: (String.intercalate "::" (m :: ms)).toList, ?_, .inr ⟨_, rfl⟩,
      by simp⟩
    rw [String.intercalate_cons_cons]
    simp

/-- **A path is determined by its text**, if its names are plain. -/
theorem intercalate_inj {as bs : List String} (ha : ∀ n ∈ as, isPlainName n = true)
    (hb : ∀ n ∈ bs, isPlainName n = true)
    (h : String.intercalate "::" as = String.intercalate "::" bs) : as = bs := by
  have hne : ∀ n ns, isPlainName n = true → "" ≠ String.intercalate "::" (n :: ns) := by
    intro n ns hn heq
    obtain ⟨rest, htext, -⟩ := toList_intercalate_cons n ns
    rw [← heq] at htext
    exact toList_ne_nil_of_isPlainName hn (List.append_eq_nil_iff.mp htext.symm).1
  -- name by name: the first names end at the first colon, and so do the rests
  induction as generalizing bs with
  | nil =>
    cases bs with
    | nil => rfl
    | cons b bs => exact absurd h (hne b bs (hb b List.mem_cons_self))
  | cons a as ih =>
    cases bs with
    | nil => exact absurd h.symm (hne a as (ha a List.mem_cons_self))
    | cons b bs =>
      have hplain := ha a List.mem_cons_self
      have hplain' := hb b List.mem_cons_self
      obtain ⟨ra, hta, hca, hra⟩ := toList_intercalate_cons a as
      obtain ⟨rb, htb, hcb, hrb⟩ := toList_intercalate_cons b bs
      have htext := congrArg String.toList h
      rw [hta, htb] at htext
      obtain ⟨hab, hrest⟩ := append_inj_of_colon (colon_notMem_of_isPlainName hplain)
        (colon_notMem_of_isPlainName hplain') hca hcb htext
      rw [hra, hrb] at hrest
      rw [String.toList_inj.mp hab]
      congr 1
      -- a rest is empty on both sides or on none
      by_cases has : as = [] <;> by_cases hbs : bs = []
      · rw [has, hbs]
      · simp [has, hbs] at hrest
      · simp [has, hbs] at hrest
      · rw [if_neg has, if_neg hbs] at hrest
        refine ih (fun n hn => ha n (List.mem_cons_of_mem _ hn))
          (fun n hn => hb n (List.mem_cons_of_mem _ hn)) ?_
        exact String.toList_inj.mp (List.cons.inj (List.cons.inj hrest).2).2

/-! ### What a path means -/

/-- The names of structs and of the modules around them are plain, as they are in every unit that
was read from a text. -/
def plainStructs (items : List Item) : Bool :=
  (Item.structDeclsList [] items).all (fun d => d.path.all isPlainName)

section Meaning

variable {items : List Item} {access : Except HostError Capability} {scope names : List String}

theorem plain_of_mem_structEntries (hplain : plainStructs items = true) {x : StructEntry}
    (hx : x ∈ structEntries items) : ∀ n ∈ x.decl.path, isPlainName n = true := by
  exact List.all_eq_true.mp
    (List.all_eq_true.mp hplain x.decl (decl_mem_of_mem_structEntries hx))

/-- An entry of the account of a scope comes from the struct at the path it is for. -/
theorem mem_unitReceived_iff (hplain : plainStructs items = true)
    (hnames : ∀ n ∈ names, isPlainName n = true) {received : List String} :
    (String.intercalate "::" names, received) ∈ unitReceived items access scope ↔
      ∃ x ∈ structEntries items, names ≠ [] ∧ x.decl.path = scope ++ names ∧ received ≠ [] ∧
        x.received (Catalogue.ofItems items) access = received := by
  unfold unitReceived scopeReceived structsThrough
  rw [List.mem_reverse, List.mem_filterMap]
  constructor
  · rintro ⟨x, hx, hentry⟩
    rw [List.mem_filter, List.isPrefixOf_iff_prefix] at hx
    obtain ⟨hmem, rest, hrest⟩ := hx
    split at hentry
    · cases hentry
    · next hsome =>
      have hpath : x.decl.path = scope ++ (rest ++ [x.decl.name.text]) := by
        rw [StructDecl.path, ← hrest, List.append_assoc]
      obtain ⟨htext, hreceived⟩ := Prod.mk.inj (Option.some.inj hentry)
      rw [hpath, List.drop_left] at htext
      have heq : rest ++ [x.decl.name.text] = names := by
        refine intercalate_inj (fun n hn => ?_) hnames htext
        exact plain_of_mem_structEntries hplain hmem n (hpath ▸ List.mem_append_right _ hn)
      refine ⟨x, hmem, ?_, heq ▸ hpath, ?_, hreceived⟩
      · rw [← heq]
        simp
      · rintro rfl
        rw [hreceived] at hsome
        exact hsome rfl
  · rintro ⟨x, hmem, hne, hpath, hsome, rfl⟩
    have hscope : scope <+: x.decl.scope := by
      -- the last name is the struct's own, the others are the modules around it
      refine ⟨names.dropLast, ?_⟩
      have hdrop := congrArg List.dropLast hpath
      rw [StructDecl.path, List.dropLast_concat, List.dropLast_append_of_ne_nil hne] at hdrop
      exact hdrop.symm
    refine ⟨x, List.mem_filter.mpr ⟨hmem, List.isPrefixOf_iff_prefix.mpr hscope⟩, ?_⟩
    rw [hpath, List.drop_left, if_neg (by rwa [List.isEmpty_iff])]

theorem structEntries_path_inj (hdistinct : Item.distinctNames items = true)
    {x y : StructEntry} (hx : x ∈ structEntries items) (hy : y ∈ structEntries items)
    (hpath : x.decl.path = y.decl.path) : x = y := by
  rw [Item.distinctNames, Bool.and_eq_true, decide_eq_true_eq] at hdistinct
  have hnodup := Item.paths_nodupList [] items hdistinct.1 hdistinct.2
  rw [← (structEntries_entered items).1, List.map_map] at hnodup
  exact List.inj_on_of_nodup_map hnodup hx hy hpath

/-- **A path that means a struct**: its fields are found. -/
theorem unitReceived_lookup_eq_some (hdistinct : Item.distinctNames items = true)
    (hplain : plainStructs items = true) (hnames : ∀ n ∈ names, isPlainName n = true)
    (hne : names ≠ []) {x : StructEntry} (hx : x ∈ structEntries items)
    (hpath : x.decl.path = scope ++ names)
    (hsome : x.received (Catalogue.ofItems items) access ≠ []) :
    (unitReceived items access scope).lookup (String.intercalate "::" names) =
      some (x.received (Catalogue.ofItems items) access) := by
  have hmem := (mem_unitReceived_iff hplain hnames).mpr ⟨x, hx, hne, hpath, hsome, rfl⟩
  cases hfound : (unitReceived items access scope).lookup (String.intercalate "::" names) with
  | none =>
    -- the account has an entry for the path
    have hnone := List.lookup_eq_none_iff.mp hfound _ hmem
    exact absurd rfl (bne_iff_ne.mp hnone)
  | some received =>
    obtain ⟨before, after, happend, -⟩ := List.lookup_eq_some_iff.mp hfound
    have hfirst : (String.intercalate "::" names, received) ∈ unitReceived items access scope := by
      rw [happend]
      exact List.mem_append_right _ List.mem_cons_self
    obtain ⟨y, hy, -, hpath', -, hreceived⟩ := (mem_unitReceived_iff hplain hnames).mp hfirst
    -- two structs at one path are one
    rw [← hreceived, structEntries_path_inj hdistinct hy hx (hpath'.trans hpath.symm)]

/-- A path that means no struct with new fields: nothing is found. -/
theorem unitReceived_lookup_eq_none (hplain : plainStructs items = true)
    (hnames : ∀ n ∈ names, isPlainName n = true)
    (hnone : ∀ x ∈ structEntries items, names ≠ [] → x.decl.path = scope ++ names →
      x.received (Catalogue.ofItems items) access = []) :
    (unitReceived items access scope).lookup (String.intercalate "::" names) = none := by
  rw [List.lookup_eq_none_iff]
  rintro ⟨text, received⟩ hr
  rw [bne_iff_ne]
  rintro rfl
  obtain ⟨x, hx, hne, hpath, hsome, hreceived⟩ := (mem_unitReceived_iff hplain hnames).mp hr
  exact hsome (hreceived.symm.trans (hnone x hx hne hpath))

end Meaning

end FieldGraft
