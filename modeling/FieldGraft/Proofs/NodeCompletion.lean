import FieldGraft.Proofs.ScopeAccounts

/-!
# Literals and patterns after a round

A literal or pattern is completed if its path, read from the scope in which it stands, leads to a
struct that received fields (`StructEntry.IsMeant`), and it has no `..` yet. Nothing else happens to
any literal or pattern.

* `Session.injectItems_literals` — a literal gets a default for each received name that it does not
  give, behind its own members and in the order of acceptance.
* `Session.injectItems_patterns` — a pattern gets a `..` if it misses a received name; its members
  stay, and no `..` is lost.

Both run over all nodes of a unit, so an inner literal is treated by the same rule as the one around
it. Paths are read without one leading `self`. The path `Self` is not read from the scope, but
stands for the self type of the `impl` block around it, and so does `self::Self`; a path with a
leading `::` or a qualified self type means nothing.
-/

namespace FieldGraft

/-! ### Paths in a scope -/

/-- The names without one leading `self`. -/
def dropSelf (names : List String) : List String :=
  match names with
  | "self" :: rest => rest
  | _ => names

/-- The names over which a path leads from its scope: one leading `self` does not count. -/
def Path.relativeNames? : Path → Option (List String)
  | .named none segments => some (dropSelf (segments.map (fun x => x.name.text)))
  | _ => none

/-- The path leads from its scope over the given names, and is not `Self`. -/
structure Path.LeadsOver (p : Path) (names : List String) : Prop where
  names_eq : p.relativeNames? = some names
  not_self : names ≠ ["Self"]
  plain : ∀ n ∈ names, isPlainName n = true

/-- **The struct that a path means in a scope**: the path of the scope and the names of the path
together are its path, and it received fields. -/
structure StructEntry.IsMeant (items : List Item) (access : Except HostError Capability)
    (scope names : List String) (x : StructEntry) : Prop where
  mem : x ∈ structEntries items
  names_ne : names ≠ []
  path_eq : x.decl.path = scope ++ names
  received_ne : x.received (Catalogue.ofItems items) access ≠ []

theorem Completion.destination?_eq (s : Completion) {names : List String}
    (h : dropSelf names ≠ ["Self"]) :
    s.destination? names = some (String.intercalate "::" (dropSelf names)) := by
  -- a lone `Self` is the only name that completion replaces
  unfold destination?
  split
  · dsimp only
    split
    · exact absurd rfl h
    · rfl
  · next hne =>
    have hdrop : dropSelf names = names := by
      unfold dropSelf
      split
      · exact absurd rfl (hne _)
      · rfl
    rw [hdrop] at h ⊢
    dsimp only
    split
    · exact absurd rfl h
    · rfl

/-- What a path means is looked up by its text. -/
theorem Completion.target?_eq_lookup {s : Completion} {p : Path} {names : List String}
    -- a relative path leads nowhere but to its names
    (h : p.LeadsOver names) :
    s.target? p = s.received.lookup (String.intercalate "::" names) := by
  obtain ⟨hnames, hself, -⟩ := h
  cases p with
  | qualified parts => cases hnames
  | named root segments =>
    cases root with
    | some pos => cases hnames
    | none =>
      rw [Path.relativeNames?, Option.some.injEq] at hnames
      subst hnames
      rw [target?, destination?_eq s hself]
      rfl

/-- A path with a leading `::` or a qualified self type means nothing. -/
theorem Completion.target?_eq_none {s : Completion} {p : Path} (h : p.relativeNames? = none) :
    s.target? p = none := by
  cases p with
  | qualified parts => rfl
  | named root segments =>
    cases root with
    | some pos => rfl
    | none => cases h

section Meant

variable {items : List Item} {access : Except HostError Capability} {scope names : List String}
  {self : Option String} {p : Path}

/-- The path of a struct with new fields is found. -/
theorem target?_of_isMeant (hdistinct : Item.distinctNames items = true)
    (hplain : plainStructs items = true) (hp : p.LeadsOver names) {x : StructEntry}
    (hx : x.IsMeant items access scope names) :
    (⟨unitReceived items access scope, self⟩ : Completion).target? p =
      some (x.received (Catalogue.ofItems items) access) := by
  rw [Completion.target?_eq_lookup hp]
  exact unitReceived_lookup_eq_some hdistinct hplain hp.plain hx.names_ne hx.mem hx.path_eq
    hx.received_ne

/-- Any other path is not. -/
theorem target?_of_not_isMeant (hplain : plainStructs items = true) (hp : p.LeadsOver names)
    (hnone : ∀ x : StructEntry, ¬ x.IsMeant items access scope names) :
    (⟨unitReceived items access scope, self⟩ : Completion).target? p = none := by
  rw [Completion.target?_eq_lookup hp]
  refine unitReceived_lookup_eq_none hplain hp.plain fun x hx hne hpath => ?_
  by_contra hsome
  exact hnone x ⟨hx, hne, hpath, hsome⟩

/-- What is missing among some members, read off the struct at the names. -/
theorem exists_missing_iff (hdistinct : Item.distinctNames items = true)
    (hplain : plainStructs items = true) (hnames : ∀ n ∈ names, isPlainName n = true)
    (ms : List Member) :
    (∃ fields, (unitReceived items access scope).lookup (String.intercalate "::" names) =
        some fields ∧ ∃ a ∈ fields, ms.any (Completion.names a) = false) ↔
      ∃ x : StructEntry, x.IsMeant items access scope names ∧
        ∃ a ∈ x.received (Catalogue.ofItems items) access,
          ms.any (Completion.names a) = false := by
  constructor
  · rintro ⟨fields, hfound, hmissing⟩
    -- what the account says of the names, a struct at that path received
    by_contra hnone
    have hlost : (unitReceived items access scope).lookup (String.intercalate "::" names) =
        none := by
      refine unitReceived_lookup_eq_none hplain hnames fun x hx hne hpath => ?_
      by_contra hsome
      have heq := unitReceived_lookup_eq_some hdistinct hplain hnames hne hx hpath hsome
      rw [hfound, Option.some.injEq] at heq
      exact hnone ⟨x, ⟨hx, hne, hpath, hsome⟩, heq ▸ hmissing⟩
    rw [hfound] at hlost
    cases hlost
  · rintro ⟨x, hx, hmissing⟩
    exact ⟨_, unitReceived_lookup_eq_some hdistinct hplain hnames hx.names_ne hx.mem hx.path_eq
      hx.received_ne, hmissing⟩

end Meant

/-! ### Defaults -/

/-- The default members for the names that no member gives. -/
def missingMembers (names : List String) (ms : List Member) : List Member :=
  (names.filter (fun n => !ms.any (Completion.names n))).map Completion.defaultMember

/-- Adding defaults one by one adds those that were missing at the start, since the names are
distinct and each is written as it is. -/
theorem Completion.foldl_addDefault_fst {names : List String} (hnodup : names.Nodup)
    (htext : ∀ n ∈ names, (Word.ofText n).text = n) (ms : List Member) (trailing : Bool) :
    (names.foldl addDefault (ms, trailing)).1 = ms ++ missingMembers names ms := by
  induction names generalizing ms trailing with
  | nil => simp [missingMembers]
  | cons n ns ih =>
    obtain ⟨hnew, hnodup'⟩ := List.nodup_cons.mp hnodup
    have htext' : ∀ m ∈ ns, (Word.ofText m).text = m :=
      fun m hm => htext m (List.mem_cons_of_mem _ hm)
    rw [List.foldl_cons, addDefault]
    -- a name that is given is not missing
    by_cases hgiven : ms.any (Completion.names n) = true
    · rw [if_pos hgiven, ih hnodup' htext']
      simp [missingMembers, hgiven]
    · -- the member that is added gives no later name, so what is missing stays the same
      rw [if_neg hgiven, ih hnodup' htext']
      have hsame : missingMembers ns (ms ++ [defaultMember n]) = missingMembers ns ms := by
        unfold missingMembers
        congr 1
        refine List.filter_congr fun m hm => ?_
        have hother : Completion.names m (defaultMember n) = false := by
          show ((Word.ofText n).text == m) = false
          rw [htext n List.mem_cons_self, beq_eq_false_iff_ne]
          rintro rfl
          exact hnew hm
        rw [List.any_append, List.any_cons, hother]
        simp
      rw [hsame]
      simp [missingMembers, hgiven]

theorem missingMembers_completeList (s : Completion) (names : List String) (ms : List Member) :
    missingMembers names (Member.completeList s ms) = missingMembers names ms := by
  unfold missingMembers
  simp only [Completion.any_names_completeList]

/-! ### Completed literals -/

/-- **What becomes of a literal.** The node `n` of a unit became `n'`; inside both, everything is
completed as at the node. -/
structure LiteralCompleted (items : List Item) (access : Except HostError Capability)
    (n n' : CodeNode) : Prop where
  /-- Outside all scopes nothing changes. -/
  outside : n.site.scope = none → n' = n
  /-- A literal of a struct with new fields gets the members that it does not have. -/
  completed : ∀ {scope names : List String} {p : Path} {ms : List Member} {trailing : Bool}
    {x : StructEntry}, n.site.scope = some scope → n.form = .literal p ms trailing [] →
    p.LeadsOver names → x.IsMeant items access scope names →
    ∃ trailing', n'.form =
      .literal (p.complete (n.completion (unitReceived items access)))
        (Member.completeList (n.completion (unitReceived items access)) ms ++
          missingMembers (x.received (Catalogue.ofItems items) access) ms) trailing' []
  /-- Every other literal keeps its members. -/
  kept : ∀ {scope names : List String} {p : Path} {ms : List Member} {trailing : Bool}
    {rest : List Code}, n.site.scope = some scope → n.form = .literal p ms trailing rest →
    p.LeadsOver names → (rest ≠ [] ∨ ∀ x : StructEntry, ¬ x.IsMeant items access scope names) →
    n'.form =
      .literal (p.complete (n.completion (unitReceived items access)))
        (Member.completeList (n.completion (unitReceived items access)) ms) trailing
        (Code.completeList (n.completion (unitReceived items access)) rest)

theorem Code.completeList_eq_nil_iff (s : Completion) (cs : List Code) :
    Code.completeList s cs = [] ↔ cs = [] := by
  cases cs <;> simp [Code.completeList]

theorem Completion.fill_of_target {s : Completion} {p : Path} {fields : List String}
    (h : s.target? p = some fields) (ms : List Member) (trailing : Bool) :
    s.fill p ms trailing [] = fields.foldl addDefault (ms, trailing) := by
  unfold fill
  rw [h]

theorem Completion.fill_eq_self {s : Completion} {p : Path} {rest : List Code}
    (h : rest ≠ [] ∨ s.target? p = none) (ms : List Member) (trailing : Bool) :
    s.fill p ms trailing rest = (ms, trailing) := by
  unfold fill
  cases rest with
  | nil => rw [h.resolve_left fun hne => hne rfl]
  | cons c cs => rfl

/-- One literal, completed by the account of the unit. -/
theorem literalCompleted_complete {items : List Item} (access : Except HostError Capability)
    (hdistinct : Item.distinctNames items = true) (hplain : plainStructs items = true)
    (hexact : exactRequests items = true) (n : CodeNode) :
    LiteralCompleted items access n (n.complete (unitReceived items access)) := by
  obtain ⟨⟨at?, self⟩, form⟩ := n
  refine ⟨?_, ?_, ?_⟩
  · -- outside all scopes there is no account to complete with
    rintro ⟨⟩
    rfl
  · rintro scope names p ms trailing x ⟨⟩ ⟨⟩ hp hx
    let s : Completion := ⟨unitReceived items access scope, self⟩
    have htarget : s.target? (p.complete s) =
        some (x.received (Catalogue.ofItems items) access) := by
      rw [Completion.target?_complete]
      exact target?_of_isMeant hdistinct hplain hp hx
    -- what is missing is read off the members as written, since completion keeps their names
    have hfill := Completion.fill_of_target htarget (Member.completeList s ms) trailing
    have hmembers := Completion.foldl_addDefault_fst
      (x.received_fresh (Catalogue.ofItems items) access).1
      (StructEntry.received_text hexact hx.mem _ access) (Member.completeList s ms) trailing
    rw [missingMembers_completeList] at hmembers
    exact ⟨_, congrArg (fun filled => NodeForm.literal (p.complete s) filled _ [])
      ((congrArg Prod.fst hfill).trans hmembers)⟩
  · rintro scope names p ms trailing rest ⟨⟩ ⟨⟩ hp hno
    let s : Completion := ⟨unitReceived items access scope, self⟩
    -- a `..` stays, and a path that means nothing finds nothing
    have hkeep : Code.completeList s rest ≠ [] ∨ s.target? (p.complete s) = none := by
      rw [Completion.target?_complete, ne_eq, Code.completeList_eq_nil_iff]
      exact hno.imp_right (target?_of_not_isMeant hplain hp)
    have hfill := Completion.fill_eq_self hkeep (Member.completeList s ms) trailing
    exact congrArg (fun filled => NodeForm.literal (p.complete s) filled.1 filled.2
      (Code.completeList s rest)) hfill

/-- **Literals after a round.** If names are distinct in each scope and every request is written as
its identifier, the literals of the emitted items are those of the unit, one for one, completed as
`LiteralCompleted` says. -/
theorem Session.injectItems_literals (s : Session) (items : List Item)
    (hdistinct : Item.distinctNames items = true) (hplain : plainStructs items = true)
    (hexact : exactRequests items = true) :
    List.Forall₂ (LiteralCompleted items s.authorize.2.1) (Item.scopeNodesList [] items)
      (Item.scopeNodesList [] (s.injectItems items).2.1) := by
  rw [s.injectItems_nodes hdistinct, List.forall₂_map_right_iff, List.forall₂_same]
  exact fun n _ => literalCompleted_complete _ hdistinct hplain hexact n

/-- The name of a member. -/
def Member.label : Member → MemberName
  | .mk _ name _ => name

/-- The pattern `T { a }` with the given path in place of `T`. -/
def samplePattern (path : List String) : Code :=
  .structPat (.ofNames path) [.mk [] (.named ⟨"a", {}⟩) []] false []

/-- The struct `T` with a request for `b`, and `impl T { fn f(T { a }: T) { T { a: 1 } } }` with the
given path in place of `T` in the pattern and the literal. -/
def destructuringUnit (path : List String) : List Item :=
  [requestingStruct "b",
    .impl [] [.tree (keywordTree "impl")] .inherent (.path (.ofNames ["T"])) [] []
      [.fn [.tree (keywordTree "fn")] ⟨"f", {}⟩ []
        [.mk .typed [samplePattern path, .op {} ":", .path (.ofNames ["T"])]] false []
        [.node .block [.group {} .brace [sampleLiteral path]]]]]

/-- The same with the path `self::Self`, and `#[x = |T { a }| T { a: 1 }] mod m {}`. -/
def outlyingUnit : List Item :=
  destructuringUnit ["self", "Self"] ++
    [.module [.mk false false [⟨"x", {}⟩]
        (.value (.node .closure [samplePattern ["T"], sampleLiteral ["T"]]))]
      [.tree (keywordTree "mod")] ⟨"m", {}⟩ [] []]

/-- The unit above satisfies all conditions on names. -/
theorem injectItems_literals_destructuring :
    Item.distinctNames (destructuringUnit ["T"]) = true ∧
      plainStructs (destructuringUnit ["T"]) = true ∧
      exactRequests (destructuringUnit ["T"]) = true ∧
      List.Forall₂ (LiteralCompleted (destructuringUnit ["T"]) commandLineSession.authorize.2.1)
        (Item.scopeNodesList [] (destructuringUnit ["T"]))
        (Item.scopeNodesList []
          (commandLineSession.injectItems (destructuringUnit ["T"])).2.1) := by
  have hdistinct : Item.distinctNames (destructuringUnit ["T"]) = true := by decide +kernel
  have hplain : plainStructs (destructuringUnit ["T"]) = true := by decide +kernel
  have hexact : exactRequests (destructuringUnit ["T"]) = true := by decide +kernel
  exact ⟨hdistinct, hplain, hexact,
    commandLineSession.injectItems_literals _ hdistinct hplain hexact⟩

/-- The names that a literal gives. -/
def CodeNode.literalNames? (n : CodeNode) : Option (List String) :=
  match n.form with
  | .literal _ ms _ _ => some (ms.map (fun m => m.label.word.text))
  | _ => none

/-- A literal with the path `self::Self` gets a default, though no struct has the path `Self`, and
the literal of `T` in the attribute of a module gets none. -/
theorem injectItems_outlying_literals :
    (Item.distinctNames outlyingUnit && plainStructs outlyingUnit &&
      exactRequests outlyingUnit) = true ∧
    (structEntries outlyingUnit).map (fun x => (x.decl.path,
      x.received (Catalogue.ofItems outlyingUnit) commandLineSession.authorize.2.1)) =
        [(["T"], ["b"])] ∧
    (Item.scopeNodesList [] outlyingUnit).filterMap CodeNode.literalNames? = [["a"], ["a"]] ∧
    (Item.scopeNodesList [] (commandLineSession.injectItems outlyingUnit).2.1).filterMap
      CodeNode.literalNames? = [["a", "b"], ["a"]] := by
  decide +kernel

/-! ### Completed patterns -/

theorem Member.map_label_completeList (s : Completion) (ms : List Member) :
    (Member.completeList s ms).map Member.label = ms.map Member.label := by
  induction ms with
  | nil => rfl
  | cons m ms ih =>
    obtain ⟨lead, name, value⟩ := m
    rw [Member.completeList, List.map_cons, List.map_cons, ih]
    rfl

/-- **What becomes of a pattern.** The node `n` of a unit became `n'`; inside both, everything is
completed as at the node. -/
structure PatternCompleted (items : List Item) (access : Except HostError Capability)
    (n n' : CodeNode) : Prop where
  /-- Outside all scopes nothing changes. -/
  outside : n.site.scope = none → n' = n
  /-- A pattern keeps its members and the `..` that it has. It changes only if its path is a plain
  one, and gets a `..` iff the path means a struct that received a name which no member gives. -/
  inside : ∀ {scope : List String} {p : Path} {ms : List Member} {trailing : Bool}
    {rest : List Code}, n.site.scope = some scope → n.form = .pattern p ms trailing rest →
    ∃ ms' trailing' rest', n'.form =
        .pattern (p.complete (n.completion (unitReceived items access))) ms' trailing' rest' ∧
      ms' = Member.completeList (n.completion (unitReceived items access)) ms ∧
      ms'.map Member.label = ms.map Member.label ∧
      (rest ≠ [] → rest' ≠ []) ∧
      (rest = [] → rest' = [] ∨ rest' = [.op {} ".."]) ∧
      (rest ≠ [] ∨ p.relativeNames? = none → trailing' = trailing ∧
        rest' = Code.completeList (n.completion (unitReceived items access)) rest) ∧
      ∀ names, p.LeadsOver names →
        (rest = [] ∧ rest' ≠ [] ↔ rest = [] ∧ ∃ x : StructEntry,
          x.IsMeant items access scope names ∧
            ∃ a ∈ x.received (Catalogue.ofItems items) access,
              ms.any (Completion.names a) = false)

theorem Completion.cover_eq_self {s : Completion} {p : Path} {rest : List Code}
    (h : rest ≠ [] ∨ s.target? p = none) (ms : List Member) (trailing : Bool) :
    s.cover p ms trailing rest = (trailing, rest) := by
  unfold cover
  cases rest with
  | nil => rw [h.resolve_left fun hne => hne rfl]
  | cons c cs => rfl

/-- All that a pattern may get is a `..`. -/
theorem Completion.cover_nil (s : Completion) (p : Path) (ms : List Member) (trailing : Bool) :
    (s.cover p ms trailing []).2 = [] ∨ (s.cover p ms trailing []).2 = [.op {} ".."] := by
  unfold cover
  cases s.target? p with
  | none => exact .inl rfl
  | some fields =>
    simp only
    split
    · exact .inl rfl
    · exact .inr rfl

/-- A pattern without a `..` gets one iff it misses a field of the struct that it means. -/
theorem Completion.cover_ne_nil_iff {s : Completion} {p : Path} (ms : List Member)
    (trailing : Bool) :
    (s.cover p ms trailing []).2 ≠ [] ↔
      ∃ fields, s.target? p = some fields ∧ ∃ a ∈ fields, ms.any (names a) = false := by
  unfold cover
  cases htarget : s.target? p with
  | none => simp
  | some fields =>
    -- covered iff every received name is given
    by_cases hall : fields.all (fun f => ms.any (names f)) = true
    · simp only [hall, if_true, ne_eq, not_true, Option.some.injEq, exists_eq_left', false_iff]
      rintro ⟨a, ha, hmissing⟩
      rw [List.all_eq_true.mp hall a ha] at hmissing
      cases hmissing
    · simp only [hall, if_false, ne_eq, Bool.false_eq_true, List.cons_ne_nil, not_false_eq_true,
        Option.some.injEq, exists_eq_left', true_iff]
      rw [List.all_eq_true, not_forall] at hall
      obtain ⟨a, ha⟩ := hall
      rw [Classical.not_imp, Bool.not_eq_true] at ha
      exact ⟨a, ha.1, ha.2⟩

/-- One pattern, completed by the account of the unit. -/
theorem patternCompleted_complete {items : List Item} (access : Except HostError Capability)
    (hdistinct : Item.distinctNames items = true) (hplain : plainStructs items = true)
    (n : CodeNode) :
    PatternCompleted items access n (n.complete (unitReceived items access)) := by
  obtain ⟨⟨at?, self⟩, form⟩ := n
  refine ⟨?_, ?_⟩
  · rintro ⟨⟩
    rfl
  · rintro scope p ms trailing rest ⟨⟩ ⟨⟩
    let s : Completion := ⟨unitReceived items access scope, self⟩
    let covered := s.cover (p.complete s) (Member.completeList s ms) trailing
      (Code.completeList s rest)
    -- nothing to do at a pattern with a `..`, or with a path that is not read from the scope
    have hsame : rest ≠ [] ∨ p.relativeNames? = none →
        covered = (trailing, Code.completeList s rest) := by
      intro h
      refine Completion.cover_eq_self ?_ _ _
      rw [Completion.target?_complete, ne_eq, Code.completeList_eq_nil_iff]
      exact h.imp_right Completion.target?_eq_none
    refine ⟨Member.completeList s ms, covered.1, covered.2, rfl, rfl,
      Member.map_label_completeList s ms, ?_, ?_, ?_, ?_⟩
    · intro hrest
      rw [hsame (.inl hrest), ne_eq, Code.completeList_eq_nil_iff]
      exact hrest
    · rintro rfl
      exact Completion.cover_nil _ _ _ _
    · intro h
      rw [hsame h]
      exact ⟨rfl, rfl⟩
    · -- without a `..` it is what was received that decides
      intro names hp
      refine and_congr_right fun hrest => ?_
      subst hrest
      have hcover : covered.2 ≠ [] ↔ _ :=
        Completion.cover_ne_nil_iff (Member.completeList s ms) trailing
      rw [hcover, Completion.target?_complete, Completion.target?_eq_lookup hp]
      simp only [Completion.any_names_completeList]
      exact exists_missing_iff hdistinct hplain hp.plain ms

/-- **Patterns after a round.** If names are distinct in each scope, the patterns of the emitted
items are those of the unit, one for one, completed as `PatternCompleted` says. -/
theorem Session.injectItems_patterns (s : Session) (items : List Item)
    (hdistinct : Item.distinctNames items = true) (hplain : plainStructs items = true) :
    List.Forall₂ (PatternCompleted items s.authorize.2.1) (Item.scopeNodesList [] items)
      (Item.scopeNodesList [] (s.injectItems items).2.1) := by
  rw [s.injectItems_nodes hdistinct, List.forall₂_map_right_iff, List.forall₂_same]
  exact fun n _ => patternCompleted_complete _ hdistinct hplain n

theorem injectItems_patterns_destructuring :
    Item.distinctNames (destructuringUnit ["T"]) = true ∧
      plainStructs (destructuringUnit ["T"]) = true ∧
      List.Forall₂ (PatternCompleted (destructuringUnit ["T"]) commandLineSession.authorize.2.1)
        (Item.scopeNodesList [] (destructuringUnit ["T"]))
        (Item.scopeNodesList []
          (commandLineSession.injectItems (destructuringUnit ["T"])).2.1) := by
  have hdistinct : Item.distinctNames (destructuringUnit ["T"]) = true := by decide +kernel
  have hplain : plainStructs (destructuringUnit ["T"]) = true := by decide +kernel
  exact ⟨hdistinct, hplain, commandLineSession.injectItems_patterns _ hdistinct hplain⟩

/-- Whether a pattern has a `..`. -/
def CodeNode.patternRest? (n : CodeNode) : Option Bool :=
  match n.form with
  | .pattern _ _ _ rest => some !rest.isEmpty
  | _ => none

/-- A pattern with the path `self::Self` gets a `..`, though no struct has the path `Self`, and the
pattern of `T` in the attribute of a module gets none. -/
theorem injectItems_outlying_patterns :
    (Item.distinctNames outlyingUnit && plainStructs outlyingUnit &&
      exactRequests outlyingUnit) = true ∧
    (structEntries outlyingUnit).map (fun x => (x.decl.path,
      x.received (Catalogue.ofItems outlyingUnit) commandLineSession.authorize.2.1)) =
        [(["T"], ["b"])] ∧
    (Item.scopeNodesList [] outlyingUnit).filterMap CodeNode.patternRest? = [false, false] ∧
    (Item.scopeNodesList [] (commandLineSession.injectItems outlyingUnit).2.1).filterMap
      CodeNode.patternRest? = [true, false] := by
  decide +kernel

end FieldGraft
