import FieldGraft.Proofs.StructEmission
import Mathlib.Data.List.Nodup

/-!
# The field lists after a round

Two results about the structs of emitted items, whatever the items are.

* `Session.injectItems_fieldsPlaced` — a struct with named fields has the fields of the requests
  that it keeps, in the order of the placement, and then its own fields in their old order. They are
  the old ones but for the literals and patterns that may stand inside them, say in the length of an
  array: these are completed as everywhere in their scope.
* `Session.injectItems_identifiers_nodup_iff` — when no field list repeats an identifier. Requests
  are compared by their names as written, and a name may have blanks around the identifier that it
  stands for. So the identifiers of the received names have to be compared, and if every request is
  written exactly as its identifier, nothing is repeated.
-/

namespace FieldGraft

/-! ### The structs of a unit -/

/-- What a scope knows are structs of the unit that lie in it. -/
theorem unitScopes_structs {items : List Item} {sc : ScopeEntry} (hsc : sc ∈ unitScopes items)
    {x : StructEntry} (hx : x ∈ sc.structs) :
    x ∈ structEntries items ∧ sc.path <+: x.decl.scope := by
  rw [unitScopes, List.mem_cons] at hsc
  rcases hsc with rfl | hsc
  · exact ⟨hx, List.nil_prefix⟩
  · exact Item.structs_of_mem_scopesList [] items _ sc hsc x hx

/-- The account `f` is right about the scope with the given path. -/
def RightAccount (items : List Item) (access : Except HostError Capability) (path : List String)
    (f : List String → Received) : Prop :=
  ∃ sc ∈ unitScopes items, sc.path = path ∧
    f path = scopeReceived (Catalogue.ofItems items) access sc.path.length sc.structs

theorem exists_rightAccount {items : List Item} (access : Except HostError Capability)
    {sc : ScopeEntry} (hsc : sc ∈ unitScopes items) :
    ∃ f, RightAccount items access sc.path f ∧
      f sc.path = scopeReceived (Catalogue.ofItems items) access sc.path.length sc.structs :=
  ⟨fun _ => _, ⟨sc, hsc, rfl, rfl⟩, rfl⟩

/-- The entries of a unit are its structs, each entered at its node. -/
theorem structEntries_entered (items : List Item) :
    (structEntries items).map StructEntry.decl = Item.structDeclsList [] items ∧
      ∀ x ∈ structEntries items, (Catalogue.ofItems items).Entered x.decl x.node := by
  have hentered := (Catalogue.ofItems_entered items).2
  unfold structEntries
  generalize Item.structDeclsList [] items = decls at hentered ⊢
  generalize (Catalogue.ofItems items).structs = nodes at hentered ⊢
  -- node by node, as the catalogue entered the structs in the order of the items
  induction hentered with
  | nil => exact ⟨rfl, fun _ hx => absurd hx List.not_mem_nil⟩
  | cons hd _ ih =>
    refine ⟨by rw [List.zipWith_cons_cons, List.map_cons, ih.1], ?_⟩
    intro x hx
    rw [List.zipWith_cons_cons, List.mem_cons] at hx
    rcases hx with rfl | hx
    · exact hd
    · exact ih.2 x hx

theorem decl_mem_of_mem_structEntries {items : List Item} {x : StructEntry}
    (hx : x ∈ structEntries items) : x.decl ∈ Item.structDeclsList [] items := by
  rw [← (structEntries_entered items).1]
  exact List.mem_map_of_mem hx

/-! ### Fields and completion -/

theorem FieldDef.completeList_eq_map (s : Completion) (fs : List FieldDef) :
    FieldDef.completeList s fs = fs.map (FieldDef.complete s) := by
  induction fs with
  | nil => rfl
  | cons f fs ih => rw [FieldDef.completeList, ih, List.map_cons]

@[simp] theorem FieldDef.name_complete (s : Completion) (f : FieldDef) :
    (f.complete s).name = f.name := by
  obtain ⟨attrs, vis, name, ty⟩ := f
  rfl

theorem StructBody.fields_complete (s : Completion) (body : StructBody) :
    (body.complete s).fields = body.fields.map (FieldDef.complete s) := by
  cases body with
  | named clause fields trailing => exact FieldDef.completeList_eq_map s fields
  | tuple fields clause => rfl
  | unit clause => rfl

theorem StructBody.kind_complete (s : Completion) (body : StructBody) :
    (body.complete s).kind = body.kind := by
  cases body <;> rfl

theorem StructBody.kind_graft (new : List FieldDef) (body : StructBody) :
    (body.graft new).kind = body.kind := by
  cases body <;> rfl

theorem StructBody.fields_graft (new : List FieldDef) {body : StructBody}
    (h : body.kind = .record) : (body.graft new).fields = new ++ body.fields := by
  cases body with
  | named clause fields trailing => rfl
  | tuple fields clause => cases h
  | unit clause => cases h

/-- A written definition has nothing to complete. -/
theorem keptDefinition_complete (s : Completion) (k : Request × TypeName) :
    (keptDefinition k).complete s = keptDefinition k := by
  have hvis : k.1.modifiers.fieldVisibility.complete s = k.1.modifiers.fieldVisibility := by
    unfold Modifiers.fieldVisibility
    split
    · rfl
    · split <;> rfl
  rw [keptDefinition, FieldDef.complete, hvis]
  rfl

namespace StructEntry

variable {c : Catalogue} {access : Except HostError Capability} {x : StructEntry}

/-- The fields of an emitted struct with named fields. -/
theorem emitted_fields (placement : Placement) (f : List String → Received)
    (hkind : x.decl.body.kind = .record) :
    (x.emitted c placement access f).body.fields =
      (placement.arrange (x.kept c access)).map keptDefinition ++
        x.decl.body.fields.map (FieldDef.complete ⟨f x.decl.scope, none⟩) := by
  rw [emitted, StructBody.fields_complete, StructBody.fields_graft _ hkind, List.map_append,
    List.map_map]
  congr 1
  exact List.map_congr_left fun k _ => keptDefinition_complete _ k

theorem emitted_kind (placement : Placement) (f : List String → Received) :
    (x.emitted c placement access f).body.kind = x.decl.body.kind := by
  rw [emitted, StructBody.kind_complete, StructBody.kind_graft]

end StructEntry

/-! ### Field placement -/

/-- **The field list of an emitted struct.** The struct `x` of a unit became `d`: if it has named
fields, those of the kept requests come first, and then the old ones, completed by what the structs
in its scope `sc` received. A field in which no literal or pattern means such a struct is the old
field. -/
structure FieldsPlaced (items : List Item) (placement : Placement)
    (access : Except HostError Capability) (x : StructEntry) (d : StructDecl) : Prop where
  entered : (Catalogue.ofItems items).Entered x.decl x.node
  path_eq : d.path = x.decl.path
  kind_eq : d.body.kind = x.decl.body.kind
  fields_eq : x.decl.body.kind = .record → ∃ sc ∈ unitScopes items, ∃ received,
    sc.path = x.decl.scope ∧
    (∀ y ∈ sc.structs, y ∈ structEntries items ∧ sc.path <+: y.decl.scope) ∧
    received = scopeReceived (Catalogue.ofItems items) access sc.path.length sc.structs ∧
    d.body.fields =
      (placement.arrange (keptRequests (Catalogue.ofItems items).types
        ((Catalogue.ofItems items).arena.hasFreeConstructor x.node) x.decl.fieldNames
        x.decl.requests)).map keptDefinition ++
        x.decl.body.fields.map (FieldDef.complete ⟨received, none⟩) ∧
    ∀ field ∈ x.decl.body.fields,
      Quiet (fun _ => received) (field.nodes ⟨some x.decl.scope, none⟩) →
        field.complete ⟨received, none⟩ = field

/-- **Field placement.** If the host grants access, the structs of the emitted items are those of
the unit, in order and at the same paths, each with the fields that `FieldsPlaced` says. -/
theorem Session.injectItems_fieldsPlaced (s : Session) (items : List Item)
    {capability : Capability} (hgrant : s.authorize.2.1 = .ok capability) :
    (structEntries items).map StructEntry.decl = Item.structDeclsList [] items ∧
      List.Forall₂ (FieldsPlaced items s.placement (.ok capability)) (structEntries items)
        (Item.structDeclsList [] (s.injectItems items).2.1) := by
  obtain ⟨hdecls, hentered⟩ := structEntries_entered items
  refine ⟨hdecls, ?_⟩
  have hwritten := (s.injectItems_written items (RightAccount items s.authorize.2.1)
    fun sc hsc => exists_rightAccount _ hsc).structs
  rw [List.forall₂_iff_zip] at hwritten ⊢
  refine ⟨hwritten.1, fun {x d} hxd => ?_⟩
  -- `f` answers for the scope the struct stands in
  obtain ⟨f, ⟨sc, hsc, hpath, hf⟩, rfl⟩ := hwritten.2 hxd
  have hx := hentered x (List.of_mem_zip hxd).1
  refine ⟨hx, rfl, StructEntry.emitted_kind _ _, fun hkind => ⟨sc, hsc, f x.decl.scope, hpath,
    fun y hy => unitScopes_structs hsc hy, hgrant ▸ hf, ?_, ?_⟩⟩
  · -- for a struct with named fields only the constructors are left to ask for
    have hkept : x.kept (Catalogue.ofItems items) s.authorize.2.1 =
        keptRequests (Catalogue.ofItems items).types
          ((Catalogue.ofItems items).arena.hasFreeConstructor x.node) x.decl.fieldNames
          x.decl.requests := by
      rw [hgrant, StructEntry.kept, Catalogue.takesFields_of_entered hx, hkind]
      simp
    rw [StructEntry.emitted_fields _ _ hkind, hkept]
  · exact fun field _ hquiet =>
      FieldDef.complete_eq_self (fun _ => f x.decl.scope) x.decl.scope none field hquiet

/-! ### A unit with one annotated struct -/

/-- A plain path. -/
def Path.ofNames (names : List String) : Path :=
  .named none (names.map (fun n => .mk ⟨n, {}⟩ []))

/-- The struct `#[derive(Default)] #[fielder(name = "…", ty = u8)] struct T { a: u8 }`, which
requests a field under the given name. -/
def requestingStruct (requested : String) : Item :=
  let attr (name : String) (body : List Token) : Attribute :=
    .mk false false [⟨name, {}⟩] (.list .paren (body.map (TokenTree.leaf {})))
  .struct
    [attr "derive" [.ident "Default"],
      attr "fielder" [.ident "name", .punct '=' false, .literal ("\"" ++ requested ++ "\""),
        .punct ',' false, .ident "ty", .punct '=' false, .ident "u8"]]
    .inherited ⟨"T", {}⟩ []
    (.named [] [.mk [] .inherited ⟨"a", {}⟩ (.path (.ofNames ["u8"]))] false)

/-- The literal `T { a: 1 }` with the given path in place of `T`. -/
def sampleLiteral (path : List String) : Code :=
  .structLit (.ofNames path)
    [.mk [] (.named ⟨"a", {}⟩) [.op {} ":", .tree (.leaf {} (.literal "1"))]] false []

/-- The session of the command line. -/
def commandLineSession : Session :=
  { host := .source .commandLine }

/-- The command line grants access, so the theorem speaks about its rounds. -/
theorem injectItems_fieldsPlaced_requesting :
    commandLineSession.authorize.2.1 = .ok ⟨"cli", "direct"⟩ ∧
      (structEntries [requestingStruct "b"]).map StructEntry.decl =
        Item.structDeclsList [] [requestingStruct "b"] ∧
      List.Forall₂ (FieldsPlaced [requestingStruct "b"] .prepend (.ok ⟨"cli", "direct"⟩))
        (structEntries [requestingStruct "b"])
        (Item.structDeclsList [] (commandLineSession.injectItems [requestingStruct "b"]).2.1) :=
  ⟨rfl, commandLineSession.injectItems_fieldsPlaced [requestingStruct "b"] rfl⟩

/-- The words of a field list. -/
def StructDecl.fieldWords (d : StructDecl) : List String :=
  TokenTree.wordsList (FieldDef.treesList d.body.fields).flatten

/-- The struct `T` with a request, and `struct U { x: [u8; { T { a: 1 } }] }`. -/
def literalInLength : List Item :=
  [requestingStruct "b",
    .struct [] .inherited ⟨"U", {}⟩ []
      (.named []
        [.mk [] .inherited ⟨"x", {}⟩ (.node .arrayType
          [.group {} .bracket [.path (.ofNames ["u8"]), .op {} ";",
            .node .block [.group {} .brace [sampleLiteral ["T"]]]]])] false)]

/-- A struct that receives nothing does not always keep its field list: the array length in a field
of `U` holds a literal of `T`, which is completed. -/
theorem injectItems_array_length_completed :
    (structEntries literalInLength).map (fun x => x.received (Catalogue.ofItems literalInLength)
        commandLineSession.authorize.2.1) = [["b"], []] ∧
      ((Item.structDeclsList [] (commandLineSession.injectItems literalInLength).2.1).map
          StructDecl.fieldWords).getLast? ≠
        ((Item.structDeclsList [] literalInLength).map StructDecl.fieldWords).getLast? := by
  decide +kernel

/-! ### Identifiers of fields -/

/-- The identifiers of the named fields of a struct. -/
def StructBody.identifiers (body : StructBody) : List String :=
  body.fields.map (fun f => f.name.text)

/-- The body of a struct declared inside a body. -/
def CodeNode.innerStruct? (n : CodeNode) : Option StructBody :=
  match n.form with
  | .declaration _ body => some body
  | _ => none

/-- The bodies of all structs in a list of items: at file level, in inline modules, and inside the
bodies of functions and the like. -/
def Item.structBodies (items : List Item) : List StructBody :=
  (Item.structDeclsList [] items).map StructDecl.body ++
    (Item.scopeNodesList [] items).filterMap CodeNode.innerStruct?

/-- Every request of a unit is written exactly as its identifier. -/
def exactRequests (items : List Item) : Bool :=
  (Item.structDeclsList [] items).all
    (fun d => d.requests.all (fun r => (Word.ofText r.name).text == r.name))

theorem text_of_exactRequests {items : List Item} (h : exactRequests items = true)
    {x : StructEntry} (hx : x ∈ structEntries items) :
    ∀ r ∈ x.decl.requests, (Word.ofText r.name).text = r.name := by
  intro r hr
  have hdecl := List.all_eq_true.mp h x.decl (decl_mem_of_mem_structEntries hx)
  exact beq_iff_eq.mp (List.all_eq_true.mp hdecl r hr)

/-- The received names stand for identifiers that are neither declared nor repeated. -/
def FreshIdentifiers (declared received : List String) : Prop :=
  (received.map (fun n => (Word.ofText n).text)).Nodup ∧
    ∀ n ∈ received, (Word.ofText n).text ∉ declared

theorem StructBody.identifiers_complete (s : Completion) (body : StructBody) :
    (body.complete s).identifiers = body.identifiers := by
  unfold identifiers
  rw [StructBody.fields_complete, List.map_map]
  exact List.map_congr_left fun f _ => congrArg Word.text (FieldDef.name_complete s f)

/-- A struct inside a body has the same fields after completion. -/
theorem CodeNode.innerStruct?_complete (f : List String → Received) (n : CodeNode) :
    (n.complete f).innerStruct?.map StructBody.identifiers =
      n.innerStruct?.map StructBody.identifiers := by
  obtain ⟨⟨scope, selfTy⟩, form⟩ := n
  cases scope with
  | none => rfl
  | some path =>
    cases form with
    | literal p ms trailing rest => rfl
    | pattern p ms trailing rest => rfl
    | declaration name body =>
      exact congrArg some (StructBody.identifiers_complete ⟨f path, selfTy⟩ body)

theorem map_identifiers_innerStructs {known : List String → (List String → Received) → Prop}
    {ns ns' : List CodeNode}
    (h : List.Forall₂ (fun n n' => ∃ path f, known path f ∧ n' = CodeNode.complete f n) ns ns') :
    (ns'.filterMap CodeNode.innerStruct?).map StructBody.identifiers =
      (ns.filterMap CodeNode.innerStruct?).map StructBody.identifiers := by
  rw [List.map_filterMap, List.map_filterMap]
  induction h with
  | nil => rfl
  | cons hn _ ih =>
    obtain ⟨path, f, -, rfl⟩ := hn
    rw [List.filterMap_cons, List.filterMap_cons, CodeNode.innerStruct?_complete, ih]

/-- The identifiers of an emitted struct: those of the received names, then the declared ones. -/
theorem StructEntry.emitted_identifiers {c : Catalogue} {x : StructEntry}
    (h : c.Entered x.decl x.node) (placement : Placement) (access : Except HostError Capability)
    (f : List String → Received) :
    (x.emitted c placement access f).body.identifiers =
      placement.arrange ((x.received c access).map (fun n => (Word.ofText n).text)) ++
        x.decl.fieldNames := by
  by_cases hkind : x.decl.body.kind = .record
  · rw [StructBody.identifiers, emitted_fields placement f hkind, List.map_append, List.map_map,
      List.map_map, received, List.map_map, Placement.map_arrange]
    congr 1
    exact List.map_congr_left fun field _ => congrArg Word.text (FieldDef.name_complete _ field)
  · -- any other struct receives nothing and has no named fields
    have hkept := Catalogue.kept_eq_nil h hkind access
    have hnil : ∀ α : Type, placement.arrange ([] : List α) = [] := by
      intro α
      cases placement <;> rfl
    rw [received, hkept, emitted, StructBody.identifiers_complete, hkept, List.map_nil,
      List.map_nil, hnil, hnil, List.map_nil, StructBody.graft_nil]
    rfl

theorem FreshIdentifiers.nodup_iff {declared : List String} (hdeclared : declared.Nodup)
    (placement : Placement) (received : List String) :
    (placement.arrange (received.map (fun n => (Word.ofText n).text)) ++ declared).Nodup ↔
      FreshIdentifiers declared received := by
  -- either order of the new fields repeats an identifier or none does
  have harrange : (placement.arrange (received.map (fun n => (Word.ofText n).text))).Nodup ↔
      (received.map (fun n => (Word.ofText n).text)).Nodup := by
    cases placement <;> simp [Placement.arrange]
  rw [List.nodup_append, harrange, FreshIdentifiers]
  refine and_congr_right fun _ => ⟨?_, ?_⟩
  · rintro ⟨-, hdisjoint⟩ n hn hmem
    exact hdisjoint _ ((Placement.mem_arrange _).mpr (List.mem_map_of_mem hn)) _ hmem rfl
  · refine fun hfresh => ⟨hdeclared, ?_⟩
    rintro i hi j hj rfl
    rw [Placement.mem_arrange, List.mem_map] at hi
    obtain ⟨n, hn, rfl⟩ := hi
    exact hfresh n hn hj

/-- What a struct receives: names of its requests that are new and distinct. -/
theorem StructEntry.received_fresh (c : Catalogue) (access : Except HostError Capability)
    (x : StructEntry) :
    (x.received c access).Nodup ∧ (∀ n ∈ x.received c access, n ∉ x.decl.fieldNames) ∧
      ∀ n ∈ x.received c access, ∃ r ∈ x.decl.requests, r.name = n := by
  unfold received kept
  cases access with
  | error e =>
    -- without access nothing is received
    exact ⟨List.nodup_nil, fun _ hn => absurd hn List.not_mem_nil,
      fun _ hn => absurd hn List.not_mem_nil⟩
  | ok capability =>
    obtain ⟨hnodup, hnew, hmem⟩ := keptRequests_fresh c.types (c.arena.takesFields x.node)
      x.decl.fieldNames x.decl.requests
    refine ⟨hnodup, fun n hn => ?_, fun n hn => ?_⟩
    · obtain ⟨k, hk, rfl⟩ := List.mem_map.mp hn
      exact hnew k hk
    · obtain ⟨k, hk, rfl⟩ := List.mem_map.mp hn
      exact ⟨k.1, hmem k hk, rfl⟩

/-- If every request is written as its identifier, so are the received names. -/
theorem StructEntry.received_text {items : List Item} (hexact : exactRequests items = true)
    {x : StructEntry} (hx : x ∈ structEntries items) (c : Catalogue)
    (access : Except HostError Capability) :
    ∀ n ∈ x.received c access, (Word.ofText n).text = n := by
  intro n hn
  obtain ⟨r, hr, rfl⟩ := (x.received_fresh c access).2.2 n hn
  exact text_of_exactRequests hexact hx r hr

/-- In that case what a struct receives is fresh. -/
theorem StructEntry.freshIdentifiers {items : List Item} (hexact : exactRequests items = true)
    {x : StructEntry} (hx : x ∈ structEntries items) (c : Catalogue)
    (access : Except HostError Capability) :
    FreshIdentifiers x.decl.fieldNames (x.received c access) := by
  obtain ⟨hnodup, hnew, -⟩ := x.received_fresh c access
  have htext := StructEntry.received_text hexact hx c access
  refine ⟨?_, fun n hn => ?_⟩
  · rw [List.map_congr_left htext, List.map_id']
    exact hnodup
  · rw [htext n hn]
    exact hnew n hn

theorem forall₂_ball_iff {α β : Type} {p : α → Prop} {q : β → Prop} {as : List α} {bs : List β}
    (h : List.Forall₂ (fun a b => p a ↔ q b) as bs) : (∀ a ∈ as, p a) ↔ ∀ b ∈ bs, q b := by
  induction h with
  | nil => simp
  | cons hab _ ih => rw [List.forall_mem_cons, List.forall_mem_cons, hab, ih]

/-- **When no field list repeats an identifier.** If no struct of a unit declares an identifier
twice, then no emitted struct has one twice iff each struct receives fresh identifiers. So it is if
every request is written as its identifier. -/
theorem Session.injectItems_identifiers_nodup_iff (s : Session) (items : List Item)
    (hdeclared : ∀ body ∈ Item.structBodies items, body.identifiers.Nodup) :
    ((∀ body ∈ Item.structBodies (s.injectItems items).2.1, body.identifiers.Nodup) ↔
      ∀ x ∈ structEntries items, FreshIdentifiers x.decl.fieldNames
        (x.received (Catalogue.ofItems items) s.authorize.2.1)) ∧
    (exactRequests items = true →
      ∀ body ∈ Item.structBodies (s.injectItems items).2.1, body.identifiers.Nodup) := by
  obtain ⟨hdecls, hentered⟩ := structEntries_entered items
  have hwritten := s.injectItems_written items (RightAccount items s.authorize.2.1)
    fun sc hsc => exists_rightAccount _ hsc
  have hiff : (∀ body ∈ Item.structBodies (s.injectItems items).2.1, body.identifiers.Nodup) ↔
      ∀ x ∈ structEntries items, FreshIdentifiers x.decl.fieldNames
        (x.received (Catalogue.ofItems items) s.authorize.2.1) := by
    unfold Item.structBodies at hdeclared ⊢
    rw [List.forall_mem_append] at hdeclared ⊢
    obtain ⟨hdeclared, hinner⟩ := hdeclared
    -- structs inside bodies keep their identifiers, so only the others decide
    have hinner' : ∀ body ∈ (Item.scopeNodesList [] (s.injectItems items).2.1).filterMap
        CodeNode.innerStruct?, body.identifiers.Nodup := by
      intro body hbody
      have hmem := List.mem_map_of_mem (f := StructBody.identifiers) hbody
      rw [map_identifiers_innerStructs hwritten.nodes, List.mem_map] at hmem
      obtain ⟨body₀, hbody₀, heq⟩ := hmem
      exact heq ▸ hinner body₀ hbody₀
    refine (and_iff_left hinner').trans ?_
    -- struct by struct: the emitted list is the received identifiers and the declared ones
    rw [List.forall_mem_map]
    refine (forall₂_ball_iff ?_).symm
    rw [List.forall₂_iff_zip]
    refine ⟨hwritten.structs.length_eq, fun {x d} hxd => ?_⟩
    obtain ⟨f, -, rfl⟩ := (List.forall₂_iff_zip.mp hwritten.structs).2 hxd
    have hx := (List.of_mem_zip hxd).1
    have hnodup : x.decl.fieldNames.Nodup := by
      refine hdeclared _ (List.mem_map.mpr ⟨x.decl, ?_, rfl⟩)
      rw [← hdecls]
      exact List.mem_map_of_mem hx
    rw [StructEntry.emitted_identifiers (hentered x hx)]
    exact (FreshIdentifiers.nodup_iff hnodup _ _).symm
  exact ⟨hiff, fun hexact => hiff.mpr fun x hx => StructEntry.freshIdentifiers hexact hx _ _⟩

/-- The name `" a "` is accepted for a struct with a field `a`, and both are written as `a`. -/
theorem injectItems_identifiers_repeated :
    (∀ body ∈ Item.structBodies [requestingStruct " a "], body.identifiers.Nodup) ∧
      ¬ ∀ body ∈ Item.structBodies (commandLineSession.injectItems [requestingStruct " a "]).2.1,
        body.identifiers.Nodup := by
  have hdeclared : ∀ body ∈ Item.structBodies [requestingStruct " a "], body.identifiers.Nodup := by
    decide +kernel
  refine ⟨hdeclared, fun hnodup => ?_⟩
  have hfresh := (commandLineSession.injectItems_identifiers_nodup_iff _ hdeclared).1.mp hnodup
  -- the identifier of the received name is that of the declared field
  have hstale : ¬ ∀ x ∈ structEntries [requestingStruct " a "],
      ∀ n ∈ x.received (Catalogue.ofItems [requestingStruct " a "])
        commandLineSession.authorize.2.1, (Word.ofText n).text ∉ x.decl.fieldNames := by
    decide +kernel
  exact hstale fun x hx => (hfresh x hx).2

end FieldGraft
