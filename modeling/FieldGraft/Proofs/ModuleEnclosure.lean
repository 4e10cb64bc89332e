import FieldGraft.Expansion
import FieldGraft.Proofs.PlacementIndependence

/-!
# Rounds over a module and inside it

The attribute host runs a round over the items inside a module, the other hosts over a list that
holds the module as an item. For one and the same source both come to the same result:
`Session.injectItems_enclosed`.

* `Catalogue.ofItems_around` — the module adds nothing to the catalogue of what it holds, so the
  nodes have the same numbers and the same types are known.
* `Catalogue.emit_around` — emission completes the scope of the module by the account that the items
  alone would get. The scope around it is completed by an account with longer paths, which does not
  enter the module.
* `Catalogue.round_granted` — which of the granted hosts runs a round shows in its log only.
-/

namespace FieldGraft

/-! ### Modules around items -/

/-- An inline module without its items. -/
structure ModuleHead where
  attrs : List Attribute
  lead : List Code
  name : Word
  inner : List Attribute

/-- The module with the given items. -/
def ModuleHead.around (m : ModuleHead) (items : List Item) : Item :=
  .module m.attrs m.lead m.name m.inner items

/-- Items inside modules, the outermost module first. -/
def enclose (modules : List ModuleHead) (items : List Item) : List Item :=
  modules.foldr (fun m inner => [m.around inner]) items

@[simp] theorem enclose_nil (items : List Item) : enclose [] items = items := rfl

@[simp] theorem enclose_cons (m : ModuleHead) (modules : List ModuleHead) (items : List Item) :
    enclose (m :: modules) items = [m.around (enclose modules items)] := rfl

/-- The report without its log. -/
def RoundReport.withoutLog (r : RoundReport) : RoundReport :=
  { r with log := [] }

theorem RoundReport.withoutLog_eq {r r' : RoundReport} (h : r'.withoutLog = r.withoutLog) :
    r'.arena = r.arena ∧ r'.summary = r.summary ∧ r'.diagnostics = r.diagnostics ∧
      r'.annotations = r.annotations := by
  obtain ⟨harena, hsummary, hdiagnostics, hannotations, -, -⟩ := RoundReport.mk.inj h
  exact ⟨harena, hsummary, hdiagnostics, hannotations⟩

namespace Catalogue

/-- A module declares what its items declare. -/
theorem ofItems_around (m : ModuleHead) (items : List Item) :
    ofItems [m.around items] = ofItems items :=
  rfl

/-- **The items of a module are emitted like the items of a file.** -/
theorem emit_around (c : Catalogue) (arena : Arena) (summary : Summary) (m : ModuleHead)
    (items : List Item) :
    c.emit arena summary [m.around items] =
      ([m.around (c.emit arena summary items).1], (c.emit arena summary items).2) := by
  let content := Item.emitList { arena, summary, slots := c.slots } c.structs items
  -- the second pass over the module leaves it as it is, whatever the account says
  have houter : ∀ received, completeScope received
      [m.around (completeScope content.received content.value)] =
        [m.around (completeScope content.received content.value)] := by
    intro received
    rw [completeScope_eq]
    rfl
  exact congrArg (·, content.removed) (houter _)

/-- **Hosts that grant access run the same round.** -/
theorem round_granted {c : Catalogue} (hc : c.WellFormed) (placement : Placement)
    (capability capability' : Capability) :
    (c.round placement (.ok capability')).arena = (c.round placement (.ok capability)).arena ∧
    (c.round placement (.ok capability')).summary =
      (c.round placement (.ok capability)).summary ∧
    (c.round placement (.ok capability')).diagnostics =
      (c.round placement (.ok capability)).diagnostics := by
  let start (capability : Capability) : Progress :=
    { arena := c.arena, diagnostics := annotationDiagnostics c.errors
      log := [roundRecord capability placement c.batch] }
  -- the two rounds start with the same arena, and no turn reads the log
  obtain ⟨-, harena⟩ := Progress.turns_congr c.types placement c.batch
    (p := start capability) (q := start capability') rfl
  have hreport := Progress.foldl_target_sameReport c.types placement placement
    (p := start capability) (q := start capability') ⟨.refl hc.closed, rfl, rfl⟩ c.batch
  exact ⟨harena, hreport.summary_eq, hreport.diagnostics_eq⟩

/-- The new items and the report of a round; the probe of the host gave `access` and `log`. -/
def outcome (c : Catalogue) (placement : Placement) (access : Except HostError Capability)
    (log : List LogRecord) (items : List Item) : List Item × RoundReport :=
  let p := c.round placement access
  ((c.emit p.arena p.summary items).1,
    { arena := p.arena, summary := p.summary, diagnostics := p.diagnostics
      annotations := (c.emit p.arena p.summary items).2
      declared := c.arena.size, log := log ++ p.log })

theorem outcome_around (c : Catalogue) (placement : Placement)
    (access : Except HostError Capability) (log : List LogRecord) (m : ModuleHead)
    (items : List Item) :
    c.outcome placement access log [m.around items] =
      ([m.around (c.outcome placement access log items).1],
        (c.outcome placement access log items).2) := by
  unfold outcome
  dsimp only
  rw [emit_around]

theorem outcome_granted {c : Catalogue} (hc : c.WellFormed) (placement : Placement)
    (capability capability' : Capability) (log log' : List LogRecord) (items : List Item) :
    (c.outcome placement (.ok capability') log' items).1 =
      (c.outcome placement (.ok capability) log items).1 ∧
    (c.outcome placement (.ok capability') log' items).2.withoutLog =
      (c.outcome placement (.ok capability) log items).2.withoutLog := by
  obtain ⟨harena, hsummary, hdiagnostics⟩ := round_granted hc placement capability capability'
  unfold outcome RoundReport.withoutLog
  dsimp only
  rw [harena, hsummary, hdiagnostics]
  exact ⟨rfl, rfl⟩

end Catalogue

namespace Session

/-- The host of the session grants access. -/
def Granted (s : Session) : Prop :=
  ∃ capability, s.authorize.2.1 = .ok capability

theorem injectItems_outcome (s : Session) (items : List Item) :
    (s.injectItems items).2 =
      (Catalogue.ofItems items).outcome s.placement s.authorize.2.1 s.authorize.2.2 items :=
  rfl

/-- Two granted hosts tell the same, their logs aside. -/
theorem injectItems_granted {s s' : Session} (hs : s.Granted) (hs' : s'.Granted)
    (hplacement : s'.placement = s.placement) (items : List Item) :
    (s'.injectItems items).2.1 = (s.injectItems items).2.1 ∧
    (s'.injectItems items).2.2.withoutLog = (s.injectItems items).2.2.withoutLog := by
  obtain ⟨capability, haccess⟩ := hs
  obtain ⟨capability', haccess'⟩ := hs'
  rw [injectItems_outcome, injectItems_outcome, haccess, haccess', hplacement]
  exact Catalogue.outcome_granted (Catalogue.ofItems_entered items).1 _ _ _ _ _ items

/-- One module more around the items. -/
theorem injectItems_around (s : Session) (m : ModuleHead) (items : List Item) :
    (s.injectItems [m.around items]).2 =
      ([m.around (s.injectItems items).2.1], (s.injectItems items).2.2) := by
  rw [injectItems_outcome, injectItems_outcome, Catalogue.ofItems_around, Catalogue.outcome_around]

/-- Any number of modules around the items. -/
theorem injectItems_enclose (s : Session) (modules : List ModuleHead) (items : List Item) :
    (s.injectItems (enclose modules items)).2 =
      (enclose modules (s.injectItems items).2.1, (s.injectItems items).2.2) := by
  induction modules with
  | nil => rfl
  | cons m modules ih => rw [enclose_cons, enclose_cons, injectItems_around, ih]

/-- **All hosts agree on a source.** One session sees the items of a scope, another one sees them
inside modules; both hosts grant access and the placement is the same. Then the modules hold the new
items of the scope, and the reports have the same summary, the same diagnostics at the same places
and the same number of annotations. So what replaces an annotated module is the module as the other
hosts write it, followed by the errors and warnings that they report. -/
theorem injectItems_enclosed {s s' : Session} (hs : s.Granted) (hs' : s'.Granted)
    (hplacement : s'.placement = s.placement) (modules : List ModuleHead) (items : List Item) :
    (s'.injectItems (enclose modules items)).2.1 = enclose modules (s.injectItems items).2.1 ∧
    (s'.injectItems (enclose modules items)).2.2.summary = (s.injectItems items).2.2.summary ∧
    (s'.injectItems (enclose modules items)).2.2.diagnostics =
      (s.injectItems items).2.2.diagnostics ∧
    (s'.injectItems (enclose modules items)).2.2.located = (s.injectItems items).2.2.located ∧
    (s'.injectItems (enclose modules items)).2.2.annotations =
      (s.injectItems items).2.2.annotations ∧
    ∀ m : ModuleHead, Expansion.expandModule s.placement (m.around items) =
      .ok (Item.treesList (s'.injectItems [m.around items]).2.1 ++
        Expansion.errorTrees (s'.injectItems [m.around items]).2.2.diagnostics ++
        Expansion.warningTrees (s'.injectItems [m.around items]).2.2.diagnostics) := by
  obtain ⟨hitems, hreport⟩ := injectItems_granted hs hs' hplacement items
  obtain ⟨harena, hsummary, hdiagnostics, hannotations⟩ := RoundReport.withoutLog_eq hreport
  -- first the modules away, then one host for the other
  rw [injectItems_enclose, hitems]
  refine ⟨rfl, hsummary, hdiagnostics, ?_, hannotations, fun m => ?_⟩
  · -- places are looked up in the arena
    show List.map _ _ = List.map _ _
    rw [harena, hdiagnostics]
  · -- the host of the expansion is granted as well
    let expander : Session := { host := .source .attributeHost, placement := s.placement }
    obtain ⟨hexpanded, hreported⟩ :=
      injectItems_granted (s := expander) ⟨_, rfl⟩ hs' hplacement items
    obtain ⟨-, -, htold, -⟩ := RoundReport.withoutLog_eq hreported
    rw [injectItems_around, hexpanded, htold, Item.treesList, Item.treesList, List.append_nil]
    rfl

end Session

/-- A build script inside a layer that hides it. -/
def layeredSession : Session :=
  { host := .wrapped "driver" (.source .buildScript) }

/-- The modules `mod outer` and, inside it, `mod inner`. -/
def outerInner : List ModuleHead :=
  ["outer", "inner"].map fun name => ⟨[], [.tree (keywordTree "mod")], ⟨name, {}⟩, []⟩

/-- The command line sees a struct, the build script sees it in two modules; both add a field. -/
theorem injectItems_enclosed_layered :
    commandLineSession.Granted ∧ layeredSession.Granted ∧
      (layeredSession.injectItems (enclose outerInner [requestingStruct "b"])).2.1 =
        enclose outerInner (commandLineSession.injectItems [requestingStruct "b"]).2.1 ∧
      (layeredSession.injectItems
        (enclose outerInner [requestingStruct "b"])).2.2.summary.injected.length = 1 := by
  have hs : commandLineSession.Granted := ⟨_, rfl⟩
  have hs' : layeredSession.Granted := ⟨_, rfl⟩
  obtain ⟨hitems, hsummary, -⟩ :=
    Session.injectItems_enclosed hs hs' rfl outerInner [requestingStruct "b"]
  refine ⟨hs, hs', hitems, ?_⟩
  rw [hsummary]
  decide +kernel

end FieldGraft
