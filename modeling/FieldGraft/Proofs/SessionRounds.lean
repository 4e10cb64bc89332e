import FieldGraft.Proofs.ModuleEnclosure
import FieldGraft.Proofs.RequestAccounts
import FieldGraft.Proofs.AnnotationErasure

/-!
# The rounds of a session

A session asks its host for access in the first round and remembers the answer, a refusal as well as
a grant. The host may be of any kind and may answer differently every time; its later answers do not
matter, because it is not asked again.

* `Session.rounds` — rounds through one session, one after the other.
* `Session.rounds_of_access` — a session that remembers an answer does not change any more.
* `Session.rounds_probed` — so all rounds have the outcome of one probe, and the questions asked are
  those of this probe.
-/

namespace FieldGraft

/-! ### The probe -/

/-- A refusal names the host that was asked. -/
theorem Host.probe_outcome_error {h : Host} {e : HostError} (providers : List Provider)
    (asked : Nat) (herror : (h.probe providers asked).outcome = .error e) : e = ⟨h.name⟩ := by
  induction providers generalizing asked with
  | nil =>
    cases herror
    rfl
  -- a provider that grants the capability ends the probe, and one that does not passes it on
  | cons p ps ih =>
    rw [Host.probe] at herror
    cases hgrant : (p.acquire h asked).grant with
    | some c =>
      rw [hgrant] at herror
      cases herror
    | none =>
      rw [hgrant] at herror
      exact ih _ herror

/-! ### One session -/

/-- What rounds make of their items if one probe gave `access` and `log`. The records of the probe
stand before those of the first round. -/
def roundsUnder (placement : Placement) (access : Except HostError Capability)
    (log : List LogRecord) : List (List Item) → List (List Item × RoundReport)
  | [] => []
  | items :: rest =>
    (Catalogue.ofItems items).outcome placement access log items ::
      rest.map fun later => (Catalogue.ofItems later).outcome placement access [] later

/-- **A refused round.** The refusal of the host is the only diagnostic, all requests are skipped,
no node is added, and the items lose their annotations and nothing else. -/
structure RefusedRound (host : Host) (items : List Item) (out : List Item × RoundReport) :
    Prop where
  denied : out.2.Denied items ⟨host.name⟩
  arena_eq : out.2.arena = (Catalogue.ofItems items).arena
  items_eq : out.1 = Item.erasedList items

/-- **A granted round.** It is the round with the capability, and it accounts for every request. -/
structure GrantedRound (placement : Placement) (capability : Capability) (items : List Item)
    (out : List Item × RoundReport) : Prop where
  arena_eq : out.2.arena =
    ((Catalogue.ofItems items).round placement (.ok capability)).arena
  summary_eq : out.2.summary =
    ((Catalogue.ofItems items).round placement (.ok capability)).summary
  accounts : out.2.Accounts items
    ((Catalogue.ofItems items).arena.turns placement (Catalogue.ofItems items).types
      (Catalogue.ofItems items).batch)

namespace Session

/-- Rounds through one session, one after the other. -/
def rounds (s : Session) : List (List Item) → Session × List (List Item × RoundReport)
  | [] => (s, [])
  | items :: rest =>
    let later := (s.injectItems items).1.rounds rest
    (later.1, (s.injectItems items).2 :: later.2)

theorem rounds_cons (s : Session) (items : List Item) (rest : List (List Item)) :
    s.rounds (items :: rest) =
      (((s.injectItems items).1.rounds rest).1,
        (s.injectItems items).2 :: ((s.injectItems items).1.rounds rest).2) := rfl

variable {s : Session} {access : Except HostError Capability}

/-- A round with an answer at hand leaves the session as it is. -/
theorem injectItems_of_access (h : s.access = some access) (items : List Item) :
    s.injectItems items =
      (s, (Catalogue.ofItems items).outcome s.placement access [] items) := by
  have hself : s.authorize = (s, access, []) := by rw [authorize, h]
  have hround : s.injectItems items = (s.authorize.1,
      (Catalogue.ofItems items).outcome s.placement s.authorize.2.1 s.authorize.2.2 items) := rfl
  rw [hround, hself]

/-- **A session that remembers an answer does not change any more.** -/
theorem rounds_of_access (h : s.access = some access) (units : List (List Item)) :
    s.rounds units =
      (s, units.map fun items =>
        (Catalogue.ofItems items).outcome s.placement access [] items) := by
  induction units with
  | nil => rfl
  | cons items rest ih => rw [rounds_cons, injectItems_of_access h, ih, List.map_cons]

/-- The first round asks, and all rounds go by the answer. -/
theorem rounds_of_fresh (h : s.access = none) (items : List Item) (rest : List (List Item)) :
    s.rounds (items :: rest) =
      ({ s with
          asked := (s.host.probe s.providers s.asked).asked
          access := some (s.host.probe s.providers s.asked).outcome },
        roundsUnder s.placement (s.host.probe s.providers s.asked).outcome
          (s.host.probe s.providers s.asked).log (items :: rest)) := by
  -- what the first round leaves: the session with the answer to its question
  let probed : Session :=
    { s with
      asked := (s.host.probe s.providers s.asked).asked
      access := some (s.host.probe s.providers s.asked).outcome }
  have hself : s.authorize = (probed, (s.host.probe s.providers s.asked).outcome,
      (s.host.probe s.providers s.asked).log) := by
    rw [authorize, h]
  have hround : s.injectItems items = (s.authorize.1,
      (Catalogue.ofItems items).outcome s.placement s.authorize.2.1 s.authorize.2.2 items) := rfl
  -- the later rounds find the answer remembered
  rw [rounds_cons, hround, hself, rounds_of_access (s := probed) rfl]
  rfl

end Session

/-! ### Granted and refused rounds -/

/-- Any round under a grant, whatever was logged before it. -/
theorem grantedRound_outcome (placement : Placement) (capability : Capability)
    (log : List LogRecord) (items : List Item) :
    GrantedRound placement capability items
      ((Catalogue.ofItems items).outcome placement (.ok capability) log items) := by
  -- a session with this answer makes the same round, and its account is known
  let s : Session := { host := .source .commandLine, placement, access := some (.ok capability) }
  have hgrant : s.authorize.2.1 = .ok capability := rfl
  obtain ⟨hreported, hrequested, hyielded, hcounted, hbalanced⟩ :=
    Session.accounts_of_granted hgrant items
  exact ⟨rfl, rfl, ⟨hreported, hrequested, hyielded, hcounted, hbalanced⟩⟩

theorem refusedRound_outcome (placement : Placement) (host : Host) (log : List LogRecord)
    (items : List Item) :
    RefusedRound host items
      ((Catalogue.ofItems items).outcome placement (.error ⟨host.name⟩) log items) := by
  let s : Session := { host, placement, access := some (.error ⟨host.name⟩) }
  obtain ⟨hdiagnostics, hinjected, hskipped⟩ :=
    s.denied_of_refused (e := ⟨host.name⟩) rfl items
  exact ⟨⟨hdiagnostics, hinjected, hskipped⟩, rfl, Session.items_eq_erasedList (s := s) hinjected⟩

/-- What holds of every round under one access holds of all rounds. -/
theorem forall₂_roundsUnder {placement : Placement} {access : Except HostError Capability}
    {motive : List Item → List Item × RoundReport → Prop}
    (h : ∀ log items,
      motive items ((Catalogue.ofItems items).outcome placement access log items))
    (log : List LogRecord) (units : List (List Item)) :
    List.Forall₂ motive units (roundsUnder placement access log units) := by
  cases units with
  | nil => exact .nil
  | cons items rest =>
    refine .cons (h log items) ?_
    rw [List.forall₂_map_right_iff, List.forall₂_same]
    exact fun later _ => h [] later

namespace Session

/-- **The host is probed once per session.** Take any host, which may answer differently from one
question to the next, any providers and any rounds through one session. If there is a round at all,
then the questions that the session has asked in the end are those of one run of the providers, the
one in the first round. All rounds go by the outcome of this run: either every round is granted,
with the same capability, or every round is refused and adds nothing. -/
theorem rounds_probed (host : Host) (providers : List Provider) (placement : Placement)
    (asked : Nat) (units : List (List Item)) :
    let s : Session := { host, providers, placement, asked }
    let probe := host.probe providers asked
    (s.rounds units).1.asked = (if units = [] then asked else probe.asked) ∧
    (s.rounds units).2 = roundsUnder placement probe.outcome probe.log units ∧
    match probe.outcome with
    | .ok capability =>
      List.Forall₂ (GrantedRound placement capability) units (s.rounds units).2
    | .error e =>
      e = ⟨host.name⟩ ∧ List.Forall₂ (RefusedRound host) units (s.rounds units).2 := by
  intro s probe
  -- without units there is no question, and with some there is one probe
  have hrounds : (s.rounds units).1.asked = (if units = [] then asked else probe.asked) ∧
      (s.rounds units).2 = roundsUnder placement probe.outcome probe.log units := by
    cases units with
    | nil => exact ⟨rfl, rfl⟩
    | cons items rest =>
      rw [rounds_of_fresh (s := s) rfl]
      exact ⟨rfl, rfl⟩
  refine ⟨hrounds.1, hrounds.2, ?_⟩
  rw [hrounds.2]
  cases houtcome : probe.outcome with
  | ok capability =>
    exact forall₂_roundsUnder (grantedRound_outcome placement capability) probe.log units
  | error e =>
    -- a refusal is always told in the name of the host
    obtain rfl := Host.probe_outcome_error providers asked houtcome
    exact ⟨rfl, forall₂_roundsUnder (refusedRound_outcome placement host) probe.log units⟩

/-- A host that refuses the first question is not asked again, whatever it would answer. -/
example :
    let s : Session := { host := .custom "fickle" (fun asked => asked != 0) none }
    (s.rounds [[], []]).1.asked = 1 ∧
      (s.rounds [[], []]).2.map (fun out => out.2.hasErrors) = [true, true] := by
  decide

end Session

end FieldGraft
