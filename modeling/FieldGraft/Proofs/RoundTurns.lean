import FieldGraft.Proofs.RoundSteps
import FieldGraft.Session
import Mathlib.Data.List.Forall2

/-!
# The turns of a round

A round gives every request of its batch one turn. At its turn a request is judged against the arena
as the requests before it left it, and it ends in one diagnostic, whatever the judgement is.

* `Arena.judge` — the judgement on a request, said without the verdicts and errors of the round: the
  kind of the target, its field names, its constructors and the type are looked at in this order.
* `Arena.turns` — the turns of a round in the order of the batch, each with the arena it meets.
* `Progress.turns_induction` — what holds in the beginning and is kept by every turn holds of the
  turns and the end of the round. The statements about rounds are instances of it.
* `Arena.processInto_accounted` — the diagnostics and the summary of a round, turn by turn.

The turns of a round depend on its arena only (`Progress.turns_congr`): neither the log nor what was
reported before has an influence on the course of a round.
-/

namespace FieldGraft

/-! ### The judgement on a request -/

/-- What becomes of a request. -/
inductive Judgement where
  /-- The target is not a struct with named fields. -/
  | unsupported
  /-- The target has fields of this name, the first of which is `existing`. -/
  | duplicate (existing : NodeId)
  /-- The target has no constructor without parameters. -/
  | unconstructible
  /-- The type is not found. -/
  | unresolved (cause : ResolveError)
  /-- The field is added with the type that was found. -/
  | accepted (ty : TypeName)
deriving DecidableEq, Repr

namespace Judgement

/-- How serious the diagnostic is. -/
def severity : Judgement → Severity
  | unsupported => .warning
  | duplicate _ => .warning
  | unconstructible => .error
  | unresolved _ => .error
  | accepted _ => .note

/-- The node that the diagnostic points at: the field that is there already, or the target. -/
def subject (target : NodeId) : Judgement → NodeId
  | duplicate existing => existing
  | _ => target

/-- Whether the field is added. -/
def isAccepted : Judgement → Bool
  | accepted _ => true
  | _ => false

theorem isAccepted_iff {j : Judgement} : j.isAccepted = true ↔ ∃ ty, j = .accepted ty := by
  cases j <;> simp [isAccepted]

/-- Notes are for additions, and for nothing else. -/
theorem severity_eq_note_iff {j : Judgement} : j.severity = .note ↔ j.isAccepted = true := by
  cases j <;> simp [severity, isAccepted]

end Judgement

namespace Arena

/-- **The judgement on a request.** The first question that fails decides. -/
def judge (a : Arena) (types : TypeResolver) (t : NodeId) (r : Request) : Judgement :=
  if a.isRecord t then
    match (a.fields t).find? (fun f => f.2.name == r.name) with
    | some f => .duplicate f.1
    | none =>
      if a.hasFreeConstructor t then
        match types.resolveRef r.ty with
        | .ok ty => .accepted ty
        | .error cause => .unresolved cause
      else .unconstructible
  else .unsupported

variable {a : Arena} {types : TypeResolver} {t : NodeId} {r : Request}

/-- If the arena has no objection, the type decides. -/
theorem judge_of_eligible (hv : a.evaluate t r.name = .eligible) :
    a.judge types t r = match types.resolveRef r.ty with
      | .ok ty => .accepted ty
      | .error cause => .unresolved cause := by
  -- the other verdicts are refusals
  rcases a.evaluate_cases t r.name with
    ⟨-, kind, hno⟩ | ⟨-, f, -, hno⟩ | ⟨hrecord, hfind, ⟨-, hno⟩ | ⟨hfree, -⟩⟩
  · rw [hv] at hno
    cases hno
  · rw [hv] at hno
    cases hno
  · rw [hv] at hno
    cases hno
  · unfold judge
    rw [if_pos hrecord, hfind]
    exact if_pos hfree

/-- A refusal by the arena has the diagnostic that the judgement asks for. -/
theorem exists_diagnostic_of_refusal (types : TypeResolver)
    (hv : a.evaluate t r.name ≠ .eligible) :
    ∃ d, (a.evaluate t r.name).diagnostic? a = some d ∧
      d.severity = (a.judge types t r).severity ∧
      d.node = some ((a.judge types t r).subject t) ∧
      (a.judge types t r).isAccepted = false := by
  unfold judge
  -- one verdict for each way to be refused
  rcases a.evaluate_cases t r.name with
    ⟨hrecord, kind, hverdict⟩ | ⟨hrecord, f, hfind, hverdict⟩ |
      ⟨hrecord, hfind, ⟨hfree, hverdict⟩ | ⟨-, heligible⟩⟩
  · rw [hverdict, hrecord]
    exact ⟨_, rfl, rfl, rfl, rfl⟩
  · rw [hverdict, hrecord, hfind]
    exact ⟨_, rfl, rfl, rfl, rfl⟩
  · rw [hverdict, hrecord, hfind, hfree]
    exact ⟨_, rfl, rfl, rfl, rfl⟩
  · exact absurd heligible hv

/-- A request is accepted if the arena has no objection and the type is found. -/
theorem judge_eq_accepted_iff {ty : TypeName} :
    a.judge types t r = .accepted ty ↔
      a.evaluate t r.name = .eligible ∧ types.resolveRef r.ty = .ok ty := by
  by_cases hv : a.evaluate t r.name = .eligible
  · rw [judge_of_eligible hv]
    cases types.resolveRef r.ty <;> simp [hv]
  · obtain ⟨-, -, -, -, hno⟩ := exists_diagnostic_of_refusal types hv
    simp only [hv, false_and, iff_false]
    intro hj
    rw [hj] at hno
    cases hno

/-- Only structs with named fields receive fields. -/
theorem isRecord_of_accepted {ty : TypeName} (h : a.judge types t r = .accepted ty) :
    a.isRecord t = true := by
  by_contra hno
  rw [judge, if_neg hno] at h
  cases h

end Arena

/-! ### One turn -/

namespace Progress

variable {types : TypeResolver} {target : NodeId} {p q : Progress} {r : Request}

/-- **Every request ends in one diagnostic**, the one that its judgement asks for. -/
theorem request_reports (types : TypeResolver) (placement : Placement) (target : NodeId)
    (p : Progress) (count : Nat) (r : Request) :
    ∃ d, (request types placement target p count r).1.diagnostics = p.diagnostics ++ [d] ∧
      d.severity = (p.arena.judge types target r).severity ∧
      d.node = some ((p.arena.judge types target r).subject target) := by
  -- either the type is asked for or the refusal is reported
  by_cases hv : p.arena.evaluate target r.name = .eligible
  · rw [Arena.judge_of_eligible hv]
    cases hty : types.resolveRef r.ty with
    | error e =>
      rw [request_of_unresolved placement count hv hty]
      exact ⟨_, rfl, rfl, rfl⟩
    | ok ty =>
      obtain ⟨hadds, -⟩ := request_of_resolved placement count hv hty
      exact ⟨_, hadds.diagnostics_eq, rfl, rfl⟩
  · obtain ⟨d, hd, hseverity, hnode, -⟩ := Arena.exists_diagnostic_of_refusal types hv
    refine ⟨d, ?_, hseverity, hnode⟩
    -- what is logged before the report does not change the arena that the report speaks of
    have hnote : ∀ record, (p.arena.evaluate target r.name).diagnostic? (p.note record).arena =
        some d := fun _ => hd
    rw [request_of_refusal placement count hv]
    simp only [refuse, hnote]
    rfl

theorem request_of_accepted {ty : TypeName} (placement : Placement) (count : Nat)
    (h : p.arena.judge types target r = .accepted ty) :
    p.Adds (request types placement target p count r).1 target (placement.position count)
        (r.field ty) ⟨p.arena.size⟩ ∧
      (request types placement target p count r).2 = count + 1 := by
  obtain ⟨hv, hty⟩ := Arena.judge_eq_accepted_iff.mp h
  exact request_of_resolved placement count hv hty

theorem request_of_rejected (placement : Placement) (count : Nat)
    (h : (p.arena.judge types target r).isAccepted = false) :
    p.Skips (request types placement target p count r).1 ∧
      (request types placement target p count r).2 = count := by
  rcases request_cases types placement target p count r with
    ⟨-, hskips, hcount⟩ | ⟨ty, htakes, hty, -, -⟩
  · exact ⟨hskips, hcount⟩
  · have hj := Arena.judge_eq_accepted_iff.mpr
      ⟨Arena.evaluate_eq_eligible_iff.mpr htakes, hty⟩
    rw [hj] at h
    cases h

/-- What a request does to the arena depends on nothing but the arena. -/
theorem request_congr (types : TypeResolver) (placement : Placement) (target : NodeId)
    (count : Nat) (r : Request) (h : q.arena = p.arena) :
    (request types placement target q count r).1.arena =
        (request types placement target p count r).1.arena ∧
      (request types placement target q count r).2 =
        (request types placement target p count r).2 := by
  cases hj : (p.arena.judge types target r).isAccepted with
  | true =>
    obtain ⟨ty, hty⟩ := Judgement.isAccepted_iff.mp hj
    -- `q` accepts what `p` accepts, as the judgement reads the arena alone
    obtain ⟨hp, hpcount⟩ := request_of_accepted placement count hty
    obtain ⟨hq, hqcount⟩ := request_of_accepted placement count (h ▸ hty)
    -- both insert the same member into the same arena
    have hboth := hq.insert_eq
    rw [h, hp.insert_eq] at hboth
    exact ⟨(Prod.mk.inj (Except.ok.inj hboth)).1.symm, by rw [hpcount, hqcount]⟩
  | false =>
    obtain ⟨hp, hpcount⟩ := request_of_rejected placement count hj
    obtain ⟨hq, hqcount⟩ := request_of_rejected placement count (h ▸ hj)
    exact ⟨by rw [hp.arena_eq, hq.arena_eq, h], by rw [hpcount, hqcount]⟩

end Progress

/-! ### The turns of a round -/

/-- A request whose turn has come. -/
structure Turn where
  target : NodeId
  request : Request
  /-- The arena as the requests before it left it. -/
  arena : Arena
deriving DecidableEq, Repr

namespace Turn

/-- The judgement at a turn. -/
def judgement (types : TypeResolver) (x : Turn) : Judgement :=
  x.arena.judge types x.target x.request

/-- Whether the field is added. -/
def isAccepted (types : TypeResolver) (x : Turn) : Bool :=
  (x.judgement types).isAccepted

/-- The diagnostic has the severity and the node that the judgement asks for. -/
structure Reports (types : TypeResolver) (x : Turn) (d : Diagnostic) : Prop where
  severity_eq : d.severity = (x.judgement types).severity
  node_eq : d.node = some ((x.judgement types).subject x.target)

/-- The addition is that of the requested field to the target, with the type that was found. -/
structure Yields (types : TypeResolver) (a : Arena) (x : Turn) (i : Injection) : Prop where
  target_eq : i.target = x.target
  field_eq : ∃ ty, x.judgement types = .accepted ty ∧
    a.field? i.field = some (x.request.field ty)

theorem Yields.mono {types : TypeResolver} {a b : Arena} {x : Turn} {i : Injection}
    (h : x.Yields types a i) (hfield : ∀ f, a.field? i.field = some f → b.field? i.field = some f) :
    x.Yields types b i := by
  obtain ⟨htarget, ty, hty, hnew⟩ := h
  exact ⟨htarget, ty, hty, hfield _ hnew⟩

end Turn

/-- The turns at which a field is added. -/
def acceptedTurns (types : TypeResolver) (turns : List Turn) : List Turn :=
  turns.filter (Turn.isAccepted types)

theorem acceptedTurns_cons_of_accepted {types : TypeResolver} {x : Turn} (rest : List Turn)
    (h : x.isAccepted types = true) :
    acceptedTurns types (x :: rest) = x :: acceptedTurns types rest :=
  List.filter_cons_of_pos h

theorem acceptedTurns_cons_of_rejected {types : TypeResolver} {x : Turn} (rest : List Turn)
    (h : x.isAccepted types = false) :
    acceptedTurns types (x :: rest) = acceptedTurns types rest :=
  List.filter_cons_of_neg (by rw [h]; exact Bool.false_ne_true)

theorem acceptedTurns_concat_of_accepted {types : TypeResolver} {x : Turn} (seen : List Turn)
    (h : x.isAccepted types = true) :
    acceptedTurns types (seen ++ [x]) = acceptedTurns types seen ++ [x] := by
  simp [acceptedTurns, h]

theorem acceptedTurns_concat_of_rejected {types : TypeResolver} {x : Turn} (seen : List Turn)
    (h : x.isAccepted types = false) :
    acceptedTurns types (seen ++ [x]) = acceptedTurns types seen := by
  simp [acceptedTurns, h]

/-- The requests of a batch in order, each with the node that it is for. -/
def requestPairs (batch : List Target) : List (NodeId × Request) :=
  batch.flatMap (fun x => x.requests.map (fun r => (x.node, r)))

theorem requestCount_eq (batch : List Target) :
    requestCount batch = (requestPairs batch).length := by
  induction batch with
  | nil => rfl
  | cons x batch ih =>
    have hcount : requestCount (x :: batch) = x.requests.length + requestCount batch := rfl
    rw [hcount, ih]
    simp [requestPairs]

namespace Progress

/-- The turns of the requests of one target, the first of which finds `count` fields added. -/
def requestTurns (types : TypeResolver) (placement : Placement) (target : NodeId) :
    Progress → Nat → List Request → List Turn
  | _, _, [] => []
  | p, count, r :: rs =>
    let (p', count') := request types placement target p count r
    ⟨target, r, p.arena⟩ :: requestTurns types placement target p' count' rs

theorem requests_cons (types : TypeResolver) (placement : Placement) (t : NodeId) (p : Progress)
    (count : Nat) (r : Request) (rs : List Request) :
    requests types placement t p count (r :: rs) =
      requests types placement t (request types placement t p count r).1
        (request types placement t p count r).2 rs := rfl

theorem requestTurns_cons (types : TypeResolver) (placement : Placement) (t : NodeId)
    (p : Progress) (count : Nat) (r : Request) (rs : List Request) :
    requestTurns types placement t p count (r :: rs) =
      ⟨t, r, p.arena⟩ :: requestTurns types placement t (request types placement t p count r).1
        (request types placement t p count r).2 rs := rfl

/-- The turns of the targets of a batch. -/
def turns (types : TypeResolver) (placement : Placement) : Progress → List Target → List Turn
  | _, [] => []
  | p, x :: batch =>
    requestTurns types placement x.node p 0 x.requests ++
      turns types placement (target types placement p x) batch

variable {p q : Progress} (types : TypeResolver) (placement : Placement)

theorem requestTurns_pairs (t : NodeId) (p : Progress) (count : Nat) (rs : List Request) :
    (requestTurns types placement t p count rs).map (fun x => (x.target, x.request)) =
      rs.map (fun r => (t, r)) := by
  induction rs generalizing p count with
  | nil => rfl
  | cons r rs ih => exact congrArg ((t, r) :: ·) (ih _ _)

theorem target_of_mem_requestTurns {t : NodeId} {p : Progress} {count : Nat} {rs : List Request}
    {x : Turn} (hx : x ∈ requestTurns types placement t p count rs) : x.target = t := by
  have hpair : (x.target, x.request) ∈ rs.map (fun r => (t, r)) := by
    rw [← requestTurns_pairs types placement t p count rs]
    exact List.mem_map_of_mem hx
  obtain ⟨r, -, hr⟩ := List.mem_map.mp hpair
  exact (Prod.mk.inj hr).1.symm

/-- Each request of the batch has one turn, in the order of the batch. -/
theorem turns_pairs (p : Progress) (batch : List Target) :
    (turns types placement p batch).map (fun x => (x.target, x.request)) = requestPairs batch := by
  induction batch generalizing p with
  | nil => rfl
  | cons x batch ih =>
    rw [turns, List.map_append, requestTurns_pairs, ih]
    rfl

section Induction

variable {types placement} {motive : List Turn → Progress → Prop}
  (step : ∀ (seen : List Turn) (p : Progress) (count : Nat) (t : NodeId) (r : Request),
    motive seen p → motive (seen ++ [⟨t, r, p.arena⟩]) (request types placement t p count r).1)

include step

/-- What is kept by every turn is kept by the requests of one target, after any turns. -/
theorem requestTurns_induction (t : NodeId) (rs : List Request) {seen : List Turn} {p : Progress}
    (count : Nat) (h : motive seen p) :
    motive (seen ++ requestTurns types placement t p count rs)
      (requests types placement t p count rs) := by
  induction rs generalizing seen p count with
  | nil =>
    rw [requestTurns, List.append_nil]
    exact h
  | cons r rs ih =>
    -- the rest starts from the state and the count that this request leaves
    have hrest := ih (request types placement t p count r).2 (step seen p count t r h)
    rw [requestTurns_cons, requests_cons]
    rw [List.append_assoc] at hrest
    exact hrest

/-- What is kept by every turn is kept by a batch, after any turns. -/
theorem turns_induction_append (batch : List Target) {seen : List Turn} {p : Progress}
    (h : motive seen p) :
    motive (seen ++ turns types placement p batch) (batch.foldl (target types placement) p) := by
  induction batch generalizing seen p with
  | nil =>
    rw [turns, List.append_nil]
    exact h
  | cons x batch ih =>
    have hrest := ih (requestTurns_induction step x.node x.requests 0 h)
    rw [List.append_assoc] at hrest
    exact hrest

/-- **Induction along a round.** Whatever holds in the beginning and is kept by every turn holds of
all turns and of the end. -/
theorem turns_induction (start : motive [] p) (batch : List Target) :
    motive (turns types placement p batch) (batch.foldl (target types placement) p) :=
  turns_induction_append step batch start

end Induction

theorem requestTurns_congr (t : NodeId) (count : Nat) (rs : List Request)
    (h : q.arena = p.arena) :
    requestTurns types placement t q count rs = requestTurns types placement t p count rs ∧
      (requests types placement t q count rs).arena =
        (requests types placement t p count rs).arena := by
  induction rs generalizing p q count with
  | nil => exact ⟨rfl, h⟩
  | cons r rs ih =>
    obtain ⟨harena, hcount⟩ := request_congr types placement t count r h
    obtain ⟨hturns, hfinal⟩ := ih (request types placement t p count r).2 harena
    rw [requestTurns_cons, requestTurns_cons, requests_cons, requests_cons, hcount, h, hturns]
    exact ⟨rfl, hfinal⟩

/-- Rounds that begin with the same arena have the same turns, and end with the same arena. -/
theorem turns_congr (batch : List Target) (h : q.arena = p.arena) :
    turns types placement q batch = turns types placement p batch ∧
      (batch.foldl (target types placement) q).arena =
        (batch.foldl (target types placement) p).arena := by
  induction batch generalizing p q with
  | nil => exact ⟨rfl, h⟩
  | cons x batch ih =>
    obtain ⟨hturns, harena⟩ := requestTurns_congr types placement x.node 0 x.requests h
    obtain ⟨hrest, hfinal⟩ := ih harena
    refine ⟨?_, hfinal⟩
    rw [turns, turns, hturns]
    exact congrArg _ hrest

/-- The turns of further requests begin where the requests before them end. -/
theorem requestTurns_append (t : NodeId) (p : Progress) (count : Nat) (rs : List Request) :
    ∃ count', ∀ rs', requestTurns types placement t p count (rs ++ rs') =
      requestTurns types placement t p count rs ++
        requestTurns types placement t (requests types placement t p count rs) count' rs' := by
  induction rs generalizing p count with
  | nil => exact ⟨count, fun _ => rfl⟩
  | cons r rs ih =>
    obtain ⟨count', hrest⟩ := ih (request types placement t p count r).1
      (request types placement t p count r).2
    refine ⟨count', fun rs' => ?_⟩
    rw [List.cons_append, requestTurns_cons, hrest]
    rfl

theorem turns_append (p : Progress) (batch batch' : List Target) :
    turns types placement p (batch ++ batch') =
      turns types placement p batch ++
        turns types placement (batch.foldl (target types placement) p) batch' := by
  induction batch generalizing p with
  | nil => rfl
  | cons x batch ih =>
    rw [List.cons_append, turns, turns, ih, List.append_assoc]
    rfl

end Progress

namespace Arena

/-- **The turns of a round** over an arena, in the order of the batch. -/
def turns (a : Arena) (placement : Placement) (types : TypeResolver) (batch : List Target) :
    List Turn :=
  Progress.turns types placement { arena := a } batch

theorem processInto_induction {motive : List Turn → Progress → Prop} {a : Arena}
    {types : TypeResolver} {placement : Placement}
    (step : ∀ (seen : List Turn) (p : Progress) (count : Nat) (t : NodeId) (r : Request),
      motive seen p →
        motive (seen ++ [⟨t, r, p.arena⟩]) (Progress.request types placement t p count r).1)
    (sink : List Diagnostic) (capability : Capability) (batch : List Target)
    (start : motive []
      { arena := a, diagnostics := sink, log := [roundRecord capability placement batch] }) :
    motive (a.turns placement types batch)
      (a.processInto sink capability placement types batch) := by
  -- the sink and the log do not change the turns
  obtain ⟨hturns, -⟩ := Progress.turns_congr types placement batch (q := { arena := a })
    (p := { arena := a, diagnostics := sink, log := [roundRecord capability placement batch] }) rfl
  rw [turns, hturns]
  exact Progress.turns_induction step start batch

theorem length_turns (a : Arena) (placement : Placement) (types : TypeResolver)
    (batch : List Target) : (a.turns placement types batch).length = requestCount batch := by
  have hpairs := congrArg List.length (Progress.turns_pairs types placement { arena := a } batch)
  rw [List.length_map, ← requestCount_eq] at hpairs
  exact hpairs

/-- **The arena at a turn** is that of the round over what comes before in the batch. -/
theorem getElem?_turns (a : Arena) (capability : Capability) (placement : Placement)
    (types : TypeResolver) (before after : List Target) (t : NodeId) (rs : List Request)
    (r : Request) (rs' : List Request) :
    (a.turns placement types (before ++ ⟨t, rs ++ r :: rs'⟩ :: after))[
        requestCount (before ++ [⟨t, rs⟩])]? =
      some ⟨t, r, (a.process capability placement types (before ++ [⟨t, rs⟩])).arena⟩ := by
  let q := before.foldl (Progress.target types placement) { arena := a }
  obtain ⟨count, hrequests⟩ := Progress.requestTurns_append types placement t q 0 rs
  -- the turns up to this one are those of the batch up to it
  have hbefore : a.turns placement types (before ++ [⟨t, rs⟩]) =
      Progress.turns types placement { arena := a } before ++
        Progress.requestTurns types placement t q 0 rs := by
    rw [turns, Progress.turns_append, Progress.turns, Progress.turns, List.append_nil]
  have hsplit : a.turns placement types (before ++ ⟨t, rs ++ r :: rs'⟩ :: after) =
      a.turns placement types (before ++ [⟨t, rs⟩]) ++
        (Progress.requestTurns types placement t (Progress.requests types placement t q 0 rs)
            count (r :: rs') ++
          Progress.turns types placement
            (Progress.target types placement q ⟨t, rs ++ r :: rs'⟩) after) := by
    rw [hbefore, turns, Progress.turns_append, Progress.turns, hrequests, List.append_assoc,
      List.append_assoc]
  -- the round and `turns` begin with different logs, which the arena does not depend on
  have harena : (a.process capability placement types (before ++ [⟨t, rs⟩])).arena =
      (Progress.requests types placement t q 0 rs).arena := by
    have hcongr := (Progress.turns_congr types placement (before ++ [⟨t, rs⟩])
      (p := { arena := a })
      (q := { arena := a, log := [roundRecord capability placement (before ++ [⟨t, rs⟩])] })
      rfl).2
    rw [List.foldl_append, List.foldl_append] at hcongr
    rw [process, processInto, List.foldl_append]
    exact hcongr
  rw [hsplit, ← length_turns a placement types, List.getElem?_append_right (Nat.le_refl _),
    Nat.sub_self, Progress.requestTurns_cons, List.cons_append, List.getElem?_cons_zero, harena]

end Arena

/-! ### The account of a round -/

namespace Progress

variable {types : TypeResolver} {placement : Placement}

/-- A field stays what it is. -/
theorem request_field? {t i : NodeId} {p : Progress} {count : Nat} {r : Request} {f : FieldDecl}
    (h : p.arena.field? i = some f) :
    (request types placement t p count r).1.arena.field? i = some f := by
  rcases request_cases types placement t p count r with
    ⟨-, hskips, -⟩ | ⟨ty, -, -, hadds, -⟩
  · rw [hskips.arena_eq, h]
  · rw [(hadds.inserted.leaf_of_lt (Arena.index_lt_of_field? h)).1, h]

/-- **The account of some turns**, of which the last led to `p`: what was reported behind `sink`,
how many requests were carried out or skipped, and what the additions are. -/
structure Accounts (types : TypeResolver) (sink : List Diagnostic) (seen : List Turn)
    (p : Progress) : Prop where
  reported : ∃ ds, p.diagnostics = sink ++ ds ∧ List.Forall₂ (Turn.Reports types) seen ds
  counted : p.summary.injected.length + p.summary.skipped = seen.length
  yielded : List.Forall₂ (Turn.Yields types p.arena) (acceptedTurns types seen)
    p.summary.injected

/-- One more turn. -/
theorem Accounts.step {sink : List Diagnostic} {seen : List Turn} {p : Progress}
    (h : Accounts types sink seen p) (count : Nat) (t : NodeId) (r : Request) :
    Accounts types sink (seen ++ [⟨t, r, p.arena⟩]) (request types placement t p count r).1 := by
  obtain ⟨⟨ds, hds, hreports⟩, hcounted, hyields⟩ := h
  -- earlier additions are fields still
  have hkept : List.Forall₂ (Turn.Yields types (request types placement t p count r).1.arena)
      (acceptedTurns types seen) p.summary.injected :=
    List.Forall₂.imp (fun x i hi => hi.mono fun f => request_field?) hyields
  refine ⟨?_, ?_, ?_⟩
  · -- the turn reports once, for what the judgement says
    obtain ⟨d, hd, hseverity, hnode⟩ := request_reports types placement t p count r
    refine ⟨ds ++ [d], by rw [hd, hds, List.append_assoc], ?_⟩
    exact List.rel_append hreports (.cons ⟨hseverity, hnode⟩ .nil)
  · -- either the skipped or the injected number goes up by one
    rcases request_cases types placement t p count r with
      ⟨-, hskips, -⟩ | ⟨ty, -, -, hadds, -⟩
    · rw [hskips.injected_eq, hskips.skipped_eq, List.length_append, List.length_singleton]
      omega
    · rw [hadds.injected_eq, hadds.skipped_eq, List.length_append, List.length_append,
        List.length_singleton, List.length_singleton]
      omega
  · -- an accepted turn yields the id of its field
    cases hj : (Turn.mk t r p.arena).isAccepted types with
    | false =>
      obtain ⟨hskips, -⟩ := request_of_rejected placement count hj
      rw [acceptedTurns_concat_of_rejected seen hj, hskips.injected_eq]
      exact hkept
    | true =>
      obtain ⟨ty, hty⟩ := Judgement.isAccepted_iff.mp hj
      obtain ⟨hadds, -⟩ := request_of_accepted placement count hty
      have hnew : (request types placement t p count r).1.arena.field? ⟨p.arena.size⟩ =
          some (r.field ty) := by
        rw [Arena.field?_eq, hadds.inserted.new_eq]
      rw [acceptedTurns_concat_of_accepted seen hj, hadds.injected_eq]
      exact List.rel_append hkept (.cons ⟨rfl, ty, hty, hnew⟩ .nil)

end Progress

/-- The account of a whole round. -/
theorem Arena.processInto_accounts (a : Arena) (sink : List Diagnostic) (capability : Capability)
    (placement : Placement) (types : TypeResolver) (batch : List Target) :
    Progress.Accounts types sink (a.turns placement types batch)
      (a.processInto sink capability placement types batch) := by
  refine processInto_induction (fun seen p count t r h => h.step count t r) sink capability
    batch ?_
  exact ⟨⟨[], (List.append_nil sink).symm, .nil⟩, rfl, .nil⟩

/-- **Every request is accounted for.** Each request of the batch has one turn, in the order of the
batch and with the arena that the round over the requests before it leaves; at its turn it is
reported and carried out or skipped as its judgement asks. The arena never refuses a member to a
target that it found eligible, whatever the position. -/
theorem Arena.processInto_accounted (a : Arena) (sink : List Diagnostic) (capability : Capability)
    (placement : Placement) (types : TypeResolver) (batch : List Target) :
    (a.turns placement types batch).map (fun x => (x.target, x.request)) = requestPairs batch ∧
    (∀ before t rs r rs' after, batch = before ++ ⟨t, rs ++ r :: rs'⟩ :: after →
      (a.turns placement types batch)[requestCount (before ++ [⟨t, rs⟩])]? =
        some ⟨t, r, (a.process capability placement types (before ++ [⟨t, rs⟩])).arena⟩) ∧
    Progress.Accounts types sink (a.turns placement types batch)
      (a.processInto sink capability placement types batch) ∧
    (a.processInto sink capability placement types batch).summary.injected.length +
      (a.processInto sink capability placement types batch).summary.skipped =
        requestCount batch ∧
    ∀ x ∈ a.turns placement types batch, x.arena.evaluate x.target x.request.name = .eligible →
      ∀ position d, ∃ b, x.arena.insertMember x.target position d = .ok (b, ⟨x.arena.size⟩) := by
  have haccount := a.processInto_accounts sink capability placement types batch
  refine ⟨Progress.turns_pairs types placement { arena := a } batch, ?_, haccount, ?_, ?_⟩
  · rintro before t rs r rs' after rfl
    exact a.getElem?_turns capability placement types before after t rs r rs'
  · rw [haccount.counted, length_turns]
  · intro x _ hv position d
    obtain ⟨decl, hdecl⟩ :=
      exists_typeDecl_of_takesFields (evaluate_eq_eligible_iff.mp hv).1
    exact exists_insertMember hdecl position d

end FieldGraft
