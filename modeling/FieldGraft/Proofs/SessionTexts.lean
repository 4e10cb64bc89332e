import FieldGraft.Proofs.ModuleEnclosure

/-!
# Sessions over several texts

A session takes one text after the other and probes its host in the first round only. Once access is
granted it stays so (`Session.Granted.after_injectText`), and what a session makes of a text depends
on neither its host nor the texts before (`Session.told_granted`).
-/

namespace FieldGraft.Session

variable {s s' : Session} {text : String} {f : File} {r : RoundReport}

/-- The session after a round has the same access, and it does not probe again. -/
theorem authorize_again (s : Session) : s.authorize.1.authorize.2.1 = s.authorize.2.1 := by
  cases haccess : s.access with
  | some access =>
    -- the answer is remembered, so the session asks nothing and stays as it is
    have hself : s.authorize = (s, access, []) := by rw [authorize, haccess]
    rw [hself, hself]
  | none =>
    -- the answer of the probe is remembered in the session that the first question leaves
    have hprobed : s.authorize =
        ({ s with asked := (s.host.probe s.providers s.asked).asked
                  access := some (s.host.probe s.providers s.asked).outcome },
          (s.host.probe s.providers s.asked).outcome,
          (s.host.probe s.providers s.asked).log) := by
      rw [authorize, haccess]
    rw [hprobed]
    rfl

theorem authorize_placement (s : Session) : s.authorize.1.placement = s.placement := by
  unfold authorize
  cases s.access <;> rfl

theorem authorize_of_injectText (h : s.injectText text = .ok (s', f, r)) :
    s.authorize.1 = s' := by
  unfold injectText at h
  split at h
  · exact (Prod.mk.inj (Except.ok.inj h)).1
  · cases h

/-- **Access is granted for all texts.** -/
theorem Granted.after_injectText (hs : s.Granted) (h : s.injectText text = .ok (s', f, r)) :
    s'.Granted := by
  obtain ⟨capability, haccess⟩ := hs
  exact ⟨capability, authorize_of_injectText h ▸ s.authorize_again.trans haccess⟩

theorem placement_of_injectText (h : s.injectText text = .ok (s', f, r)) :
    s'.placement = s.placement :=
  authorize_of_injectText h ▸ s.authorize_placement

/-- What a session makes of a text, the log aside. -/
def told (s : Session) (text : String) : Except SourceError (File × RoundReport) :=
  (s.injectText text).map fun round => (round.2.1, round.2.2.withoutLog)

theorem told_of_injectText (h : s.injectText text = .ok (s', f, r)) :
    s.told text = .ok (f, r.withoutLog) := by
  rw [told, h]
  rfl

/-- **All sessions with access make the same of a text.** -/
theorem told_granted (hs : s.Granted) (hs' : s'.Granted) (hplacement : s'.placement = s.placement)
    (text : String) : s'.told text = s.told text := by
  unfold told injectText
  cases File.ofText text with
  | error e => rfl
  | ok f =>
    -- files are compared without their logs, and the items of both rounds are the same
    obtain ⟨hitems, hreport⟩ := injectItems_granted hs hs' hplacement f.items
    show Except.ok ({ f with items := (s'.injectItems f.items).2.1 },
        (s'.injectItems f.items).2.2.withoutLog) =
      .ok ({ f with items := (s.injectItems f.items).2.1 },
        (s.injectItems f.items).2.2.withoutLog)
    rw [hitems, hreport]

end FieldGraft.Session
