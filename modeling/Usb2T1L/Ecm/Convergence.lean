import Usb2T1L.Ecm.System

/-!
# Convergence of the host's carrier

`link_task` remembers what it has sent, and sends again when the carrier changes or when it
has seen the interface not ready.  `USBD_ECM_SetLinkState` does not say whether it has sent
anything, and the interface may go down and up again unseen.

## Main definitions

* `Ecm.Converged` — what the host has been told when all is quiet.
* `KeepsCarrier` — the condition on the steps: nothing the host needs is lost.

## Main results

* `Ecm.CarrierSafe.step` — what every step keeps.
* `carrier_converges` — **the host's view converges** if nothing it needs is lost.
-/

namespace Usb2T1L

variable {n : ℕ}

/-- The step loses nothing that the host needs: no notification is given up unless it only
repeats the host's view, the interface is not activated while `link_task` relies on what was
sent before, and no `ECM_Init` takes the endpoint from `USBD_ECM_SetLinkState`. -/
def KeepsCarrier (s : Ecm n) : EcmAct → Prop
  | .link a => s.notify.NoLostNotice s.cls.sReady a
  | .setInterface wIndex wValue =>
    (s.cls.setInterface wIndex wValue).1 = .opened → s.notify.NoLostView
  | .init => s.notify.pc.claimed = false
  | _ => True

instance decidableKeepsCarrier (s : Ecm n) : ∀ a, Decidable (KeepsCarrier s a)
  | .link _ => inferInstanceAs (Decidable (Notify.NoLostNotice _ _ _))
  | .setInterface _ _ => inferInstanceAs (Decidable (_ → Notify.NoLostView _))
  | .init => inferInstanceAs (Decidable (_ = _))
  | .deInit | .dataOut _ | .submit | .inPacket | .inDone _ | .cmdPacket | .cmdDone _ | .tx
  | .send _ => isTrue trivial

namespace Ecm

/-- When an iteration of `link_task` has finished with `have_sent`, the interface is ready and
no notification is in flight, the last NETWORK_CONNECTION since the interface was activated
reports `last_sent`. -/
def Converged (s : Ecm n) : Prop :=
  s.notify.pc = .idle → s.notify.haveSent = true → s.cls.sReady = true → s.notify.cmdXfer = none →
    s.notify.hostNc = some s.notify.lastSent

instance decidableConverged (s : Ecm n) : Decidable s.Converged :=
  match h : s.notify.cmdXfer with
  | none => decidable_of_iff (s.notify.pc = .idle → s.notify.haveSent = true →
      s.cls.sReady = true → s.notify.hostNc = some s.notify.lastSent)
      ⟨fun hc hpc hsent hr _ => hc hpc hsent hr, fun hc hpc hsent hr => hc hpc hsent hr h⟩
  | some _ => isTrue fun _ _ _ hx => absurd (h.symm.trans hx) (by simp)

/-- The notifications and `s_ready`. -/
structure CarrierSafe (s : Ecm n) : Prop extends Coherent s where
  carrier : s.notify.Carrier s.cls.sReady

theorem CarrierSafe.converged {s : Ecm n} (h : s.CarrierSafe) : s.Converged := by
  intro hpc hsent hr hx
  have hview : s.notify.view = s.notify.hostNc := by
    rw [Notify.view, Notify.pending, hx]
    rfl
  rw [← hview]
  refine h.carrier.told hr _ ?_
  rw [Notify.relied, hpc]
  exact if_pos hsent

/-- **Every step keeps the carrier safe**, if it loses nothing that the host needs. -/
theorem CarrierSafe.step {s s' : Ecm n} {a : EcmAct} (h : s.CarrierSafe) (hk : KeepsCarrier s a)
    (hs : ecmSys.step s a = some s') : s'.CarrierSafe := by
  have hc := h.toCoherent.step hs
  cases (ecmStep_move hs).2 with
  | init _ hconf =>
    have hx : s.notify.cmdXfer = none := by
      by_contra hx
      exact Bool.false_ne_true (hconf.symm.trans (h.cmd hx))
    exact ⟨hc, h.carrier.init hx hk⟩
  | deInit => exact ⟨hc, h.carrier.deInit⟩
  | kept => exact h
  | opened _ hset => exact ⟨hc, h.carrier.activated (hk hset)⟩
  | closed => exact ⟨hc, h.carrier.not_ready⟩
  | dataOut | submit | inPacket | inDone | tx | send => exact ⟨hc, h.carrier⟩
  | cmdPacket hw => exact ⟨hc, h.carrier.cmdPacket hw⟩
  | cmdDone hw => exact ⟨hc, h.carrier.ecmDataIn hw⟩
  | link hw => exact ⟨hc, h.carrier.linkTaskNotify h.cls.sPdev_of_ready hk hw⟩

end Ecm

/-- **The host's view of the carrier converges** in every run that loses nothing it needs. -/
theorem carrier_converges (pool : FramePool n) (sInDone : Option Bool) (as : List EcmAct)
    (hk : ecmSys.Along (fun s a _ => KeepsCarrier s a) (Ecm.start pool sInDone) as) :
    ∀ s, ecmSys.run (Ecm.start pool sInDone) as = some s → s.Converged := by
  intro s hrun
  have hsafe : s.CarrierSafe := Lts.run_invariant (fun s a s' h hk hs => h.step hk hs)
    ⟨Ecm.coherent_start pool sInDone, Notify.carrier_start⟩ hk hrun
  exact hsafe.converged

/-! ### What may be lost -/

/-- An iteration of `link_task` that sends a notification. -/
def notifyOnce (up : Bool) : List EcmAct :=
  [.link (.sample up), .link .ready, .link .guard, .link .critical, .link .fill,
    .link (.transmit true), .link .record]

/-- The link comes up with the interface, goes down, and the host takes all of it. -/
def upThenDown : List EcmAct :=
  [.init, .setInterface 1 1] ++ notifyOnce true ++
    [.cmdPacket, .cmdDone true, .cmdPacket, .cmdDone true] ++ notifyOnce false ++
    [.cmdPacket, .cmdDone true]

theorem carrier_converges_upThenDown : (ecmSys.run Ecm.board upThenDown).isSome = true ∧
    ∀ s, ecmSys.run Ecm.board upThenDown = some s → s.Converged :=
  ⟨by decide, carrier_converges _ _ _ (by decide)⟩

/-- The link comes up before the host has taken the notification that it is down. -/
def edgeMeetsBusy : List EcmAct :=
  [.init, .setInterface 1 1] ++ notifyOnce false ++
    [.link (.sample true), .link .ready, .link .guard, .link .critical, .link .record,
      .cmdPacket, .cmdDone true]

/-- The data interface goes down and up between two samples. -/
def unseenBounce : List EcmAct :=
  [.init, .setInterface 1 1] ++ notifyOnce true ++
    [.cmdPacket, .cmdDone true, .cmdPacket, .cmdDone true, .setInterface 1 0, .setInterface 1 1,
      .link (.sample true), .link .ready]

/-- The device is enumerated again while `USBD_ECM_SetLinkState` has the endpoint; the speed
change after one notification is then written over the next. -/
def initInSetLinkState : List EcmAct :=
  [.init, .setInterface 1 1, .link (.sample false), .link .ready, .link .guard, .link .critical,
    .deInit, .init, .setInterface 1 1, .link .fill, .link (.transmit true), .link .record,
    .link (.sample true), .link .ready, .link .guard, .link .critical, .cmdPacket, .link .fill,
    .cmdDone false, .link (.transmit true), .link .record, .cmdPacket, .cmdDone true]

/-- In each of the three runs the host is left with another view than `link_task` thinks. -/
theorem carrier_lost :
    (∃ s, ecmSys.run Ecm.board edgeMeetsBusy = some s ∧ ¬ s.Converged) ∧
      (∃ s, ecmSys.run Ecm.board unseenBounce = some s ∧ ¬ s.Converged) ∧
        ∃ s, ecmSys.run Ecm.board initInSetLinkState = some s ∧ ¬ s.Converged :=
  ⟨⟨_, rfl, by decide⟩, ⟨_, rfl, by decide⟩, ⟨_, rfl, by decide⟩⟩

end Usb2T1L
