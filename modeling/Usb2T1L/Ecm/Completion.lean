import Usb2T1L.Ecm.System

/-!
# Completion of uplink transfers

The semaphore `s_in_done` and the flag `s_in_zlp` are shared by the sending task and
`ECM_DataIn`, and say nothing about which call a completion belongs to.  That they are always
about the present call follows from where each call starts: the semaphore is drained and the
flag written while no transfer is in flight.

## Main definitions

* `NoDeInitInSend` — the condition on the steps of the USB core.
* `ReturnsOwn` — what a return is to be like.

## Main results

* `Ecm.UplinkSafe.step` — what every step keeps.
* `send_returns_own` — **a call that returns has nothing in flight, and returns 0 only for its
  own transfers**.
-/

namespace Usb2T1L

variable {n : ℕ}

/-- `ECM_DeInit` does not come while a send is past its guard. -/
def NoDeInitInSend (s : Ecm n) (a : EcmAct) : Prop :=
  a = .deInit → s.up.send.pastGuard = false

instance decidableNoDeInitInSend (s : Ecm n) (a : EcmAct) : Decidable (NoDeInitInSend s a) :=
  inferInstanceAs (Decidable (_ → _))

/-- If the step is a return from `USBD_ECM_SendFrameBlocking`, no transfer is in flight after it;
and if 0 is returned, the data transfer of the call has been completed, and its terminator
too if the length is a multiple of the packet size. -/
def ReturnsOwn (s s' : Ecm n) : Prop :=
  ∀ k, s'.up.calls = s.up.calls ++ [k] → s'.up.inXfer = none ∧
    (k.ok = true → (s.up.calls.length, false) ∈ s'.up.completed ∧
      (k.data.length % cdcEcmDataMaxPacketSize = 0 → (s.up.calls.length, true) ∈ s'.up.completed))

namespace Ecm

/-- The uplink, which is past its guard only while the device is configured. -/
structure UplinkSafe (s : Ecm n) : Prop extends Coherent s where
  up : s.up.Consistent
  guard : s.up.send.pastGuard = true → s.cls.configured = true

theorem uplinkSafe_start (pool : FramePool n) (sInDone : Option Bool) :
    (start pool sInDone).UplinkSafe :=
  ⟨coherent_start pool sInDone, Uplink.consistent_start sInDone,
    fun h => absurd h Bool.false_ne_true⟩

/-- **Every step keeps the uplink safe**, if no `ECM_DeInit` comes during a send. -/
theorem UplinkSafe.step {s s' : Ecm n} {a : EcmAct} (h : s.UplinkSafe) (hg : NoDeInitInSend s a)
    (hs : ecmSys.step s a = some s') : s'.UplinkSafe := by
  have hc := h.toCoherent.step hs
  cases (ecmStep_move hs).2 with
  | init _ hconf =>
    -- the device was not configured, so no call is past its guard
    have hpast : s.up.send.pastGuard = false := by
      cases hpast : s.up.send.pastGuard with
      | false => rfl
      | true => exact absurd (hconf.symm.trans (h.guard hpast)) Bool.false_ne_true
    exact ⟨hc, h.up.init hpast, fun _ => rfl⟩
  | deInit =>
    exact ⟨hc, h.up.cancel, fun hpast => absurd ((hg rfl).symm.trans hpast) Bool.false_ne_true⟩
  | closed => exact ⟨hc, h.up.cancel, h.guard⟩
  | kept | opened | dataOut | submit | cmdPacket | cmdDone | tx | link =>
    exact ⟨hc, h.up, h.guard⟩
  | @inPacket u hu =>
    have hsend : u.send = s.up.send := by rw [Uplink.inPacket_frame hu]
    exact ⟨hc, h.up.inPacket hu, fun hpast => h.guard (hsend ▸ hpast)⟩
  | @inDone _ u hu =>
    have hsend : u.send = s.up.send := by rw [Uplink.ecmDataIn_frame hu]
    exact ⟨hc, h.up.ecmDataIn hu, fun hpast => h.guard (hsend ▸ hpast)⟩
  | send hu =>
    refine ⟨hc, h.up.sendFrameBlocking hu, fun hpast => ?_⟩
    rcases Uplink.pastGuard_of_sendFrameBlocking hu hpast with hpast | hpdev
    · exact h.guard hpast
    · exact h.cls.handle.symm.trans hpdev

/-- **A return is of the call's own transfers.** -/
theorem UplinkSafe.returnsOwn {s s' : Ecm n} {a : EcmAct} (h : s.UplinkSafe)
    (hs : ecmSys.step s a = some s') : ReturnsOwn s s' := by
  intro k hk
  -- only the sending task returns from a call
  have hsame : s'.up.calls ≠ s.up.calls := by
    rw [hk]
    simp
  cases (ecmStep_move hs).2 with
  | send hu => exact h.up.returns hu hk
  | inPacket hu => exact absurd (by rw [Uplink.inPacket_frame hu]) hsame
  | inDone hu => exact absurd (by rw [Uplink.ecmDataIn_frame hu]) hsame
  | init | deInit | kept | opened | closed | dataOut | submit | cmdPacket | cmdDone | tx | link =>
    exact absurd rfl hsame

end Ecm

/-- **Every return is of the call's own transfers**, in every run without an `ECM_DeInit` during a
send: nothing is in flight after it, so the caller's buffer may be used again. -/
theorem send_returns_own (pool : FramePool n) (sInDone : Option Bool) (as : List EcmAct)
    (hg : ecmSys.Along (fun s a _ => NoDeInitInSend s a) (Ecm.start pool sInDone) as) :
    ecmSys.Along (fun s _ s' => ReturnsOwn s s') (Ecm.start pool sInDone) as :=
  Lts.along_invariant (fun _ _ _ h hg hs => h.step hg hs) (fun _ _ _ h _ hs => h.returnsOwn hs)
    (Ecm.uplinkSafe_start pool sInDone) hg

/-- A call from its guard to the start of its transfer. -/
def startSend (data : List Byte) : List EcmAct :=
  [.send (.call data), .send .guard, .send .drain, .send .setZlp, .send (.transmit true)]

/-- A frame of one full packet is given up after its terminator has been lost; a byte follows. -/
def lostTerminator : List EcmAct :=
  [.init, .setInterface 1 1] ++ startSend (List.replicate 64 0) ++
    [.inPacket, .inDone false, .send .timeout, .send .flush, .send .clear] ++ startSend [0] ++
    [.inPacket, .inDone true, .send .take]

theorem send_returns_own_lostTerminator : (ecmSys.run Ecm.board lostTerminator).isSome = true ∧
    ecmSys.Along (fun s _ s' => ReturnsOwn s s') Ecm.board lostTerminator :=
  ⟨by decide, send_returns_own _ _ _ (by decide)⟩

end Usb2T1L
