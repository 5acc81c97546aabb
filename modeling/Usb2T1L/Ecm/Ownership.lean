import Usb2T1L.Ecm.System

/-!
# Ownership of the downlink buffers

Opening the data endpoints never finds the pool empty: the queue to the ADIN and
`net_tx_task` between them have at most `n - 1` of the `n` buffers, because a frame is
submitted only when there is another buffer to take its place on the endpoint.  That other
buffer is in the pool when the endpoint is closed.

## Main definitions

* `Ecm.DownlinkSafe` — what the buffers are to be like.
* `Ecm.Owned` — the invariant, with `s_ready`.

## Main results

* `Ecm.Owned.step` — what every step keeps.
* `downlink_safe` — **every run keeps the buffers safe**.
-/

namespace Usb2T1L

variable {n : ℕ}

/-- The buffers of a new pool are all free. -/
theorem Downlink.owned_start {storage : Fin n → NetFrame} {pool : FramePool n}
    (h : framePoolInit storage = some pool) (hn : 0 < n) : (Downlink.start pool).Owned := by
  refine ⟨⟨?_, hn, rfl, fun hnext => absurd rfl hnext⟩, fun _ => rfl⟩
  have hplaces : (Downlink.start pool).places = pool.freeQ.items := List.append_nil _
  rw [hplaces, framePoolInit_items h]

namespace Ecm

/-- The buffers and `s_ready`: the data interface is ready exactly while there is a buffer
on the endpoint. -/
structure Owned (s : Ecm n) : Prop extends Coherent s where
  down : s.down.Owned
  ready : s.cls.sReady = s.down.sOutFrame.isSome

/-- After `net_bridge_init` all buffers are in the pool. -/
theorem owned_start {storage : Fin n → NetFrame} {pool : FramePool n}
    (h : framePoolInit storage = some pool) (hn : 0 < n) (sInDone : Option Bool) :
    (start pool sInDone).Owned :=
  ⟨coherent_start pool sInDone, Downlink.owned_start h hn, rfl⟩

/-- Without readiness there is no buffer on the endpoint. -/
theorem Owned.sOutFrame_eq_none {s : Ecm n} (h : s.Owned) (hr : s.cls.sReady = false) :
    s.down.sOutFrame = none := by
  have hnone := h.ready.symm.trans hr
  rwa [Option.isSome_eq_false_iff, Option.isNone_iff_eq_none] at hnone

/-- Closing the data endpoints, whatever else happens to the device state. -/
theorem Owned.close {s s' : Ecm n} (h : s.Owned) (hisr : s.down.dataOutNext = none)
    (hc : s'.Coherent) (hdown : s'.down = s.down.ecmCloseDataEps) (hr : s'.cls.sReady = false) :
    s'.Owned := by
  obtain ⟨howned, hout⟩ := h.down.ecmCloseDataEps hisr
  refine ⟨hc, ?_, ?_⟩
  · rw [hdown]
    exact howned
  · rw [hr, hdown, hout]
    rfl

/-- A step that moves buffers but not the one on the endpoint, if there is one. -/
theorem Owned.move {s s' : Ecm n} (h : s.Owned) (hc : s'.Coherent) (hdown : s'.down.Owned)
    (hr : s'.cls.sReady = s.cls.sReady)
    (hout : s'.down.sOutFrame.isSome = s.down.sOutFrame.isSome) : s'.Owned :=
  ⟨hc, hdown, by rw [hr, h.ready, hout]⟩

/-- **Every step keeps the buffers owned.** -/
theorem Owned.step {s s' : Ecm n} {a : EcmAct} (h : s.Owned)
    (hs : ecmSys.step s a = some s') : s'.Owned := by
  have hc := h.toCoherent.step hs
  cases (ecmStep_move hs).2 with
  | init _ hconf =>
    -- the device was not configured, so there is nothing on the endpoint
    have hr : s.cls.sReady = false := by
      cases hr : s.cls.sReady with
      | false => rfl
      | true => exact absurd (hconf.symm.trans (h.cls.ready hr).1) Bool.false_ne_true
    refine ⟨hc, h.down, ?_⟩
    show false = s.down.sOutFrame.isSome
    rw [h.sOutFrame_eq_none hr]
    rfl
  | deInit hisr | closed hisr => exact h.close hisr hc rfl rfl
  | kept => exact h
  | opened hisr _ _ halt =>
    -- alternate setting 1 was not selected, so the endpoint was closed
    have hr : s.cls.sReady = false := by
      cases hr : s.cls.sReady with
      | false => rfl
      | true => exact absurd (h.cls.ready hr).2 halt
    obtain ⟨howned, hout⟩ := h.down.ecmOpenDataEps hisr (h.sOutFrame_eq_none hr)
    exact ⟨hc, howned, (Option.isSome_iff_ne_none.mpr hout).symm⟩
  | dataOut hisr =>
    obtain ⟨hkept, harmed, hout, hnext⟩ := h.down.received _
    obtain ⟨howned, hout'⟩ := hkept.ecmDataOut harmed (hnext.trans hisr) _
    exact h.move hc howned rfl (by rw [hout', hout])
  | submit hd =>
    obtain ⟨howned, -, hout', hout⟩ := h.down.submit hd
    refine h.move hc howned rfl ?_
    rw [Option.isSome_iff_ne_none.mpr hout', Option.isSome_iff_ne_none.mpr hout]
  | tx hd =>
    obtain ⟨howned, -, hout⟩ := h.down.netTxTask hd
    exact h.move hc howned rfl (by rw [hout])
  | inPacket | inDone | cmdPacket | cmdDone | send | link => exact ⟨hc, h.down, h.ready⟩

/-- What the buffers of the downlink are to be like between any two steps. -/
structure DownlinkSafe (s : Ecm n) : Prop where
  /-- Every buffer is in exactly one place: the pool, the queue to the ADIN, in the hands of
  `net_tx_task`, on the endpoint, or, inside `ECM_DataOut` only, `next`. -/
  once : s.down.places.Perm (List.finRange n)
  /-- No send to a queue has found it full. -/
  room : s.down.refused = 0
  /-- Outside `ECM_DataOut`, a ready interface has a reception armed into `s_out_frame`. -/
  armed : s.down.dataOutNext = none → s.cls.sReady = true →
    ∃ f, s.down.sOutFrame = some f ∧ s.down.outArmed = some f

theorem Owned.downlinkSafe {s : Ecm n} (h : s.Owned) : s.DownlinkSafe where
  once := h.down.places
  room := h.down.refused
  armed := by
    intro hisr hr
    obtain ⟨f, hf⟩ := Option.isSome_iff_exists.mp (h.ready.symm.trans hr)
    exact ⟨f, hf, (h.down.armed hisr).trans hf⟩

end Ecm

/-- **Every run keeps the downlink safe**, for any number of buffers and any lengths received:
no buffer is lost or used twice, no queue overflows, and a ready interface receives. -/
theorem downlink_safe (hn : 0 < n) (storage : Fin n → NetFrame) (sInDone : Option Bool) :
    ∃ pool, framePoolInit storage = some pool ∧
      ∀ as s, ecmSys.run (Ecm.start pool sInDone) as = some s → s.DownlinkSafe := by
  obtain ⟨pool, hpool⟩ := exists_framePoolInit hn storage
  refine ⟨pool, hpool, fun as s hrun => ?_⟩
  have howned : s.Owned := Lts.run_invariant (fun s a s' h _ hs => h.step hs)
    (Ecm.owned_start hpool hn sInDone) (Lts.along_true as _) hrun
  exact howned.downlinkSafe

theorem downlink_safe_board : ∃ pool, framePoolInit (freshPool netTxPoolCount).storage = some pool ∧
    ∀ as s, ecmSys.run (Ecm.start pool (some false)) as = some s → s.DownlinkSafe :=
  downlink_safe (by decide) _ _

end Usb2T1L
