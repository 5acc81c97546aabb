import Usb2T1L.Ecm.Ownership

/-!
# The contents of the downlink buffers

A buffer that is queued, or in the hands of `net_tx_task`, is not the one on the endpoint.  So
whatever the USB core does, its contents stay as they were when it was submitted.

## Main definitions

* `Downlink.Armed` — the endpoint receives into `s_out_frame` only.
* `Downlink.Calm` — the queue, `net_tx_task` and all buffers but the one on the endpoint are as
  they were.
* `handed` — the frame a step submits.

## Main results

* `Downlink.Owned.dataOut_cases` — what `ECM_DataOut` makes of a reception, up to where it has a
  fresh buffer.
* `Ecm.Owned.calm` — every step of the USB core and of the other tasks is calm, but for the one
  that submits a frame: `Ecm.Owned.submitted`.
* `Ecm.Owned.still` — while the data interface stays ready, only `ECM_DataOut` touches the buffer
  on the endpoint.
* `Ecm.Owned.armed_step` — every step leaves the endpoint with no other buffer.
-/

namespace Usb2T1L

namespace Downlink

variable {n : ℕ} {d d' d'' : Downlink n}

/-- A buffer in the queue or held by `net_tx_task` is not on the endpoint. -/
theorem Kept.not_armed (h : d.Kept) {f : Fin n} (hf : f ∈ d.toAdinQ.items ++ d.held) :
    d.sOutFrame ≠ some f := by
  intro hout
  have hcount := h.places.count_eq f
  rw [count_places, hout, List.count_eq_one_of_mem (List.nodup_finRange n) (List.mem_finRange f),
    Option.toList_some, List.count_singleton_self] at hcount
  have hpos := List.count_pos_iff.mpr hf
  rw [List.count_append] at hpos
  omega

/-- The queue, `net_tx_task` and all buffers but the one on the endpoint are as they were. -/
structure Calm (d d' : Downlink n) : Prop where
  queue : d'.toAdinQ = d.toAdinQ
  tx : d'.tx = d.tx
  storage : ∀ f, d.sOutFrame ≠ some f → d'.pool.storage f = d.pool.storage f

theorem Calm.refl (d : Downlink n) : Calm d d := ⟨rfl, rfl, fun _ _ => rfl⟩

theorem calm_ecmOpenDataEps (d : Downlink n) : Calm d d.ecmOpenDataEps := by
  unfold ecmOpenDataEps
  split <;> exact ⟨rfl, rfl, fun _ _ => rfl⟩

theorem calm_ecmCloseDataEps (d : Downlink n) : Calm d d.ecmCloseDataEps := by
  unfold ecmCloseDataEps
  split <;> exact ⟨rfl, rfl, fun _ _ => rfl⟩

/-- The completion of a reception fills the buffer on the endpoint. -/
theorem Owned.calm_received (h : d.Owned) (hisr : d.dataOutNext = none) (rx : List Byte) :
    Calm d (d.received rx) := by
  unfold Downlink.received
  split
  · next f harmed =>
    refine ⟨rfl, rfl, fun g hg => Function.update_of_ne (fun he => hg ?_) _ _⟩
    rw [← h.armed hisr, harmed, he]
  · exact Calm.refl d

theorem calm_ecmDataOut (d : Downlink n) (rx : List Byte) :
    (d.ecmDataOut rx).toAdinQ = d.toAdinQ ∧ (d.ecmDataOut rx).tx = d.tx ∧
      (d.ecmDataOut rx).pool.storage = d.pool.storage := by
  unfold ecmDataOut
  split
  · exact ⟨rfl, rfl, rfl⟩
  · split
    · exact ⟨rfl, rfl, rfl⟩
    · split <;> exact ⟨rfl, rfl, rfl⟩

/-- `net_tx_task` takes the frame at the head of the queue. -/
theorem netTxTask_receive (htx : d.tx = .receive) (hs : d.netTxTask = some d') :
    ∃ f q, d.toAdinQ.items = f :: Queue.items q ∧
      d' = { d with toAdinQ := q, tx := .transmit f } := by
  rw [netTxTask, htx] at hs
  obtain ⟨⟨f, q⟩, hreceive, rfl⟩ := Option.map_eq_some_iff.mp hs
  exact ⟨f, q, Queue.receive_eq_some_iff.mp hreceive, rfl⟩

/-- The endpoint receives into `s_out_frame` only. -/
def Armed (d : Downlink n) : Prop := ∀ f, d.outArmed = some f → d.sOutFrame = some f

theorem armed_of_none (h : d.outArmed = none) : d.Armed :=
  fun _ hf => absurd (h.symm.trans hf) (by simp)

theorem armed_ecmCloseDataEps (d : Downlink n) : d.ecmCloseDataEps.Armed := by
  unfold ecmCloseDataEps
  split <;> exact armed_of_none rfl

theorem armed_ecmOpenDataEps (d : Downlink n) : d.ecmOpenDataEps.Armed := by
  unfold ecmOpenDataEps
  split
  · exact fun _ hf => hf
  · exact armed_of_none rfl

theorem armed_ecmDataOut (h : d.outArmed = none) (rx : List Byte) : (d.ecmDataOut rx).Armed := by
  unfold ecmDataOut
  split
  · exact armed_of_none h
  · next f hf =>
    split
    · exact fun _ hg => hf.trans hg
    · split
      · exact fun _ hg => hf.trans hg
      · exact armed_of_none h

theorem Armed.netTxTask (h : d.Armed) (hs : d.netTxTask = some d') : d'.Armed := by
  unfold Downlink.netTxTask at hs
  split at hs
  · obtain ⟨r, -, rfl⟩ := Option.map_eq_some_iff.mp hs
    exact h
  · rw [← Option.some.inj hs]
    exact h
  · rw [← Option.some.inj hs]
    exact h

/-- With a frame in its hands it leaves the queue alone. -/
theorem netTxTask_of_held (htx : d.tx ≠ .receive) (hs : d.netTxTask = some d') :
    d'.toAdinQ = d.toAdinQ ∧ d'.held ⊆ d.held ∧ ∀ f, d'.tx ≠ .transmit f := by
  unfold netTxTask at hs
  split at hs
  · next hreceive => exact absurd hreceive htx
  · next f hf =>
    obtain rfl := Option.some.inj hs
    refine ⟨rfl, ?_, by simp⟩
    rw [held, held, hf]
    exact List.Subset.refl _
  · obtain rfl := Option.some.inj hs
    exact ⟨rfl, List.nil_subset _, by simp⟩

/-- There is a fresh buffer for `ECM_DataOut`. -/
def fresh (d : Downlink n) : Bool := (framePoolAlloc d.pool.freeQ).isSome

/-- `ECM_DataOut` takes a fresh buffer if there is data and such a buffer. -/
theorem ecmDataOut_cases {f : Fin n} (hout : d.sOutFrame = some f) (hisr : d.dataOutNext = none)
    {rx : List Byte} (hrx : rx.length ≤ netMaxFrameLen) :
    (rx = [] ∨ d.fresh = false) ∧ (d.ecmDataOut rx).dataOutNext = none ∨
      rx ≠ [] ∧ d.fresh = true ∧ ∃ nx q, d.ecmDataOut rx =
        { d with pool := { d.pool with freeQ := q }, dataOutNext := some (nx, rx.length) } := by
  unfold ecmDataOut
  split
  · next hnone => exact absurd (hout.symm.trans hnone) (by simp)
  split
  · next hlen =>
    rcases hlen with hlen | hlen
    · exact Or.inl ⟨Or.inl (List.eq_nil_of_length_eq_zero hlen), hisr⟩
    · omega
  · next hlen =>
    split
    · next halloc => exact Or.inl ⟨Or.inr (by rw [fresh, halloc]; rfl), hisr⟩
    · next nx q halloc =>
      refine Or.inr ⟨fun hnil => hlen (Or.inl ?_), by rw [fresh, halloc]; rfl, nx, q, rfl⟩
      rw [hnil]
      rfl

/-- **`ECM_DataOut` up to where it has a fresh buffer**: what was received is at the front of the
buffer on the endpoint then. -/
theorem Owned.dataOut_cases (h : d.Owned) (hisr : d.dataOutNext = none) {f : Fin n}
    (hout : d.sOutFrame = some f) {rx : List Byte} (hrx : rx.length ≤ netMaxFrameLen) :
    (rx = [] ∨ d.fresh = false) ∧ ((d.received rx).ecmDataOut rx).dataOutNext = none ∨
      rx ≠ [] ∧ d.fresh = true ∧
        (∃ nx, ((d.received rx).ecmDataOut rx).dataOutNext = some (nx, rx.length)) ∧
        ((d.received rx).ecmDataOut rx).sOutFrame = some f ∧
        (List.ofFn (((d.received rx).ecmDataOut rx).pool.storage f).data).take rx.length = rx := by
  have harmed : d.outArmed = some f := (h.armed hisr).trans hout
  have hreceived : d.received rx =
      { d.store f { d.pool.storage f with data := overlay rx (d.pool.storage f).data } with
        outArmed := none } := by
    rw [Downlink.received, harmed]
  have hdata : (List.ofFn ((d.received rx).pool.storage f).data).take rx.length = rx := by
    have hst : (d.received rx).pool.storage f =
        { d.pool.storage f with data := overlay rx (d.pool.storage f).data } := by
      rw [hreceived]
      exact Function.update_self _ _ _
    rw [hst]
    exact take_ofFn_overlay hrx _
  obtain ⟨-, -, hout', hnext⟩ := h.received rx
  have hfresh : (d.received rx).fresh = d.fresh := by rw [hreceived]; rfl
  rw [← hfresh]
  rcases ecmDataOut_cases (hout'.trans hout) (hnext.trans hisr) hrx with hrearm | hfilled
  · exact Or.inl hrearm
  · obtain ⟨hnil, hfr, nx, q, heq⟩ := hfilled
    refine Or.inr ⟨hnil, hfr, ?_⟩
    rw [heq]
    exact ⟨⟨nx, rfl⟩, hout'.trans hout, hdata⟩

/-- Submitting stores the length into the buffer on the endpoint and queues it. -/
theorem Owned.submit_contents (h : d.Owned) (hs : d.submit = some d') :
    ∃ f, d.sOutFrame = some f ∧ d'.toAdinQ.items = d.toAdinQ.items ++ [f] ∧ d'.tx = d.tx ∧
      ∀ g, g ≠ f → d'.pool.storage g = d.pool.storage g := by
  obtain ⟨nx, len, f, q, -, hout, hq, rfl⟩ := h.submit_eq hs
  exact ⟨f, hout, hq, rfl, fun g hg => Function.update_of_ne hg _ _⟩

end Downlink

/-- The frame a step hands to `net_bridge_downlink_submit_isr`. -/
def handed {n : ℕ} (s s' : Ecm n) (a : EcmAct) : List NetFrame :=
  if a = .submit then s.down.sOutFrame.toList.map s'.down.pool.storage else []

namespace Ecm

variable {n : ℕ} {s s' : Ecm n} {a : EcmAct}

/-- **Every step but a submission and the steps of `net_tx_task` is calm.** -/
theorem Owned.calm (h : s.Owned) (hs : ecmSys.step s a = some s') (hsubmit : a ≠ .submit)
    (htx : a ≠ .tx) : s.down.Calm s'.down := by
  cases (ecmStep_move hs).2 with
  | deInit | closed => exact Downlink.calm_ecmCloseDataEps s.down
  | opened => exact Downlink.calm_ecmOpenDataEps s.down
  | dataOut hisr =>
    have hcalm := h.down.calm_received hisr
    obtain ⟨hq, ht, hst⟩ := Downlink.calm_ecmDataOut (s.down.received _) _
    exact ⟨hq.trans (hcalm _).queue, ht.trans (hcalm _).tx,
      fun f hf => (congrFun hst f).trans ((hcalm _).storage f hf)⟩
  | submit => exact absurd rfl hsubmit
  | tx => exact absurd rfl htx
  | init | kept | inPacket | inDone | cmdPacket | cmdDone | send | link =>
    exact Downlink.Calm.refl s.down

/-- What the completion of a reception does. -/
theorem down_dataOut {rx : List Byte} (hs : ecmSys.step s (.dataOut rx) = some s') :
    s.down.dataOutNext = none ∧
      s' = { s with down := (s.down.received rx).ecmDataOut rx } := by
  cases (ecmStep_move hs).2 with
  | dataOut hisr => exact ⟨hisr, rfl⟩

/-- What a submission does. -/
theorem down_submit (hs : ecmSys.step s .submit = some s') : s.down.submit = some s'.down := by
  cases (ecmStep_move hs).2 with
  | submit hd => exact hd

/-- **A submission** queues the buffer on the endpoint, with its length. -/
theorem Owned.submitted (h : s.Owned) (hs : ecmSys.step s .submit = some s') :
    ∃ f, s.down.sOutFrame = some f ∧ s'.down.toAdinQ.items = s.down.toAdinQ.items ++ [f] ∧
      s'.down.tx = s.down.tx ∧ ∀ g, g ≠ f → s'.down.pool.storage g = s.down.pool.storage g :=
  h.down.submit_contents (down_submit hs)

/-- A step of `net_tx_task` leaves the contents alone. -/
theorem storage_tx (hs : ecmSys.step s .tx = some s') :
    s.down.netTxTask = some s'.down ∧ s'.down.pool.storage = s.down.pool.storage := by
  cases (ecmStep_move hs).2 with
  | tx hd =>
    refine ⟨hd, ?_⟩
    unfold Downlink.netTxTask at hd
    split at hd
    · obtain ⟨r, -, rfl⟩ := Option.map_eq_some_iff.mp hd
      rfl
    · rw [← Option.some.inj hd]
    · rw [← Option.some.inj hd]
      rfl

/-- While the data interface stays ready, nothing but the completion of a reception and its
submission touches the buffer on the endpoint. -/
theorem Owned.still (h : s.Owned) (hs : ecmSys.step s a = some s') (hrx : ∀ rx, a ≠ .dataOut rx)
    (hsubmit : a ≠ .submit) (hready : s.cls.sReady = true) (hready' : s'.cls.sReady = true) :
    s'.down.dataOutNext = s.down.dataOutNext ∧ s'.down.sOutFrame = s.down.sOutFrame ∧
      s'.down.pool.storage = s.down.pool.storage := by
  have hmove := (ecmStep_move hs).2
  cases hmove with
  | deInit | closed => exact absurd hready' (by simp [deInit, EcmClass.deInit])
  | opened _ _ _ halt => exact absurd (h.cls.ready hready).2 halt
  | dataOut => exact absurd rfl (hrx _)
  | submit => exact absurd rfl hsubmit
  | tx hd =>
    obtain ⟨-, hst⟩ := storage_tx hs
    obtain ⟨-, hnext, hout⟩ := h.down.netTxTask hd
    exact ⟨hnext, hout, hst⟩
  | init | kept | inPacket | inDone | cmdPacket | cmdDone | send | link => exact ⟨rfl, rfl, rfl⟩

/-- **Every step** leaves the endpoint with no other buffer than `s_out_frame`. -/
theorem Owned.armed_step (h : s.Owned) (harmed : s.down.Armed)
    (hs : ecmSys.step s a = some s') : s'.down.Armed := by
  cases (ecmStep_move hs).2 with
  | deInit | closed => exact Downlink.armed_ecmCloseDataEps s.down
  | opened => exact Downlink.armed_ecmOpenDataEps s.down
  | dataOut hisr => exact Downlink.armed_ecmDataOut (h.down.received _).2.1 _
  | submit hd =>
    obtain ⟨nx, len, f, q, -, -, -, rfl⟩ := h.down.submit_eq hd
    exact fun _ hg => hg
  | tx hd => exact harmed.netTxTask hd
  | init | kept | inPacket | inDone | cmdPacket | cmdDone | send | link => exact harmed

end Ecm

end Usb2T1L
