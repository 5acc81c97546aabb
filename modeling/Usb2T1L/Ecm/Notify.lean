import Usb2T1L.Ecm.Class

/-!
# Notifications

The link part of `link_task` and `USBD_ECM_SetLinkState`, step by step, against the
interrupt IN endpoint and the notification part of `ECM_DataIn`.  The core sends a
notification from `s_notify_buf` itself, so what the host gets is what is there when
the packet goes.

What the host has read since the data interface was activated is not in the program:
it says what the notifications are for.

## Main definitions

* `Notify` — the statics, the endpoint, the locals of `link_task` and its place.
* `linkTaskNotify`, `Notify.cmdPacket`, `Notify.ecmDataIn` — the task, the endpoint, the callback.
* `LinkMove` — everything a step of the task can do.
* `Notify.view` — the carrier the host sees, or is about to.
* `Notify.relied` — the carrier that `link_task` takes the host to have been told.
* `Notify.Carrier` — the invariant that ties the two together.

## Main results

* `Carrier.linkTaskNotify`, `Carrier.cmdPacket`, `Carrier.ecmDataIn` — every step keeps the
  invariant, if no notification is lost that the host needs.
-/

namespace Usb2T1L

/-! ### What is sent -/

/-- `ECM_NOTIFY_NETWORK_CONNECTION`. -/
def ecmNotifyNetworkConnection : Byte := 0x00

/-- `ECM_NOTIFY_CONNECTION_SPEED_CHANGE`. -/
def ecmNotifyConnectionSpeedChange : Byte := 0x2A

/-- The bytes of `ECM_LINK_SPEED_BPS`, 10 Mbit/s, in memory. -/
def ecmLinkSpeedBps : List Byte := [0x80, 0x96, 0x98, 0x00]

/-- The NETWORK_CONNECTION notification. -/
def networkConnection (up : Bool) : List Byte :=
  [0xA1, ecmNotifyNetworkConnection, if up then 0x01 else 0x00, 0x00, cdcEcmCmdItfNbr, 0x00,
    0x00, 0x00]

/-- The CONNECTION_SPEED_CHANGE notification. -/
def connectionSpeedChange : List Byte :=
  [0xA1, ecmNotifyConnectionSpeedChange, 0x00, 0x00, cdcEcmCmdItfNbr, 0x00, 0x08, 0x00] ++
    ecmLinkSpeedBps ++ ecmLinkSpeedBps

/-- What a packet tells the host about the carrier: a NETWORK_CONNECTION says by its
`wValue` whether it is there, any other notification says nothing. -/
def carrierOf (packet : List Byte) : Option Bool :=
  match packet with
  | bmRequestType :: bNotification :: lo :: hi :: _ =>
    if bmRequestType = 0xA1 ∧ bNotification = ecmNotifyNetworkConnection then
      some (decide (lo ≠ 0 ∨ hi ≠ 0))
    else none
  | _ => none

/-! ### The state -/

/-- A transfer on the interrupt IN endpoint, of the first `len` bytes of
`s_notify_buf`; the host has `got` it, or not yet. -/
structure CmdXfer where
  len : ℕ
  got : Bool

/-- Where `link_task` is in the link part of its loop and in
`USBD_ECM_SetLinkState(up)`. -/
inductive NotifyPc
  | idle
  /-- The link has been sampled, readiness has not. -/
  | sampled (up : Bool)
  | guard (up : Bool)
  | critical (up : Bool)
  /-- Not busy: `s_cmd_busy` is claimed, the notification to be written. -/
  | fill (up : Bool)
  | transmit (up : Bool)
  /-- The transmit has failed. -/
  | fail (up : Bool)
  /-- `USBD_ECM_SetLinkState` has returned. -/
  | record (up : Bool)
  deriving DecidableEq

/-- `s_cmd_busy` is claimed and no transfer started. -/
def NotifyPc.claimed : NotifyPc → Bool
  | .fill _ | .transmit _ | .fail _ => true
  | _ => false

/-- The notification part of `usbd_ecm.c` and of `link_task`. -/
structure Notify where
  sCmdBusy : Bool
  sSpeedPending : Bool
  sNotifyBuf : Fin 16 → Byte
  /-- The transfer in flight on the interrupt IN endpoint. -/
  cmdXfer : Option CmdXfer
  pc : NotifyPc
  lastSent : Bool
  haveSent : Bool
  /-- A call into the USB core was made with a NULL handle. -/
  nullCall : Bool
  /-- What the last NETWORK_CONNECTION the host has got since the data interface was
  last activated says. -/
  hostNc : Option Bool

/-- A step of `link_task`; `ok` is whether `USBD_LL_Transmit` succeeds. -/
inductive LinkAct
  | sample (up : Bool)
  | ready
  | guard
  | critical
  | fill
  | transmit (ok : Bool)
  | fail
  | record
  deriving DecidableEq

namespace Notify

/-- Before `link_task` starts. -/
def start : Notify := ⟨false, false, fun _ => 0, none, .idle, false, false, false, none⟩

/-- The packet a transfer sends. -/
def packet (w : Notify) (x : CmdXfer) : List Byte := (List.ofFn w.sNotifyBuf).take x.len

/-- `ECM_Init`, as far as notifications are concerned. -/
def init (w : Notify) : Notify := { w with sCmdBusy := false, sSpeedPending := false }

/-- `ECM_DeInit`: closing the endpoint cancels the transfer. -/
def deInit (w : Notify) : Notify := { w with cmdXfer := none }

/-- The data interface is activated. -/
def activated (w : Notify) : Notify := { w with hostNc := none }

/-- The host takes the packet of the transfer in flight. -/
def cmdPacket (w : Notify) : Option Notify :=
  match w.cmdXfer with
  | some ⟨len, false⟩ =>
    some { w with
      cmdXfer := some ⟨len, true⟩
      hostNc := (carrierOf (w.packet ⟨len, false⟩)).or w.hostNc }
  | _ => none

/-- The notification part of `ECM_DataIn`, when a transfer is complete; `ok` is whether
its `USBD_LL_Transmit` succeeds, which it does not look at. -/
def ecmDataIn (w : Notify) (ok : Bool) : Option Notify :=
  match w.cmdXfer with
  | some ⟨_, true⟩ =>
    some (
      if w.sSpeedPending = true then
        { w with
          sSpeedPending := false
          sNotifyBuf := overlay connectionSpeedChange w.sNotifyBuf
          cmdXfer := if ok then some ⟨16, false⟩ else none }
      else { w with sCmdBusy := false, cmdXfer := none })
  | _ => none

end Notify

/-- A step of the link part of `link_task`. -/
def linkTaskNotify (c : EcmClass) (w : Notify) : LinkAct → Option Notify
  | .sample up =>
    match w.pc with
    | .idle => some { w with pc := .sampled up }
    | _ => none
  | .ready =>
    match w.pc with
    | .sampled up =>
      some (
        if c.sReady = false then { w with haveSent := false, pc := .idle }
        else if w.haveSent = false ∨ up ≠ w.lastSent then { w with pc := .guard up }
        else { w with pc := .idle })
    | _ => none
  | .guard =>
    match w.pc with
    | .guard up => some { w with pc := if c.sPdev = false then .record up else .critical up }
    | _ => none
  | .critical =>
    match w.pc with
    | .critical up =>
      some (
        if w.sCmdBusy = true then { w with pc := .record up }
        else { w with sCmdBusy := true, sSpeedPending := up, pc := .fill up })
    | _ => none
  | .fill =>
    match w.pc with
    | .fill up =>
      some { w with sNotifyBuf := overlay (networkConnection up) w.sNotifyBuf, pc := .transmit up }
    | _ => none
  | .transmit ok =>
    match w.pc with
    | .transmit up =>
      some (
        if c.sPdev = false then { w with nullCall := true }
        else if ok = true then { w with cmdXfer := some ⟨8, false⟩, pc := .record up }
        else { w with pc := .fail up })
    | _ => none
  | .fail =>
    match w.pc with
    | .fail up => some { w with sCmdBusy := false, sSpeedPending := false, pc := .record up }
    | _ => none
  | .record =>
    match w.pc with
    | .record up => some { w with lastSent := up, haveSent := true, pc := .idle }
    | _ => none

/-- **Everything a step of `link_task` can do.** -/
inductive LinkMove (c : EcmClass) (w : Notify) : LinkAct → Notify → Prop
  | sampled {up : Bool} (hpc : w.pc = .idle) :
      LinkMove c w (.sample up) { w with pc := .sampled up }
  | notReady {up : Bool} (hpc : w.pc = .sampled up) (hready : c.sReady = false) :
      LinkMove c w .ready { w with haveSent := false, pc := .idle }
  | toSend {up : Bool} (hpc : w.pc = .sampled up) : LinkMove c w .ready { w with pc := .guard up }
  | sentAlready {up : Bool} (hpc : w.pc = .sampled up) (hsent : w.haveSent = true)
      (hlast : up = w.lastSent) : LinkMove c w .ready { w with pc := .idle }
  | refused {up : Bool} (hpc : w.pc = .guard up) (hnull : c.sPdev = false) :
      LinkMove c w .guard { w with pc := .record up }
  | passed {up : Bool} (hpc : w.pc = .guard up) (hpdev : c.sPdev = true) :
      LinkMove c w .guard { w with pc := .critical up }
  | dropped {up : Bool} (hpc : w.pc = .critical up) (hbusy : w.sCmdBusy = true) :
      LinkMove c w .critical { w with pc := .record up }
  | claimed {up : Bool} (hpc : w.pc = .critical up) (hfree : w.sCmdBusy = false) :
      LinkMove c w .critical { w with sCmdBusy := true, sSpeedPending := up, pc := .fill up }
  | filled {up : Bool} (hpc : w.pc = .fill up) :
      LinkMove c w .fill { w with
        sNotifyBuf := overlay (networkConnection up) w.sNotifyBuf
        pc := .transmit up }
  | transmitNull {up ok : Bool} (hpc : w.pc = .transmit up) (hnull : c.sPdev = false) :
      LinkMove c w (.transmit ok) { w with nullCall := true }
  | started {up : Bool} (hpc : w.pc = .transmit up) (hpdev : c.sPdev = true) :
      LinkMove c w (.transmit true) { w with cmdXfer := some ⟨8, false⟩, pc := .record up }
  | notStarted {up : Bool} (hpc : w.pc = .transmit up) (hpdev : c.sPdev = true) :
      LinkMove c w (.transmit false) { w with pc := .fail up }
  | failed {up : Bool} (hpc : w.pc = .fail up) :
      LinkMove c w .fail { w with sCmdBusy := false, sSpeedPending := false, pc := .record up }
  | recorded {up : Bool} (hpc : w.pc = .record up) :
      LinkMove c w .record { w with lastSent := up, haveSent := true, pc := .idle }

theorem linkTaskNotify_move {c : EcmClass} {w w' : Notify} {a : LinkAct}
    (h : linkTaskNotify c w a = some w') : LinkMove c w a w' := by
  unfold linkTaskNotify at h
  cases a with
  | sample up =>
    simp only at h
    split at h
    · next hpc =>
      obtain rfl := Option.some.inj h
      exact .sampled hpc
    · exact absurd h (by simp)
  | ready =>
    simp only at h
    split at h
    · next up hpc =>
      obtain rfl := Option.some.inj h
      split_ifs with hready hsend
      · exact .notReady hpc hready
      · exact .toSend hpc
      · rw [not_or, not_not] at hsend
        exact .sentAlready hpc (Bool.eq_true_of_not_eq_false hsend.1) hsend.2
    · exact absurd h (by simp)
  | guard =>
    simp only at h
    split at h
    · next up hpc =>
      obtain rfl := Option.some.inj h
      cases hp : c.sPdev with
      | true => exact .passed hpc hp
      | false => exact .refused hpc hp
    · exact absurd h (by simp)
  | critical =>
    simp only at h
    split at h
    · next up hpc =>
      obtain rfl := Option.some.inj h
      split_ifs with hbusy
      · exact .dropped hpc hbusy
      · exact .claimed hpc (Bool.eq_false_of_not_eq_true hbusy)
    · exact absurd h (by simp)
  | fill =>
    simp only at h
    split at h
    · next up hpc =>
      obtain rfl := Option.some.inj h
      exact .filled hpc
    · exact absurd h (by simp)
  | transmit ok =>
    simp only at h
    split at h
    · next up hpc =>
      obtain rfl := Option.some.inj h
      split_ifs with hnull hok
      · exact .transmitNull hpc hnull
      · rw [hok]
        exact .started hpc (Bool.eq_true_of_not_eq_false hnull)
      · rw [Bool.eq_false_of_not_eq_true hok]
        exact .notStarted hpc (Bool.eq_true_of_not_eq_false hnull)
    · exact absurd h (by simp)
  | fail =>
    simp only at h
    split at h
    · next up hpc =>
      obtain rfl := Option.some.inj h
      exact .failed hpc
    · exact absurd h (by simp)
  | record =>
    simp only at h
    split at h
    · next up hpc =>
      obtain rfl := Option.some.inj h
      exact .recorded hpc
    · exact absurd h (by simp)

namespace Notify

/-! ### The notification in flight -/

theorem cmdXfer_of_cmdPacket {w w' : Notify} (h : w.cmdPacket = some w') : w.cmdXfer ≠ none := by
  intro hx
  rw [cmdPacket, hx] at h
  exact absurd h (by simp)

theorem cmdXfer_of_ecmDataIn {w w' : Notify} {ok : Bool} (h : w.ecmDataIn ok = some w') :
    w.cmdXfer ≠ none := by
  intro hx
  rw [ecmDataIn, hx] at h
  exact absurd h (by simp)

/-- `link_task` starts a transfer only with a handle. -/
theorem cmdXfer_of_linkTaskNotify {c : EcmClass} {w w' : Notify} {a : LinkAct}
    (h : linkTaskNotify c w a = some w') (hx : w'.cmdXfer ≠ none) :
    w.cmdXfer ≠ none ∨ c.sPdev = true := by
  cases linkTaskNotify_move h with
  | started _ hpdev => exact Or.inr hpdev
  | _ => exact Or.inl hx

/-! ### The host's view of the carrier -/

/-- What a notification on its way says, if it is a NETWORK_CONNECTION. -/
def pending (w : Notify) : Option Bool :=
  match w.cmdXfer with
  | some ⟨len, false⟩ => carrierOf (w.packet ⟨len, false⟩)
  | _ => none

/-- The carrier as the host sees it once it has got what is on its way. -/
def view (w : Notify) : Option Bool := w.pending.or w.hostNc

theorem carrierOf_networkConnection (up : Bool) (buf : Fin 16 → Byte) :
    carrierOf ((List.ofFn (overlay (networkConnection up) buf)).take 8) = some up := by
  cases up <;> rfl

/-- The carrier that `link_task` takes the host to have been told, if any. -/
def relied (w : Notify) : Option Bool :=
  match w.pc with
  | .idle | .sampled _ => if w.haveSent = true then some w.lastSent else none
  | .fail up | .record up => some up
  | .guard _ | .critical _ | .fill _ | .transmit _ => none

/-- The invariant, with `s_ready`. -/
structure Carrier (ready : Bool) (w : Notify) : Prop where
  busy : w.cmdXfer ≠ none → w.sCmdBusy = true
  claimed : w.pc.claimed = true → w.sCmdBusy = true ∧ w.cmdXfer = none
  filled : ∀ up, w.pc = .transmit up → carrierOf (w.packet ⟨8, false⟩) = some up
  /-- What `link_task` relies on, the host has been told or is being told. -/
  told : ready = true → ∀ up, w.relied = some up → w.view = some up

/-- No notification is lost that the host needs: one that finds the endpoint busy, or
cannot be transmitted, only repeats what the host sees already. -/
def NoLostNotice (ready : Bool) (w : Notify) (a : LinkAct) : Prop :=
  ready = true → ∀ up,
    (a = .critical ∧ w.pc = .critical up ∧ w.sCmdBusy = true) ∨
      (a = .transmit false ∧ w.pc = .transmit up) → w.view = some up

/-- Nothing that `link_task` relies on is lost when the data interface is activated: it is
still on its way. -/
def NoLostView (w : Notify) : Prop := ∀ up, w.relied = some up → w.pending = some up

instance decidableNoLostNotice (ready : Bool) (w : Notify) (a : LinkAct) :
    Decidable (w.NoLostNotice ready a) := inferInstanceAs (Decidable (_ → ∀ _, _))

instance decidableNoLostView (w : Notify) : Decidable w.NoLostView :=
  inferInstanceAs (Decidable (∀ _, _))

variable {ready : Bool} {w w' : Notify}

/-- **Every step of `link_task` keeps the invariant**, if no notification is lost. -/
theorem Carrier.linkTaskNotify {c : EcmClass} {a : LinkAct} (h : w.Carrier c.sReady)
    (hpdev : c.sReady = true → c.sPdev = true) (hlost : w.NoLostNotice c.sReady a)
    (hs : Usb2T1L.linkTaskNotify c w a = some w') : w'.Carrier c.sReady := by
  have htold := h.told
  -- at most places the endpoint is not claimed, and nothing is about to be transmitted
  have hunclaimed : ∀ pc : NotifyPc, pc.claimed = false →
      (pc.claimed = true → w.sCmdBusy = true ∧ w.cmdXfer = none) ∧
        ∀ up, pc = .transmit up → carrierOf (w.packet ⟨8, false⟩) = some up := by
    intro pc hpc
    refine ⟨fun hc => absurd (hpc.symm.trans hc) Bool.false_ne_true, ?_⟩
    rintro up rfl
    exact absurd hpc (by simp [NotifyPc.claimed])
  cases linkTaskNotify_move hs with
  | sampled hpc | sentAlready hpc =>
    rw [relied, hpc] at htold
    exact ⟨h.busy, (hunclaimed _ rfl).1, (hunclaimed _ rfl).2, htold⟩
  | notReady _ hready =>
    exact ⟨h.busy, (hunclaimed _ rfl).1, (hunclaimed _ rfl).2,
      fun hr => absurd (hready.symm.trans hr) Bool.false_ne_true⟩
  | toSend | passed =>
    exact ⟨h.busy, (hunclaimed _ rfl).1, (hunclaimed _ rfl).2,
      fun _ up hup => absurd hup (by simp [relied])⟩
  | refused _ hnull =>
    -- a ready interface has a handle
    exact ⟨h.busy, (hunclaimed _ rfl).1, (hunclaimed _ rfl).2,
      fun hr => absurd (hnull.symm.trans (hpdev hr)) Bool.false_ne_true⟩
  | dropped hpc hbusy =>
    refine ⟨h.busy, (hunclaimed _ rfl).1, (hunclaimed _ rfl).2, fun hr up hup => ?_⟩
    obtain rfl := Option.some.inj hup
    exact hlost hr _ (Or.inl ⟨rfl, hpc, hbusy⟩)
  | claimed hpc hfree =>
    have hnone : w.cmdXfer = none := by
      by_contra hx
      exact absurd (hfree.symm.trans (h.busy hx)) Bool.false_ne_true
    exact ⟨fun _ => rfl, fun _ => ⟨rfl, hnone⟩, fun _ hc => absurd hc (by simp),
      fun _ up hup => absurd hup (by simp [relied])⟩
  | filled hpc =>
    have hclaimed := h.claimed (by rw [hpc]; rfl)
    refine ⟨h.busy, fun _ => hclaimed, fun up hup => ?_,
      fun _ up hup => absurd hup (by simp [relied])⟩
    rw [← NotifyPc.transmit.inj hup]
    exact carrierOf_networkConnection _ w.sNotifyBuf
  | transmitNull _ hnull =>
    exact ⟨h.busy, h.claimed, h.filled,
      fun hr => absurd (hnull.symm.trans (hpdev hr)) Bool.false_ne_true⟩
  | started hpc =>
    have hclaimed := h.claimed (by rw [hpc]; rfl)
    refine ⟨fun _ => hclaimed.1, fun hc => absurd hc (by simp [NotifyPc.claimed]),
      fun _ hc => absurd hc (by simp), fun _ up hup => ?_⟩
    obtain rfl := Option.some.inj hup
    show (carrierOf (w.packet ⟨8, false⟩)).or w.hostNc = some _
    rw [h.filled _ hpc]
    rfl
  | notStarted hpc =>
    have hclaimed := h.claimed (by rw [hpc]; rfl)
    refine ⟨h.busy, fun _ => hclaimed, fun _ hc => absurd hc (by simp), fun hr up hup => ?_⟩
    obtain rfl := Option.some.inj hup
    exact hlost hr _ (Or.inr ⟨rfl, hpc⟩)
  | failed hpc =>
    have hclaimed := h.claimed (by rw [hpc]; rfl)
    rw [relied, hpc] at htold
    exact ⟨fun hx => absurd hclaimed.2 hx, fun hc => absurd hc (by simp [NotifyPc.claimed]),
      fun _ hc => absurd hc (by simp), htold⟩
  | recorded hpc =>
    rw [relied, hpc] at htold
    exact ⟨h.busy, (hunclaimed _ rfl).1, (hunclaimed _ rfl).2, htold⟩

/-- No transfer is in flight while `s_cmd_busy` is claimed. -/
theorem Carrier.not_claimed (h : w.Carrier ready) (hx : w.cmdXfer ≠ none) :
    w.pc.claimed = false := by
  cases hc : w.pc.claimed with
  | false => rfl
  | true => exact absurd (h.claimed hc).2 hx

theorem NotifyPc.not_transmit_of_not_claimed {pc : NotifyPc} (h : pc.claimed = false) (up : Bool) :
    pc ≠ .transmit up := by
  rintro rfl
  exact absurd h (by simp [NotifyPc.claimed])

/-- **The host takes a notification**: its view is what it was about to be. -/
theorem Carrier.cmdPacket (h : w.Carrier ready) (hs : w.cmdPacket = some w') :
    w'.Carrier ready := by
  unfold Notify.cmdPacket at hs
  split at hs
  · next len hx =>
    obtain rfl := Option.some.inj hs
    have hclaimed := h.not_claimed (by rw [hx]; simp)
    have hbusy := h.busy (by rw [hx]; simp)
    refine ⟨fun _ => hbusy, fun hc => absurd hc (by simp [hclaimed]), fun up hup => ?_,
      fun hr up hup => ?_⟩
    · exact absurd hup (NotifyPc.not_transmit_of_not_claimed hclaimed up)
    · refine Eq.trans ?_ (h.told hr up hup)
      show Option.or none ((carrierOf (w.packet ⟨len, false⟩)).or w.hostNc) = w.view
      rw [view, pending, hx]
      rfl
  · exact absurd hs (by simp)

/-- **A notification completes**: what may follow it says nothing about the carrier. -/
theorem Carrier.ecmDataIn (h : w.Carrier ready) {ok : Bool} (hs : w.ecmDataIn ok = some w') :
    w'.Carrier ready := by
  unfold Notify.ecmDataIn at hs
  split at hs
  · next len hx =>
    rw [Option.some.injEq] at hs
    have hclaimed := h.not_claimed (by rw [hx]; simp)
    have hbusy := h.busy (by rw [hx]; simp)
    have hview : w.view = w.hostNc := by
      rw [view, pending, hx]
      rfl
    split at hs
    · subst hs
      refine ⟨fun _ => hbusy, fun hc => absurd hc (by simp [hclaimed]), fun up hup => ?_,
        fun hr up hup => ?_⟩
      · exact absurd hup (NotifyPc.not_transmit_of_not_claimed hclaimed up)
      · refine Eq.trans ?_ (h.told hr up hup)
        rw [hview]
        cases ok <;> rfl
    · subst hs
      refine ⟨fun hn => absurd rfl hn, fun hc => absurd hc (by simp [hclaimed]), fun up hup => ?_,
        fun hr up hup => ?_⟩
      · exact absurd hup (NotifyPc.not_transmit_of_not_claimed hclaimed up)
      · refine Eq.trans ?_ (h.told hr up hup)
        rw [hview]
        rfl
  · exact absurd hs (by simp)

/-- The interface goes down: nobody relies on a view. -/
theorem Carrier.not_ready (h : w.Carrier ready) : w.Carrier false :=
  ⟨h.busy, h.claimed, h.filled, fun hr => absurd hr (by simp)⟩

/-- The endpoint is closed. -/
theorem Carrier.deInit (h : w.Carrier ready) : w.deInit.Carrier false :=
  ⟨fun hn => absurd rfl hn, fun hc => ⟨(h.claimed hc).1, rfl⟩, h.filled,
    fun hr => absurd hr (by simp)⟩

/-- `ECM_Init`, while `link_task` has not claimed the endpoint and no transfer is in
flight. -/
theorem Carrier.init (h : w.Carrier ready) (hx : w.cmdXfer = none)
    (hclaimed : w.pc.claimed = false) : w.init.Carrier false :=
  ⟨fun hn => absurd hx hn, fun hc => absurd (hclaimed.symm.trans hc) Bool.false_ne_true,
    h.filled, fun hr => absurd hr (by simp)⟩

/-- **The data interface is activated**: the host starts afresh, and what is on its way
will be its view. -/
theorem Carrier.activated (h : w.Carrier ready) (hkeep : w.NoLostView) :
    w.activated.Carrier true := by
  refine ⟨h.busy, h.claimed, h.filled, fun _ up hup => ?_⟩
  have hview : w.activated.view = w.pending := Option.or_none
  rw [hview]
  exact hkeep up hup

theorem carrier_start : start.Carrier false where
  busy := fun hn => absurd rfl hn
  claimed := fun hc => absurd hc (by simp [start, NotifyPc.claimed])
  filled := fun _ hc => absurd hc (by simp [start])
  told := fun hr => absurd hr (by simp)

end Notify

end Usb2T1L
