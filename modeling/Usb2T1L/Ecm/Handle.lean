import Usb2T1L.Ecm.System

/-!
# The device handle across ECM_DeInit

`USBD_ECM_SendFrameBlocking` and `USBD_ECM_SetLinkState` check `s_pdev` once and read it
again when they call into the USB core, the former up to its timeout later.  In between a
bus reset, or a SET_CONFIGURATION(0), may run `ECM_DeInit`, which clears it.

## Main definitions

* `Uplink.needsHandle`, `Notify.needsHandle` — the task is going to use the handle that it
  has checked.
* `NoDeInitInUse` — the condition on the steps of the USB core.

## Main results

* `handle_safe` — **every call is made with a handle** if no `ECM_DeInit` comes while one is
  going to be used.
* `null_call_of_deInit` — after one that does, the next steps of the task alone lead to a call
  with a NULL handle.
-/

namespace Usb2T1L

/-- The sending task is going to use the handle that it has checked; waiting, it is not
if the semaphore has been given. -/
def Uplink.needsHandle (u : Uplink) : Bool :=
  match u.send with
  | .drain _ | .setZlp _ | .transmit _ | .flush _ => true
  | .wait _ => decide (u.sInDone ≠ some true)
  | .idle | .guard _ | .clear _ => false

/-- `link_task` is going to use the handle that it has checked; it is not if it is about to
find the endpoint busy. -/
def Notify.needsHandle (w : Notify) : Bool :=
  match w.pc with
  | .critical _ => !w.sCmdBusy
  | .fill _ | .transmit _ => true
  | .idle | .sampled _ | .guard _ | .fail _ | .record _ => false

/-- **A step of the sending task with a handle where it needs one**: it makes no call without,
and needs a handle only if there is one. -/
theorem Uplink.sendFrameBlocking_handle {c : EcmClass} {u u' : Uplink} {a : SendAct}
    (h : u.needsHandle = true → c.sPdev = true) (hs : sendFrameBlocking c u a = some u') :
    u'.nullCall = u.nullCall ∧ (u'.needsHandle = true → c.sPdev = true) := by
  unfold needsHandle at h
  cases sendFrameBlocking_move hs with
  | called | refused | taken | cleared =>
    exact ⟨rfl, fun hn => absurd hn Bool.false_ne_true⟩
  | passed _ _ hpdev | started _ hpdev | notStarted _ hpdev | flushed _ hpdev =>
    exact ⟨rfl, fun _ => hpdev⟩
  | drained hpc | zlpSet hpc =>
    rw [hpc] at h
    exact ⟨rfl, fun _ => h rfl⟩
  | timedOut hpc hdone =>
    rw [hpc] at h
    exact ⟨rfl, fun _ => h (decide_eq_true hdone)⟩
  | transmitNull hpc hnull | flushNull hpc hnull =>
    rw [hpc] at h
    exact absurd (hnull.symm.trans (h rfl)) Bool.false_ne_true

/-- **A step of `link_task` with a handle where it needs one.** -/
theorem Notify.linkTaskNotify_handle {c : EcmClass} {w w' : Notify} {a : LinkAct}
    (h : w.needsHandle = true → c.sPdev = true) (hs : linkTaskNotify c w a = some w') :
    w'.nullCall = w.nullCall ∧ (w'.needsHandle = true → c.sPdev = true) := by
  unfold needsHandle at h
  cases linkTaskNotify_move hs with
  | sampled | notReady | toSend | sentAlready | refused | dropped | failed | recorded =>
    exact ⟨rfl, fun hn => absurd hn Bool.false_ne_true⟩
  | passed _ hpdev | started _ hpdev | notStarted _ hpdev => exact ⟨rfl, fun _ => hpdev⟩
  | claimed hpc hfree =>
    rw [hpc, hfree] at h
    exact ⟨rfl, fun _ => h rfl⟩
  | filled hpc =>
    rw [hpc] at h
    exact ⟨rfl, fun _ => h rfl⟩
  | transmitNull hpc hnull =>
    rw [hpc] at h
    exact absurd (hnull.symm.trans (h rfl)) Bool.false_ne_true

/-- A packet taken from the endpoint is nothing to the task. -/
theorem Uplink.inPacket_handle {u u' : Uplink} (hs : u.inPacket = some u') :
    u'.nullCall = u.nullCall ∧ u'.needsHandle = u.needsHandle := by
  rw [inPacket_frame hs]
  exact ⟨rfl, rfl⟩

/-- A completion may only take the need for a handle away. -/
theorem Uplink.ecmDataIn_handle {u u' : Uplink} {ok : Bool} (hs : u.ecmDataIn ok = some u') :
    u'.nullCall = u.nullCall ∧ (u'.needsHandle = true → u.needsHandle = true) := by
  have hdone : u.sInDone = some true → u'.sInDone = some true := by
    intro hdone
    unfold ecmDataIn at hs
    split at hs
    · simp only [Option.some.injEq] at hs
      split at hs <;> subst hs <;> simp [hdone]
    · exact absurd hs (by simp)
  refine ⟨by rw [ecmDataIn_frame hs], fun hn => ?_⟩
  have hsend : u'.send = u.send := by rw [ecmDataIn_frame hs]
  unfold needsHandle at hn ⊢
  rw [hsend] at hn
  cases hpc : u.send with
  | wait data =>
    rw [hpc] at hn
    exact decide_eq_true fun hd => of_decide_eq_true hn (hdone hd)
  | drain _ | setZlp _ | transmit _ | flush _ => rfl
  | idle | guard _ | clear _ => exact absurd hn (by simp [hpc])

/-- Notifications that leave are nothing to the calls of the task. -/
theorem Notify.cmdPacket_handle {w w' : Notify} (hs : w.cmdPacket = some w') :
    w'.nullCall = w.nullCall ∧ w'.needsHandle = w.needsHandle := by
  unfold cmdPacket at hs
  split at hs
  · obtain rfl := Option.some.inj hs
    exact ⟨rfl, rfl⟩
  · exact absurd hs (by simp)

theorem Notify.ecmDataIn_nullCall {w w' : Notify} {ok : Bool} (hs : w.ecmDataIn ok = some w') :
    w'.nullCall = w.nullCall := by
  unfold ecmDataIn at hs
  split at hs
  · obtain rfl := Option.some.inj hs
    split <;> rfl
  · exact absurd hs (by simp)

variable {n : ℕ}

/-! ### No call without a handle -/

/-- `ECM_DeInit` does not come while a task is going to use the handle. -/
def NoDeInitInUse (s : Ecm n) (a : EcmAct) : Prop :=
  a = .deInit → s.up.needsHandle = false ∧ s.notify.needsHandle = false

instance decidableNoDeInitInUse (s : Ecm n) (a : EcmAct) : Decidable (NoDeInitInUse s a) :=
  inferInstanceAs (Decidable (_ → _))

namespace Ecm

/-- A task that is going to use the handle finds one. -/
structure HandleSafe (s : Ecm n) : Prop extends Coherent s where
  send : s.up.needsHandle = true → s.cls.sPdev = true
  link : s.notify.needsHandle = true → s.cls.sPdev = true
  null : s.nullCall = false

theorem nullCall_eq_false {s : Ecm n} :
    s.nullCall = false ↔ s.up.nullCall = false ∧ s.notify.nullCall = false :=
  Bool.or_eq_false_iff

theorem handleSafe_start (pool : FramePool n) (sInDone : Option Bool) :
    (start pool sInDone).HandleSafe :=
  ⟨coherent_start pool sInDone, fun h => absurd h Bool.false_ne_true,
    fun h => absurd h Bool.false_ne_true, rfl⟩

/-- **Every step keeps the handle safe**, if no `ECM_DeInit` comes while it is in use. -/
theorem HandleSafe.step {s s' : Ecm n} {a : EcmAct} (h : s.HandleSafe) (hg : NoDeInitInUse s a)
    (hs : ecmSys.step s a = some s') : s'.HandleSafe := by
  have hc := h.toCoherent.step hs
  obtain ⟨hnull, hnull'⟩ := nullCall_eq_false.mp h.null
  cases (ecmStep_move hs).2 with
  | init => exact ⟨hc, fun _ => rfl, fun _ => rfl, h.null⟩
  | deInit =>
    obtain ⟨hsend, hlink⟩ := hg rfl
    exact ⟨hc, fun hn => absurd (hsend.symm.trans hn) Bool.false_ne_true,
      fun hn => absurd (hlink.symm.trans hn) Bool.false_ne_true, h.null⟩
  | kept | opened | closed | dataOut | submit | tx => exact ⟨hc, h.send, h.link, h.null⟩
  | inPacket hu =>
    obtain ⟨hn, hneed⟩ := Uplink.inPacket_handle hu
    exact ⟨hc, fun hu' => h.send (hneed ▸ hu'), h.link,
      nullCall_eq_false.mpr ⟨hn.trans hnull, hnull'⟩⟩
  | inDone hu =>
    obtain ⟨hn, hneed⟩ := Uplink.ecmDataIn_handle hu
    exact ⟨hc, fun hu' => h.send (hneed hu'), h.link,
      nullCall_eq_false.mpr ⟨hn.trans hnull, hnull'⟩⟩
  | cmdPacket hw =>
    obtain ⟨hn, hneed⟩ := Notify.cmdPacket_handle hw
    exact ⟨hc, h.send, fun hw' => h.link (hneed ▸ hw'),
      nullCall_eq_false.mpr ⟨hnull, hn.trans hnull'⟩⟩
  | cmdDone hw =>
    -- what was in flight shows that there is a handle
    have hpdev := h.cls.handle.trans (h.cmd (Notify.cmdXfer_of_ecmDataIn hw))
    exact ⟨hc, h.send, fun _ => hpdev,
      nullCall_eq_false.mpr ⟨hnull, (Notify.ecmDataIn_nullCall hw).trans hnull'⟩⟩
  | send hu =>
    obtain ⟨hn, hneed⟩ := Uplink.sendFrameBlocking_handle h.send hu
    exact ⟨hc, hneed, h.link, nullCall_eq_false.mpr ⟨hn.trans hnull, hnull'⟩⟩
  | link hw =>
    obtain ⟨hn, hneed⟩ := Notify.linkTaskNotify_handle h.link hw
    exact ⟨hc, h.send, hneed, nullCall_eq_false.mpr ⟨hnull, hn.trans hnull'⟩⟩

end Ecm

/-- **Every call is made with a handle** in a run in which no `ECM_DeInit` comes while a task
is going to use it. -/
theorem handle_safe (pool : FramePool n) (sInDone : Option Bool) (as : List EcmAct)
    (hg : ecmSys.Along (fun s a _ => NoDeInitInUse s a) (Ecm.start pool sInDone) as) :
    ∀ s, ecmSys.run (Ecm.start pool sInDone) as = some s → s.nullCall = false := by
  intro s hrun
  have hsafe : s.HandleSafe := Lts.run_invariant (fun s a s' h hg hs => h.step hg hs)
    (Ecm.handleSafe_start pool sInDone) hg hrun
  exact hsafe.null

/-- The interface comes up, a frame of one byte is sent, and then the bus is reset. -/
def resetAfterSend : List EcmAct :=
  [.init, .setInterface 1 1, .send (.call [0]), .send .guard, .send .drain, .send .setZlp,
    .send (.transmit true), .inPacket, .inDone true, .deInit, .send .take]

theorem handle_safe_resetAfterSend : (ecmSys.run Ecm.board resetAfterSend).isSome = true ∧
    ∀ s, ecmSys.run Ecm.board resetAfterSend = some s → s.nullCall = false :=
  ⟨by decide, handle_safe _ _ _ (by decide)⟩

/-- The bus is reset while the task waits for the host to take the frame. -/
def resetInSend : List EcmAct :=
  [.init, .setInterface 1 1, .send (.call [0]), .send .guard, .send .drain, .send .setZlp,
    .send (.transmit true), .deInit, .send .timeout, .send .flush]

/-- The endpoint is flushed with a NULL handle then. -/
theorem resetInSend_nullCall :
    (ecmSys.run Ecm.board resetInSend).map Ecm.nullCall = some true := by decide

/-! ### A call without one -/

namespace Ecm

/-- Without another callback, there may be a call with a NULL handle. -/
def ReachesNull (s : Ecm n) : Prop :=
  ∃ as t, ecmSys.run s as = some t ∧ t.nullCall = true ∧ ∀ a ∈ as, EcmAct.isCallback a = false

theorem reachesNull_of_null {s : Ecm n} (h : s.nullCall = true) : s.ReachesNull :=
  ⟨[], s, rfl, h, fun _ ha => absurd ha List.not_mem_nil⟩

theorem ReachesNull.of_act {s s' : Ecm n} {a : EcmAct} (hnull : s.nullCall = false)
    (ha : a.isCallback = false) (hact : s.act a = some s') (h : s'.ReachesNull) :
    s.ReachesNull := by
  obtain ⟨as, t, hrun, ht, has⟩ := h
  have hstep : ecmSys.step s a = some s' := by
    show ecmStep s a = _
    rw [ecmStep, if_neg (by rw [hnull]; exact Bool.false_ne_true),
      if_neg fun hcb => Bool.false_ne_true (ha.symm.trans hcb.1), hact]
  refine ⟨a :: as, t, ?_, ht, ?_⟩
  · exact ecmSys.run_cons_eq_some.mpr ⟨s', hstep, hrun⟩
  · intro b hb
    rcases List.mem_cons.mp hb with rfl | hb
    · exact ha
    · exact has b hb

/-- The sending task, without the handle it needs. -/
theorem reachesNull_of_send {s : Ecm n} (hnull : s.nullCall = false) (hpdev : s.cls.sPdev = false)
    (hneed : s.up.needsHandle = true) : s.ReachesNull := by
  have hnull' : ∀ u : Uplink, u.nullCall = s.up.nullCall →
      ({ s with up := u } : Ecm n).nullCall = false := by
    intro u hu
    rw [nullCall_eq_false] at hnull ⊢
    exact ⟨hu.trans hnull.1, hnull.2⟩
  -- backwards, from the two calls
  have htransmit : ∀ (u : Uplink) data, u.nullCall = s.up.nullCall → u.send = .transmit data →
      ReachesNull { s with up := u } := by
    intro u data hu hpc
    have hact : Ecm.act { s with up := u } (.send (.transmit true)) =
        some { s with up := { u with nullCall := true } } := by
      simp [act, sendFrameBlocking, hpc, hpdev]
    exact (reachesNull_of_null rfl).of_act (hnull' u hu) rfl hact
  have hflush : ∀ (u : Uplink) data, u.nullCall = s.up.nullCall → u.send = .flush data →
      ReachesNull { s with up := u } := by
    intro u data hu hpc
    have hact : Ecm.act { s with up := u } (.send .flush) =
        some { s with up := { u with nullCall := true } } := by
      simp [act, sendFrameBlocking, hpc, hpdev]
    exact (reachesNull_of_null rfl).of_act (hnull' u hu) rfl hact
  have hsetZlp : ∀ (u : Uplink) data, u.nullCall = s.up.nullCall → u.send = .setZlp data →
      ReachesNull { s with up := u } := by
    intro u data hu hpc
    have hact : Ecm.act { s with up := u } (.send .setZlp) = some { s with up := { u with
        sInZlp := decide (data.length % cdcEcmDataMaxPacketSize = 0)
        send := .transmit data } } := by simp [act, sendFrameBlocking, hpc]
    apply ReachesNull.of_act (hnull' u hu) rfl hact
    apply htransmit
    · exact hu
    · rfl
  unfold Uplink.needsHandle at hneed
  cases hpc : s.up.send with
  | idle | guard _ | clear _ => exact absurd hneed (by simp [hpc])
  | drain data =>
    have hact : s.act (.send .drain) = some { s with up := { s.up with
        sInDone := some false
        send := .setZlp data } } := by simp [act, sendFrameBlocking, hpc]
    apply ReachesNull.of_act hnull rfl hact
    apply hsetZlp <;> rfl
  | setZlp data => exact hsetZlp s.up data rfl hpc
  | transmit data => exact htransmit s.up data rfl hpc
  | wait data =>
    simp only [hpc, decide_eq_true_eq] at hneed
    have hact : s.act (.send .timeout) = some { s with up := { s.up with
        send := .flush data } } := by simp [act, sendFrameBlocking, hpc, hneed]
    apply ReachesNull.of_act hnull rfl hact
    apply hflush <;> rfl
  | flush data => exact hflush s.up data rfl hpc

/-- `link_task`, without the handle it needs. -/
theorem reachesNull_of_link {s : Ecm n} (hnull : s.nullCall = false) (hpdev : s.cls.sPdev = false)
    (hneed : s.notify.needsHandle = true) : s.ReachesNull := by
  have hnull' : ∀ w : Notify, w.nullCall = s.notify.nullCall →
      ({ s with notify := w } : Ecm n).nullCall = false := by
    intro w hw
    rw [nullCall_eq_false] at hnull ⊢
    exact ⟨hnull.1, hw.trans hnull.2⟩
  -- backwards, from the call
  have htransmit : ∀ (w : Notify) up, w.nullCall = s.notify.nullCall → w.pc = .transmit up →
      ReachesNull { s with notify := w } := by
    intro w up hw hpc
    have hact : Ecm.act { s with notify := w } (.link (.transmit true)) =
        some { s with notify := { w with nullCall := true } } := by
      simp [act, linkTaskNotify, hpc, hpdev]
    have hend : ({ s with notify := { w with nullCall := true } } : Ecm n).nullCall = true :=
      Bool.or_true _
    exact (reachesNull_of_null hend).of_act (hnull' w hw) rfl hact
  have hfill : ∀ (w : Notify) up, w.nullCall = s.notify.nullCall → w.pc = .fill up →
      ReachesNull { s with notify := w } := by
    intro w up hw hpc
    have hact : Ecm.act { s with notify := w } (.link .fill) = some { s with notify := { w with
        sNotifyBuf := overlay (networkConnection up) w.sNotifyBuf
        pc := .transmit up } } := by simp [act, linkTaskNotify, hpc]
    apply ReachesNull.of_act (hnull' w hw) rfl hact
    apply htransmit
    · exact hw
    · rfl
  unfold Notify.needsHandle at hneed
  cases hpc : s.notify.pc with
  | idle | sampled _ | guard _ | fail _ | record _ => exact absurd hneed (by simp [hpc])
  | critical up =>
    simp only [hpc, Bool.not_eq_true'] at hneed
    have hact : s.act (.link .critical) = some { s with notify := { s.notify with
        sCmdBusy := true
        sSpeedPending := up
        pc := .fill up } } := by simp [act, linkTaskNotify, hpc, hneed]
    apply ReachesNull.of_act hnull rfl hact
    apply hfill <;> rfl
  | fill up => exact hfill s.notify up rfl hpc
  | transmit up => exact htransmit s.notify up rfl hpc

end Ecm

/-- **An `ECM_DeInit` while the handle is in use** may be followed by a call with NULL: the
condition of `handle_safe` cannot be weakened step by step. -/
theorem null_call_of_deInit {s s' : Ecm n} (hs : ecmSys.step s .deInit = some s')
    (huse : ¬ NoDeInitInUse s .deInit) : s'.ReachesNull := by
  obtain ⟨hnull, hmove⟩ := ecmStep_move hs
  obtain rfl : s.deInit = s' := by
    cases hmove with
    | deInit => rfl
  cases hneed : s.up.needsHandle with
  | true => exact Ecm.reachesNull_of_send hnull rfl hneed
  | false =>
    cases hneed' : s.notify.needsHandle with
    | true => exact Ecm.reachesNull_of_link hnull rfl hneed'
    | false => exact absurd (fun _ => ⟨hneed, hneed'⟩) huse

end Usb2T1L
