import Usb2T1L.Ecm.System

/-!
# The notification busy flag

`s_cmd_busy` is set in `USBD_ECM_SetLinkState`, before the transfer it stands for is started,
and cleared in `ECM_DataIn`, when the last transfer of a notification is complete.  In between
`ECM_DataIn` may start a second transfer, and `ECM_Init` clears the flag whatever the task is
doing.

## Main definitions

* `Ecm.BusyAccurate` — what `s_cmd_busy` says.
* `KeepsBusy` — the condition on the steps: the speed change can be transmitted, and no
  `ECM_Init` takes the flag from a notification about to be started.
* `Ecm.Deaf` — every notification is dropped, and none is on its way.

## Main results

* `Ecm.BusySafe.step` — what every step keeps.
* `busy_accurate` — **the flag is accurate** in every run that meets the condition.
* `Ecm.Deaf.step` — only `ECM_Init` ends a deaf state.
-/

namespace Usb2T1L

variable {n : ℕ}

/-- `link_task` is inside `USBD_ECM_SetLinkState`. -/
def NotifyPc.inSetLinkState : NotifyPc → Bool
  | .guard _ | .critical _ | .fill _ | .transmit _ | .fail _ => true
  | .idle | .sampled _ | .record _ => false

/-- `s_cmd_busy` is claimed and the transfer is still to be started. -/
def NotifyPc.toStart : NotifyPc → Bool
  | .fill _ | .transmit _ => true
  | _ => false

theorem NotifyPc.claimed_of_toStart {pc : NotifyPc} (h : pc.toStart = true) :
    pc.claimed = true := by
  cases pc <;> first | rfl | exact absurd h Bool.false_ne_true

/-- Outside `USBD_ECM_SetLinkState` nothing is claimed. -/
theorem NotifyPc.not_claimed_of_not_inSetLinkState {pc : NotifyPc}
    (h : pc.inSetLinkState = false) : pc.claimed = false := by
  cases pc <;> first | rfl | exact absurd h.symm Bool.false_ne_true

/-- The step neither loses the speed change after a notification nor clears the flag under a
notification that is still to be started. -/
def KeepsBusy (s : Ecm n) : EcmAct → Prop
  | .cmdDone ok => s.notify.sSpeedPending = true → ok = true
  | .init => s.notify.pc.toStart = false
  | _ => True

instance decidableKeepsBusy (s : Ecm n) : ∀ a, Decidable (KeepsBusy s a)
  | .cmdDone _ => inferInstanceAs (Decidable (_ → _))
  | .init => inferInstanceAs (Decidable (_ = _))
  | .deInit | .setInterface _ _ | .dataOut _ | .submit | .inPacket | .inDone _ | .cmdPacket | .tx
  | .send _ | .link _ => isTrue trivial

namespace Ecm

/-- While the device is configured and `link_task` is not inside `USBD_ECM_SetLinkState`,
`s_cmd_busy` is set exactly if a transfer is in flight on the interrupt IN endpoint. -/
def BusyAccurate (s : Ecm n) : Prop :=
  s.cls.configured = true → s.notify.pc.inSetLinkState = false →
    s.notify.sCmdBusy = s.notify.cmdXfer.isSome

instance decidableBusyAccurate (s : Ecm n) : Decidable s.BusyAccurate :=
  inferInstanceAs (Decidable (_ → _ → _))

/-- Only the completion of a transfer, and nothing else while it is in flight, writes
`s_notify_buf`. -/
def KeepsNotifyBuf (s : Ecm n) (a : EcmAct) (s' : Ecm n) : Prop :=
  s.notify.cmdXfer.isSome = true → s'.notify.sNotifyBuf ≠ s.notify.sNotifyBuf →
    ∃ ok len, a = .cmdDone ok ∧ s.notify.cmdXfer = some ⟨len, true⟩

/-- A notification that meets an idle endpoint is not dropped. -/
def HearsIdle (s : Ecm n) : Prop :=
  ∀ up, s.cls.configured = true → s.notify.pc = .critical up → s.notify.cmdXfer.isSome = false →
    s.notify.sCmdBusy = false

/-- No notification is on its way, and every one to come will be dropped. -/
structure Deaf (s : Ecm n) : Prop where
  busy : s.notify.sCmdBusy = true
  idle : s.notify.cmdXfer = none
  unclaimed : s.notify.pc.claimed = false

/-- The invariant behind the flag. -/
structure BusySafe (s : Ecm n) : Prop extends Coherent s where
  flying : s.notify.cmdXfer ≠ none → s.notify.sCmdBusy = true
  toStart : s.notify.pc.toStart = true → s.notify.sCmdBusy = true
  unstarted : s.notify.pc.claimed = true → s.notify.cmdXfer = none
  /-- While the device is configured, the flag stands for something. -/
  standsFor : s.cls.configured = true → s.notify.sCmdBusy = true →
    s.notify.cmdXfer ≠ none ∨ s.notify.pc.claimed = true

theorem busySafe_start (pool : FramePool n) (sInDone : Option Bool) :
    (start pool sInDone).BusySafe where
  toCoherent := coherent_start pool sInDone
  flying := fun hx => absurd rfl hx
  toStart := fun hc => absurd hc Bool.false_ne_true
  unstarted := fun _ => rfl
  standsFor := fun hc => absurd hc Bool.false_ne_true

/-- A completed transfer leaves no notification to be started. -/
theorem BusySafe.unclaimed {s : Ecm n} (h : s.BusySafe) (hx : s.notify.cmdXfer ≠ none) :
    s.notify.pc.claimed = false := by
  cases hc : s.notify.pc.claimed with
  | false => rfl
  | true => exact absurd (h.unstarted hc) hx

/-- **`link_task` keeps flag and endpoint in step.** -/
theorem BusySafe.link {s : Ecm n} {b : LinkAct} {w : Notify} (h : s.BusySafe)
    (hw : linkTaskNotify s.cls s.notify b = some w)
    (hc : ({ s with notify := w } : Ecm n).Coherent) :
    ({ s with notify := w } : Ecm n).BusySafe := by
  have hstands := h.standsFor
  cases linkTaskNotify_move hw with
  | sampled hpc | notReady hpc | toSend hpc | sentAlready hpc | refused hpc | passed hpc
  | dropped hpc | recorded hpc =>
    rw [hpc] at hstands
    exact ⟨hc, h.flying, fun ht => absurd ht Bool.false_ne_true,
      fun ht => absurd ht Bool.false_ne_true, hstands⟩
  | claimed hpc hfree =>
    -- the flag was clear, so nothing is in flight
    have hnone : s.notify.cmdXfer = none := by
      by_contra hx
      exact Bool.false_ne_true (hfree.symm.trans (h.flying hx))
    exact ⟨hc, fun _ => rfl, fun _ => rfl, fun _ => hnone, fun _ _ => Or.inr rfl⟩
  | filled hpc =>
    have hbusy := h.toStart (by rw [hpc]; rfl)
    have hnone := h.unstarted (by rw [hpc]; rfl)
    exact ⟨hc, h.flying, fun _ => hbusy, fun _ => hnone, fun _ _ => Or.inr rfl⟩
  | transmitNull => exact ⟨hc, h.flying, h.toStart, h.unstarted, h.standsFor⟩
  | started hpc =>
    have hbusy := h.toStart (by rw [hpc]; rfl)
    exact ⟨hc, fun _ => hbusy, fun ht => absurd ht Bool.false_ne_true,
      fun ht => absurd ht Bool.false_ne_true, fun _ _ => Or.inl (by simp)⟩
  | notStarted hpc =>
    have hnone := h.unstarted (by rw [hpc]; rfl)
    exact ⟨hc, h.flying, fun ht => absurd ht Bool.false_ne_true, fun _ => hnone,
      fun _ _ => Or.inr rfl⟩
  | failed hpc =>
    have hnone := h.unstarted (by rw [hpc]; rfl)
    exact ⟨hc, fun hx => absurd hnone hx, fun ht => absurd ht Bool.false_ne_true,
      fun ht => absurd ht Bool.false_ne_true, fun _ hb => absurd hb Bool.false_ne_true⟩

/-- **The host's end keeps flag and endpoint in step.** -/
theorem BusySafe.cmdPacket {s : Ecm n} {w : Notify} (h : s.BusySafe)
    (hw : s.notify.cmdPacket = some w) (hc : ({ s with notify := w } : Ecm n).Coherent) :
    ({ s with notify := w } : Ecm n).BusySafe := by
  have hx := Notify.cmdXfer_of_cmdPacket hw
  have hbusy := h.flying hx
  have hpc := h.unclaimed hx
  unfold Notify.cmdPacket at hw
  split at hw
  · obtain rfl := Option.some.inj hw
    exact ⟨hc, fun _ => hbusy, h.toStart, fun ht => absurd (hpc.symm.trans ht) Bool.false_ne_true,
      fun _ _ => Or.inl (by simp)⟩
  · exact absurd hw (by simp)

/-- **`ECM_DataIn` keeps flag and endpoint in step**, if its transmit succeeds. -/
theorem BusySafe.cmdDone {s : Ecm n} {ok : Bool} {w : Notify} (h : s.BusySafe)
    (hk : KeepsBusy s (.cmdDone ok)) (hw : s.notify.ecmDataIn ok = some w)
    (hc : ({ s with notify := w } : Ecm n).Coherent) :
    ({ s with notify := w } : Ecm n).BusySafe := by
  have hx := Notify.cmdXfer_of_ecmDataIn hw
  have hbusy := h.flying hx
  have hpc := h.unclaimed hx
  have hstart : s.notify.pc.toStart = false := by
    cases ht : s.notify.pc.toStart with
    | false => rfl
    | true => exact absurd (hpc.symm.trans (NotifyPc.claimed_of_toStart ht)) Bool.false_ne_true
  unfold Notify.ecmDataIn at hw
  split at hw
  · obtain rfl := Option.some.inj hw
    split at hc
    · next hspeed =>
      rw [if_pos hspeed]
      obtain rfl := hk hspeed
      exact ⟨hc, fun _ => hbusy, h.toStart,
        fun ht => absurd (hpc.symm.trans ht) Bool.false_ne_true, fun _ _ => Or.inl (by simp)⟩
    · next hspeed =>
      rw [if_neg hspeed]
      exact ⟨hc, fun hn => absurd rfl hn,
        fun ht => absurd (hstart.symm.trans ht) Bool.false_ne_true,
        fun ht => absurd (hpc.symm.trans ht) Bool.false_ne_true,
        fun _ hb => absurd hb Bool.false_ne_true⟩
  · exact absurd hw (by simp)

/-- **Every step keeps the flag accurate**, if it meets the condition. -/
theorem BusySafe.step {s s' : Ecm n} {a : EcmAct} (h : s.BusySafe) (hk : KeepsBusy s a)
    (hs : ecmSys.step s a = some s') : s'.BusySafe := by
  have hc := h.toCoherent.step hs
  cases (ecmStep_move hs).2 with
  | init _ hconf =>
    have hnone : s.notify.cmdXfer = none := by
      by_contra hx
      exact Bool.false_ne_true (hconf.symm.trans (h.cmd hx))
    exact ⟨hc, fun hx => absurd hnone hx, fun ht => absurd (hk.symm.trans ht) Bool.false_ne_true,
      fun _ => hnone, fun _ hb => absurd hb Bool.false_ne_true⟩
  | deInit =>
    exact ⟨hc, fun hx => absurd rfl hx, h.toStart, fun _ => rfl,
      fun hconf => absurd hconf Bool.false_ne_true⟩
  | kept => exact h
  | opened | closed | dataOut | submit | inPacket | inDone | tx | send =>
    exact ⟨hc, h.flying, h.toStart, h.unstarted, h.standsFor⟩
  | cmdPacket hw => exact h.cmdPacket hw hc
  | cmdDone hw => exact h.cmdDone hk hw hc
  | link hw => exact h.link hw hc

/-- Where the endpoint is not claimed, the flag says whether a transfer is in flight. -/
theorem BusySafe.sCmdBusy_eq {s : Ecm n} (h : s.BusySafe) (hconf : s.cls.configured = true)
    (hpc : s.notify.pc.claimed = false) : s.notify.sCmdBusy = s.notify.cmdXfer.isSome := by
  cases hx : s.notify.cmdXfer with
  | some x => exact h.flying (by rw [hx]; simp)
  | none =>
    cases hbusy : s.notify.sCmdBusy with
    | false => rfl
    | true =>
      rcases h.standsFor hconf hbusy with hfly | hclaimed
      · exact absurd hx hfly
      · exact absurd (hpc.symm.trans hclaimed) Bool.false_ne_true

theorem BusySafe.busyAccurate {s : Ecm n} (h : s.BusySafe) : s.BusyAccurate := fun hconf hpc =>
  h.sCmdBusy_eq hconf (NotifyPc.not_claimed_of_not_inSetLinkState hpc)

theorem BusySafe.hearsIdle {s : Ecm n} (h : s.BusySafe) : s.HearsIdle := by
  intro up hconf hpc hidle
  rw [h.sCmdBusy_eq hconf (by rw [hpc]; rfl), hidle]

/-- **The buffer of a transfer in flight is left alone.** -/
theorem BusySafe.keepsNotifyBuf {s s' : Ecm n} {a : EcmAct} (h : s.BusySafe)
    (hs : ecmSys.step s a = some s') : s.KeepsNotifyBuf a s' := by
  intro hfly hbuf
  have hx : s.notify.cmdXfer ≠ none := Option.isSome_iff_ne_none.mp hfly
  cases (ecmStep_move hs).2 with
  | init | deInit | kept | opened | closed | dataOut | submit | inPacket | inDone | tx | send =>
    exact absurd rfl hbuf
  | cmdPacket hw =>
    unfold Notify.cmdPacket at hw
    split at hw
    · obtain rfl := Option.some.inj hw
      exact absurd rfl hbuf
    · exact absurd hw (by simp)
  | @cmdDone ok w hw =>
    unfold Notify.ecmDataIn at hw
    split at hw
    · next len hlen => exact ⟨ok, len, rfl, hlen⟩
    · exact absurd hw (by simp)
  | link hw =>
    cases linkTaskNotify_move hw with
    | filled hpc => exact absurd (h.unstarted (by rw [hpc]; rfl)) hx
    | _ => exact absurd rfl hbuf

/-- **Only `ECM_Init` ends a deaf state**: no notification is ever sent before it. -/
theorem Deaf.step {s s' : Ecm n} {a : EcmAct} (h : s.Deaf) (ha : a ≠ .init)
    (hs : ecmSys.step s a = some s') : s'.Deaf := by
  cases (ecmStep_move hs).2 with
  | init => exact absurd rfl ha
  | deInit => exact ⟨h.busy, rfl, h.unclaimed⟩
  | kept => exact h
  | opened | closed | dataOut | submit | inPacket | inDone | tx | send =>
    exact ⟨h.busy, h.idle, h.unclaimed⟩
  | cmdPacket hw => exact absurd h.idle (Notify.cmdXfer_of_cmdPacket hw)
  | cmdDone hw => exact absurd h.idle (Notify.cmdXfer_of_ecmDataIn hw)
  | link hw =>
    -- the places past the critical section are excluded, and it finds the flag set
    have hpc := h.unclaimed
    cases linkTaskNotify_move hw with
    | claimed _ hfree => exact absurd (hfree.symm.trans h.busy) Bool.false_ne_true
    | filled hp | transmitNull hp | started hp | notStarted hp | failed hp =>
      rw [hp] at hpc
      exact absurd hpc.symm Bool.false_ne_true
    | _ => exact ⟨h.busy, h.idle, rfl⟩

theorem Deaf.run {s s' : Ecm n} {as : List EcmAct} (h : s.Deaf) (has : EcmAct.init ∉ as)
    (hrun : ecmSys.run s as = some s') : s'.Deaf := by
  induction as generalizing s with
  | nil =>
    rw [Lts.run_nil, Option.some.injEq] at hrun
    exact hrun ▸ h
  | cons a as ih =>
    obtain ⟨t, ht, hrun⟩ := ecmSys.run_cons_eq_some.mp hrun
    rw [List.mem_cons, not_or] at has
    exact ih (h.step (fun ha => has.1 ha.symm) ht) has.2 hrun

end Ecm

/-- **The busy flag is accurate**, in every state that a run meeting the condition reaches; the
notification buffer is not written under a transfer in flight, and no notification that meets an
idle endpoint is dropped. -/
theorem busy_accurate (pool : FramePool n) (sInDone : Option Bool) (as : List EcmAct)
    (hk : ecmSys.Along (fun s a _ => KeepsBusy s a) (Ecm.start pool sInDone) as) :
    (∀ s, ecmSys.run (Ecm.start pool sInDone) as = some s → s.BusyAccurate ∧ s.HearsIdle) ∧
      ecmSys.Along Ecm.KeepsNotifyBuf (Ecm.start pool sInDone) as := by
  have hstart := Ecm.busySafe_start pool sInDone
  constructor
  · intro s hrun
    have hsafe : s.BusySafe := Lts.run_invariant (fun _ _ _ h hk hs => h.step hk hs) hstart hk hrun
    exact ⟨hsafe.busyAccurate, hsafe.hearsIdle⟩
  · exact Lts.along_invariant (fun _ _ _ h hk hs => h.step hk hs)
      (fun _ _ _ h _ hs => h.keepsNotifyBuf hs) hstart hk

/-- An iteration of `link_task` that sends the link up, and the host takes it. -/
def linkUpTaken : List EcmAct :=
  [.init, .setInterface 1 1, .link (.sample true), .link .ready, .link .guard, .link .critical,
    .link .fill, .link (.transmit true), .link .record, .cmdPacket]

theorem busy_accurate_linkUp :
    (ecmSys.run Ecm.board (linkUpTaken ++ [.cmdDone true])).isSome = true ∧
      (∀ s, ecmSys.run Ecm.board (linkUpTaken ++ [.cmdDone true]) = some s →
        s.BusyAccurate ∧ s.HearsIdle) ∧
        ecmSys.Along Ecm.KeepsNotifyBuf Ecm.board (linkUpTaken ++ [.cmdDone true]) :=
  ⟨by decide, busy_accurate _ _ _ (by decide)⟩

/-- The device is enumerated again while `USBD_ECM_SetLinkState` is about to transmit. -/
def initBeforeTransmit : List EcmAct :=
  [.init, .setInterface 1 1, .link (.sample true), .link .ready, .link .guard, .link .critical,
    .link .fill, .deInit, .init, .link (.transmit true), .link .record]

/-- The speed change after a notification cannot be transmitted: the flag stays set with the
endpoint idle, and no notification is sent before the next `ECM_Init`.  And an `ECM_Init` before
the transmit leaves a transfer in flight with the flag clear. -/
theorem busy_inaccurate :
    (∃ s, ecmSys.run Ecm.board (linkUpTaken ++ [.cmdDone false]) = some s ∧ ¬ s.BusyAccurate ∧
      ∀ as s', EcmAct.init ∉ as → ecmSys.run s as = some s' →
        s'.notify.sCmdBusy = true ∧ s'.notify.cmdXfer = none) ∧
      ∃ s, ecmSys.run Ecm.board initBeforeTransmit = some s ∧ ¬ s.BusyAccurate := by
  refine ⟨⟨_, rfl, by decide, fun as s' has hrun => ?_⟩, ⟨_, rfl, by decide⟩⟩
  have hdeaf := Ecm.Deaf.run ⟨rfl, rfl, rfl⟩ has hrun
  exact ⟨hdeaf.busy, hdeaf.idle⟩

end Usb2T1L
