import Usb2T1L.Bridge.Drain
import Usb2T1L.Bridge.Locking
import Usb2T1L.Ecm.Completion

/-!
# From the wire to the host

The whole uplink: frames arrive in the device, `net_rx_task` reads them and goes into
`usbd_ecm_if_send` with each, and the host takes packets from the bulk IN endpoint and puts frames
together again.  The other tasks use the bus in between, and everything happens in any order.

Transactions may fail in any pattern, but for one thing: a burst from a receive FIFO carries no
CRC, so a damaged one goes through unseen.

The buffer of a frame is given back here when the frame is handed over.  Nobody else takes buffers
from `s_rx_pool`, so this is as good as after the send.

## Main definitions

* `UpPath`, `upSys` — the two halves, with the call between them.
* `Uplink.Whole` — no frame is left off in the middle.

## Main results

* `RxTask.Kept.step`, `UpPath.Linked.step` — what every step keeps.
* `wire_to_host` — **the host gets frames that have arrived**, each at most once, in order and byte
  for byte.
* `wire_to_host_exact` — **none is missing**, if every send has returned 0.
-/

namespace Usb2T1L

open Packets

/-- The uplink as a whole. -/
structure UpPath (n m : ℕ) where
  /-- `net_rx_task` with the bus and the table. -/
  task : RxTask n Chip
  /-- The class, before the endpoint and the host. -/
  ecm : Ecm m

/-- A step. -/
inductive UpAct
  /-- A step of the host, the USB core, a task in the class, or `net_rx_task` in
  `USBD_ECM_SendFrameBlocking`. -/
  | usb (a : EcmAct)
  /-- A step of `net_rx_task` outside of it, with the call if there is one. -/
  | task (a : RxAct)
  /-- Another task has the lock. -/
  | bus (op : LockedOp)

section System

variable {n m : ℕ} (dev : Adin2111) (sOwnMac : Mac)

/-- `net_rx_task` goes on, into `usbd_ecm_if_send` if it has read a frame. -/
def UpPath.handOver (s : UpPath n m) (t : RxTask n Chip) : Option (UpPath n m) :=
  match t.sent.drop s.task.sent.length with
  | [] => some { s with task := t }
  | f :: _ => (ecmStep s.ecm (.send (.call f.bytes))).map fun e => ⟨t, e⟩

/-- What a step does. -/
def upStep (s : UpPath n m) : UpAct → Option (UpPath n m)
  | .usb (.send (.call _)) => none
  | .usb a => (ecmStep s.ecm a).map fun e => { s with ecm := e }
  | .task a =>
    match s.ecm.up.send with
    | .idle => (netRxStep (chipHal dev) dev sOwnMac s.task a).bind s.handOver
    | _ => none
  | .bus .ack => none
  | .bus (.drain _ _) => none
  | .bus op =>
    some { s with
      task := { s.task with bridge := op.exec dev sOwnMac (chipHal dev) s.task.bridge } }

/-- The system. -/
def upSys : Lts (UpPath n m) UpAct := ⟨upStep dev sOwnMac⟩

/-- After `net_bridge_init`, with what has arrived by then. -/
def UpPath.start (rxPool : FramePool n) (txPool : FramePool m) (sInDone : Option Bool) (fdb : Fdb)
    (c : Chip) : UpPath n m :=
  ⟨⟨false, rxPool, ⟨fdb, c⟩, []⟩, Ecm.start txPool sInDone⟩

end System

/-! ### The half of `net_rx_task` -/

namespace RxTask

variable {n : ℕ} {s s' : RxTask n Chip} {crc : Bool} {mode : Mode} {sOwnMac : Mac} {now : Word}

/-- What has arrived is what has been handed over, and what is still queued. -/
structure Kept (s : RxTask n Chip) : Prop where
  /-- No burst from a receive FIFO is damaged. -/
  bursts : ∀ p k, s.bridge.adin.faults (false, rxFifoReg p) k ≠ .crc
  frames : ∀ p, (s.bridge.adin.arrived p).map RxFrame.eth =
    s.delivered p ++ (s.bridge.adin.rx p).map RxFrame.eth

/-- At most one frame more has been handed over. -/
def Adds (s s' : RxTask n Chip) : Prop := s'.sent = s.sent ∨ ∃ f, s'.sent = s.sent ++ [f]

/-- While no frame is taken, everything stays. -/
theorem Kept.grows (h : s.Kept) (hgrows : s.bridge.adin.Grows s'.bridge.adin)
    (hsent : s'.sent = s.sent) : s'.Kept where
  bursts := fun p k => by
    obtain ⟨j, hj⟩ := hgrows.faults (false, rxFifoReg p)
    rw [hj]
    exact h.bursts p _
  frames := fun p => by
    obtain ⟨new, hrx, harr⟩ := hgrows.rx p
    have hdelivered : s'.delivered p = s.delivered p := by rw [delivered, delivered, hsent]
    rw [hrx, harr, List.map_append, List.map_append, h.frames p, hdelivered, List.append_assoc]

/-- The frame at the head of a FIFO is handed over. -/
theorem Kept.frame (h : s.Kept) {c : Chip} (hc : s.bridge.adin.Grows c) {p : Port} {fr : RxFrame}
    {rest : List RxFrame} (hrx : c.rx p = fr :: rest) (dev : Adin2111) (f : Fin n)
    (q : Queue (Fin n) n) :
    (netRxFrame (chipHal dev) dev sOwnMac now f q fr.eth p (s.withAdin (c.pop p))).Kept ∧
      s.Adds (netRxFrame (chipHal dev) dev sOwnMac now f q fr.eth p (s.withAdin (c.pop p))) := by
  obtain ⟨-, -, hgrows⟩ := netRxFrame_spec sOwnMac now dev f q fr.eth p (s.withAdin (c.pop p))
  have hdelivered := delivered_netRxFrame sOwnMac now dev f q fr p
  have hkept : (s.withAdin c).Kept := h.grows hc rfl
  refine ⟨⟨fun r k => ?_, fun r => ?_⟩, ?_⟩
  · obtain ⟨j, hj⟩ := hgrows.faults (false, rxFifoReg r)
    rw [hj]
    exact hkept.bursts r _
  · obtain ⟨new, hnew, harr⟩ := hgrows.rx r
    have hframes : (c.arrived r).map RxFrame.eth = s.delivered r ++ (c.rx r).map RxFrame.eth :=
      hkept.frames r
    rw [hnew, harr, List.map_append, List.map_append, hdelivered, ← List.append_assoc]
    congr 1
    show (c.arrived r).map RxFrame.eth =
      s.delivered r ++ (if r = p then [fr.eth] else []) ++ ((c.pop p).rx r).map RxFrame.eth
    by_cases hr : r = p
    · subst hr
      have hpop : (c.pop r).rx r = rest := by
        rw [Chip.pop]
        exact (Function.update_self r _ _).trans (by rw [hrx, List.tail_cons])
      rw [if_pos rfl, hpop, hframes, hrx, List.map_cons, List.append_assoc, List.singleton_append]
    · have hpop : (c.pop p).rx r = c.rx r := Function.update_of_ne hr _ _
      rw [if_neg hr, hpop, hframes, List.append_nil]
  · rw [netRxFrame, if_neg fr.eth_pos.ne']
    exact Or.inr ⟨_, rfl⟩

/-- **A round of the inner loop**, whatever fails. -/
theorem Kept.drain (h : s.Kept) :
    (netRxDrain (chipHal (twoPorts crc mode)) (twoPorts crc mode) sOwnMac now s).Kept ∧
      s.Adds (netRxDrain (chipHal (twoPorts crc mode)) (twoPorts crc mode) sOwnMac now s) := by
  have hpolled := Chip.grows_next (false, adinRegStatus1) s.bridge.adin
  by_cases hready : s.Ready crc
  swap
  · rw [netRxDrain_of_not_ready sOwnMac now hready]
    exact ⟨h.grows hpolled rfl, Or.inl rfl⟩
  by_cases hbuf : s.pool.freeQ.items = []
  · rw [netRxDrain_of_no_buffer sOwnMac now hbuf]
    exact ⟨h.grows hpolled rfl, Or.inl rfl⟩
  obtain ⟨p, hp⟩ := hready.nextPort
  obtain ⟨⟨f, q⟩, halloc⟩ : ∃ r, framePoolAlloc s.pool.freeQ = some r :=
    Option.ne_none_iff_exists'.mp (mt Queue.receive_eq_none_iff.mp hbuf)
  by_cases hf : s.polled.ReadFails crc p
  · have hburst : s.polled.fault crc (false, rxFifoReg p) ≠ .crc := by
      have hkept : (s.withAdin s.polled).Kept := h.grows hpolled rfl
      have hne := hkept.bursts p 0
      rw [Chip.fault]
      split
      · exact Fault.noConfusion
      · exact hne
    obtain ⟨rc, c, hrc, hgrows, hread⟩ := adin2111ReadFrame_error crc mode
      (by decide : adinMaxEthFrame ≤ netMaxFrameLen) hp hf hburst
    rw [netRxDrain, adin2111RxReady_eq, decide_eq_true hready]
    dsimp only
    rw [halloc]
    dsimp only
    rw [hread]
    dsimp only
    rw [if_neg hrc]
    exact ⟨h.grows (hpolled.trans hgrows) rfl, Or.inl rfl⟩
  · obtain ⟨c, fr, rest, hgrows, hrx, heq⟩ := netRxDrain_frame sOwnMac now hready halloc hp hf
    rw [heq]
    exact h.frame hgrows hrx _ f q

/-- **What every step of the task keeps.** -/
theorem Kept.step (h : s.Kept) {a : RxAct}
    (hs : netRxStep (chipHal (twoPorts crc mode)) (twoPorts crc mode) sOwnMac s a = some s') :
    s'.Kept ∧ s.Adds s' := by
  cases a with
  | wake =>
    rw [netRxStep.eq_def] at hs
    dsimp only at hs
    split at hs
    · exact absurd hs (by simp)
    · rw [← Option.some.inj hs]
      exact ⟨h.grows (adin2111IrqAck_grows (twoPorts crc mode) s.bridge.adin) rfl, Or.inl rfl⟩
  | drain now =>
    rw [netRxStep.eq_def] at hs
    dsimp only at hs
    split at hs
    · rw [← Option.some.inj hs]
      exact h.drain
    · exact absurd hs (by simp)

end RxTask

/-! ### The half of the class -/

/-- The data of the call `USBD_ECM_SendFrameBlocking` is in. -/
def SendPc.current : SendPc → List (List Byte)
  | .idle => []
  | .guard data | .drain data | .setZlp data | .transmit data | .wait data | .flush data
  | .clear data => [data]

/-- The data of the call that begins in this step. -/
def SendAct.begins : SendAct → List (List Byte)
  | .call data => [data]
  | _ => []

/-- The data of the call that begins in this step. -/
def EcmAct.begins : EcmAct → List (List Byte)
  | .send a => a.begins
  | _ => []

namespace Uplink

variable {u u' : Uplink}

/-- The data of all calls, the present one included. -/
def begun (u : Uplink) : List (List Byte) := u.calls.map Sending.data ++ u.send.current

/-- Of each call that has returned the host has got nothing or all of its frame. -/
def Whole (u : Uplink) : Prop :=
  ∀ k ∈ u.calls, k.sent = [] ∨ k.sent = frame cdcEcmDataMaxPacketSize k.data

theorem begun_ret (data : List Byte) (ok : Bool) :
    (u.ret data ok).begun = u.calls.map Sending.data ++ [data] := by
  rw [begun, ret, List.map_append, SendPc.current, List.append_nil]
  rfl

/-- **A step of the sending task begins a call, or none.** -/
theorem begun_sendFrameBlocking {c : EcmClass} {a : SendAct}
    (h : sendFrameBlocking c u a = some u') :
    u'.begun = u.begun ++ a.begins := by
  cases sendFrameBlocking_move h with
  | called hpc => simp [begun, hpc, SendPc.current, SendAct.begins]
  | refused hpc | cleared hpc | taken hpc =>
    dsimp only [SendAct.begins]
    rw [begun_ret, List.append_nil, begun, hpc]
    rfl
  | passed hpc | drained hpc | zlpSet hpc | started hpc | notStarted hpc | timedOut hpc
  | flushed hpc =>
    dsimp only [SendAct.begins]
    rw [List.append_nil, begun, begun, hpc]
    rfl
  | transmitNull hpc | flushNull hpc =>
    dsimp only [SendAct.begins]
    rw [List.append_nil]
    rfl

/-- Of the present call the host has got the beginning of its frame. -/
theorem Consistent.delivered_cases (h : u.Consistent) : u.delivered = [] ∨
    ∃ data, u.send.current = [data] ∧ u.delivered <+: frame cdcEcmDataMaxPacketSize data := by
  have hpc := h.pc
  rw [AtPc] at hpc
  cases hsend : u.send with
  | idle | guard =>
    rw [hsend] at hpc
    exact Or.inl hpc.delivered
  | drain | setZlp | transmit =>
    rw [hsend] at hpc
    exact Or.inl hpc.1.delivered
  | wait data | flush data =>
    rw [hsend] at hpc
    exact Or.inr ⟨data, rfl, hpc.2.delivered_isPrefix hpc.1⟩
  | clear data =>
    rw [hsend] at hpc
    exact Or.inr ⟨data, rfl, hpc.2⟩

theorem map_snd_wire (cs : List (Sending Byte)) :
    (wire cs).map Prod.snd = cs.flatMap Sending.sent := by
  rw [wire, List.map_flatMap]
  refine List.flatMap_congr fun k _ => ?_
  rw [Sending.marked, List.map_map]
  exact List.map_id _

/-- Without a frame left off in the middle the host has got whole frames. -/
theorem exists_wholes : ∀ {cs : List (Sending Byte)},
    (∀ k ∈ cs, k.sent = [] ∨ k.sent = frame cdcEcmDataMaxPacketSize k.data) →
      ∃ ls : List (List Byte), ls.Sublist (cs.map Sending.data) ∧
        cs.flatMap Sending.sent = ls.flatMap (frame cdcEcmDataMaxPacketSize) := by
  intro cs
  induction cs with
  | nil => intro _; exact ⟨[], List.Sublist.slnil, rfl⟩
  | cons k cs ih =>
    intro h
    obtain ⟨hk, hcs⟩ := List.forall_mem_cons.mp h
    obtain ⟨ls, hsub, heq⟩ := ih hcs
    rcases hk with hk | hk
    · refine ⟨ls, hsub.trans (List.sublist_cons_self _ _), ?_⟩
      rw [List.flatMap_cons, hk, List.nil_append, heq]
    · refine ⟨k.data :: ls, hsub.cons_cons _, ?_⟩
      rw [List.flatMap_cons, hk, heq, List.flatMap_cons]

/-- **What the host puts together** are frames the task has begun to send, in order. -/
theorem Consistent.frames_sublist (h : u.Consistent) (hwhole : u.Whole) :
    (frames cdcEcmDataMaxPacketSize u.hostIn).Sublist u.begun := by
  have hm : 0 < cdcEcmDataMaxPacketSize := by decide
  obtain ⟨ls, hsub, heq⟩ := exists_wholes hwhole
  rw [← h.host, map_snd_wire, heq, begun]
  rcases h.delivered_cases with hnil | ⟨data, hdata, hpre⟩
  · rw [hnil, List.append_nil, frames_flatMap hm]
    exact hsub.trans (List.sublist_append_left _ _)
  · rw [hdata]
    exact (Packets.frames_sublist hm hpre ls).trans (hsub.append (List.Sublist.refl _))

/-- Between two calls, all of which have returned 0, the host has put all frames together. -/
theorem Consistent.frames_eq (h : u.Consistent) (hidle : u.send = .idle)
    (hok : ∀ k ∈ u.calls, k.ok = true) : frames cdcEcmDataMaxPacketSize u.hostIn = u.begun := by
  have hpc := h.pc
  rw [AtPc, hidle] at hpc
  have hframes : u.calls.flatMap Sending.sent =
      (u.calls.map Sending.data).flatMap (frame cdcEcmDataMaxPacketSize) := by
    rw [List.flatMap_map]
    exact List.flatMap_congr fun k hk => (h.sound k hk).whole (hok k hk)
  rw [← h.host, map_snd_wire, hframes, hpc.delivered, List.append_nil,
    frames_flatMap (by decide), begun, hidle, SendPc.current, List.append_nil]

end Uplink

/-- A step of the class begins a call, or none. -/
theorem begun_ecmStep {m : ℕ} {e e' : Ecm m} {a : EcmAct} (h : ecmSys.step e a = some e') :
    e'.up.begun = e.up.begun ++ a.begins := by
  cases (ecmStep_move h).2 with
  | send hu => exact Uplink.begun_sendFrameBlocking hu
  | inPacket hu =>
    dsimp only [EcmAct.begins]
    rw [List.append_nil, Uplink.begun, Uplink.begun, Uplink.inPacket_frame hu]
  | inDone hu =>
    dsimp only [EcmAct.begins]
    rw [List.append_nil, Uplink.begun, Uplink.begun, Uplink.ecmDataIn_frame hu]
  | init | deInit | kept | opened | closed | dataOut | submit | cmdPacket | cmdDone | tx | link =>
    exact (List.append_nil _).symm

/-! ### The other tasks on the bus -/

section Bus

variable (dev : Adin2111) (sOwnMac : Mac)

theorem linkTaskSweep_grows (now : Word) (b : Bridge Chip) :
    b.adin.Grows (linkTaskSweep (chipHal dev) dev now b).adin := by
  rw [linkTaskSweep]
  generalize List.finRange netFdbMaxEntries = l
  induction l generalizing b with
  | nil => exact Chip.Grows.refl b.adin
  | cons i l ih =>
    rw [List.foldl_cons]
    refine Chip.Grows.trans ?_ (ih _)
    rw [linkTaskAge]
    split
    · exact adin2111FdbClear_grows dev _ b.adin
    · exact Chip.Grows.refl b.adin

/-- Only `net_rx_task` takes frames away. -/
theorem LockedOp.exec_grows (b : Bridge Chip) {op : LockedOp}
    (hop : ∀ buf now, op ≠ .drain buf now) :
    b.adin.Grows (op.exec dev sOwnMac (chipHal dev) b).adin := by
  cases op with
  | ack => exact adin2111IrqAck_grows dev b.adin
  | drain buf now => exact absurd rfl (hop buf now)
  | attempt f port => exact adin2111WriteFrame_grows dev port _ _ b.adin
  | lookup => exact Chip.Grows.refl b.adin
  | poll =>
    have hfirst := adin2111LinkUp_grows dev .port1 b.adin
    dsimp only [exec]
    split
    · exact hfirst.trans (adin2111LinkUp_grows dev .port2 _)
    · exact hfirst
  | age now => exact linkTaskSweep_grows dev now b

end Bus

/-! ### Both halves -/

namespace UpPath

variable {n m : ℕ} {s s' : UpPath n m} {crc : Bool} {mode : Mode} {sOwnMac : Mac}

/-- `ECM_DeInit` does not come while a send is past its guard. -/
def Calm (s : UpPath n m) : UpAct → Prop
  | .usb a => NoDeInitInSend s.ecm a
  | _ => True

instance (s : UpPath n m) : ∀ a, Decidable (s.Calm a)
  | .usb a => decidableNoDeInitInSend s.ecm a
  | .task _ | .bus _ => isTrue trivial

/-- The invariant: the frames handed over are those the class has been called with. -/
structure Linked (s : UpPath n m) : Prop where
  task : s.task.Kept
  ecm : s.ecm.UplinkSafe
  handed : s.ecm.up.begun = s.task.sent.map NetFrame.bytes

/-- **Everything a step can do.** -/
theorem upStep_cases {dev : Adin2111} {a : UpAct} (h : upStep dev sOwnMac s a = some s') :
    (∃ b e, a = .usb b ∧ b.begins = [] ∧ ecmSys.step s.ecm b = some e ∧
        s' = { s with ecm := e }) ∨
      (∃ b t, a = .task b ∧ netRxStep (chipHal dev) dev sOwnMac s.task b = some t ∧
        s.handOver t = some s') ∨
      ∃ op, a = .bus op ∧ (∀ buf now, op ≠ .drain buf now) ∧
        s' = { s with
          task := { s.task with bridge := op.exec dev sOwnMac (chipHal dev) s.task.bridge } } := by
  unfold upStep at h
  split at h
  · exact absurd h (by simp)
  · next b hb =>
    obtain ⟨e, he, rfl⟩ := Option.map_eq_some_iff.mp h
    refine Or.inl ⟨b, e, rfl, ?_, he, rfl⟩
    cases b with
    | send c =>
      cases c with
      | call data => exact absurd rfl (hb data)
      | guard | drain | setZlp | transmit | take | timeout | flush | clear => rfl
    | init | deInit | setInterface | dataOut | submit | inPacket | inDone | cmdPacket | cmdDone
    | tx | link => rfl
  · next b =>
    split at h
    · obtain ⟨t, ht, hs⟩ := Option.bind_eq_some_iff.mp h
      exact Or.inr (Or.inl ⟨b, t, rfl, ht, hs⟩)
    · exact absurd h (by simp)
  · exact absurd h (by simp)
  · exact absurd h (by simp)
  · next op _ hop => exact Or.inr (Or.inr ⟨op, rfl, hop, (Option.some.inj h).symm⟩)

/-- **A frame goes from one half to the other.** -/
theorem Linked.handOver (h : s.Linked) {t : RxTask n Chip} (ht : t.Kept) (hadds : s.task.Adds t)
    (hs : s.handOver t = some s') : s'.Linked := by
  rw [UpPath.handOver] at hs
  rcases hadds with hsame | ⟨f, hmore⟩
  · rw [hsame, List.drop_length] at hs
    rw [← Option.some.inj hs]
    exact ⟨ht, h.ecm, by rw [h.handed, hsame]⟩
  · rw [hmore, List.drop_left] at hs
    obtain ⟨e, he, rfl⟩ := Option.map_eq_some_iff.mp hs
    have he : ecmSys.step s.ecm (.send (.call f.bytes)) = some e := he
    refine ⟨ht, h.ecm.step (fun hdeInit => absurd hdeInit (by simp)) he, ?_⟩
    rw [begun_ecmStep he, h.handed, hmore, List.map_append]
    rfl

/-- **Every step.** -/
theorem Linked.step (h : s.Linked) {a : UpAct} (hcalm : s.Calm a)
    (hs : (upSys (twoPorts crc mode) sOwnMac).step s a = some s') : s'.Linked := by
  rcases upStep_cases hs with ⟨b, e, rfl, hb, he, rfl⟩ | ⟨b, t, rfl, ht, hover⟩ |
    ⟨op, rfl, hop, rfl⟩
  · refine ⟨h.task, h.ecm.step hcalm he, ?_⟩
    rw [begun_ecmStep he, hb, List.append_nil]
    exact h.handed
  · obtain ⟨hkept, hadds⟩ := h.task.step ht
    exact h.handOver hkept hadds hover
  · exact ⟨h.task.grows (LockedOp.exec_grows _ _ _ hop) rfl, h.ecm, h.handed⟩

variable {rxPool : FramePool n} {txPool : FramePool m} {sInDone : Option Bool} {fdb : Fdb}
  {c : Chip}

theorem linked_start (hbursts : ∀ p k, c.faults (false, rxFifoReg p) k ≠ .crc)
    (harrived : c.arrived = c.rx) : (start rxPool txPool sInDone fdb c).Linked where
  task := ⟨hbursts, fun p => by
    show (c.arrived p).map RxFrame.eth = [] ++ (c.rx p).map RxFrame.eth
    rw [harrived, List.nil_append]⟩
  ecm := Ecm.uplinkSafe_start txPool sInDone
  handed := rfl

theorem linked_of_run (hbursts : ∀ p k, c.faults (false, rxFifoReg p) k ≠ .crc)
    (harrived : c.arrived = c.rx) {as : List UpAct}
    (hrun : (upSys (twoPorts crc mode) sOwnMac).run (start rxPool txPool sInDone fdb c) as = some s)
    (hcalm : (upSys (twoPorts crc mode) sOwnMac).Along (fun s a _ => s.Calm a)
      (start rxPool txPool sInDone fdb c) as) : s.Linked :=
  Lts.run_invariant (fun _ _ _ h hg hs => h.step hg hs) (linked_start hbursts harrived) hcalm hrun

end UpPath

/-- **From the wire to the host.**  In every run of the uplink from start-up on, in whatever order
arrivals, the tasks, the USB core and the host take their steps, whichever transactions fail
(except that no burst is damaged) and whichever sends time out: the frames handed over from a port
are the first of those that have arrived there; and if no send has been given up in the middle of
a frame, what the host puts together are frames handed over, each at most once, in order and byte
for byte. -/
theorem wire_to_host {n m : ℕ} (crc : Bool) (mode : Mode) (sOwnMac : Mac) {rxPool : FramePool n}
    {txPool : FramePool m} {sInDone : Option Bool} {fdb : Fdb} {c : Chip}
    (hbursts : ∀ p k, c.faults (false, rxFifoReg p) k ≠ .crc) (harrived : c.arrived = c.rx)
    {as : List UpAct} {s : UpPath n m}
    (hrun : (upSys (twoPorts crc mode) sOwnMac).run (UpPath.start rxPool txPool sInDone fdb c) as =
      some s)
    (hcalm : (upSys (twoPorts crc mode) sOwnMac).Along (fun s a _ => s.Calm a)
      (UpPath.start rxPool txPool sInDone fdb c) as) :
    (∀ p, s.task.delivered p <+: (s.task.bridge.adin.arrived p).map RxFrame.eth) ∧
      (s.ecm.up.Whole →
        (frames cdcEcmDataMaxPacketSize s.ecm.up.hostIn).Sublist
          (s.task.sent.map NetFrame.bytes)) := by
  have h := UpPath.linked_of_run hbursts harrived hrun hcalm
  refine ⟨fun p => ⟨_, (h.task.frames p).symm⟩, fun hwhole => ?_⟩
  rw [← h.handed]
  exact h.ecm.up.frames_sublist hwhole

/-- A frame of so many packets is sent, and `link_task` uses the bus meanwhile. -/
def frameSent (packets : ℕ) : List UpAct :=
  [.usb (.send .guard), .usb (.send .drain), .usb (.send .setZlp), .usb (.send (.transmit true)),
    .bus .poll] ++ List.replicate packets (.usb .inPacket) ++
      [.usb (.inDone true), .usb (.send .take)]

/-- The data interface is opened, and the frames that wait in `twoWaiting` go to the host. -/
def twoThrough : List UpAct :=
  [.usb .init, .usb (.setInterface 1 1), .task .wake, .task (.drain 0)] ++ frameSent 2 ++
    [.task (.drain 1)] ++ frameSent 1

/-- The board before that. -/
def twoWaitingUp : UpPath netRxPoolCount netTxPoolCount :=
  UpPath.start (freshPool netRxPoolCount) (freshPool netTxPoolCount) (some false) emptyFdb
    twoWaiting

theorem noBurstDamaged (p : Port) (k : ℕ) : twoWaiting.faults (false, rxFifoReg p) k ≠ .crc :=
  show Fault.none ≠ .crc by decide

theorem wire_to_host_twoWaiting : ∃ s,
    (upSys (twoPorts true .switch) fun _ => 0).run twoWaitingUp twoThrough = some s ∧
      s.ecm.up.hostIn = [List.replicate 64 7, List.replicate 36 7, [0x2A]] ∧
        (frames cdcEcmDataMaxPacketSize s.ecm.up.hostIn).Sublist
          (s.task.sent.map NetFrame.bytes) := by
  have hsummary : ((upSys (twoPorts true .switch) fun _ => 0).run twoWaitingUp twoThrough).map
      (fun s => (s.ecm.up.hostIn, s.ecm.up.calls.map fun k => (k.data, k.sent))) =
        some ([List.replicate 64 7, List.replicate 36 7, [0x2A]],
          [(List.replicate 100 7, [List.replicate 64 7, List.replicate 36 7]),
            ([0x2A], [[0x2A]])]) := by decide +kernel
  obtain ⟨s, hrun, hs⟩ := Option.map_eq_some_iff.mp hsummary
  obtain ⟨hhost, hcalls⟩ := Prod.mk.inj hs
  refine ⟨s, hrun, hhost, (wire_to_host true .switch (fun _ => 0) noBurstDamaged rfl hrun
    (by decide +kernel)).2 fun k hk => Or.inr ?_⟩
  have hmem := List.mem_map_of_mem (f := fun k => (k.data, k.sent)) hk
  rw [hcalls, List.mem_pair] at hmem
  rcases hmem with hk | hk <;> obtain ⟨hdata, hsent⟩ := Prod.mk.inj hk
  · rw [hdata, hsent]
    decide
  · rw [hdata, hsent]
    decide

/-- **From the wire to the host, and nothing missing.**  If in such a run every send has returned 0
and `net_rx_task` is in none, then the host has put together exactly the frames handed over, in
order; and if nothing is queued in the device either, then these are, port by port, all that have
arrived. -/
theorem wire_to_host_exact {n m : ℕ} (crc : Bool) (mode : Mode) (sOwnMac : Mac)
    {rxPool : FramePool n} {txPool : FramePool m} {sInDone : Option Bool} {fdb : Fdb} {c : Chip}
    (hbursts : ∀ p k, c.faults (false, rxFifoReg p) k ≠ .crc) (harrived : c.arrived = c.rx)
    {as : List UpAct} {s : UpPath n m}
    (hrun : (upSys (twoPorts crc mode) sOwnMac).run (UpPath.start rxPool txPool sInDone fdb c) as =
      some s)
    (hcalm : (upSys (twoPorts crc mode) sOwnMac).Along (fun s a _ => s.Calm a)
      (UpPath.start rxPool txPool sInDone fdb c) as)
    (hidle : s.ecm.up.send = .idle) (hok : ∀ k ∈ s.ecm.up.calls, k.ok = true) :
    frames cdcEcmDataMaxPacketSize s.ecm.up.hostIn = s.task.sent.map NetFrame.bytes ∧
      ((∀ p, s.task.bridge.adin.rx p = []) →
        ∀ p, s.task.delivered p = (s.task.bridge.adin.arrived p).map RxFrame.eth) := by
  have h := UpPath.linked_of_run hbursts harrived hrun hcalm
  refine ⟨(h.ecm.up.frames_eq hidle hok).trans h.handed, fun hempty p => ?_⟩
  rw [h.task.frames p, hempty p, List.map_nil, List.append_nil]

theorem wire_to_host_exact_twoWaiting : ∃ s,
    (upSys (twoPorts true .switch) fun _ => 0).run twoWaitingUp twoThrough = some s ∧
      s.task.sent.length = 2 ∧
      frames cdcEcmDataMaxPacketSize s.ecm.up.hostIn = s.task.sent.map NetFrame.bytes ∧
        ∀ p, s.task.delivered p = (s.task.bridge.adin.arrived p).map RxFrame.eth := by
  have hsummary : ((upSys (twoPorts true .switch) fun _ => 0).run twoWaitingUp twoThrough).map
      (fun s => (s.task.sent.length, s.ecm.up.calls.map Sending.ok, s.ecm.up.send.current,
        (s.task.bridge.adin.rx .port1).isEmpty, (s.task.bridge.adin.rx .port2).isEmpty)) =
        some (2, [true, true], [], true, true) := by decide +kernel
  obtain ⟨s, hrun, hs⟩ := Option.map_eq_some_iff.mp hsummary
  simp only [Prod.mk.injEq, List.isEmpty_iff] at hs
  obtain ⟨htwo, hcalls, hcurrent, hport1, hport2⟩ := hs
  have hidle : s.ecm.up.send = .idle := by
    cases hsend : s.ecm.up.send with
    | idle => rfl
    | guard | drain | setZlp | transmit | wait | flush | clear =>
      rw [hsend] at hcurrent
      exact absurd hcurrent (by simp [SendPc.current])
  obtain ⟨hhost, hall⟩ := wire_to_host_exact true .switch (fun _ => 0) noBurstDamaged rfl
    hrun (by decide +kernel) hidle fun k hk => by
      have hmem := List.mem_map_of_mem (f := Sending.ok) hk
      simpa [hcalls] using hmem
  refine ⟨s, hrun, htwo, hhost, hall fun p => ?_⟩
  cases p with
  | port1 => exact hport1
  | port2 => exact hport2

end Usb2T1L
