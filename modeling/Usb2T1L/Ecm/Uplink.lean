import Usb2T1L.Ecm.Class
import Usb2T1L.Lib.Packets

/-!
# Uplink transfers

`USBD_ECM_SendFrameBlocking`, step by step, against the bulk IN endpoint and the
bulk IN part of `ECM_DataIn`.  A transfer is what is left of it to be sent, packet by
packet; flushing or closing the endpoint cancels it.

The calls made so far with what the host got of each, the packets the host got and
the completions are not in the program: they say what it is about.

## Main definitions

* `Uplink` — the statics, the endpoint and the place of the sending task.
* `sendFrameBlocking`, `Uplink.inPacket`, `Uplink.ecmDataIn` — the task, the endpoint, the callback.
* `SendMove` — everything a step of the task can do.
* `Uplink.Phase`, `Uplink.Consistent` — how far a call has come, and the invariant.

## Main results

* `Consistent.sendFrameBlocking`, `Consistent.inPacket`, `Consistent.ecmDataIn` — every step
  keeps the invariant.
* `Consistent.take` — **a call returns 0 only for its own transfers.**
-/

namespace Usb2T1L

open Packets

/-- A transfer on the bulk IN endpoint. -/
structure InXfer where
  /-- The number of the call it was started for. -/
  call : ℕ
  /-- It is the zero-length terminator, and not from the caller's buffer. -/
  zlp : Bool
  /-- The packets the host has not got yet. -/
  packets : List (List Byte)

/-- Where `USBD_ECM_SendFrameBlocking` is, with the `data` it was called with. -/
inductive SendPc
  | idle
  | guard (data : List Byte)
  | drain (data : List Byte)
  | setZlp (data : List Byte)
  | transmit (data : List Byte)
  /-- Waiting for `s_in_done`. -/
  | wait (data : List Byte)
  /-- The wait has timed out. -/
  | flush (data : List Byte)
  /-- About to clear `s_in_zlp` and return -1. -/
  | clear (data : List Byte)

/-- The guard has been passed: the handle is going to be used. -/
def SendPc.pastGuard : SendPc → Bool
  | .idle | .guard _ => false
  | _ => true

/-- The uplink half of `usbd_ecm.c`. -/
structure Uplink where
  /-- The semaphore `s_in_done`, if it is not NULL. -/
  sInDone : Option Bool
  sInZlp : Bool
  /-- The transfer in flight on the bulk IN endpoint. -/
  inXfer : Option InXfer
  send : SendPc
  /-- A call into the USB core was made with a NULL handle. -/
  nullCall : Bool
  /-- The packets the host got, all of them and since the present call began. -/
  hostIn : List (List Byte)
  delivered : List (List Byte)
  /-- The transfers completed: of which call, and whether it was its terminator. -/
  completed : List (ℕ × Bool)
  /-- The calls that have returned, `ok` for 0, with what the host got of each. -/
  calls : List (Sending Byte)

/-- A step of the sending task; `ok` is whether `USBD_LL_Transmit` succeeds. -/
inductive SendAct
  | call (data : List Byte)
  | guard
  | drain
  | setZlp
  | transmit (ok : Bool)
  | take
  | timeout
  | flush
  | clear
  deriving DecidableEq

namespace Uplink

/-- Before the first call. -/
def start (sInDone : Option Bool) : Uplink := ⟨sInDone, false, none, .idle, false, [], [], [], []⟩

/-- Return from `USBD_ECM_SendFrameBlocking`. -/
def ret (u : Uplink) (data : List Byte) (ok : Bool) : Uplink :=
  { u with send := .idle, delivered := [], calls := u.calls ++ [⟨data, u.delivered, ok⟩] }

/-- `USBD_LL_CloseEP` and `USBD_LL_FlushEP` on the bulk IN endpoint. -/
def cancel (u : Uplink) : Uplink := { u with inXfer := none }

/-- `ECM_Init`, as far as the uplink is concerned. -/
def init (u : Uplink) : Uplink := { u with sInZlp := false }

/-- The host takes the next packet of the transfer. -/
def inPacket (u : Uplink) : Option Uplink :=
  match u.inXfer with
  | some ⟨call, zlp, p :: ps⟩ =>
    some { u with
      inXfer := some ⟨call, zlp, ps⟩
      hostIn := u.hostIn ++ [p]
      delivered := u.delivered ++ [p] }
  | _ => none

/-- The bulk IN part of `ECM_DataIn`, when a transfer is complete; `ok` is whether its
`USBD_LL_Transmit` of the terminator succeeds, which it does not look at. -/
def ecmDataIn (u : Uplink) (ok : Bool) : Option Uplink :=
  match u.inXfer with
  | some ⟨call, zlp, []⟩ =>
    some (
      if u.sInZlp = true then
        { u with
          sInZlp := false
          inXfer := if ok then some ⟨call, true, packets cdcEcmDataMaxPacketSize []⟩ else none
          completed := u.completed ++ [(call, zlp)] }
      else
        { u with
          sInDone := u.sInDone.map fun _ => true
          inXfer := none
          completed := u.completed ++ [(call, zlp)] })
  | _ => none

end Uplink

/-- A step of `USBD_ECM_SendFrameBlocking`. -/
def sendFrameBlocking (c : EcmClass) (u : Uplink) : SendAct → Option Uplink
  | .call data =>
    match u.send with
    | .idle => if data.length < 2 ^ 16 then some { u with send := .guard data } else none
    | _ => none
  | .guard =>
    match u.send with
    | .guard data =>
      if c.sReady = false ∨ c.sPdev = false ∨ u.sInDone = none ∨ data = [] then
        some (u.ret data false)
      else some { u with send := .drain data }
    | _ => none
  | .drain =>
    match u.send with
    | .drain data => some { u with sInDone := some false, send := .setZlp data }
    | _ => none
  | .setZlp =>
    match u.send with
    | .setZlp data =>
      some { u with
        sInZlp := decide (data.length % cdcEcmDataMaxPacketSize = 0)
        send := .transmit data }
    | _ => none
  | .transmit ok =>
    match u.send with
    | .transmit data =>
      if c.sPdev = false then some { u with nullCall := true }
      else if ok = true then
        some { u with
          inXfer := some ⟨u.calls.length, false, packets cdcEcmDataMaxPacketSize data⟩
          send := .wait data }
      else some { u with send := .clear data }
    | _ => none
  | .take =>
    match u.send with
    | .wait data =>
      if u.sInDone = some true then some ({ u with sInDone := some false }.ret data true) else none
    | _ => none
  | .timeout =>
    match u.send with
    | .wait data => if u.sInDone = some true then none else some { u with send := .flush data }
    | _ => none
  | .flush =>
    match u.send with
    | .flush data =>
      if c.sPdev = false then some { u with nullCall := true }
      else some { u.cancel with send := .clear data }
    | _ => none
  | .clear =>
    match u.send with
    | .clear data => some ({ u with sInZlp := false }.ret data false)
    | _ => none

/-- **Everything a step of the sending task can do.** -/
inductive SendMove (c : EcmClass) (u : Uplink) : SendAct → Uplink → Prop
  | called {data : List Byte} (hpc : u.send = .idle) (hlen : data.length < 2 ^ 16) :
      SendMove c u (.call data) { u with send := .guard data }
  | refused {data : List Byte} (hpc : u.send = .guard data) :
      SendMove c u .guard (u.ret data false)
  | passed {data : List Byte} (hpc : u.send = .guard data) (hready : c.sReady = true)
      (hpdev : c.sPdev = true) (hne : data ≠ []) :
      SendMove c u .guard { u with send := .drain data }
  | drained {data : List Byte} (hpc : u.send = .drain data) :
      SendMove c u .drain { u with sInDone := some false, send := .setZlp data }
  | zlpSet {data : List Byte} (hpc : u.send = .setZlp data) :
      SendMove c u .setZlp { u with
        sInZlp := decide (data.length % cdcEcmDataMaxPacketSize = 0)
        send := .transmit data }
  | transmitNull {data : List Byte} {ok : Bool} (hpc : u.send = .transmit data)
      (hnull : c.sPdev = false) : SendMove c u (.transmit ok) { u with nullCall := true }
  | started {data : List Byte} (hpc : u.send = .transmit data) (hpdev : c.sPdev = true) :
      SendMove c u (.transmit true) { u with
        inXfer := some ⟨u.calls.length, false, packets cdcEcmDataMaxPacketSize data⟩
        send := .wait data }
  | notStarted {data : List Byte} (hpc : u.send = .transmit data) (hpdev : c.sPdev = true) :
      SendMove c u (.transmit false) { u with send := .clear data }
  | taken {data : List Byte} (hpc : u.send = .wait data) (hdone : u.sInDone = some true) :
      SendMove c u .take ({ u with sInDone := some false }.ret data true)
  | timedOut {data : List Byte} (hpc : u.send = .wait data) (hdone : u.sInDone ≠ some true) :
      SendMove c u .timeout { u with send := .flush data }
  | flushNull {data : List Byte} (hpc : u.send = .flush data) (hnull : c.sPdev = false) :
      SendMove c u .flush { u with nullCall := true }
  | flushed {data : List Byte} (hpc : u.send = .flush data) (hpdev : c.sPdev = true) :
      SendMove c u .flush { u.cancel with send := .clear data }
  | cleared {data : List Byte} (hpc : u.send = .clear data) :
      SendMove c u .clear ({ u with sInZlp := false }.ret data false)

theorem sendFrameBlocking_move {c : EcmClass} {u u' : Uplink} {a : SendAct}
    (h : sendFrameBlocking c u a = some u') : SendMove c u a u' := by
  unfold sendFrameBlocking at h
  cases a with
  | call data =>
    simp only at h
    split at h
    · next hpc =>
      split_ifs at h with hlen
      obtain rfl := Option.some.inj h
      exact .called hpc hlen
    · exact absurd h (by simp)
  | guard =>
    simp only at h
    split at h
    · next data hpc =>
      split_ifs at h with hc
      · obtain rfl := Option.some.inj h
        exact .refused hpc
      · obtain rfl := Option.some.inj h
        rw [not_or, not_or, not_or] at hc
        exact .passed hpc (Bool.eq_true_of_not_eq_false hc.1)
          (Bool.eq_true_of_not_eq_false hc.2.1) hc.2.2.2
    · exact absurd h (by simp)
  | drain =>
    simp only at h
    split at h
    · next data hpc =>
      obtain rfl := Option.some.inj h
      exact .drained hpc
    · exact absurd h (by simp)
  | setZlp =>
    simp only at h
    split at h
    · next data hpc =>
      obtain rfl := Option.some.inj h
      exact .zlpSet hpc
    · exact absurd h (by simp)
  | transmit ok =>
    simp only at h
    split at h
    · next data hpc =>
      split_ifs at h with hnull hok
      · obtain rfl := Option.some.inj h
        exact .transmitNull hpc hnull
      · obtain rfl := Option.some.inj h
        rw [hok]
        exact .started hpc (Bool.eq_true_of_not_eq_false hnull)
      · obtain rfl := Option.some.inj h
        rw [Bool.eq_false_of_not_eq_true hok]
        exact .notStarted hpc (Bool.eq_true_of_not_eq_false hnull)
    · exact absurd h (by simp)
  | take =>
    simp only at h
    split at h
    · next data hpc =>
      split_ifs at h with hdone
      obtain rfl := Option.some.inj h
      exact .taken hpc hdone
    · exact absurd h (by simp)
  | timeout =>
    simp only at h
    split at h
    · next data hpc =>
      split_ifs at h with hdone
      obtain rfl := Option.some.inj h
      exact .timedOut hpc hdone
    · exact absurd h (by simp)
  | flush =>
    simp only at h
    split at h
    · next data hpc =>
      split_ifs at h with hnull
      · obtain rfl := Option.some.inj h
        exact .flushNull hpc hnull
      · obtain rfl := Option.some.inj h
        exact .flushed hpc (Bool.eq_true_of_not_eq_false hnull)
    · exact absurd h (by simp)
  | clear =>
    simp only at h
    split at h
    · next data hpc =>
      obtain rfl := Option.some.inj h
      exact .cleared hpc
    · exact absurd h (by simp)

namespace Uplink

/-- What the host taking a packet leaves alone. -/
theorem inPacket_frame {u u' : Uplink} (h : u.inPacket = some u') :
    u' = { u with inXfer := u'.inXfer, hostIn := u'.hostIn, delivered := u'.delivered } := by
  unfold inPacket at h
  split at h
  · obtain rfl := Option.some.inj h
    rfl
  · exact absurd h (by simp)

/-- What a completion leaves alone. -/
theorem ecmDataIn_frame {u u' : Uplink} {ok : Bool} (h : u.ecmDataIn ok = some u') :
    u' = { u with
      sInDone := u'.sInDone
      sInZlp := u'.sInZlp
      inXfer := u'.inXfer
      completed := u'.completed } := by
  unfold ecmDataIn at h
  split at h
  · obtain rfl := Option.some.inj h
    split <;> rfl
  · exact absurd h (by simp)

/-- The guard is passed only with a handle. -/
theorem pastGuard_of_sendFrameBlocking {c : EcmClass} {u u' : Uplink} {a : SendAct}
    (h : sendFrameBlocking c u a = some u') (hpast : u'.send.pastGuard = true) :
    u.send.pastGuard = true ∨ c.sPdev = true := by
  cases sendFrameBlocking_move h with
  | called | refused | taken | cleared => exact absurd hpast Bool.false_ne_true
  | passed _ _ hpdev => exact Or.inr hpdev
  | transmitNull | flushNull => exact Or.inl hpast
  | drained hpc | zlpSet hpc | started hpc | notStarted hpc | timedOut hpc | flushed hpc =>
    rw [hpc]
    exact Or.inl rfl

/-! ### How far a call has come -/

/-- What has become of a call with `data` since its transmit. -/
inductive Phase (u : Uplink) (data : List Byte) : Prop
  /-- Its data are on their way. -/
  | sending (ps : List (List Byte)) (hx : u.inXfer = some ⟨u.calls.length, false, ps⟩)
      (hps : u.delivered ++ ps = packets cdcEcmDataMaxPacketSize data)
      (hzlp : u.sInZlp = decide (data.length % cdcEcmDataMaxPacketSize = 0))
      (hdone : u.sInDone = some false)
  /-- Its data have arrived and its terminator is on its way. -/
  | terminating (ps : List (List Byte)) (hx : u.inXfer = some ⟨u.calls.length, true, ps⟩)
      (hps : u.delivered ++ ps = frame cdcEcmDataMaxPacketSize data)
      (hzlp : u.sInZlp = false) (hdone : u.sInDone = some false)
      (hdata : (u.calls.length, false) ∈ u.completed)
  /-- All of it has arrived. -/
  | complete (hx : u.inXfer = none) (hps : u.delivered = frame cdcEcmDataMaxPacketSize data)
      (hdata : (u.calls.length, false) ∈ u.completed)
      (hterm : data.length % cdcEcmDataMaxPacketSize = 0 → (u.calls.length, true) ∈ u.completed)
  /-- The transfer was cancelled, or the terminator could not be sent. -/
  | broken (hx : u.inXfer = none) (hps : u.delivered <+: frame cdcEcmDataMaxPacketSize data)
      (hdone : u.sInDone = some false)

/-- Where the calls stand when no transfer has been started. -/
structure Quiet (u : Uplink) : Prop where
  inXfer : u.inXfer = none
  delivered : u.delivered = []

/-- What holds at each place of the sending task. -/
def AtPc (u : Uplink) : Prop :=
  match u.send with
  | .idle | .guard _ => u.Quiet
  | .drain data => u.Quiet ∧ data ≠ []
  | .setZlp data => u.Quiet ∧ data ≠ [] ∧ u.sInDone = some false
  | .transmit data => u.Quiet ∧ data ≠ [] ∧ u.sInDone = some false ∧
      u.sInZlp = decide (data.length % cdcEcmDataMaxPacketSize = 0)
  | .wait data | .flush data => data ≠ [] ∧ u.Phase data
  | .clear data => u.inXfer = none ∧ u.delivered <+: frame cdcEcmDataMaxPacketSize data

/-- The invariant of the uplink. -/
structure Consistent (u : Uplink) : Prop where
  pc : u.AtPc
  /-- What the host got of each call is a front part of its frame, and all of it if
  the call returned 0. -/
  sound : ∀ c ∈ u.calls, c.Sound cdcEcmDataMaxPacketSize
  /-- The host got the packets of the calls, one call after the other. -/
  host : (wire u.calls).map Prod.snd ++ u.delivered = u.hostIn

/-- **Returning**: the call joins the others with what the host got of it. -/
theorem Consistent.ret {u : Uplink} (h : u.Consistent) {data : List Byte} {ok : Bool}
    (hx : u.inXfer = none) (hpart : u.delivered <+: frame cdcEcmDataMaxPacketSize data)
    (hall : ok = true → u.delivered = frame cdcEcmDataMaxPacketSize data) :
    (u.ret data ok).Consistent where
  pc := ⟨hx, rfl⟩
  sound := by
    intro c hc
    rcases List.mem_append.mp hc with hc | hc
    · exact h.sound c hc
    · rw [List.mem_singleton.mp hc]
      exact ⟨hpart, hall⟩
  host := by
    have hmarked : (Sending.marked ⟨data, u.delivered, ok⟩).map Prod.snd = u.delivered := by
      rw [Sending.marked, List.map_map]
      exact List.map_id _
    show (wire (u.calls ++ [_])).map Prod.snd ++ [] = u.hostIn
    rw [wire_concat, List.map_append, hmarked, List.append_nil]
    exact h.host

/-- A step that only moves on in `USBD_ECM_SendFrameBlocking`. -/
theorem Consistent.goto {u u' : Uplink} (h : u.Consistent) (hpc : u'.AtPc)
    (hcalls : u'.calls = u.calls) (hdel : u'.delivered = u.delivered)
    (hhost : u'.hostIn = u.hostIn) : u'.Consistent where
  pc := hpc
  sound := hcalls ▸ h.sound
  host := by rw [hcalls, hdel, hhost]; exact h.host

/-- **A call returns 0 only for its own transfers.** -/
theorem Consistent.take {u : Uplink} (h : u.Consistent) {data : List Byte}
    (hpc : u.send = .wait data) (hdone : u.sInDone = some true) :
    u.inXfer = none ∧ u.delivered = frame cdcEcmDataMaxPacketSize data ∧
      (u.calls.length, false) ∈ u.completed ∧
        (data.length % cdcEcmDataMaxPacketSize = 0 → (u.calls.length, true) ∈ u.completed) := by
  have hat := h.pc
  rw [AtPc, hpc] at hat
  -- only when all of it has arrived is the semaphore given
  rcases hat.2 with ⟨ps, -, -, -, hd⟩ | ⟨ps, -, -, -, hd, -⟩ | ⟨hx, hps, hdata, hterm⟩ | ⟨-, -, hd⟩
  · exact absurd (hd.symm.trans hdone) (by simp)
  · exact absurd (hd.symm.trans hdone) (by simp)
  · exact ⟨hx, hps, hdata, hterm⟩
  · exact absurd (hd.symm.trans hdone) (by simp)

/-- Nothing in a phase is about the place of the task. -/
theorem Phase.goto {u u' : Uplink} {data : List Byte} (h : u.Phase data)
    (heq : u' = { u with send := u'.send, nullCall := u'.nullCall }) : u'.Phase data := by
  rw [heq]
  rcases h with ⟨ps, hx, hps, hzlp, hd⟩ | ⟨ps, hx, hps, hzlp, hd, hdata⟩ | ⟨hx, hps, hdata, hterm⟩ |
    ⟨hx, hps, hd⟩
  · exact .sending ps hx hps hzlp hd
  · exact .terminating ps hx hps hzlp hd hdata
  · exact .complete hx hps hdata hterm
  · exact .broken hx hps hd

/-- A call with a NULL handle is noted; the task is where it was. -/
theorem Consistent.fault {u : Uplink} (h : u.Consistent) :
    ({ u with nullCall := true } : Uplink).Consistent := by
  refine h.goto ?_ rfl rfl rfl
  have hat := h.pc
  unfold AtPc at hat ⊢
  cases hpc : u.send <;> rw [hpc] at hat
  case idle | guard => exact ⟨hat.1, hat.2⟩
  case drain | setZlp | transmit => exact ⟨⟨hat.1.1, hat.1.2⟩, hat.2⟩
  case wait | flush => exact ⟨hat.1, hat.2.goto rfl⟩
  case clear => exact hat

/-- In every phase the host has got a front part of the frame. -/
theorem Phase.delivered_isPrefix {u : Uplink} {data : List Byte} (hne : data ≠ [])
    (h : u.Phase data) : u.delivered <+: frame cdcEcmDataMaxPacketSize data := by
  rcases h with ⟨ps, -, hps, -, -⟩ | ⟨ps, -, hps, -, -, -⟩ | ⟨-, hps, -, -⟩ | ⟨-, hps, -⟩
  · rw [← packets_frame hne, ← hps, List.append_assoc]
    exact List.prefix_append _ _
  · rw [← hps]
    exact List.prefix_append _ _
  · rw [hps]
  · exact hps

/-- **Every step of the sending task keeps the invariant.** -/
theorem Consistent.sendFrameBlocking {u u' : Uplink} (h : u.Consistent) {c : EcmClass} {a : SendAct}
    (hs : Usb2T1L.sendFrameBlocking c u a = some u') : u'.Consistent := by
  have hat := h.pc
  unfold AtPc at hat
  cases sendFrameBlocking_move hs with
  | called hpc =>
    rw [hpc] at hat
    exact h.goto ⟨hat.1, hat.2⟩ rfl rfl rfl
  | refused hpc =>
    rw [hpc] at hat
    exact h.ret hat.1 (by rw [hat.2]; exact List.nil_prefix) fun hf => absurd hf (by simp)
  | passed hpc _ _ hne =>
    rw [hpc] at hat
    exact h.goto ⟨⟨hat.1, hat.2⟩, hne⟩ rfl rfl rfl
  | drained hpc =>
    rw [hpc] at hat
    exact h.goto ⟨⟨hat.1.1, hat.1.2⟩, hat.2, rfl⟩ rfl rfl rfl
  | zlpSet hpc =>
    rw [hpc] at hat
    exact h.goto ⟨⟨hat.1.1, hat.1.2⟩, hat.2.1, hat.2.2, rfl⟩ rfl rfl rfl
  | transmitNull | flushNull => exact h.fault
  | started hpc =>
    rw [hpc] at hat
    obtain ⟨⟨hx, hdel⟩, hne, hdone, hzlp⟩ := hat
    refine h.goto ⟨hne, .sending _ rfl ?_ hzlp hdone⟩ rfl rfl rfl
    show u.delivered ++ _ = _
    rw [hdel]
    rfl
  | notStarted hpc =>
    rw [hpc] at hat
    obtain ⟨⟨hx, hdel⟩, -⟩ := hat
    refine h.goto ⟨hx, ?_⟩ rfl rfl rfl
    show u.delivered <+: _
    rw [hdel]
    exact List.nil_prefix
  | taken hpc hdone =>
    obtain ⟨hx, hps, -, -⟩ := h.take hpc hdone
    have h' : ({ u with sInDone := some false, send := .clear _ } : Uplink).Consistent :=
      h.goto ⟨hx, by rw [hps]⟩ rfl rfl rfl
    exact h'.ret hx (by rw [hps]) fun _ => hps
  | timedOut hpc =>
    rw [hpc] at hat
    exact h.goto ⟨hat.1, hat.2.goto rfl⟩ rfl rfl rfl
  | flushed hpc =>
    rw [hpc] at hat
    have hpart := hat.2.delivered_isPrefix hat.1
    exact h.goto ⟨rfl, hpart⟩ rfl rfl rfl
  | cleared hpc =>
    rw [hpc] at hat
    have h' : ({ u with sInZlp := false, send := .clear _ } : Uplink).Consistent :=
      h.goto hat rfl rfl rfl
    exact h'.ret hat.1 hat.2 fun hf => absurd hf (by simp)

/-- **Returning, a call leaves no transfer in flight**, and if it returns 0, its own transfers
have been completed. -/
theorem Consistent.returns {u u' : Uplink} (h : u.Consistent) {c : EcmClass} {a : SendAct}
    (hs : Usb2T1L.sendFrameBlocking c u a = some u') {k : Sending Byte}
    (hk : u'.calls = u.calls ++ [k]) :
    u'.inXfer = none ∧ (k.ok = true → (u.calls.length, false) ∈ u'.completed ∧
      (k.data.length % cdcEcmDataMaxPacketSize = 0 → (u.calls.length, true) ∈ u'.completed)) := by
  have hat := h.pc
  unfold AtPc at hat
  cases sendFrameBlocking_move hs with
  | refused hpc =>
    rw [hpc] at hat
    obtain rfl := List.singleton_inj.mp (List.append_cancel_left hk)
    exact ⟨hat.1, fun hok => absurd hok Bool.false_ne_true⟩
  | taken hpc hdone =>
    obtain rfl := List.singleton_inj.mp (List.append_cancel_left hk)
    obtain ⟨hx, -, hdata, hterm⟩ := h.take hpc hdone
    exact ⟨hx, fun _ => ⟨hdata, hterm⟩⟩
  | cleared hpc =>
    rw [hpc] at hat
    obtain rfl := List.singleton_inj.mp (List.append_cancel_left hk)
    exact ⟨hat.1, fun hok => absurd hok Bool.false_ne_true⟩
  | called | passed | drained | zlpSet | transmitNull | started | notStarted | timedOut |
    flushNull | flushed =>
    have hk : u.calls = u.calls ++ [k] := hk
    exact absurd (congrArg List.length hk) (by simp)

/-- A transfer is in flight only while a call waits for it or is about to flush it. -/
theorem Consistent.inFlight {u : Uplink} (h : u.Consistent) {x : InXfer}
    (hx : u.inXfer = some x) : ∃ data, (u.send = .wait data ∨ u.send = .flush data) ∧
      data ≠ [] ∧ u.Phase data := by
  have hat := h.pc
  unfold AtPc at hat
  cases hpc : u.send <;> rw [hpc] at hat
  case idle | guard => exact absurd (hat.inXfer.symm.trans hx) (by simp)
  case drain | setZlp | transmit => exact absurd (hat.1.inXfer.symm.trans hx) (by simp)
  case wait data => exact ⟨data, Or.inl rfl, hat⟩
  case flush data => exact ⟨data, Or.inr rfl, hat⟩
  case clear => exact absurd (hat.1.symm.trans hx) (by simp)

theorem atPc_of_phase {u : Uplink} {data : List Byte}
    (hpc : u.send = .wait data ∨ u.send = .flush data) (hne : data ≠ []) (h : u.Phase data) :
    u.AtPc := by
  unfold AtPc
  rcases hpc with hpc | hpc <;> rw [hpc] <;> exact ⟨hne, h⟩

/-- **The host takes a packet.** -/
theorem Consistent.inPacket {u u' : Uplink} (h : u.Consistent) (hs : u.inPacket = some u') :
    u'.Consistent := by
  unfold Uplink.inPacket at hs
  split at hs
  · next call zlp p ps hx =>
    obtain rfl := Option.some.inj hs
    obtain ⟨data, hpc, hne, hphase⟩ := h.inFlight hx
    refine ⟨atPc_of_phase hpc hne ?_, h.sound, ?_⟩
    · rcases hphase with ⟨qs, hx', hps, hzlp, hd⟩ | ⟨qs, hx', hps, hzlp, hd, hdata⟩ |
        ⟨hx', -, -, -⟩ | ⟨hx', -, -⟩
      · obtain ⟨rfl, rfl, rfl⟩ : u.calls.length = call ∧ false = zlp ∧ qs = p :: ps := by
          simpa using hx'.symm.trans hx
        refine .sending ps rfl ?_ hzlp hd
        rw [← hps, List.append_assoc]
        rfl
      · obtain ⟨rfl, rfl, rfl⟩ : u.calls.length = call ∧ true = zlp ∧ qs = p :: ps := by
          simpa using hx'.symm.trans hx
        refine .terminating ps rfl ?_ hzlp hd hdata
        rw [← hps, List.append_assoc]
        rfl
      · exact absurd (hx'.symm.trans hx) (by simp)
      · exact absurd (hx'.symm.trans hx) (by simp)
    · show (wire u.calls).map Prod.snd ++ (u.delivered ++ [p]) = u.hostIn ++ [p]
      rw [← List.append_assoc, h.host]
  · exact absurd hs (by simp)

/-- **A transfer completes**: after the data the terminator follows, if one is owed. -/
theorem Consistent.ecmDataIn {u u' : Uplink} (h : u.Consistent) {ok : Bool}
    (hs : u.ecmDataIn ok = some u') : u'.Consistent := by
  unfold Uplink.ecmDataIn at hs
  split at hs
  · next call zlp hx =>
    obtain rfl := Option.some.inj hs
    obtain ⟨data, hpc, hne, hphase⟩ := h.inFlight hx
    rcases hphase with ⟨qs, hx', hps, hzlp, hd⟩ | ⟨qs, hx', hps, hzlp, hd, hdata⟩ | ⟨hx', -, -, -⟩ |
      ⟨hx', -, -⟩
    · obtain ⟨rfl, rfl, rfl⟩ : u.calls.length = call ∧ false = zlp ∧ qs = [] := by
        simpa using hx'.symm.trans hx
      have hframe : u.delivered ++ (if data.length % cdcEcmDataMaxPacketSize = 0 then
          packets cdcEcmDataMaxPacketSize [] else []) = frame cdcEcmDataMaxPacketSize data := by
        rw [← packets_frame hne, ← hps, List.append_nil]
      have hmem : (u.calls.length, false) ∈ u.completed ++ [(u.calls.length, false)] :=
        List.mem_append_right _ List.mem_cons_self
      by_cases hmul : data.length % cdcEcmDataMaxPacketSize = 0
      · rw [if_pos hmul] at hframe
        rw [if_pos (hzlp.trans (decide_eq_true hmul))]
        refine ⟨atPc_of_phase hpc hne ?_, h.sound, h.host⟩
        cases ok with
        | true => exact .terminating _ rfl hframe rfl hd hmem
        | false => exact .broken rfl (hframe ▸ List.prefix_append _ _) hd
      · rw [if_neg hmul, List.append_nil] at hframe
        rw [if_neg (by rw [hzlp, decide_eq_false hmul]; exact Bool.false_ne_true)]
        refine ⟨atPc_of_phase hpc hne ?_, h.sound, h.host⟩
        exact .complete rfl hframe hmem fun hm => absurd hm hmul
    · obtain ⟨rfl, rfl, rfl⟩ : u.calls.length = call ∧ true = zlp ∧ qs = [] := by
        simpa using hx'.symm.trans hx
      rw [List.append_nil] at hps
      rw [if_neg (by rw [hzlp]; exact Bool.false_ne_true)]
      refine ⟨atPc_of_phase hpc hne ?_, h.sound, h.host⟩
      exact .complete rfl hps (List.mem_append_left _ hdata) fun _ =>
        List.mem_append_right _ List.mem_cons_self
    · exact absurd (hx'.symm.trans hx) (by simp)
    · exact absurd (hx'.symm.trans hx) (by simp)
  · exact absurd hs (by simp)

/-- A call whose transfer is cancelled is broken, unless it is complete. -/
theorem Phase.cancel {u : Uplink} {data : List Byte} (hne : data ≠ []) (h : u.Phase data) :
    u.cancel.Phase data := by
  have hpart := h.delivered_isPrefix hne
  rcases h with ⟨_, _, _, _, hd⟩ | ⟨_, _, _, _, hd, _⟩ | ⟨_, hps, hdata, hterm⟩ | ⟨_, _, hd⟩
  · exact .broken rfl hpart hd
  · exact .broken rfl hpart hd
  · exact .complete rfl hps hdata hterm
  · exact .broken rfl hpart hd

/-- **The endpoint is closed**, at any time. -/
theorem Consistent.cancel {u : Uplink} (h : u.Consistent) : u.cancel.Consistent := by
  refine h.goto ?_ rfl rfl rfl
  have hat := h.pc
  unfold AtPc at hat ⊢
  have hpc' : u.cancel.send = u.send := rfl
  rw [hpc']
  cases hpc : u.send <;> rw [hpc] at hat
  case idle | guard => exact ⟨rfl, hat.2⟩
  case drain | setZlp | transmit => exact ⟨⟨rfl, hat.1.2⟩, hat.2⟩
  case wait | flush => exact ⟨hat.1, hat.2.cancel hat.1⟩
  case clear => exact ⟨rfl, hat.2⟩

/-- `ECM_Init`, while no call is past the guard. -/
theorem Consistent.init {u : Uplink} (h : u.Consistent) (hpc : u.send.pastGuard = false) :
    u.init.Consistent := by
  refine h.goto ?_ rfl rfl rfl
  have hat := h.pc
  unfold AtPc at hat ⊢
  have hpc' : u.init.send = u.send := rfl
  rw [hpc']
  cases hs : u.send <;> rw [hs] at hat hpc
  case idle | guard => exact ⟨hat.1, hat.2⟩
  all_goals exact absurd hpc (by simp [SendPc.pastGuard])

/-- Before the first call. -/
theorem consistent_start (sInDone : Option Bool) : (start sInDone).Consistent where
  pc := ⟨rfl, rfl⟩
  sound := fun _ hc => absurd hc List.not_mem_nil
  host := rfl

end Uplink

end Usb2T1L
