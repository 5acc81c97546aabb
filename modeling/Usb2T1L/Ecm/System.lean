import Usb2T1L.Ecm.Downlink
import Usb2T1L.Ecm.Uplink
import Usb2T1L.Ecm.Notify
import Usb2T1L.Lib.Lts

/-!
# The ECM class in its surroundings

The callbacks of `usbd_ecm.c` in the USB interrupt, the endpoints and the host behind
them, and the three tasks that use the class, interleaved step by step.

The USB core calls `ECM_DeInit` between any two calls of `ECM_Init`, and makes no callback
while one is running.  After a call with a NULL handle nothing is known any more, so a run
ends there.

## Main definitions

* `Ecm`, `ecmStep`, `ecmSys` — the state, its steps, and the system.
* `EcmMove` — everything a step can do.
* `Ecm.Coherent` — the handle, readiness and the notification in flight agree with the
  device state.

## Main results

* `ecmStep_move` — a step does one of these things.
* `Ecm.Coherent.step` — every step keeps the device state coherent.
-/

namespace Usb2T1L

/-- The class, the buffers of the downlink, the uplink and the notifications. -/
structure Ecm (n : ℕ) where
  cls : EcmClass
  down : Downlink n
  up : Uplink
  notify : Notify

/-- A step of the USB core, the host or a task. -/
inductive EcmAct
  /-- `ECM_Init`. -/
  | init
  /-- `ECM_DeInit`: a bus reset, or SET_CONFIGURATION(0). -/
  | deInit
  | setInterface (wIndex wValue : BitVec 16)
  /-- A reception completes, and `ECM_DataOut` runs up to where it has a fresh buffer. -/
  | dataOut (rx : List Byte)
  /-- The rest of `ECM_DataOut`. -/
  | submit
  /-- The host takes a packet from the bulk IN endpoint. -/
  | inPacket
  /-- `ECM_DataIn` for the bulk IN endpoint. -/
  | inDone (ok : Bool)
  /-- The host takes a notification. -/
  | cmdPacket
  /-- `ECM_DataIn` for the interrupt IN endpoint. -/
  | cmdDone (ok : Bool)
  /-- A step of `net_tx_task`. -/
  | tx
  /-- A step of `net_rx_task` in `USBD_ECM_SendFrameBlocking`. -/
  | send (a : SendAct)
  /-- A step of `link_task`. -/
  | link (a : LinkAct)
  deriving DecidableEq

/-- The step is the start of a callback of the class. -/
def EcmAct.isCallback : EcmAct → Bool
  | .init | .deInit | .setInterface _ _ | .dataOut _ | .inDone _ | .cmdDone _ => true
  | _ => false

variable {n : ℕ}

namespace Ecm

/-- After `net_bridge_init`, before the host has done anything. -/
def start (pool : FramePool n) (sInDone : Option Bool) : Ecm n :=
  ⟨EcmClass.reset, Downlink.start pool, Uplink.start sInDone, Notify.start⟩

/-- The board after `net_bridge_init`. -/
def board : Ecm netTxPoolCount := start (freshPool netTxPoolCount) (some false)

/-- `ECM_Init`. -/
def init (s : Ecm n) : Ecm n :=
  { s with cls := s.cls.init, up := s.up.init, notify := s.notify.init }

/-- `ECM_DeInit`. -/
def deInit (s : Ecm n) : Ecm n :=
  ⟨s.cls.deInit, s.down.ecmCloseDataEps, s.up.cancel, s.notify.deInit⟩

/-- The SET_INTERFACE case of `ECM_Setup`, with the data endpoints. -/
def setInterface (s : Ecm n) (wIndex wValue : BitVec 16) : Ecm n :=
  match s.cls.setInterface wIndex wValue with
  | (.kept, c) => { s with cls := c }
  | (.opened, c) => { s with cls := c, down := s.down.ecmOpenDataEps, notify := s.notify.activated }
  | (.closed, c) => { s with cls := c, down := s.down.ecmCloseDataEps, up := s.up.cancel }

/-- What a step does. -/
def act (s : Ecm n) : EcmAct → Option (Ecm n)
  | .init => if s.cls.configured = true then none else some s.init
  | .deInit => some s.deInit
  | .setInterface wIndex wValue => some (s.setInterface wIndex wValue)
  | .dataOut rx => some { s with down := (s.down.received rx).ecmDataOut rx }
  | .submit => s.down.submit.map fun d => { s with down := d }
  | .inPacket => s.up.inPacket.map fun u => { s with up := u }
  | .inDone ok => (s.up.ecmDataIn ok).map fun u => { s with up := u }
  | .cmdPacket => s.notify.cmdPacket.map fun w => { s with notify := w }
  | .cmdDone ok => (s.notify.ecmDataIn ok).map fun w => { s with notify := w }
  | .tx => s.down.netTxTask.map fun d => { s with down := d }
  | .send a => (sendFrameBlocking s.cls s.up a).map fun u => { s with up := u }
  | .link a => (linkTaskNotify s.cls s.notify a).map fun w => { s with notify := w }

/-- A call into the USB core was made with a NULL handle. -/
def nullCall (s : Ecm n) : Bool := s.up.nullCall || s.notify.nullCall

end Ecm

/-- A step, if it can be taken: not after a call with a NULL handle, and no callback
while `ECM_DataOut` is running. -/
def ecmStep (s : Ecm n) (a : EcmAct) : Option (Ecm n) :=
  if s.nullCall = true then none
  else if a.isCallback = true ∧ s.down.dataOutNext.isSome = true then none
  else s.act a

/-- The system. -/
def ecmSys : Lts (Ecm n) EcmAct := ⟨ecmStep⟩

/-- **Everything a step can do.** -/
inductive EcmMove (s : Ecm n) : EcmAct → Ecm n → Prop
  | init (hisr : s.down.dataOutNext = none) (hconf : s.cls.configured = false) :
      EcmMove s .init s.init
  | deInit (hisr : s.down.dataOutNext = none) : EcmMove s .deInit s.deInit
  | kept {wIndex wValue : BitVec 16} : EcmMove s (.setInterface wIndex wValue) s
  | opened {wIndex wValue : BitVec 16} (hisr : s.down.dataOutNext = none)
      (hset : (s.cls.setInterface wIndex wValue).1 = .opened) (hconf : s.cls.configured = true)
      (halt : s.cls.sDataAlt ≠ 1) :
      EcmMove s (.setInterface wIndex wValue) { s with
        cls := { s.cls with sDataAlt := 1, sReady := true }
        down := s.down.ecmOpenDataEps
        notify := s.notify.activated }
  | closed {wIndex wValue : BitVec 16} {alt : Byte} (hisr : s.down.dataOutNext = none) :
      EcmMove s (.setInterface wIndex wValue) { s with
        cls := { s.cls with sDataAlt := alt, sReady := false }
        down := s.down.ecmCloseDataEps
        up := s.up.cancel }
  | dataOut {rx : List Byte} (hisr : s.down.dataOutNext = none) :
      EcmMove s (.dataOut rx) { s with down := (s.down.received rx).ecmDataOut rx }
  | submit {d : Downlink n} (hd : s.down.submit = some d) : EcmMove s .submit { s with down := d }
  | inPacket {u : Uplink} (hu : s.up.inPacket = some u) : EcmMove s .inPacket { s with up := u }
  | inDone {ok : Bool} {u : Uplink} (hu : s.up.ecmDataIn ok = some u) :
      EcmMove s (.inDone ok) { s with up := u }
  | cmdPacket {w : Notify} (hw : s.notify.cmdPacket = some w) :
      EcmMove s .cmdPacket { s with notify := w }
  | cmdDone {ok : Bool} {w : Notify} (hw : s.notify.ecmDataIn ok = some w) :
      EcmMove s (.cmdDone ok) { s with notify := w }
  | tx {d : Downlink n} (hd : s.down.netTxTask = some d) : EcmMove s .tx { s with down := d }
  | send {b : SendAct} {u : Uplink} (hu : sendFrameBlocking s.cls s.up b = some u) :
      EcmMove s (.send b) { s with up := u }
  | link {b : LinkAct} {w : Notify} (hw : linkTaskNotify s.cls s.notify b = some w) :
      EcmMove s (.link b) { s with notify := w }

theorem ecmStep_move {s s' : Ecm n} {a : EcmAct} (h : ecmSys.step s a = some s') :
    s.nullCall = false ∧ EcmMove s a s' := by
  have h : ecmStep s a = some s' := h
  unfold ecmStep at h
  split_ifs at h with hnull hcb
  refine ⟨Bool.eq_false_of_not_eq_true hnull, ?_⟩
  have hisr : a.isCallback = true → s.down.dataOutNext = none := by
    intro ha
    by_contra hnext
    exact hcb ⟨ha, Option.isSome_iff_ne_none.mpr hnext⟩
  cases a with
  | init =>
    unfold Ecm.act at h
    split_ifs at h with hconf
    obtain rfl := Option.some.inj h
    exact .init (hisr rfl) (Bool.eq_false_of_not_eq_true hconf)
  | deInit =>
    obtain rfl := Option.some.inj h
    exact .deInit (hisr rfl)
  | setInterface wIndex wValue =>
    obtain rfl := Option.some.inj h
    unfold Ecm.setInterface
    rcases s.cls.setInterface_cases wIndex wValue with hs | ⟨hconf, halt, hs⟩ | ⟨alt, -, -, hs⟩
    · rw [hs]
      exact .kept
    · have hset := congrArg Prod.fst hs
      rw [hs]
      exact .opened (hisr rfl) hset hconf halt
    · rw [hs]
      exact .closed (hisr rfl)
  | dataOut rx =>
    obtain rfl := Option.some.inj h
    exact .dataOut (hisr rfl)
  | submit =>
    obtain ⟨d, hd, rfl⟩ := Option.map_eq_some_iff.mp h
    exact .submit hd
  | inPacket =>
    obtain ⟨u, hu, rfl⟩ := Option.map_eq_some_iff.mp h
    exact .inPacket hu
  | inDone ok =>
    obtain ⟨u, hu, rfl⟩ := Option.map_eq_some_iff.mp h
    exact .inDone hu
  | cmdPacket =>
    obtain ⟨w, hw, rfl⟩ := Option.map_eq_some_iff.mp h
    exact .cmdPacket hw
  | cmdDone ok =>
    obtain ⟨w, hw, rfl⟩ := Option.map_eq_some_iff.mp h
    exact .cmdDone hw
  | tx =>
    obtain ⟨d, hd, rfl⟩ := Option.map_eq_some_iff.mp h
    exact .tx hd
  | send b =>
    obtain ⟨u, hu, rfl⟩ := Option.map_eq_some_iff.mp h
    exact .send hu
  | link b =>
    obtain ⟨w, hw, rfl⟩ := Option.map_eq_some_iff.mp h
    exact .link hw

namespace Ecm

/-! ### The device state -/

/-- The handle, readiness and the notification in flight agree with the device state. -/
structure Coherent (s : Ecm n) : Prop where
  cls : s.cls.Coherent
  /-- No notification is in flight while the device is not configured. -/
  cmd : s.notify.cmdXfer ≠ none → s.cls.configured = true

theorem coherent_start (pool : FramePool n) (sInDone : Option Bool) :
    (start pool sInDone).Coherent :=
  ⟨EcmClass.coherent_reset, fun h => absurd rfl h⟩

/-- **Every step keeps the device state coherent.** -/
theorem Coherent.step {s s' : Ecm n} {a : EcmAct} (h : s.Coherent)
    (hs : ecmSys.step s a = some s') : s'.Coherent := by
  cases (ecmStep_move hs).2 with
  | init => exact ⟨EcmClass.Coherent.init s.cls, fun _ => rfl⟩
  | deInit => exact ⟨EcmClass.Coherent.deInit s.cls, fun hx => absurd rfl hx⟩
  | kept => exact h
  | opened _ _ hconf => exact ⟨⟨h.cls.handle, fun _ => ⟨hconf, rfl⟩⟩, h.cmd⟩
  | closed => exact ⟨⟨h.cls.handle, fun hr => absurd hr Bool.false_ne_true⟩, h.cmd⟩
  | dataOut | submit | inPacket | inDone | tx | send => exact ⟨h.cls, h.cmd⟩
  | cmdPacket hw => exact ⟨h.cls, fun _ => h.cmd (Notify.cmdXfer_of_cmdPacket hw)⟩
  | cmdDone hw => exact ⟨h.cls, fun _ => h.cmd (Notify.cmdXfer_of_ecmDataIn hw)⟩
  | link hw =>
    refine ⟨h.cls, fun hx => ?_⟩
    rcases Notify.cmdXfer_of_linkTaskNotify hw hx with hx | hpdev
    · exact h.cmd hx
    · exact h.cls.handle.symm.trans hpdev

end Ecm

end Usb2T1L
