import Usb2T1L.Adin2111.Receive
import Usb2T1L.Bridge.Fdb
import Usb2T1L.Bridge.FramePool
import Usb2T1L.Ecm.Class
import Usb2T1L.Lib.Lts

/-!
# The receive task

`net_rx_task`: woken by the interrupt or the timeout, it acknowledges the interrupt and then
goes round its inner loop, which takes a frame from the device and hands it to
`usbd_ecm_if_send`, until there is nothing left to take.

`usbd_ecm_if_send` has the frame until it returns, and its result is discarded; what matters
here is which frames it gets, and in which order.

## Main definitions

* `RxTask`, `netRxDrain` — the state, and one round of the inner loop.
* `netRxTask` — the task as a system.

## Main results

* `netRxDrain_of_not_ready`, `netRxDrain_of_no_buffer`, `netRxDrain_fault`, `netRxDrain_frame` —
  **the ways through a round** on the chip.
-/

namespace Usb2T1L

/-- What `net_rx_task` works on. -/
structure RxTask (n : ℕ) (σ : Type) where
  /-- Whether it is in the inner loop. -/
  draining : Bool
  /-- `s_rx_pool`. -/
  pool : FramePool n
  bridge : Bridge σ
  /-- The frames handed to `usbd_ecm_if_send`, as they were then. -/
  sent : List NetFrame

/-- A step of the task. -/
inductive RxAct
  /-- The wait for the interrupt ends. -/
  | wake
  /-- A round of the inner loop, at tick `now`. -/
  | drain (now : Word)

section Task

variable {n : ℕ} {σ : Type} (hal : Hal σ) (dev : Adin2111) (sOwnMac : Mac)

/-- The state after the driver has used the device. -/
def RxTask.withAdin (s : RxTask n σ) (a : σ) : RxTask n σ :=
  { s with bridge := { s.bridge with adin := a } }

/-- The inner loop is left. -/
def RxTask.leave (s : RxTask n σ) : RxTask n σ := { s with draining := false }

/-- The learning of `net_rx_task` from a frame of `len` bytes in buffer `f`. -/
def netRxLearn (now : Word) (f : NetFrame) (len : ℕ) (port : Port) (b : Bridge σ) : Bridge σ :=
  if 12 ≤ len ∧ dev.mode = .switch then netBridgeLearn hal dev sOwnMac now f.src port b else b

/-- What becomes of a frame that has been read into buffer `f`: a frame without bytes is not
sent. -/
def netRxFrame (now : Word) (f : Fin n) (q : Queue (Fin n) n) (eth : List Byte) (port : Port)
    (s : RxTask n σ) : RxTask n σ :=
  let buf := { s.pool.storage f with data := overlay eth (s.pool.storage f).data }
  let bridge := netRxLearn hal dev sOwnMac now buf eth.length port s.bridge
  if eth.length = 0 then
    { s with
      pool := ⟨Function.update s.pool.storage f buf, framePoolFree q f⟩
      bridge := bridge }
  else
    let frame := { buf with len := BitVec.ofNat 16 eth.length, port := port.val.setWidth 8 }
    { s with
      pool := ⟨Function.update s.pool.storage f frame, framePoolFree q f⟩
      bridge := bridge
      sent := s.sent ++ [frame] }

/-- One round of the inner loop of `net_rx_task`. -/
def netRxDrain (now : Word) (s : RxTask n σ) : RxTask n σ :=
  match adin2111RxReady hal dev s.bridge.adin with
  | (false, a) => (s.withAdin a).leave
  | (true, a) =>
    match framePoolAlloc s.pool.freeQ with
    | none => (s.withAdin a).leave
    | some (f, q) =>
      match adin2111ReadFrame hal dev netMaxFrameLen a with
      | (.error rc, a) =>
        let s := { s.withAdin a with pool := { s.pool with freeQ := framePoolFree q f } }
        if rc = .errNodata then s.leave else s
      | (.ok (eth, port), a) => netRxFrame hal dev sOwnMac now f q eth port (s.withAdin a)

/-- The next step of `net_rx_task`. -/
def netRxStep (s : RxTask n σ) : RxAct → Option (RxTask n σ)
  | .wake =>
    if s.draining = true then none
    else some { s.withAdin (adin2111IrqAck hal dev s.bridge.adin).2 with draining := true }
  | .drain now => if s.draining = true then some (netRxDrain hal dev sOwnMac now s) else none

/-- `net_rx_task`. -/
def netRxTask : Lts (RxTask n σ) RxAct := ⟨netRxStep hal dev sOwnMac⟩

end Task

/-! ### A round on the chip -/

variable {n : ℕ} {crc : Bool} {mode : Mode} (sOwnMac : Mac) (now : Word) {s : RxTask n Chip}

/-- Learning takes no frame away. -/
theorem netRxLearn_grows (dev : Adin2111) (f : NetFrame) (len : ℕ) (port : Port)
    (b : Bridge Chip) :
    b.adin.Grows (netRxLearn (chipHal dev) dev sOwnMac now f len port b).adin := by
  have hrefl := Chip.Grows.refl b.adin
  unfold netRxLearn netBridgeLearn
  split
  swap
  · exact hrefl
  split
  · exact hrefl
  split
  · dsimp only
    split
    · exact adin2111FdbSet_grows dev _ _ _ b.adin
    · exact hrefl
  · exact adin2111FdbSet_grows dev _ _ _ b.adin

/-- Waking up takes no frame away. -/
theorem netRxTask_wake (dev : Adin2111) (h : s.draining = false) :
    ∃ s', (netRxTask (chipHal dev) dev sOwnMac).run s [.wake] = some s' ∧ s'.draining = true ∧
      s.bridge.adin.Grows s'.bridge.adin :=
  ⟨_, Lts.run_cons_eq_some _ |>.mpr ⟨_, if_neg (by rw [h]; decide), rfl⟩, rfl,
    adin2111IrqAck_grows dev s.bridge.adin⟩

/-- Whatever has been read, the buffer is given back and no frame leaves the device. -/
theorem netRxFrame_spec (dev : Adin2111) (f : Fin n) (q : Queue (Fin n) n) (eth : List Byte)
    (port : Port) (s : RxTask n Chip) :
    (netRxFrame (chipHal dev) dev sOwnMac now f q eth port s).draining = s.draining ∧
      (netRxFrame (chipHal dev) dev sOwnMac now f q eth port s).pool.freeQ = framePoolFree q f ∧
      s.bridge.adin.Grows
        (netRxFrame (chipHal dev) dev sOwnMac now f q eth port s).bridge.adin := by
  have hlearn := netRxLearn_grows sOwnMac now dev
    { s.pool.storage f with data := overlay eth (s.pool.storage f).data } eth.length port s.bridge
  rw [netRxFrame]
  split
  · exact ⟨rfl, rfl, hlearn⟩
  · exact ⟨rfl, rfl, hlearn⟩

/-- The chip after `adin2111_rx_ready`. -/
def RxTask.polled (s : RxTask n Chip) : Chip := s.bridge.adin.next (false, adinRegStatus1)

/-- `adin2111_rx_ready` returns `true`. -/
def RxTask.Ready (crc : Bool) (s : RxTask n Chip) : Prop :=
  s.bridge.adin.fault crc (false, adinRegStatus1) = .none ∧ s.polled.firstReady ≠ none

instance : Decidable (s.Ready crc) := inferInstanceAs (Decidable (_ ∧ _))

/-- The port the next frame is read from, when `STATUS1` is read again. -/
def RxTask.nextPort (s : RxTask n Chip) : Option Port :=
  (s.polled.next (false, adinRegStatus1)).firstReady

theorem adin2111RxReady_eq : adin2111RxReady (chipHal (twoPorts crc mode)) (twoPorts crc mode)
    s.bridge.adin = (decide (s.Ready crc), s.polled) :=
  adin2111RxReady_chip (twoPorts crc mode) s.bridge.adin

theorem netRxDrain_of_not_ready (h : ¬ s.Ready crc) :
    netRxDrain (chipHal (twoPorts crc mode)) (twoPorts crc mode) sOwnMac now s =
      (s.withAdin s.polled).leave := by
  rw [netRxDrain, adin2111RxReady_eq, decide_eq_false h]

theorem netRxDrain_of_no_buffer (h : s.pool.freeQ.items = []) :
    netRxDrain (chipHal (twoPorts crc mode)) (twoPorts crc mode) sOwnMac now s =
      (s.withAdin s.polled).leave := by
  have halloc : framePoolAlloc s.pool.freeQ = none := Queue.receive_eq_none_iff.mpr h
  by_cases hready : s.Ready crc
  · rw [netRxDrain, adin2111RxReady_eq, decide_eq_true hready]
    dsimp only
    rw [halloc]
  · exact netRxDrain_of_not_ready sOwnMac now hready

/-- A frame that was there when `STATUS1` was first read is there when it is read again. -/
theorem RxTask.Ready.nextPort (h : s.Ready crc) : ∃ p, s.nextPort = some p :=
  Option.ne_none_iff_exists'.mp fun hnone =>
    h.2 ((Chip.grows_next (false, adinRegStatus1) s.polled).firstReady_eq_none hnone)

/-- **A round that reads a frame.** -/
theorem netRxDrain_frame (hready : s.Ready crc) {f : Fin n} {q : Queue (Fin n) n}
    (halloc : framePoolAlloc s.pool.freeQ = some (f, q)) {p : Port} (hp : s.nextPort = some p)
    (hf : ¬ s.polled.ReadFails crc p) :
    ∃ c' fr rest, s.bridge.adin.Grows c' ∧ c'.rx p = fr :: rest ∧
      netRxDrain (chipHal (twoPorts crc mode)) (twoPorts crc mode) sOwnMac now s =
        netRxFrame (chipHal (twoPorts crc mode)) (twoPorts crc mode) sOwnMac now f q fr.eth p
          (s.withAdin (c'.pop p)) := by
  obtain ⟨c', fr, rest, hgrows, hrx, hread⟩ :=
    adin2111ReadFrame_ok crc mode (by decide : adinMaxEthFrame ≤ netMaxFrameLen) hp hf
  refine ⟨c', fr, rest, (Chip.grows_next _ _).trans hgrows, hrx, ?_⟩
  rw [netRxDrain, adin2111RxReady_eq, decide_eq_true hready]
  dsimp only
  rw [halloc]
  dsimp only
  rw [hread]

/-- **A round in which reading the frame fails**: the loop goes on, and no frame has left the
device. -/
theorem netRxDrain_fault (mode : Mode) (hready : s.Ready crc) {f : Fin n} {q : Queue (Fin n) n}
    (halloc : framePoolAlloc s.pool.freeQ = some (f, q)) {p : Port} (hp : s.nextPort = some p)
    (hf : s.polled.ReadFails crc p) :
    (netRxDrain (chipHal (twoPorts crc mode)) (twoPorts crc mode) sOwnMac now s).draining =
        s.draining ∧
      (netRxDrain (chipHal (twoPorts crc mode)) (twoPorts crc mode) sOwnMac now s).pool.freeQ =
        framePoolFree q f ∧
      s.bridge.adin.Grows (netRxDrain (chipHal (twoPorts crc mode)) (twoPorts crc mode)
        sOwnMac now s).bridge.adin := by
  obtain ⟨r, c', hr, hgrows, hread⟩ :=
    adin2111ReadFrame_fault crc mode (by decide : adinMaxEthFrame ≤ netMaxFrameLen) hp hf
  have hgrows := (Chip.grows_next (false, adinRegStatus1) s.bridge.adin).trans hgrows
  rw [netRxDrain, adin2111RxReady_eq, decide_eq_true hready]
  dsimp only
  rw [halloc]
  dsimp only
  rw [hread]
  cases r with
  | error rc =>
    have hrc : rc ≠ .errNodata := by simpa using hr
    dsimp only
    rw [if_neg hrc]
    exact ⟨rfl, rfl, hgrows⟩
  | ok frame =>
    dsimp only
    obtain ⟨hdrain, hq, hframe⟩ :=
      netRxFrame_spec sOwnMac now (twoPorts crc mode) f q frame.1 frame.2 (s.withAdin c')
    exact ⟨hdrain, hq, hgrows.trans hframe⟩

end Usb2T1L
