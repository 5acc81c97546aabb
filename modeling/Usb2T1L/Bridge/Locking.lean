import Usb2T1L.Adin2111.SpiDma
import Usb2T1L.Bridge.RxTask
import Usb2T1L.Bridge.Scripts
import Usb2T1L.Bridge.StartUp
import Usb2T1L.Bridge.TxTask
import Usb2T1L.Lib.Mutex

/-!
# The three tasks and `s_adin_lock`

`net_rx_task`, `net_tx_task` and `link_task` with every `ADIN_LOCK` and `ADIN_UNLOCK` they have, and
with each SPI transfer and each access to `s_fdb` as a step of its own, in any order.

Everything else a task calls is answered by the rest of the system, in any way.  An SPI transfer is
one step here, also the wait of `port_spi_xfer_dma` for its completion, which is `SpiDma`'s matter.

## Main definitions

* `netRxBody`, `netTxBody`, `linkBody` — a round of each task.
* `LockedOp` — what is done between an `ADIN_LOCK` and its `ADIN_UNLOCK`.
* `netTasks` — the system.

## Main results

* `guards_netTasks` — each task by itself keeps to the rules.
* `net_tasks_serialise` — **the bus and the table are used by one task at a time**, and go through
  whole operations of the driver and the table, one after another.
* `adin_lock_given_back` — **no task waits for another while it has the lock**, and each gives it
  back.
-/

namespace Usb2T1L

/-- What the tasks ask of the rest of the system. -/
inductive World
  /-- `xSemaphoreTake(s_adin_int_sem, ..)`. -/
  | adinInt
  /-- `xTaskGetTickCount`. -/
  | tick
  /-- `frame_pool_alloc(&s_rx_pool, 0)`. -/
  | rxAlloc
  /-- `frame_pool_free(&s_rx_pool, f)`. -/
  | rxFree
  /-- `usbd_ecm_if_send(f)`. -/
  | send (f : NetFrame)
  /-- `xQueueReceive(s_to_adin_q, ..)`. -/
  | receive
  /-- `frame_pool_free(&s_tx_pool, f)`. -/
  | txFree
  /-- `vTaskDelay`. -/
  | delay (ms : ℕ)
  /-- `usbd_ecm_if_ready`. -/
  | ready
  /-- `usbd_ecm_if_set_link_state`. -/
  | setLinkState (up : Bool)

/-- What is answered. -/
def World.Answer : World → Type
  | .tick => Word
  | .rxAlloc => Option NetFrame
  | .receive => Option NetFrame
  | .ready => Bool
  | _ => Unit

/-- The calls that may block. -/
def World.Waits : World → Prop
  | .adinInt | .send _ | .receive | .delay _ => True
  | _ => False

/-- A script of a task. -/
abbrev TaskScript (α : Type) : Type := Thread BridgeReq.Answer World.Answer α

/-- The loop of `net_rx_task` it is in. -/
inductive RxLoop
  | outer
  | inner

/-- The locals of `link_task`. -/
structure LinkSent where
  lastSent : Bool
  haveSent : Bool

/-- What a task carries from one round to the next. -/
def BridgeTask.Locals : BridgeTask → Type
  | .netRx => RxLoop
  | .netTx => Unit
  | .link => LinkSent

section Tasks

variable (dev : Adin2111) (sOwnMac : Mac)

/-- `ADIN_LOCK`. -/
def adinLock : TaskScript Unit := Thread.take

/-- `ADIN_UNLOCK`. -/
def adinUnlock : TaskScript Unit := Thread.give

/-- `xTaskGetTickCount`. -/
def getTick : TaskScript Word := Thread.other World.tick

/-- `frame_pool_alloc(&s_rx_pool, 0)`. -/
def rxAlloc : TaskScript (Option NetFrame) := Thread.other World.rxAlloc

/-- `xQueueReceive(s_to_adin_q, ..)`. -/
def receive : TaskScript (Option NetFrame) := Thread.other World.receive

/-- `usbd_ecm_if_ready`. -/
def ecmReady : TaskScript Bool := Thread.other World.ready

/-- A call without a result. -/
def call (w : World) : TaskScript w.Answer := Thread.other w

/-- `net_bridge_learn`. -/
def netBridgeLearnTask (src : Mac) (ingress : Port) : TaskScript Unit := do
  if macIsGroup src = true ∨ src = sOwnMac then return ()
  else
    let now ← getTick
    (Scripted.netBridgeLearn dev now src ingress).locked

/-- What `net_rx_task` does with a frame it has read. -/
def netRxHandOn (f : NetFrame) (eth : List Byte) (port : Port) : TaskScript RxLoop := do
  if eth.length = 0 then
    let _ ← call .rxFree
    return .inner
  else
    let _ ← call (.send { f with len := BitVec.ofNat 16 eth.length, port := port.val.setWidth 8 })
    let _ ← call .rxFree
    return .inner

/-- A round of `net_rx_task`, of its outer or its inner loop. -/
def netRxBody : RxLoop → TaskScript RxLoop
  | .outer => do
    let _ ← call .adinInt
    adinLock
    let _ ← (Scripted.adin2111IrqAck dev).locked
    adinUnlock
    return .inner
  | .inner => do
    adinLock
    if (← (Scripted.adin2111RxReady dev).locked) = true then
      match ← rxAlloc with
      | none =>
        adinUnlock
        return .outer
      | some buf =>
        match ← (Scripted.adin2111ReadFrame dev netMaxFrameLen).locked with
        | .error rc =>
          adinUnlock
          let _ ← call .rxFree
          return if rc = .errNodata then .outer else .inner
        | .ok (eth, port) =>
          let f := { buf with data := overlay eth buf.data }
          if 12 ≤ eth.length ∧ dev.mode = .switch then
            netBridgeLearnTask dev sOwnMac f.src port
          adinUnlock
          netRxHandOn f eth port
    else
      adinUnlock
      return .outer

/-- `tx_frame_port`, with so many attempts left. -/
def txFramePortTask (f : NetFrame) (port : Port) : ℕ → TaskScript Unit
  | 0 => return ()
  | attempts + 1 => do
    adinLock
    let rc ← (Scripted.adin2111WriteFrame dev port (List.ofFn f.data) f.len.toNat).locked
    adinUnlock
    if rc = .errNospace then
      let _ ← call (.delay 1)
      txFramePortTask f port attempts
    else return ()

/-- The choice of the egress port in `net_tx_task`, in switch mode. -/
def lookupTask (dst : Mac) : TaskScript (Option Port) := do
  if macIsGroup dst = true then return none
  else
    adinLock
    let p ← (Scripted.netBridgeFdbLookup dst).locked
    adinUnlock
    return p

/-- The writing of a frame in `net_tx_task`. -/
def netTxFrameTask (f : NetFrame) : TaskScript Unit :=
  match dev.mode with
  | .switch => do
    match ← lookupTask f.dst with
    | none =>
      txFramePortTask dev f .port1 txAttempts
      txFramePortTask dev f .port2 txAttempts
    | some p => txFramePortTask dev f p txAttempts
  | .endpoint => txFramePortTask dev f .port1 txAttempts

/-- A round of `net_tx_task`. -/
def netTxBody : TaskScript Unit := do
  match ← receive with
  | none => return ()
  | some f =>
    netTxFrameTask dev f
    let _ ← call .txFree
    return ()

/-- Whether there is a link on a port of the device, as `link_task` asks. -/
def linkUp : BridgeScript Bool := do
  let up ← Scripted.adin2111LinkUp dev .port1
  if 1 < dev.numPorts ∧ up = false then Scripted.adin2111LinkUp dev .port2 else return up

/-- The part of `link_task` that notifies the host. -/
def linkNotify (l : LinkSent) (up : Bool) : TaskScript LinkSent := do
  if (← ecmReady) = false then return { l with haveSent := false }
  else if l.haveSent = false ∨ up ≠ l.lastSent then
    let _ ← call (.setLinkState up)
    return ⟨up, true⟩
  else return l

/-- The part of `link_task` that ages the table. -/
def linkAge : TaskScript Unit := do
  let now ← getTick
  adinLock
  (Scripted.linkTaskSweep dev now (List.finRange netFdbMaxEntries)).locked
  adinUnlock

/-- A round of `link_task`. -/
def linkBody (l : LinkSent) : TaskScript LinkSent := do
  adinLock
  let up ← (linkUp dev).locked
  adinUnlock
  let l ← linkNotify l up
  if dev.mode = .switch then linkAge dev
  let _ ← call (.delay 250)
  return l

/-- What the tasks do, from one `ADIN_LOCK` to the `ADIN_UNLOCK` after it. -/
inductive LockedOp
  /-- The interrupt is acknowledged. -/
  | ack
  /-- A frame is read into the buffer, if there is one, and its source learnt. -/
  | drain (buf : Option NetFrame) (now : Word)
  /-- An attempt to write a frame out on a port. -/
  | attempt (f : NetFrame) (port : Port)
  /-- A destination is looked up. -/
  | lookup
  /-- The links are looked at. -/
  | poll
  /-- The table is aged. -/
  | age (now : Word)

/-- A frame is read into the buffer, and its source learnt, once there is a frame. -/
def readAndLearn {σ : Type} (hal : Hal σ) (buf : NetFrame) (now : Word) (b : Bridge σ) : Bridge σ :=
  match adin2111ReadFrame hal dev netMaxFrameLen b.adin with
  | (.error _, a) => { b with adin := a }
  | (.ok (eth, port), a) =>
    netRxLearn hal dev sOwnMac now { buf with data := overlay eth buf.data } eth.length port
      { b with adin := a }

/-- What it does to the bus and the table. -/
def LockedOp.exec {σ : Type} (hal : Hal σ) (b : Bridge σ) : LockedOp → Bridge σ
  | .ack => { b with adin := (adin2111IrqAck hal dev b.adin).2 }
  | .drain buf now =>
    let r := adin2111RxReady hal dev b.adin
    match buf with
    | some buf =>
      if r.1 = true then readAndLearn dev sOwnMac hal buf now { b with adin := r.2 }
      else { b with adin := r.2 }
    | none => { b with adin := r.2 }
  | .attempt f port =>
    { b with adin := (adin2111WriteFrame hal dev port (List.ofFn f.data) f.len.toNat b.adin).2 }
  | .lookup => b
  | .poll =>
    let r := adin2111LinkUp hal dev .port1 b.adin
    { b with
      adin := if 1 < dev.numPorts ∧ r.1 = false then (adin2111LinkUp hal dev .port2 r.2).2
        else r.2 }
  | .age now => linkTaskSweep hal dev now b

/-- How many requests a task makes at most while it has the lock, besides giving it back. -/
def lockBudget : ℕ := 98

/-- The tasks. -/
def netTasks {σ : Type} (hal : Hal σ) :
    Threads BridgeTask BridgeReq World (Bridge σ) BridgeReq.Answer World.Answer
      BridgeTask.Locals where
  handle := bridgeHandle hal
  body
    | .netRx, l => netRxBody dev sOwnMac l
    | .netTx, _ => netTxBody dev
    | .link, l => linkBody dev l
  waits := World.Waits

end Tasks

/-! ### Each task by itself -/

section Guards

open Threads Scripted

variable {σ : Type} {hal : Hal σ} {dev : Adin2111} {sOwnMac : Mac}

/-- The change of the bus and the table is one of those. -/
def Whole (hal : Hal σ) (dev : Adin2111) (sOwnMac : Mac) (b b' : Bridge σ) : Prop :=
  ∃ op : LockedOp, b' = op.exec dev sOwnMac hal b

/-- The lock is not held afterwards. -/
def Released {α : Type} (_ : α) (h : Option (Held (Bridge σ))) : Prop := h = none

/-- A task may go on with this script, as it stands to the lock. -/
abbrev KeepsLock (hal : Hal σ) (dev : Adin2111) (sOwnMac : Mac) {α : Type} (p : TaskScript α)
    (h : Option (Held (Bridge σ))) (Post : α → Option (Held (Bridge σ)) → Prop) : Prop :=
  (netTasks dev sOwnMac hal).Guards lockBudget (Whole hal dev sOwnMac) p h Post

theorem keeps_txFramePortTask (f : NetFrame) (port : Port) (attempts : ℕ) :
    KeepsLock hal dev sOwnMac (txFramePortTask dev f port attempts) none Released := by
  induction attempts with
  | zero => exact guards_done rfl
  | succ attempts ih =>
    rw [txFramePortTask]
    refine guards_bind (guards_take rfl fun b => guards_bind ?_)
    refine guards_locked (atMost_adin2111WriteFrame dev port _ _)
      (drives_adin2111WriteFrame dev port _ _ b) (show 3 ≤ lockBudget by decide) fun m _ => ?_
    refine guards_bind (guards_give ⟨.attempt f port, rfl⟩ ?_)
    split
    · exact guards_bind (guards_other fun _ => ih)
    · exact guards_done rfl

theorem keeps_lookupTask (dst : Mac) :
    KeepsLock hal dev sOwnMac (lookupTask dst) none Released := by
  rw [lookupTask]
  split
  · exact guards_done rfl
  · refine guards_bind (guards_take rfl fun b => guards_bind ?_)
    refine guards_locked (atMost_netBridgeFdbLookup dst) (exec_netBridgeFdbLookup dst b)
      (show 29 ≤ lockBudget by decide) fun m _ => ?_
    exact guards_bind (guards_give ⟨.lookup, rfl⟩ (guards_done rfl))

theorem keeps_netTxFrameTask (f : NetFrame) :
    KeepsLock hal dev sOwnMac (netTxFrameTask dev f) none Released := by
  rw [netTxFrameTask]
  cases dev.mode with
  | endpoint => exact keeps_txFramePortTask f _ _
  | switch =>
    refine guards_bind ((keeps_lookupTask f.dst).mono fun p b hb => ?_)
    obtain rfl := hb
    cases p with
    | none =>
      refine guards_bind ((keeps_txFramePortTask f _ _).mono fun _ b hb => ?_)
      obtain rfl := hb
      exact keeps_txFramePortTask f _ _
    | some p => exact keeps_txFramePortTask f _ _

theorem keeps_netTxBody : KeepsLock hal dev sOwnMac (netTxBody dev) none Released := by
  refine guards_bind (guards_other fun r => ?_)
  cases r with
  | none => exact guards_done rfl
  | some f =>
    refine guards_bind ((keeps_netTxFrameTask f).mono fun _ b hb => ?_)
    obtain rfl := hb
    exact guards_bind (guards_other fun _ => guards_done rfl)

/-- Learning, with the lock and enough left of it. -/
theorem keeps_netBridgeLearnTask (src : Mac) (ingress : Port) {g : Held (Bridge σ)}
    (hleft : 65 ≤ g.left) {Post : Unit → Option (Held (Bridge σ)) → Prop}
    (h : ∀ now m, Post ()
      (some ⟨m, g.before, Usb2T1L.netBridgeLearn hal dev sOwnMac now src ingress g.now⟩)) :
    KeepsLock hal dev sOwnMac (netBridgeLearnTask dev sOwnMac src ingress) (some g) Post := by
  rw [netBridgeLearnTask]
  split
  · next hnot =>
    refine guards_done ?_
    have hlearn := h 0 g.left
    rwa [Usb2T1L.netBridgeLearn, if_pos hnot] at hlearn
  · next hel =>
    refine guards_bind (guards_other_held id (by omega) fun now m hm => ?_)
    exact guards_locked (atMost_netBridgeLearn dev now src ingress)
      (exec_netBridgeLearn dev hel now ingress g.now) (by simp only; omega) fun m' _ => h now m'

theorem keeps_netRxHandOn (f : NetFrame) (eth : List Byte) (port : Port) :
    KeepsLock hal dev sOwnMac (netRxHandOn f eth port) none Released := by
  rw [netRxHandOn]
  split
  · exact guards_bind (guards_other fun _ => guards_done rfl)
  · exact guards_bind (guards_other fun _ => guards_bind (guards_other fun _ => guards_done rfl))

theorem keeps_netRxBody (l : RxLoop) :
    KeepsLock hal dev sOwnMac (netRxBody dev sOwnMac l) none Released := by
  cases l with
  | outer =>
    refine guards_bind (guards_other fun _ => guards_bind (guards_take rfl fun b => ?_))
    refine guards_bind (guards_locked (atMost_adin2111IrqAck dev) (drives_adin2111IrqAck dev b)
      (show 4 ≤ lockBudget by decide) fun m _ => ?_)
    exact guards_bind (guards_give ⟨.ack, rfl⟩ (guards_done rfl))
  | inner =>
    refine guards_bind (guards_take rfl fun b => guards_bind ?_)
    refine guards_locked (atMost_adin2111RxReady dev) (drives_adin2111RxReady dev b)
      (show 1 ≤ lockBudget by decide) fun m hm => ?_
    have hm : 98 ≤ m + 1 := hm
    split
    · next hready =>
      refine guards_bind (guards_other_held id (show 1 ≤ m by omega) fun r m' hm' => ?_)
      have hm' : m ≤ m' + 1 := hm'
      cases r with
      | none => exact guards_bind (guards_give ⟨.drain none 0, rfl⟩ (guards_done rfl))
      | some buf =>
        have hread : ∀ now, (LockedOp.drain (some buf) now).exec dev sOwnMac hal b =
            readAndLearn dev sOwnMac hal buf now
              { b with adin := (Usb2T1L.adin2111RxReady hal dev b.adin).2 } :=
          fun now => if_pos hready
        generalize (Usb2T1L.adin2111RxReady hal dev b.adin).2 = a at *
        cases hr : Usb2T1L.adin2111ReadFrame hal dev netMaxFrameLen a with
        | mk res a' =>
          have hexec : (Scripted.adin2111ReadFrame dev netMaxFrameLen).exec (bridgeHandle hal)
              { b with adin := a } = (res, { b with adin := a' }) := by
            rw [drives_adin2111ReadFrame dev netMaxFrameLen, hr]
          refine guards_bind (guards_locked (atMost_adin2111ReadFrame dev _) hexec
            (show 3 ≤ m' by omega) fun m'' hm'' => ?_)
          have hm'' : m' ≤ m'' + 3 := hm''
          cases res with
          | error rc =>
            refine guards_bind (guards_give ⟨.drain (some buf) 0, ?_⟩ ?_)
            · rw [hread, readAndLearn, hr]
            · exact guards_bind (guards_other fun _ => guards_done rfl)
          | ok r =>
            obtain ⟨eth, port⟩ := r
            dsimp only
            have hgive : ∀ now k, KeepsLock hal dev sOwnMac
                (do adinUnlock; netRxHandOn { buf with data := overlay eth buf.data } eth port)
                (some ⟨k, b, netRxLearn hal dev sOwnMac now
                  { buf with data := overlay eth buf.data } eth.length port
                    { b with adin := a' }⟩) Released := by
              intro now k
              refine guards_bind (guards_give ⟨.drain (some buf) now, ?_⟩
                (keeps_netRxHandOn _ eth port))
              rw [hread, readAndLearn, hr]
            split
            · next hlearn =>
              refine guards_bind (keeps_netBridgeLearnTask _ port (show 65 ≤ m'' by omega)
                fun now k => ?_)
              have hgive := hgive now k
              rwa [netRxLearn, if_pos hlearn] at hgive
            · next hlearn =>
              have hgive := hgive 0 m''
              rwa [netRxLearn, if_neg hlearn] at hgive
    · exact guards_bind (guards_give ⟨.drain none 0, rfl⟩ (guards_done rfl))

theorem drives_linkUp : Drives hal (linkUp dev) fun a =>
    let r := Usb2T1L.adin2111LinkUp hal dev .port1 a
    if 1 < dev.numPorts ∧ r.1 = false then Usb2T1L.adin2111LinkUp hal dev .port2 r.2 else r := by
  intro b
  rw [linkUp, Script.exec_bind, drives_adin2111LinkUp]
  dsimp only
  split
  · exact drives_adin2111LinkUp dev _ _
  · rfl

theorem atMost_linkUp : (linkUp dev).AtMost 2 :=
  (atMost_adin2111LinkUp dev _).bind (n := 1) fun _ =>
    Script.atMost_ite (atMost_adin2111LinkUp dev _) (Script.atMost_done _ _)

theorem keeps_linkNotify (l : LinkSent) (up : Bool) :
    KeepsLock hal dev sOwnMac (linkNotify l up) none Released := by
  refine guards_bind (guards_other fun ready => ?_)
  split
  · exact guards_done rfl
  · split
    · exact guards_bind (guards_other fun _ => guards_done rfl)
    · exact guards_done rfl

theorem keeps_linkAge : KeepsLock hal dev sOwnMac (linkAge dev) none Released := by
  refine guards_bind (guards_other fun now => guards_bind (guards_take rfl fun b => ?_))
  refine guards_bind (guards_locked (atMost_linkTaskSweep dev now _)
    (exec_linkTaskSweep dev now (List.finRange netFdbMaxEntries) b)
    (show 7 * (List.finRange netFdbMaxEntries).length ≤ lockBudget by decide) fun m _ => ?_)
  exact guards_give ⟨.age now, rfl⟩ rfl

theorem keeps_linkBody (l : LinkSent) :
    KeepsLock hal dev sOwnMac (linkBody dev l) none Released := by
  refine guards_bind (guards_take rfl fun b => guards_bind ?_)
  refine guards_locked atMost_linkUp (drives_linkUp b) (show 2 ≤ lockBudget by decide)
    fun m _ => ?_
  refine guards_bind (guards_give ⟨.poll, ?_⟩ ?_)
  · dsimp only [LockedOp.exec]
    split <;> rfl
  refine guards_bind ((keeps_linkNotify l _).mono fun l b hb => ?_)
  obtain rfl := hb
  have hdelay : KeepsLock hal dev sOwnMac (do let _ ← call (.delay 250); return l) none Released :=
    guards_bind (guards_other fun _ => guards_done rfl)
  split
  · refine guards_bind (keeps_linkAge.mono fun _ b hb => ?_)
    obtain rfl := hb
    exact hdelay
  · exact hdelay

/-- **Each task by itself keeps to the rules.** -/
theorem guards_netTasks (t : BridgeTask) (l : t.Locals) :
    (netTasks dev sOwnMac hal).Guards lockBudget (Whole hal dev sOwnMac)
      ((netTasks dev sOwnMac hal).body t l) none fun _ h => h = none := by
  cases t with
  | netRx => exact keeps_netRxBody l
  | netTx => exact keeps_netTxBody
  | link => exact keeps_linkBody l

end Guards

/-! ### All three -/

section Together

variable {σ : Type}

/-- The tasks before their first steps. -/
def tasksStart (b : Bridge σ) :
    LockState BridgeTask (Bridge σ) BridgeReq.Answer World.Answer BridgeTask.Locals where
  shared := b
  holder := none
  code
    | .netRx => .done .outer
    | .netTx => .done ()
    | .link => .done ⟨false, false⟩

variable (hal : Hal σ) (dev : Adin2111) (sOwnMac : Mac) (b : Bridge σ)

theorem guards_tasksStart (t : BridgeTask) : (netTasks dev sOwnMac hal).Guards lockBudget
    (Whole hal dev sOwnMac) ((tasksStart b).code t) none fun _ h => h = none := by
  cases t <;> exact Threads.guards_done rfl

/-- Every run leads to a state in which each task stands to the lock as it should. -/
theorem exists_orderly {as : List (BridgeTask × ((w : World) → w.Answer))}
    {s : LockState BridgeTask (Bridge σ) BridgeReq.Answer World.Answer BridgeTask.Locals}
    (hrun : (netTasks dev sOwnMac hal).sys.run (tasksStart b) as = some s) :
    ∃ held, Threads.Orderly (netTasks dev sOwnMac hal) lockBudget (Whole hal dev sOwnMac) s held :=
  Threads.Orderly.run guards_netTasks
    ⟨_, Threads.orderly_start (guards_tasksStart hal dev sOwnMac b) b⟩ hrun

theorem exists_ops_of_chain {b b' : Bridge σ}
    (h : Relation.ReflTransGen (Whole hal dev sOwnMac) b b') :
    ∃ ops : List LockedOp, b' = ops.foldl (LockedOp.exec dev sOwnMac hal) b := by
  induction h with
  | refl => exact ⟨[], rfl⟩
  | tail _ hop ih =>
    obtain ⟨ops, rfl⟩ := ih
    obtain ⟨op, rfl⟩ := hop
    exact ⟨ops ++ [op], (List.foldl_concat ..).symm⟩

/-- When the lock is free, whole operations have been carried out one after another. -/
theorem exists_ops_of_free {as : List (BridgeTask × ((w : World) → w.Answer))}
    {s : LockState BridgeTask (Bridge σ) BridgeReq.Answer World.Answer BridgeTask.Locals}
    (hrun : (netTasks dev sOwnMac hal).sys.run (tasksStart b) as = some s)
    (hfree : s.holder = none) :
    ∃ ops : List LockedOp, s.shared = ops.foldl (LockedOp.exec dev sOwnMac hal) b := by
  have hstart := guards_tasksStart hal dev sOwnMac b
  obtain ⟨cs, c, hcs, hmirrors⟩ := Threads.serialises guards_netTasks
    ⟨_, Threads.orderly_start hstart b⟩ ((Threads.mirrors_of_free rfl).mpr rfl) hrun
  obtain rfl := (Threads.mirrors_of_free hfree).mp hmirrors
  exact exists_ops_of_chain hal dev sOwnMac (Threads.serial_chain guards_netTasks hstart hcs)

/-- **One task at a time.**  In every run of the three tasks, in whatever order their steps come and
whatever is answered on the bus and by the rest of the system: a task that is about to use the bus
or the table has the lock; and the run is one in which all that is done from an `ADIN_LOCK` to its
`ADIN_UNLOCK` is a single step, so that bus and table go through whole operations, one after
another. -/
theorem net_tasks_serialise {as : List (BridgeTask × ((w : World) → w.Answer))}
    {s : LockState BridgeTask (Bridge σ) BridgeReq.Answer World.Answer BridgeTask.Locals}
    (hrun : (netTasks dev sOwnMac hal).sys.run (tasksStart b) as = some s) :
    (∀ t q k, s.code t = .ask (.use q) k → s.holder = some t) ∧
      ∃ cs c, (netTasks dev sOwnMac hal).serial.run ⟨b, (tasksStart b).code⟩ cs = some c ∧
        (netTasks dev sOwnMac hal).Mirrors s c ∧
        (s.holder = none → c = ⟨s.shared, s.code⟩) ∧
        ∃ ops : List LockedOp, c.shared = ops.foldl (LockedOp.exec dev sOwnMac hal) b := by
  obtain ⟨held, h⟩ := exists_orderly hal dev sOwnMac b hrun
  refine ⟨fun t q k hcode => h.holder_of_use hcode, ?_⟩
  have hstart := guards_tasksStart hal dev sOwnMac b
  obtain ⟨cs, c, hcs, hmirrors⟩ := Threads.serialises guards_netTasks
    ⟨_, Threads.orderly_start hstart b⟩ ((Threads.mirrors_of_free rfl).mpr rfl) hrun
  refine ⟨cs, c, hcs, hmirrors, fun hfree => (Threads.mirrors_of_free hfree).mp hmirrors, ?_⟩
  exact exists_ops_of_chain hal dev sOwnMac (Threads.serial_chain guards_netTasks hstart hcs)

/-- The rest of the system answers as little as it can. -/
def quietWorld : (w : World) → w.Answer
  | .tick => (0 : Word)
  | .rxAlloc => (none : Option NetFrame)
  | .receive => (none : Option NetFrame)
  | .ready => false
  | .adinInt | .rxFree | .send _ | .txFree | .delay _ | .setLinkState _ => ()

/-- `net_rx_task` has the lock, and `link_task` is about to take it. -/
def rxFirst : List (BridgeTask × ((w : World) → w.Answer)) :=
  [(.link, quietWorld), (.netRx, quietWorld), (.netRx, quietWorld), (.netRx, quietWorld)]

theorem net_tasks_serialise_rxFirst :
    ∃ s, (netTasks boardAdin (fun _ => 2) idleBus).sys.run (tasksStart ⟨emptyFdb, ()⟩) rxFirst =
      some s ∧ s.holder = some .netRx ∧
        ∀ t q k, s.code t = .ask (.use q) k → s.holder = some t := by
  have hrun : (netTasks boardAdin (fun _ => 2) idleBus).sys.run (tasksStart ⟨emptyFdb, ()⟩)
      rxFirst = some _ := rfl
  exact ⟨_, hrun, rfl, (net_tasks_serialise idleBus boardAdin (fun _ => 2) ⟨emptyFdb, ()⟩ hrun).1⟩

/-- **The lock is given back.**  In every such run, the task that has the lock is not about to wait
for the lock, a queue, a semaphore, USB or a delay, can take its next step whatever it is answered,
and takes at most 98 steps, each SPI transfer being one, until it gives the lock back, whatever the
others do in the meantime. -/
theorem adin_lock_given_back {as : List (BridgeTask × ((w : World) → w.Answer))}
    {s : LockState BridgeTask (Bridge σ) BridgeReq.Answer World.Answer BridgeTask.Locals}
    (hrun : (netTasks dev sOwnMac hal).sys.run (tasksStart b) as = some s) {t : BridgeTask}
    (ht : s.holder = some t) :
    (∀ w k, s.code t = .ask (.other w) k → ¬ w.Waits) ∧
      (∀ v, ∃ s', (netTasks dev sOwnMac hal).sys.step s (t, v) = some s') ∧
      ∀ as' s', (netTasks dev sOwnMac hal).sys.run s as' = some s' →
        (netTasks dev sOwnMac hal).sys.Along (fun _ _ s' => s'.holder = some t) s as' →
        (as'.filter fun a => a.1 = t).length ≤ lockBudget := by
  obtain ⟨held, h⟩ := exists_orderly hal dev sOwnMac b hrun
  obtain ⟨g, hg⟩ := (h.holder t).mp ht
  refine ⟨(h.not_waits ht).2, h.exists_step ht, fun as' s' hrun' halong => ?_⟩
  exact (h.length_le guards_netTasks t hg halong hrun').trans (h.now t g hg).2

theorem adin_lock_given_back_rxFirst :
    ∃ s, (netTasks boardAdin (fun _ => 2) idleBus).sys.run (tasksStart ⟨emptyFdb, ()⟩) rxFirst =
      some s ∧ ∀ v, ∃ s', (netTasks boardAdin (fun _ => 2) idleBus).sys.step s (.netRx, v) =
        some s' := by
  have hrun : (netTasks boardAdin (fun _ => 2) idleBus).sys.run (tasksStart ⟨emptyFdb, ()⟩)
      rxFirst = some _ := rfl
  exact ⟨_, hrun,
    (adin_lock_given_back idleBus boardAdin (fun _ => 2) ⟨emptyFdb, ()⟩ hrun rfl).2.1⟩

end Together

end Usb2T1L
