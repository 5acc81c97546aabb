import Usb2T1L.Adin2111.Receive
import Usb2T1L.Bridge.Locking
import Usb2T1L.Bridge.Switching

/-!
# What the tasks ask of the device

Which SPI transfers the functions under the lock may make at all, whatever they are answered, and
what these do to the registers that decide about frames from the wire.

## Main definitions

* `Decides` — the registers that decide.
* `Looks`, `Programs` — the requests that leave them alone, and those of the table as well.
* `Chip.Spares` — between the two states they have been left alone.

## Main results

* `looks_adin2111ReadFrame` and its like — the driver by itself leaves them alone.
* `programs_netTasks` — **each task asks for these only**.
* `Programs.isolating` — each single request keeps the host and the groups apart from the rest,
  whatever becomes of it.
-/

namespace Usb2T1L

/-- A register that decides about frames from the wire. -/
def Decides (r : ℕ) : Prop := r = adinRegConfig2 ∨ ∃ k < adinMacFilterSlots, r ∈ slotRegs k

/-- The registers that the tasks write and that do not. -/
def controlRegs : List ℕ :=
  [adinRegStatus0, adinRegStatus1, adinRegFifoClr, adinRegTxFsize, adinRegTx]

theorem not_decides_of_control {r : ℕ} (h : r ∈ controlRegs) : ¬ Decides r := by
  have hlow : ∀ r ∈ controlRegs, r < 0x50 ∧ r ≠ adinRegConfig2 := by decide
  rintro (hr | ⟨k, hk, hr⟩)
  · exact (hlow r h).2 hr
  · simp only [slotRegs, List.mem_cons, List.not_mem_nil, or_false, adinRegMacAddrMaskUpr,
      adinRegMacAddrMaskLwr, adinRegMacAddrFiltLwr, adinRegMacAddrFiltUpr] at hr
    have hlt := (hlow r h).1
    omega

/-- The request looks at the table, or reads a register, or writes one of those. -/
inductive Looks (dev : Adin2111) : BridgeReq → Prop
  | load (i : Fin netFdbMaxEntries) : Looks dev (.load i)
  | read {reg : ℕ} (hreg : reg < 2 ^ 13) (tail : List Byte) :
      Looks dev (.xfer (readHeader dev reg ++ tail))
  | control {reg : ℕ} (hreg : reg ∈ controlRegs) (body : List Byte) :
      Looks dev (.xfer (adinBuildHeader dev reg true ++ body))

/-- The request does so, or it is one of an operation on the table. -/
inductive Programs (dev : Adin2111) : BridgeReq → Prop
  | looks {q : BridgeReq} (hq : Looks dev q) : Programs dev q
  | store (i : Fin netFdbMaxEntries) (write : FdbEntry → FdbEntry) : Programs dev (.store i write)
  | write {w : ℕ × Word} (hw : FdbWrite w) : Programs dev (.xfer (writeRegTx dev w.1 w.2))

/-! ### The functions under the lock -/

section Functions

open Scripted

variable {α β : Type} {dev : Adin2111}

theorem all_thenOk {P : BridgeReq → Prop} {p k : BridgeScript Status} (hp : p.All P)
    (hk : k.All P) : (Scripted.thenOk p k).All P :=
  hp.bind fun _ => Script.all_ite hk (Script.all_done _)

theorem all_andThen {P : BridgeReq → Prop} {p : BridgeScript (Except Status α)}
    {k : α → BridgeScript (Except Status β)} (hp : p.All P) (hk : ∀ a, (k a).All P) :
    (Scripted.andThen p k).All P := by
  refine hp.bind fun r => ?_
  cases r with
  | ok a => exact hk a
  | error rc => exact Script.all_done _

/-- A transfer whose answer is looked at only. -/
theorem all_spiXfer {P : BridgeReq → Prop} {tx : List Byte} (h : P (.xfer tx))
    {k : Option (List Byte) → BridgeScript α} (hk : ∀ r, (k r).All P) :
    (spiXfer tx >>= k).All P := (Script.all_req h).bind hk

theorem looks_adin2111ReadReg {reg : ℕ} (hreg : reg < 2 ^ 13) :
    (Scripted.adin2111ReadReg dev reg).All (Looks dev) := by
  refine all_spiXfer (Looks.read hreg _) fun r => ?_
  cases r with
  | none => exact Script.all_done _
  | some rx => exact Script.all_ite (Script.all_done _) (Script.all_done _)

theorem all_adin2111WriteReg {P : BridgeReq → Prop} {reg : ℕ} {val : Word}
    (h : P (.xfer (writeRegTx dev reg val))) : (Scripted.adin2111WriteReg dev reg val).All P := by
  refine all_spiXfer h fun r => ?_
  cases r <;> exact Script.all_done _

theorem looks_writeRegTx {reg : ℕ} (hreg : reg ∈ controlRegs) (val : Word) :
    Looks dev (.xfer (writeRegTx dev reg val)) := by
  rw [writeRegTx, List.append_assoc]
  exact Looks.control hreg _

theorem looks_adin2111WriteReg {reg : ℕ} (hreg : reg ∈ controlRegs) (val : Word) :
    (Scripted.adin2111WriteReg dev reg val).All (Looks dev) :=
  all_adin2111WriteReg (looks_writeRegTx hreg val)

theorem looks_adinFifoRead {reg : ℕ} (hreg : reg < 2 ^ 13) (bodyLen : ℕ) :
    (Scripted.adinFifoRead dev reg bodyLen).All (Looks dev) := by
  refine Script.all_ite (Script.all_done _) (all_spiXfer (Looks.read hreg _) fun r => ?_)
  cases r <;> exact Script.all_done _

theorem looks_adinFifoWrite (body : List Byte) :
    (Scripted.adinFifoWrite dev adinRegTx body).All (Looks dev) := by
  refine Script.all_ite (Script.all_done _) (all_spiXfer (Looks.control (by decide) _) fun r => ?_)
  cases r <;> exact Script.all_done _

theorem looks_adin2111LinkUp (port : Port) :
    (Scripted.adin2111LinkUp dev port).All (Looks dev) := by
  refine (looks_adin2111ReadReg (by decide)).bind fun r => ?_
  cases r <;> exact Script.all_done _

theorem looks_linkUp : (linkUp dev).All (Looks dev) :=
  (looks_adin2111LinkUp _).bind fun _ =>
    Script.all_ite (looks_adin2111LinkUp _) (Script.all_done _)

theorem looks_adin2111RxReady : (Scripted.adin2111RxReady dev).All (Looks dev) := by
  refine (looks_adin2111ReadReg (by decide)).bind fun r => ?_
  cases r <;> exact Script.all_done _

theorem looks_adin2111IrqAck : (Scripted.adin2111IrqAck dev).All (Looks dev) :=
  all_andThen (looks_adin2111ReadReg (by decide)) fun _ =>
    all_andThen (looks_adin2111ReadReg (by decide)) fun _ =>
      (looks_adin2111WriteReg (by decide) _).bind fun _ =>
        (looks_adin2111WriteReg (by decide) _).bind fun _ => Script.all_done _

theorem looks_adin2111ReadFrame (bufLen : ℕ) :
    (Scripted.adin2111ReadFrame dev bufLen).All (Looks dev) := by
  refine all_andThen (looks_adin2111ReadReg (by decide)) fun s1 => ?_
  cases adinRxPort dev s1 with
  | none => exact Script.all_done _
  | some port =>
    refine all_andThen (looks_adin2111ReadReg (by cases port <;> decide)) fun fsize => ?_
    have hclear : ∀ rc : Status, (do
        let _ ← Scripted.adin2111WriteReg dev adinRegFifoClr adinFifoClrRx
        return .error rc : BridgeScript (Except Status (List Byte × Port))).All (Looks dev) :=
      fun rc => (looks_adin2111WriteReg (by decide) _).bind fun _ => Script.all_done _
    refine Script.all_ite (hclear _) (Script.all_ite (hclear _) ?_)
    exact all_andThen (looks_adinFifoRead (by cases port <;> decide) _) fun _ =>
      Script.all_done _

theorem looks_adin2111WriteFrame (port : Port) (frame : List Byte) (len : ℕ) :
    (Scripted.adin2111WriteFrame dev port frame len).All (Looks dev) := by
  refine all_thenOk (Script.all_ite (Script.all_done _) ?_) (looks_adinFifoWrite _)
  refine (looks_adin2111ReadReg (by decide)).bind fun r => ?_
  cases r with
  | error rc => exact Script.all_done _
  | ok space =>
    exact Script.all_ite (Script.all_done _) (looks_adin2111WriteReg (by decide) _)

theorem looks_sFdb (i : Fin netFdbMaxEntries) : (sFdb i).All (Looks dev) :=
  Script.all_req (Looks.load i)

theorem looks_fdbFind (mac : Mac) (l : List (Fin netFdbMaxEntries)) :
    (fdbFind mac l).All (Looks dev) := by
  induction l with
  | nil => exact Script.all_done _
  | cons i is ih =>
    have hhit : (fdbHit mac i).All (Looks dev) := (looks_sFdb i).bind fun _ =>
      Script.all_ite ((looks_sFdb i).bind fun _ => Script.all_done _) (Script.all_done _)
    exact hhit.bind fun _ => Script.all_ite (Script.all_done _) ih

theorem looks_netBridgeFdbLookup (dst : Mac) :
    (Scripted.netBridgeFdbLookup dst).All (Looks dev) := by
  refine (looks_fdbFind dst _).bind fun r => ?_
  cases r with
  | none => exact Script.all_done _
  | some i => exact (looks_sFdb i).bind fun _ => Script.all_done _

theorem looks_chooseSlot (now : Word) (l : List (Fin netFdbMaxEntries)) :
    ∀ (lru : Fin netFdbMaxEntries) (lruAge : Word),
      (Scripted.chooseSlot now l lru lruAge).All (Looks dev) := by
  induction l with
  | nil => intro lru lruAge; exact Script.all_done _
  | cons i is ih =>
    intro lru lruAge
    refine (looks_sFdb i).bind fun _ => Script.all_ite (Script.all_done _) ?_
    exact (looks_sFdb i).bind fun _ => Script.all_ite (Script.all_done _)
      (Script.all_ite (ih _ _) (ih _ _))

theorem looks_stale (now : Word) (i : Fin netFdbMaxEntries) :
    (Scripted.stale now i).All (Looks dev) :=
  (looks_sFdb i).bind fun _ =>
    Script.all_ite ((looks_sFdb i).bind fun _ => Script.all_done _) (Script.all_done _)

theorem programs_adin2111WriteReg {reg : ℕ} {val : Word} (hw : FdbWrite (reg, val)) :
    (Scripted.adin2111WriteReg dev reg val).All (Programs dev) :=
  all_adin2111WriteReg (Programs.write (w := (reg, val)) hw)

/-- An operation on a slot makes the writes of its four registers. -/
theorem programs_adinWriteFilter {slot : ℕ} {ctl : Word} {aU : BitVec 16} {aL : Word}
    {mU : BitVec 16} {mL : Word} (h : ∀ w ∈ filterWrites slot ctl aU aL mU mL, FdbWrite w) :
    (Scripted.adinWriteFilter dev slot ctl aU aL mU mL).All (Programs dev) := by
  simp only [filterWrites, List.forall_mem_cons] at h
  obtain ⟨h1, h2, h3, h4, -⟩ := h
  exact all_thenOk (programs_adin2111WriteReg h1) <|
    all_thenOk (programs_adin2111WriteReg h2) <|
      all_thenOk (programs_adin2111WriteReg h3) (programs_adin2111WriteReg h4)

theorem programs_adin2111FdbSet (i : Fin netFdbMaxEntries) (mac : Mac) (livePort : Port) :
    (Scripted.adin2111FdbSet dev (fdbSlotIndex i) mac livePort).All (Programs dev) :=
  Script.all_ite (Script.all_done _) <| programs_adinWriteFilter fun _ hw =>
    fdbWrite_of_mem_intended (show _ ∈ (FdbOp.set mac livePort).intended _ from hw)

theorem programs_adin2111FdbClear (i : Fin netFdbMaxEntries) :
    (Scripted.adin2111FdbClear dev (fdbSlotIndex i)).All (Programs dev) :=
  Script.all_ite (Script.all_done _) <| programs_adinWriteFilter fun _ hw =>
    fdbWrite_of_mem_intended (show _ ∈ FdbOp.clear.intended _ from hw)

theorem programs_of_looks {p : BridgeScript α} (h : p.All (Looks dev)) :
    p.All (Programs dev) := h.mono fun _ => Programs.looks

theorem programs_setFdb (i : Fin netFdbMaxEntries) (write : FdbEntry → FdbEntry) :
    (setFdb i write).All (Programs dev) := Script.all_req (Programs.store i write)

theorem programs_netBridgeLearn (now : Word) (src : Mac) (ingress : Port) :
    (Scripted.netBridgeLearn dev now src ingress).All (Programs dev) := by
  refine (programs_of_looks (looks_fdbFind src _)).bind fun r => ?_
  cases r with
  | some i =>
    refine (programs_setFdb i _).bind fun _ =>
      (programs_of_looks (looks_sFdb i)).bind fun _ => Script.all_ite ?_ (Script.all_done _)
    exact (programs_setFdb i _).bind fun _ =>
      (programs_adin2111FdbSet i src ingress).bind fun _ => Script.all_done _
  | none =>
    exact (programs_of_looks (looks_chooseSlot now _ _ _)).bind fun slot =>
      (programs_setFdb slot _).bind fun _ => (programs_setFdb slot _).bind fun _ =>
        (programs_setFdb slot _).bind fun _ => (programs_setFdb slot _).bind fun _ =>
          (programs_adin2111FdbSet slot src ingress).bind fun _ => Script.all_done _

theorem programs_linkTaskSweep (now : Word) (l : List (Fin netFdbMaxEntries)) :
    (Scripted.linkTaskSweep dev now l).All (Programs dev) := by
  induction l with
  | nil => exact Script.all_done _
  | cons i is ih =>
    refine (programs_of_looks (looks_stale now i)).bind fun _ => Script.all_ite ?_ ih
    exact (programs_setFdb i _).bind fun _ => (programs_adin2111FdbClear i).bind fun _ => ih

end Functions

/-! ### The tasks -/

section Tasks

variable {dev : Adin2111} {sOwnMac : Mac}

/-- A script of a task uses what the lock protects for these requests only. -/
abbrev Asks (dev : Adin2111) {α : Type} (p : TaskScript α) : Prop :=
  p.All (LockReq.Uses (Programs dev))

theorem asks_call (w : World) : Asks dev (call w) := Script.all_req trivial

theorem asks_adinLock : Asks dev adinLock := Script.all_req trivial

theorem asks_adinUnlock : Asks dev adinUnlock := Script.all_req trivial

theorem asks_getTick : Asks dev getTick := Script.all_req trivial

theorem asks_of_looks {α : Type} {p : BridgeScript α} (h : p.All (Looks dev)) :
    Asks dev p.locked := (programs_of_looks h).locked

theorem asks_netBridgeLearnTask (src : Mac) (ingress : Port) :
    Asks dev (netBridgeLearnTask dev sOwnMac src ingress) :=
  Script.all_ite (Script.all_done _) <|
    asks_getTick.bind fun now => (programs_netBridgeLearn now src ingress).locked

theorem asks_netRxHandOn (f : NetFrame) (eth : List Byte) (port : Port) :
    Asks dev (netRxHandOn f eth port) :=
  Script.all_ite ((asks_call _).bind fun _ => Script.all_done _)
    ((asks_call _).bind fun _ => (asks_call _).bind fun _ => Script.all_done _)

theorem asks_netRxBody (l : RxLoop) : Asks dev (netRxBody dev sOwnMac l) := by
  cases l with
  | outer =>
    exact (asks_call _).bind fun _ => asks_adinLock.bind fun _ =>
      (asks_of_looks looks_adin2111IrqAck).bind fun _ =>
        asks_adinUnlock.bind fun _ => Script.all_done _
  | inner =>
    have hout : ∀ l : RxLoop, Asks dev (do adinUnlock; return l) := fun l =>
      asks_adinUnlock.bind fun _ => Script.all_done _
    refine asks_adinLock.bind fun _ => (asks_of_looks looks_adin2111RxReady).bind fun _ =>
      Script.all_ite ?_ (hout _)
    have halloc : Asks dev rxAlloc := Script.all_req trivial
    refine halloc.bind fun r => ?_
    cases r with
    | none => exact hout _
    | some buf =>
      refine (asks_of_looks (looks_adin2111ReadFrame _)).bind fun r => ?_
      cases r with
      | error rc =>
        exact asks_adinUnlock.bind fun _ => (asks_call _).bind fun _ => Script.all_done _
      | ok r =>
        have hgive : Asks dev (do
            adinUnlock; netRxHandOn { buf with data := overlay r.1 buf.data } r.1 r.2) :=
          asks_adinUnlock.bind fun _ => asks_netRxHandOn _ _ _
        exact Script.all_ite ((asks_netBridgeLearnTask _ _).bind fun _ => hgive) hgive

theorem asks_txFramePortTask (f : NetFrame) (port : Port) (attempts : ℕ) :
    Asks dev (txFramePortTask dev f port attempts) := by
  induction attempts with
  | zero => exact Script.all_done _
  | succ attempts ih =>
    refine asks_adinLock.bind fun _ =>
      (asks_of_looks (looks_adin2111WriteFrame port _ _)).bind fun _ =>
        asks_adinUnlock.bind fun _ => Script.all_ite ?_ (Script.all_done _)
    exact (asks_call _).bind fun _ => ih

theorem asks_netTxFrameTask (f : NetFrame) : Asks dev (netTxFrameTask dev f) := by
  rw [netTxFrameTask]
  cases dev.mode with
  | endpoint => exact asks_txFramePortTask f _ _
  | switch =>
    have hlookup : Asks dev (lookupTask f.dst) := Script.all_ite (Script.all_done _) <|
      asks_adinLock.bind fun _ => (asks_of_looks (looks_netBridgeFdbLookup _)).bind fun _ =>
        asks_adinUnlock.bind fun _ => Script.all_done _
    refine hlookup.bind fun p => ?_
    cases p with
    | none => exact (asks_txFramePortTask f _ _).bind fun _ => asks_txFramePortTask f _ _
    | some p => exact asks_txFramePortTask f _ _

theorem asks_netTxBody : Asks dev (netTxBody dev) := by
  have hreceive : Asks dev receive := Script.all_req trivial
  refine hreceive.bind fun r => ?_
  cases r with
  | none => exact Script.all_done _
  | some f =>
    exact (asks_netTxFrameTask f).bind fun _ => (asks_call _).bind fun _ => Script.all_done _

theorem asks_linkNotify (l : LinkSent) (up : Bool) : Asks dev (linkNotify l up) := by
  have hready : Asks dev ecmReady := Script.all_req trivial
  exact hready.bind fun _ => Script.all_ite (Script.all_done _) <|
    Script.all_ite ((asks_call _).bind fun _ => Script.all_done _) (Script.all_done _)

theorem asks_linkAge : Asks dev (linkAge dev) :=
  asks_getTick.bind fun now => asks_adinLock.bind fun _ =>
    (programs_linkTaskSweep now _).locked.bind fun _ => asks_adinUnlock

theorem asks_linkBody (l : LinkSent) : Asks dev (linkBody dev l) := by
  refine asks_adinLock.bind fun _ => (asks_of_looks looks_linkUp).bind fun up =>
    asks_adinUnlock.bind fun _ => (asks_linkNotify l up).bind fun l => ?_
  have hdelay : Asks dev (do let _ ← call (.delay 250); return l) :=
    (asks_call _).bind fun _ => Script.all_done _
  exact Script.all_ite (asks_linkAge.bind fun _ => hdelay) hdelay

/-- **Each task asks for these only.** -/
theorem programs_netTasks {σ : Type} (hal : Hal σ) (t : BridgeTask) (l : t.Locals) :
    Asks dev ((netTasks dev sOwnMac hal).body t l) := by
  cases t with
  | netRx => exact asks_netRxBody l
  | netTx => exact asks_netTxBody
  | link => exact asks_linkBody l

theorem asks_tasksStart {σ : Type} (b : Bridge σ) (t : BridgeTask) :
    Asks dev ((tasksStart b).code t) := by
  cases t <;> exact Script.all_done _

end Tasks

/-! ### What becomes of the registers -/

/-- No write of a register that decides is going to fail. -/
def Chip.FiltersWork (c : Chip) : Prop := ∀ r n, Decides r → c.faults (true, r) n = .none

/-- Between the two states the registers that decide have been left alone. -/
structure Chip.Spares (c c' : Chip) : Prop where
  regs : ∀ r, Decides r → c'.regs r = c.regs r
  works : c.FiltersWork → c'.FiltersWork

namespace Chip.Spares

variable {c c' c'' : Chip}

theorem refl (c : Chip) : Spares c c := ⟨fun _ _ => rfl, fun h => h⟩

theorem trans (h : Spares c c') (h' : Spares c' c'') : Spares c c'' where
  regs := fun r hr => (h'.regs r hr).trans (h.regs r hr)
  works := fun hw => h'.works (h.works hw)

theorem next (a : Access) (c : Chip) : Spares c (c.next a) where
  regs := fun _ _ => rfl
  works := fun hw r n hr => by
    obtain ⟨m, hm⟩ := (Chip.grows_next a c).faults (true, r)
    rw [hm]
    exact hw r _ hr

/-- Removing a frame is nothing to the registers. -/
theorem pop (p : Port) (c : Chip) : Spares c (c.pop p) := ⟨fun _ _ => rfl, fun h => h⟩

/-- Nor is a write to a register that does not decide. -/
theorem write {reg : ℕ} (hreg : reg ∈ controlRegs) (val : Word) (c : Chip) :
    Spares c (c.write reg val) := by
  have hreset : reg ≠ adinRegReset := by
    rintro rfl
    exact absurd hreg (by decide)
  have hstore : ∀ v, Spares c { c with regs := RegFile.write c.regs (reg, v) } := fun v =>
    ⟨fun r hr => RegFile.write_of_ne _ fun he : r = reg =>
      not_decides_of_control hreg (he ▸ hr), fun h => h⟩
  rw [Chip.write, if_neg hreset]
  split
  · split
    · exact refl c
    · exact ⟨fun _ _ => rfl, fun h => h⟩
  · split
    · exact hstore _
    · exact hstore _

/-- A transaction that is carried out, or not. -/
theorem xfer {crc : Bool} {tx body : List Byte} {wr : Bool} {reg : ℕ}
    (hdec : decodeHeader crc tx = some (wr, reg, body)) {c : Chip}
    (h : ∀ c', Spares c' (Chip.perform crc wr reg body c').2) :
    Spares c (Chip.xfer crc tx c).2 := by
  have hnext := next (wr, reg) c
  rw [Chip.xfer, hdec]
  dsimp only
  cases c.fault crc (wr, reg) with
  | none => exact hnext.trans (h _)
  | spi => exact hnext
  | crc => exact hnext

end Chip.Spares

section Requests

variable {dev : Adin2111} {sOwnMac : Mac}

/-- **A request that looks leaves them alone**, and the table as well. -/
theorem Looks.spares {q : BridgeReq} (hq : Looks dev q) (b : Bridge Chip) :
    (bridgeHandle (chipHal dev) q b).2.fdb = b.fdb ∧
      b.adin.Spares (bridgeHandle (chipHal dev) q b).2.adin := by
  cases hq with
  | load i => exact ⟨rfl, Chip.Spares.refl _⟩
  | read hreg tail =>
    refine ⟨rfl, Chip.Spares.xfer (decodeHeader_readHeader dev hreg tail) fun c => ?_⟩
    rw [Chip.perform, if_neg Bool.false_ne_true]
    split
    · exact Chip.Spares.pop _ c
    · exact Chip.Spares.refl c
  | @control reg hreg body =>
    have hlt : reg < 2 ^ 13 := (by decide : ∀ r ∈ controlRegs, r < 2 ^ 13) reg hreg
    refine ⟨rfl, Chip.Spares.xfer (decodeHeader_adinBuildHeader dev hlt body) fun c => ?_⟩
    rw [Chip.perform, if_pos rfl]
    split
    · exact Chip.Spares.write hreg _ c
    · exact Chip.Spares.refl c

/-- Only the registers that decide matter. -/
theorem deviceVerdict_congr {regs regs' : ℕ → Word} (h : ∀ r, Decides r → regs' r = regs r)
    (da : Mac) (p : Port) : deviceVerdict regs' da p = deviceVerdict regs da p := by
  have hslot : ∀ k < adinMacFilterSlots, slotAt regs' k = slotAt regs k := fun k hk =>
    slotAt_congr fun r hr => h r (Or.inr ⟨k, hk, hr⟩)
  have hsome : ∀ P, SomeMatch regs' da p P ↔ SomeMatch regs da p P := fun P =>
    exists_congr fun k => and_congr_right fun hk => by rw [hslot k hk]
  unfold deviceVerdict
  simp only [hsome, h _ (Or.inl rfl)]

theorem Isolating.congr {regs regs' : ℕ → Word} (h : Isolating dev sOwnMac regs)
    (hregs : ∀ r, Decides r → regs' r = regs r) : Isolating dev sOwnMac regs' where
  config2 := (hregs _ (Or.inl rfl)).trans h.config2
  group := fun w hw => (hregs _ (Or.inr ⟨_, by decide, mem_slotRegs_of_mem_filterWrites hw⟩)).trans
    (h.group w hw)
  host := fun w hw => (hregs _ (Or.inr ⟨_, by decide, mem_slotRegs_of_mem_filterWrites hw⟩)).trans
    (h.host w hw)
  quiet := fun i => by
    rw [slotAt_congr fun r hr => hregs r (Or.inr ⟨_, fdbSlotIndex_lt i, hr⟩)]
    exact h.quiet i

/-- **Each single request keeps the host and the groups apart from the rest**, whatever becomes of
it. -/
theorem Programs.isolating {q : BridgeReq} (hq : Programs dev q) {b : Bridge Chip}
    (h : Isolating dev sOwnMac b.adin.regs) :
    Isolating dev sOwnMac (bridgeHandle (chipHal dev) q b).2.adin.regs := by
  cases hq with
  | looks hq => exact h.congr (hq.spares b).2.regs
  | store i write => exact h
  | @write w hw =>
    obtain ⟨i, hreg, -⟩ := id hw
    have hplain : PlainReg w.1 := by
      have hlt : fdbSlotIndex i < 16 := fdbSlotIndex_lt i
      simp only [slotRegs, List.mem_cons, List.not_mem_nil, or_false, adinRegMacAddrMaskUpr,
        adinRegMacAddrMaskLwr, adinRegMacAddrFiltLwr, adinRegMacAddrFiltUpr] at hreg
      unfold PlainReg adinRegReset adinRegFifoClr adinRegStatus0 adinRegStatus1
      omega
    have hwrite : (bridgeHandle (chipHal dev) (.xfer (writeRegTx dev w.1 w.2)) b).2.adin =
        (adin2111WriteReg (chipHal dev) dev w.1 w.2 b.adin).2 := by
      rw [adin2111WriteReg]
      split <;> next hx => exact congrArg Prod.snd hx
    -- the write is carried out, or nothing is
    rw [hwrite, adin2111WriteReg_chip dev hplain.1]
    cases b.adin.fault dev.crcEnabled (true, w.1) with
    | none =>
      dsimp only
      rw [(Chip.regs_write hplain _ _).1]
      exact h.write hw
    | spi => exact h
    | crc => exact h

end Requests

end Usb2T1L
