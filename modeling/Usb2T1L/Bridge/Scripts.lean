import Usb2T1L.Bridge.Fdb
import Usb2T1L.Lib.Script
import Usb2T1L.Adin2111.Transfer

/-!
# What runs under the lock, access by access

The functions of the driver and of `net_bridge.c` that are called with `s_adin_lock` held, as
scripts: each SPI transfer and each access to a field of `s_fdb` is a request of its own.

## Main definitions

* `BridgeReq`, `bridgeHandle` — the requests, and what they do.
* The namespace `Scripted` — the functions.

## Main results

* `drives_adin2111ReadFrame`, `exec_netBridgeLearn` and their like — **run as a whole, a script is
  the function**.
* `atMost_adin2111ReadFrame`, `atMost_netBridgeLearn` and their like — the number of its accesses.
-/

namespace Usb2T1L

/-- A request to what `s_adin_lock` protects. -/
inductive BridgeReq
  /-- An SPI transfer. -/
  | xfer (tx : List Byte)
  /-- A field of an entry of `s_fdb` is read; the answer is the entry. -/
  | load (i : Fin netFdbMaxEntries)
  /-- A field is written. -/
  | store (i : Fin netFdbMaxEntries) (write : FdbEntry → FdbEntry)

/-- What is answered. -/
def BridgeReq.Answer : BridgeReq → Type
  | .xfer _ => Option (List Byte)
  | .load _ => FdbEntry
  | .store _ _ => Unit

/-- A script under the lock. -/
abbrev BridgeScript (α : Type) : Type := Script BridgeReq BridgeReq.Answer α

/-- What a request does. -/
def bridgeHandle {σ : Type} (hal : Hal σ) : (q : BridgeReq) → Bridge σ → q.Answer × Bridge σ
  | .xfer tx, b => ((hal.spiXfer tx b.adin).1, { b with adin := (hal.spiXfer tx b.adin).2 })
  | .load i, b => (b.fdb i, b)
  | .store i write, b => ((), { b with fdb := Function.update b.fdb i (write (b.fdb i)) })

namespace Scripted

variable {α β : Type} (dev : Adin2111)

/-- The `spi_xfer` callback. -/
def spiXfer (tx : List Byte) : BridgeScript (Option (List Byte)) := Script.req (BridgeReq.xfer tx)

/-- `s_fdb[i]`. -/
def sFdb (i : Fin netFdbMaxEntries) : BridgeScript FdbEntry := Script.req (BridgeReq.load i)

/-- An assignment to a field of `s_fdb[i]`. -/
def setFdb (i : Fin netFdbMaxEntries) (write : FdbEntry → FdbEntry) : BridgeScript Unit :=
  Script.req (BridgeReq.store i write)

/-- The driver's `if (rc != ADIN2111_OK) return rc;`. -/
def thenOk (p k : BridgeScript Status) : BridgeScript Status := do
  let rc ← p
  if rc = .ok then k else return rc

/-- The rest of a function after a call that returns a status and a value. -/
def andThen (p : BridgeScript (Except Status α)) (k : α → BridgeScript (Except Status β)) :
    BridgeScript (Except Status β) := do
  match ← p with
  | .ok a => k a
  | .error rc => return .error rc

/-! ### The driver -/

/-- `adin2111_write_reg`. -/
def adin2111WriteReg (reg : ℕ) (val : Word) : BridgeScript Status := do
  match ← spiXfer (writeRegTx dev reg val) with
  | some _ => return .ok
  | none => return .errSpi

/-- `adin2111_read_reg`. -/
def adin2111ReadReg (reg : ℕ) : BridgeScript (Except Status Word) := do
  match ← spiXfer (readRegTx dev reg) with
  | none => return .error .errSpi
  | some rx =>
    let dataOff := (readHeader dev reg).length
    if dev.crcEnabled = true ∧ adinCrc8 (bytesFrom rx dataOff 4) ≠ rx.getD (dataOff + 4) 0 then
      return .error .errCrc
    else return .ok (wordFrom rx dataOff)

/-- `adin_fifo_write`. -/
def adinFifoWrite (reg : ℕ) (body : List Byte) : BridgeScript Status := do
  if adinSpiMaxburst < (adinBuildHeader dev reg true).length + body.length then return .errToobig
  else
    match ← spiXfer (adinBuildHeader dev reg true ++ body) with
    | some _ => return .ok
    | none => return .errSpi

/-- `adin_fifo_read`. -/
def adinFifoRead (reg bodyLen : ℕ) : BridgeScript (Except Status (List Byte)) := do
  if adinSpiMaxburst < (readHeader dev reg).length + bodyLen then return .error .errToobig
  else
    match ← spiXfer (readHeader dev reg ++ List.replicate bodyLen 0) with
    | none => return .error .errSpi
    | some rx => return .ok (bytesFrom rx (readHeader dev reg).length bodyLen)

/-- `adin2111_link_up`. -/
def adin2111LinkUp (port : Port) : BridgeScript Bool := do
  match ← adin2111ReadReg dev adinRegStatus1 with
  | .error _ => return false
  | .ok s1 =>
    let mask := if port = .port2 then adin2111Status1P2LinkState else adinStatus1LinkState
    return decide (s1 &&& mask ≠ 0)

/-- `adin2111_rx_ready`. -/
def adin2111RxReady : BridgeScript Bool := do
  match ← adin2111ReadReg dev adinRegStatus1 with
  | .error _ => return false
  | .ok s1 => return decide (s1 &&& (adinStatus1RxRdy ||| adin2111Status1P2RxRdy) ≠ 0)

/-- `adin2111_irq_ack`. -/
def adin2111IrqAck : BridgeScript (Except Status Word) :=
  andThen (adin2111ReadReg dev adinRegStatus0) fun s0 =>
  andThen (adin2111ReadReg dev adinRegStatus1) fun s1 => do
  let _ ← adin2111WriteReg dev adinRegStatus0 s0
  let _ ← adin2111WriteReg dev adinRegStatus1
    (s1 &&& ~~~(adinStatus1RxRdy ||| adin2111Status1P2RxRdy))
  return .ok s1

/-- `adin2111_read_frame`. -/
def adin2111ReadFrame (bufLen : ℕ) : BridgeScript (Except Status (List Byte × Port)) :=
  andThen (adin2111ReadReg dev adinRegStatus1) fun s1 =>
  match adinRxPort dev s1 with
  | none => return .error .errNodata
  | some port =>
    andThen (adin2111ReadReg dev (rxFsizeReg port)) fun fsize => do
    if fsize.toNat < adinFrameHeaderLen + adinFcsLen ∨
        adinFrameHeaderLen + adinFcsLen + adinMaxEthFrame < fsize.toNat then
      let _ ← adin2111WriteReg dev adinRegFifoClr adinFifoClrRx
      return .error .errNodata
    else
      let ethLen := fsize.toNat - adinFrameHeaderLen - adinFcsLen
      if bufLen < ethLen then
        let _ ← adin2111WriteReg dev adinRegFifoClr adinFifoClrRx
        return .error .errToobig
      else
        andThen (adinFifoRead dev (rxFifoReg port) (adinRound4 fsize.toNat)) fun body =>
        return .ok (bytesFrom body adinFrameHeaderLen ethLen, port)

/-- `adin2111_write_frame` before its burst. -/
def adinTxReserve (len : ℕ) : BridgeScript Status := do
  if len = 0 ∨ adinMaxEthFrame < len then return .errParam
  else
    match ← adin2111ReadReg dev adinRegTxSpace with
    | .error rc => return rc
    | .ok space =>
      if (space * 2).toNat < adinRound4 (paddedLen len + adinFrameHeaderLen) + adinFcsLen then
        return .errNospace
      else
        adin2111WriteReg dev adinRegTxFsize
          (BitVec.ofNat 32 (paddedLen len + adinFrameHeaderLen))

/-- `adin2111_write_frame`. -/
def adin2111WriteFrame (port : Port) (frame : List Byte) (len : ℕ) : BridgeScript Status :=
  thenOk (adinTxReserve dev len) (adinFifoWrite dev adinRegTx (txBody port frame len))

/-- `adin_write_filter`. -/
def adinWriteFilter (slot : ℕ) (ctl : Word) (addrUpr : BitVec 16) (addrLwr : Word)
    (maskUpr : BitVec 16) (maskLwr : Word) : BridgeScript Status :=
  thenOk (adin2111WriteReg dev (adinRegMacAddrMaskUpr slot) (maskUpr.setWidth 32)) <|
  thenOk (adin2111WriteReg dev (adinRegMacAddrMaskLwr slot) maskLwr) <|
  thenOk (adin2111WriteReg dev (adinRegMacAddrFiltLwr slot) addrLwr) <|
  adin2111WriteReg dev (adinRegMacAddrFiltUpr slot) (ctl ||| addrUpr.setWidth 32)

/-- `adin2111_fdb_set`. -/
def adin2111FdbSet (slot : ℕ) (mac : Mac) (livePort : Port) : BridgeScript Status :=
  if dev.numPorts < 2 ∨ slot < adinMacSlotFdbBase ∨ adinMacFilterSlots ≤ slot then
    return .errParam
  else
    adinWriteFilter dev slot (fdbCtl livePort) (addrUpr mac) (addrLwr mac) 0xFFFF 0xFFFFFFFF

/-- `adin2111_fdb_clear`. -/
def adin2111FdbClear (slot : ℕ) : BridgeScript Status :=
  if adinMacFilterSlots ≤ slot then return .errParam else adinWriteFilter dev slot 0 0 0 0 0

/-! ### The table -/

/-- `s_fdb[i].valid && memcmp(s_fdb[i].mac, mac, 6) == 0`. -/
def fdbHit (mac : Mac) (i : Fin netFdbMaxEntries) : BridgeScript Bool := do
  if (← sFdb i).valid then return decide ((← sFdb i).mac = mac) else return false

/-- The search of `net_bridge_learn` and `net_bridge_fdb_lookup`, over the indices still to come. -/
def fdbFind (mac : Mac) : List (Fin netFdbMaxEntries) → BridgeScript (Option (Fin netFdbMaxEntries))
  | [] => return none
  | i :: is => do
    if ← fdbHit mac i then return some i else fdbFind mac is

/-- `net_bridge_fdb_lookup`. -/
def netBridgeFdbLookup (dst : Mac) : BridgeScript (Option Port) := do
  match ← fdbFind dst (List.finRange netFdbMaxEntries) with
  | none => return none
  | some i => return some (← sFdb i).port

/-- The slot loop of `net_bridge_learn`. -/
def chooseSlot (now : Word) : List (Fin netFdbMaxEntries) → Fin netFdbMaxEntries → Word →
    BridgeScript (Fin netFdbMaxEntries)
  | [], lru, _ => return lru
  | i :: is, lru, lruAge => do
    if (← sFdb i).valid = false then return i
    else
      let age := now - (← sFdb i).stamp
      if agel < age then return i
      else if lruAge ≤ age then chooseSlot now is i age
      else chooseSlot now is lru lruAge

local instance : NeZero netFdbMaxEntries := ⟨by decide⟩

/-- `net_bridge_learn`, from its look at the tick counter on. -/
def netBridgeLearn (now : Word) (src : Mac) (ingress : Port) : BridgeScript Unit := do
  match ← fdbFind src (List.finRange netFdbMaxEntries) with
  | some i =>
    setFdb i fun e => { e with stamp := now }
    if (← sFdb i).port ≠ ingress then
      setFdb i fun e => { e with port := ingress }
      let _ ← adin2111FdbSet dev (fdbSlotIndex i) src ingress
      return ()
    else return ()
  | none =>
    let slot ← chooseSlot now (List.finRange netFdbMaxEntries) 0 0
    setFdb slot fun e => { e with mac := src }
    setFdb slot fun e => { e with port := ingress }
    setFdb slot fun e => { e with valid := true }
    setFdb slot fun e => { e with stamp := now }
    let _ ← adin2111FdbSet dev (fdbSlotIndex slot) src ingress
    return ()

/-- `s_fdb[i].valid && (now - s_fdb[i].stamp) > agel`. -/
def stale (now : Word) (i : Fin netFdbMaxEntries) : BridgeScript Bool := do
  if (← sFdb i).valid then return decide (agel < now - (← sFdb i).stamp) else return false

/-- The aging loop of `link_task`, over the indices still to come. -/
def linkTaskSweep (now : Word) : List (Fin netFdbMaxEntries) → BridgeScript Unit
  | [] => return ()
  | i :: is => do
    if ← stale now i then
      setFdb i fun e => { e with valid := false }
      let _ ← adin2111FdbClear dev (fdbSlotIndex i)
      linkTaskSweep now is
    else linkTaskSweep now is

/-! ### Run as a whole -/

/-- The script does to the device what `f` does, and leaves the table alone. -/
def Drives {σ : Type} (hal : Hal σ) (p : BridgeScript α) (f : σ → α × σ) : Prop :=
  ∀ b : Bridge σ, p.exec (bridgeHandle hal) b = ((f b.adin).1, { b with adin := (f b.adin).2 })

section Drives

variable {σ : Type} {hal : Hal σ}

theorem drives_pure (a : α) : Drives hal (pure a) fun s => (a, s) := fun _ => rfl

theorem Drives.bind {p : BridgeScript α} {f : σ → α × σ} (hp : Drives hal p f)
    {k : α → BridgeScript β} {g : α → σ → β × σ} (hk : ∀ a, Drives hal (k a) (g a)) :
    Drives hal (p >>= k) fun s => g (f s).1 (f s).2 := by
  intro b
  rw [Script.exec_bind, hp b]
  exact hk _ _

theorem Drives.thenOk {p k : BridgeScript Status} {f g : σ → Status × σ} (hp : Drives hal p f)
    (hk : Drives hal k g) : Drives hal (thenOk p k) fun s => Usb2T1L.thenOk (f s) g := by
  intro b
  rw [Scripted.thenOk, Script.exec_bind, hp b]
  dsimp only [Usb2T1L.thenOk]
  split
  · exact hk _
  · rfl

theorem Drives.andThen {p : BridgeScript (Except Status α)} {f : σ → Except Status α × σ}
    (hp : Drives hal p f) {k : α → BridgeScript (Except Status β)}
    {g : α → σ → Except Status β × σ} (hk : ∀ a, Drives hal (k a) (g a)) :
    Drives hal (andThen p k) fun s => Usb2T1L.andThen (f s) g := by
  intro b
  rw [Scripted.andThen, Script.exec_bind, hp b]
  dsimp only [Usb2T1L.andThen]
  obtain ⟨_ | a, s⟩ := f b.adin
  · rfl
  · exact hk a _

theorem drives_spiXfer (tx : List Byte) : Drives hal (spiXfer tx) (hal.spiXfer tx) := fun _ => rfl

theorem drives_adin2111WriteReg (reg : ℕ) (val : Word) :
    Drives hal (adin2111WriteReg dev reg val) (Usb2T1L.adin2111WriteReg hal dev reg val) := by
  intro b
  rw [adin2111WriteReg, Script.exec_bind, drives_spiXfer, Usb2T1L.adin2111WriteReg]
  obtain ⟨_ | rx, s⟩ := hal.spiXfer (writeRegTx dev reg val) b.adin <;> rfl

theorem drives_adin2111ReadReg (reg : ℕ) :
    Drives hal (adin2111ReadReg dev reg) (Usb2T1L.adin2111ReadReg hal dev reg) := by
  intro b
  rw [adin2111ReadReg, Script.exec_bind, drives_spiXfer, Usb2T1L.adin2111ReadReg]
  obtain ⟨_ | rx, s⟩ := hal.spiXfer (readRegTx dev reg) b.adin
  · rfl
  · dsimp only
    split <;> rfl

theorem drives_adinFifoWrite (reg : ℕ) (body : List Byte) :
    Drives hal (adinFifoWrite dev reg body) (Usb2T1L.adinFifoWrite hal dev reg body) := by
  intro b
  rw [adinFifoWrite, Usb2T1L.adinFifoWrite]
  split
  · rfl
  · rw [Script.exec_bind, drives_spiXfer]
    obtain ⟨_ | rx, s⟩ := hal.spiXfer (adinBuildHeader dev reg true ++ body) b.adin <;> rfl

theorem drives_adinFifoRead (reg bodyLen : ℕ) :
    Drives hal (adinFifoRead dev reg bodyLen) (Usb2T1L.adinFifoRead hal dev reg bodyLen) := by
  intro b
  rw [adinFifoRead, Usb2T1L.adinFifoRead]
  split
  · rfl
  · rw [Script.exec_bind, drives_spiXfer]
    obtain ⟨_ | rx, s⟩ :=
      hal.spiXfer (readHeader dev reg ++ List.replicate bodyLen 0) b.adin <;> rfl

theorem drives_adin2111LinkUp (port : Port) :
    Drives hal (adin2111LinkUp dev port) (Usb2T1L.adin2111LinkUp hal dev port) := by
  intro b
  rw [adin2111LinkUp, Script.exec_bind, drives_adin2111ReadReg, Usb2T1L.adin2111LinkUp]
  obtain ⟨_ | s1, s⟩ := Usb2T1L.adin2111ReadReg hal dev adinRegStatus1 b.adin <;> rfl

theorem drives_adin2111RxReady :
    Drives hal (adin2111RxReady dev) (Usb2T1L.adin2111RxReady hal dev) := by
  intro b
  rw [adin2111RxReady, Script.exec_bind, drives_adin2111ReadReg, Usb2T1L.adin2111RxReady]
  obtain ⟨_ | s1, s⟩ := Usb2T1L.adin2111ReadReg hal dev adinRegStatus1 b.adin <;> rfl

theorem drives_adin2111IrqAck :
    Drives hal (adin2111IrqAck dev) (Usb2T1L.adin2111IrqAck hal dev) :=
  (drives_adin2111ReadReg dev _).andThen fun _ => (drives_adin2111ReadReg dev _).andThen fun _ =>
    (drives_adin2111WriteReg dev _ _).bind fun _ => (drives_adin2111WriteReg dev _ _).bind fun _ =>
      drives_pure _

theorem drives_adin2111ReadFrame (bufLen : ℕ) :
    Drives hal (adin2111ReadFrame dev bufLen) (Usb2T1L.adin2111ReadFrame hal dev bufLen) := by
  refine (drives_adin2111ReadReg dev _).andThen fun s1 => ?_
  cases adinRxPort dev s1 with
  | none => exact drives_pure _
  | some port =>
    refine (drives_adin2111ReadReg dev _).andThen fun fsize => ?_
    split
    · exact (drives_adin2111WriteReg dev _ _).bind fun _ => drives_pure _
    · dsimp only
      split
      · exact (drives_adin2111WriteReg dev _ _).bind fun _ => drives_pure _
      · exact (drives_adinFifoRead dev _ _).andThen fun _ => drives_pure _

theorem drives_adinTxReserve (len : ℕ) :
    Drives hal (adinTxReserve dev len) (Usb2T1L.adinTxReserve hal dev len) := by
  intro b
  rw [adinTxReserve, Usb2T1L.adinTxReserve]
  split
  · rfl
  · rw [Script.exec_bind, drives_adin2111ReadReg]
    obtain ⟨_ | space, s⟩ := Usb2T1L.adin2111ReadReg hal dev adinRegTxSpace b.adin
    · rfl
    · dsimp only
      split
      · rfl
      · exact drives_adin2111WriteReg dev _ _ _

theorem drives_adin2111WriteFrame (port : Port) (frame : List Byte) (len : ℕ) :
    Drives hal (adin2111WriteFrame dev port frame len)
      (Usb2T1L.adin2111WriteFrame hal dev port frame len) :=
  (drives_adinTxReserve dev len).thenOk (drives_adinFifoWrite dev _ _)

theorem drives_adinWriteFilter (slot : ℕ) (ctl : Word) (aU : BitVec 16) (aL : Word)
    (mU : BitVec 16) (mL : Word) : Drives hal (adinWriteFilter dev slot ctl aU aL mU mL)
      (Usb2T1L.adinWriteFilter hal dev slot ctl aU aL mU mL) :=
  (drives_adin2111WriteReg dev _ _).thenOk <| (drives_adin2111WriteReg dev _ _).thenOk <|
    (drives_adin2111WriteReg dev _ _).thenOk <| drives_adin2111WriteReg dev _ _

theorem drives_adin2111FdbSet (slot : ℕ) (mac : Mac) (livePort : Port) :
    Drives hal (adin2111FdbSet dev slot mac livePort)
      (Usb2T1L.adin2111FdbSet hal dev slot mac livePort) := by
  unfold adin2111FdbSet Usb2T1L.adin2111FdbSet
  split
  · exact drives_pure _
  · exact drives_adinWriteFilter dev _ _ _ _ _ _

theorem drives_adin2111FdbClear (slot : ℕ) :
    Drives hal (adin2111FdbClear dev slot) (Usb2T1L.adin2111FdbClear hal dev slot) := by
  unfold adin2111FdbClear Usb2T1L.adin2111FdbClear
  split
  · exact drives_pure _
  · exact drives_adinWriteFilter dev _ _ _ _ _ _

@[simp] theorem exec_sFdb (i : Fin netFdbMaxEntries) (b : Bridge σ) :
    (sFdb i).exec (bridgeHandle hal) b = (b.fdb i, b) := rfl

@[simp] theorem exec_setFdb (i : Fin netFdbMaxEntries) (write : FdbEntry → FdbEntry)
    (b : Bridge σ) : (setFdb i write).exec (bridgeHandle hal) b =
      ((), { b with fdb := Function.update b.fdb i (write (b.fdb i)) }) := rfl

theorem exec_fdbHit (mac : Mac) (i : Fin netFdbMaxEntries) (b : Bridge σ) :
    (fdbHit mac i).exec (bridgeHandle hal) b = (fdbTable.hit b.fdb mac i, b) := by
  rw [fdbHit, Script.exec_bind, exec_sFdb, Table.hit]
  dsimp only [fdbTable]
  cases (b.fdb i).valid <;> rfl

theorem exec_fdbFind (mac : Mac) (l : List (Fin netFdbMaxEntries)) (b : Bridge σ) :
    (fdbFind mac l).exec (bridgeHandle hal) b = (l.find? (fdbTable.hit b.fdb mac), b) := by
  induction l with
  | nil => rfl
  | cons i is ih =>
    rw [fdbFind, Script.exec_bind, exec_fdbHit, List.find?_cons]
    cases fdbTable.hit b.fdb mac i
    · exact ih
    · rfl

theorem exec_netBridgeFdbLookup (dst : Mac) (b : Bridge σ) :
    (netBridgeFdbLookup dst).exec (bridgeHandle hal) b =
      (Usb2T1L.netBridgeFdbLookup b.fdb dst, b) := by
  rw [netBridgeFdbLookup, Script.exec_bind, exec_fdbFind, Usb2T1L.netBridgeFdbLookup, Table.lookup,
    Table.find]
  cases (List.finRange netFdbMaxEntries).find? (fdbTable.hit b.fdb dst) <;> rfl

theorem exec_chooseSlot (now : Word) (b : Bridge σ) :
    ∀ (l : List (Fin netFdbMaxEntries)) (lru : Fin netFdbMaxEntries) (lruAge : Word),
      (chooseSlot now l lru lruAge).exec (bridgeHandle hal) b =
        (Usb2T1L.chooseSlot b.fdb now l lru lruAge, b) := by
  intro l
  induction l with
  | nil => intro lru lruAge; rfl
  | cons i is ih =>
    intro lru lruAge
    rw [chooseSlot, Script.exec_bind, exec_sFdb, Usb2T1L.chooseSlot]
    dsimp only
    split
    · rfl
    · rw [Script.exec_bind, exec_sFdb]
      dsimp only
      split
      · rfl
      · split
        · exact ih i _
        · exact ih lru lruAge

theorem exec_netBridgeLearn {sOwnMac src : Mac} (h : ¬ (macIsGroup src = true ∨ src = sOwnMac))
    (now : Word) (ingress : Port) (b : Bridge σ) :
    (netBridgeLearn dev now src ingress).exec (bridgeHandle hal) b =
      ((), Usb2T1L.netBridgeLearn hal dev sOwnMac now src ingress b) := by
  rw [netBridgeLearn, Script.exec_bind, exec_fdbFind, Usb2T1L.netBridgeLearn, if_neg h, Table.find]
  cases (List.finRange netFdbMaxEntries).find? (fdbTable.hit b.fdb src) with
  | some i =>
    dsimp only
    rw [Script.exec_bind, exec_setFdb, Script.exec_bind, exec_sFdb]
    simp only [Function.update_self]
    split
    · rw [Script.exec_bind, exec_setFdb, Script.exec_bind, drives_adin2111FdbSet]
      dsimp only
      rw [Function.update_self, Function.update_idem]
      rfl
    · rfl
  | none =>
    dsimp only
    rw [Script.exec_bind, exec_chooseSlot]
    simp only [Script.exec_bind, exec_setFdb, drives_adin2111FdbSet dev _ _ _ _,
      Function.update_self, Function.update_idem, Script.exec_done, Script.pure_eq]

theorem exec_stale (now : Word) (i : Fin netFdbMaxEntries) (b : Bridge σ) :
    (stale now i).exec (bridgeHandle hal) b = (Usb2T1L.stale now b.fdb i, b) := by
  rw [stale, Script.exec_bind, exec_sFdb, Usb2T1L.stale]
  dsimp only
  cases (b.fdb i).valid <;> rfl

theorem exec_linkTaskSweep (now : Word) (l : List (Fin netFdbMaxEntries)) (b : Bridge σ) :
    (linkTaskSweep dev now l).exec (bridgeHandle hal) b =
      ((), l.foldl (linkTaskAge hal dev now) b) := by
  induction l generalizing b with
  | nil => rfl
  | cons i is ih =>
    rw [linkTaskSweep, Script.exec_bind, exec_stale, List.foldl_cons, linkTaskAge]
    dsimp only
    split
    · rw [Script.exec_bind, exec_setFdb, Script.exec_bind, drives_adin2111FdbClear]
      exact ih _
    · exact ih b

end Drives

/-! ### The number of accesses -/

theorem atMost_thenOk {p k : BridgeScript Status} {m n : ℕ} (hp : p.AtMost m) (hk : k.AtMost n) :
    (thenOk p k).AtMost (m + n) :=
  hp.bind fun _ => Script.atMost_ite hk (Script.atMost_done _ _)

theorem atMost_andThen {p : BridgeScript (Except Status α)} {k : α → BridgeScript (Except Status β)}
    {m n : ℕ} (hp : p.AtMost m) (hk : ∀ a, (k a).AtMost n) : (andThen p k).AtMost (m + n) := by
  refine hp.bind fun r => ?_
  cases r with
  | ok a => exact hk a
  | error rc => exact Script.atMost_done _ _

theorem atMost_spiXfer (tx : List Byte) : (spiXfer tx).AtMost 1 := Script.atMost_req _

theorem atMost_adin2111WriteReg (reg : ℕ) (val : Word) :
    (adin2111WriteReg dev reg val).AtMost 1 := by
  refine (atMost_spiXfer _).bind (n := 0) fun r => ?_
  cases r <;> exact Script.atMost_done _ _

theorem atMost_adin2111ReadReg (reg : ℕ) : (adin2111ReadReg dev reg).AtMost 1 := by
  refine (atMost_spiXfer _).bind (n := 0) fun r => ?_
  cases r with
  | none => exact Script.atMost_done _ _
  | some rx => exact Script.atMost_ite (Script.atMost_done _ _) (Script.atMost_done _ _)

theorem atMost_adinFifoWrite (reg : ℕ) (body : List Byte) :
    (adinFifoWrite dev reg body).AtMost 1 := by
  refine Script.atMost_ite (Script.atMost_done _ _) ?_
  refine (atMost_spiXfer _).bind (n := 0) fun r => ?_
  cases r <;> exact Script.atMost_done _ _

theorem atMost_adinFifoRead (reg bodyLen : ℕ) : (adinFifoRead dev reg bodyLen).AtMost 1 := by
  refine Script.atMost_ite (Script.atMost_done _ _) ?_
  refine (atMost_spiXfer _).bind (n := 0) fun r => ?_
  cases r <;> exact Script.atMost_done _ _

theorem atMost_adin2111LinkUp (port : Port) : (adin2111LinkUp dev port).AtMost 1 := by
  refine (atMost_adin2111ReadReg dev _).bind (n := 0) fun r => ?_
  cases r <;> exact Script.atMost_done _ _

theorem atMost_adin2111RxReady : (adin2111RxReady dev).AtMost 1 := by
  refine (atMost_adin2111ReadReg dev _).bind (n := 0) fun r => ?_
  cases r <;> exact Script.atMost_done _ _

theorem atMost_adin2111IrqAck : (adin2111IrqAck dev).AtMost 4 :=
  atMost_andThen (n := 3) (atMost_adin2111ReadReg dev _) fun _ =>
    atMost_andThen (n := 2) (atMost_adin2111ReadReg dev _) fun _ =>
      (atMost_adin2111WriteReg dev _ _).bind (n := 1) fun _ =>
        (atMost_adin2111WriteReg dev _ _).bind (n := 0) fun _ => Script.atMost_done _ _

theorem atMost_adin2111ReadFrame (bufLen : ℕ) : (adin2111ReadFrame dev bufLen).AtMost 3 := by
  refine atMost_andThen (n := 2) (atMost_adin2111ReadReg dev _) fun s1 => ?_
  cases adinRxPort dev s1 with
  | none => exact Script.atMost_done _ _
  | some port =>
    refine atMost_andThen (n := 1) (atMost_adin2111ReadReg dev _) fun fsize => ?_
    have hclear : ∀ rc : Status, (do
        let _ ← adin2111WriteReg dev adinRegFifoClr adinFifoClrRx
        return .error rc : BridgeScript (Except Status (List Byte × Port))).AtMost 1 := fun rc =>
      (atMost_adin2111WriteReg dev _ _).bind (n := 0) fun _ => Script.atMost_done _ _
    refine Script.atMost_ite (hclear _) (Script.atMost_ite (hclear _) ?_)
    exact atMost_andThen (n := 0) (atMost_adinFifoRead dev _ _) fun _ => Script.atMost_done _ _

theorem atMost_adinTxReserve (len : ℕ) : (adinTxReserve dev len).AtMost 2 := by
  refine Script.atMost_ite (Script.atMost_done _ _) ?_
  refine (atMost_adin2111ReadReg dev _).bind (n := 1) fun r => ?_
  cases r with
  | error rc => exact Script.atMost_done _ _
  | ok space => exact Script.atMost_ite (Script.atMost_done _ _) (atMost_adin2111WriteReg dev _ _)

theorem atMost_adin2111WriteFrame (port : Port) (frame : List Byte) (len : ℕ) :
    (adin2111WriteFrame dev port frame len).AtMost 3 :=
  atMost_thenOk (n := 1) (atMost_adinTxReserve dev len) (atMost_adinFifoWrite dev _ _)

theorem atMost_adinWriteFilter (slot : ℕ) (ctl : Word) (aU : BitVec 16) (aL : Word)
    (mU : BitVec 16) (mL : Word) : (adinWriteFilter dev slot ctl aU aL mU mL).AtMost 4 :=
  atMost_thenOk (n := 3) (atMost_adin2111WriteReg dev _ _) <|
    atMost_thenOk (n := 2) (atMost_adin2111WriteReg dev _ _) <|
      atMost_thenOk (n := 1) (atMost_adin2111WriteReg dev _ _) (atMost_adin2111WriteReg dev _ _)

theorem atMost_adin2111FdbSet (slot : ℕ) (mac : Mac) (livePort : Port) :
    (adin2111FdbSet dev slot mac livePort).AtMost 4 :=
  Script.atMost_ite (Script.atMost_done _ _) (atMost_adinWriteFilter dev _ _ _ _ _ _)

theorem atMost_adin2111FdbClear (slot : ℕ) : (adin2111FdbClear dev slot).AtMost 4 :=
  Script.atMost_ite (Script.atMost_done _ _) (atMost_adinWriteFilter dev _ _ _ _ _ _)

theorem atMost_sFdb (i : Fin netFdbMaxEntries) : (sFdb i).AtMost 1 := Script.atMost_req _

theorem atMost_setFdb (i : Fin netFdbMaxEntries) (write : FdbEntry → FdbEntry) :
    (setFdb i write).AtMost 1 := Script.atMost_req _

theorem atMost_fdbHit (mac : Mac) (i : Fin netFdbMaxEntries) : (fdbHit mac i).AtMost 2 :=
  (atMost_sFdb i).bind (n := 1) fun _ => Script.atMost_ite
    ((atMost_sFdb i).bind (n := 0) fun _ => Script.atMost_done _ _) (Script.atMost_done _ _)

theorem atMost_fdbFind (mac : Mac) (l : List (Fin netFdbMaxEntries)) :
    (fdbFind mac l).AtMost (2 * l.length) := by
  induction l with
  | nil => exact Script.atMost_done _ _
  | cons i is ih =>
    rw [List.length_cons, Nat.mul_succ, Nat.add_comm]
    exact (atMost_fdbHit mac i).bind fun _ => Script.atMost_ite (Script.atMost_done _ _) ih

theorem atMost_netBridgeFdbLookup (dst : Mac) : (netBridgeFdbLookup dst).AtMost 29 := by
  refine (atMost_fdbFind dst (List.finRange netFdbMaxEntries)).bind (n := 1) fun r => ?_
  cases r with
  | none => exact Script.atMost_done _ _
  | some i => exact (atMost_sFdb i).bind (n := 0) fun _ => Script.atMost_done _ _

theorem atMost_chooseSlot (now : Word) (l : List (Fin netFdbMaxEntries)) :
    ∀ (lru : Fin netFdbMaxEntries) (lruAge : Word),
      (chooseSlot now l lru lruAge).AtMost (2 * l.length) := by
  induction l with
  | nil => intro lru lruAge; exact Script.atMost_done _ _
  | cons i is ih =>
    intro lru lruAge
    rw [List.length_cons, Nat.mul_succ, Nat.add_comm, Nat.add_assoc 1 1 _]
    refine (atMost_sFdb i).bind fun _ => Script.atMost_ite (Script.atMost_done _ _) ?_
    exact (atMost_sFdb i).bind fun _ => Script.atMost_ite (Script.atMost_done _ _)
      (Script.atMost_ite (ih _ _) (ih _ _))

theorem atMost_netBridgeLearn (now : Word) (src : Mac) (ingress : Port) :
    (netBridgeLearn dev now src ingress).AtMost 64 := by
  refine (atMost_fdbFind src (List.finRange netFdbMaxEntries)).bind (n := 36) fun r => ?_
  cases r with
  | some i =>
    refine (atMost_setFdb i _).bind (n := 35) fun _ => (atMost_sFdb i).bind (n := 34) fun _ => ?_
    refine Script.atMost_ite ?_ (Script.atMost_done _ _)
    exact (atMost_setFdb i _).bind (n := 33) fun _ =>
      ((atMost_adin2111FdbSet dev _ _ _).bind (n := 0) fun _ => Script.atMost_done _ _).mono
        (by omega)
  | none =>
    exact (atMost_chooseSlot now (List.finRange netFdbMaxEntries) 0 0).bind (n := 8) fun slot =>
      (atMost_setFdb slot _).bind (n := 7) fun _ => (atMost_setFdb slot _).bind (n := 6) fun _ =>
        (atMost_setFdb slot _).bind (n := 5) fun _ => (atMost_setFdb slot _).bind (n := 4) fun _ =>
          (atMost_adin2111FdbSet dev _ _ _).bind (n := 0) fun _ => Script.atMost_done _ _

theorem atMost_stale (now : Word) (i : Fin netFdbMaxEntries) : (stale now i).AtMost 2 :=
  (atMost_sFdb i).bind (n := 1) fun _ => Script.atMost_ite
    ((atMost_sFdb i).bind (n := 0) fun _ => Script.atMost_done _ _) (Script.atMost_done _ _)

theorem atMost_linkTaskSweep (now : Word) (l : List (Fin netFdbMaxEntries)) :
    (linkTaskSweep dev now l).AtMost (7 * l.length) := by
  induction l with
  | nil => exact Script.atMost_done _ _
  | cons i is ih =>
    rw [List.length_cons, show 7 * (is.length + 1) = 2 + (1 + (4 + 7 * is.length)) by omega]
    refine (atMost_stale now i).bind fun _ => Script.atMost_ite ?_ (ih.mono (by omega))
    exact (atMost_setFdb i _).bind fun _ => (atMost_adin2111FdbClear dev _).bind fun _ => ih

end Scripted

end Usb2T1L
