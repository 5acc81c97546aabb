import Usb2T1L.Adin2111.Init

/-!
# How long a transfer can be

Register accesses are a few bytes, and the bursts to and from the FIFOs are checked against the
driver's scratch buffers.  So there is one bound for every transfer that any function of the driver
makes, whatever it finds on the bus.

## Main definitions

* `Hal.Keeps` — a property of the bus that transfers up to a length keep.
* `DriverOp` — the functions of the driver, with their arguments.

## Main results

* `DriverOp.keeps` — every function of the driver keeps such a property.
* `DriverOp.transfers_le` — **no transfer is longer than the scratch buffers**.
-/

namespace Usb2T1L

variable {σ α β : Type}

/-- `P` is kept by every transfer of at most `n` bytes. -/
def Hal.Keeps (hal : Hal σ) (n : ℕ) (P : σ → Prop) : Prop :=
  ∀ tx s, tx.length ≤ n → P s → P (hal.spiXfer tx s).2

/-! ### Single transactions -/

section Transactions

variable {hal : Hal σ} {P : σ → Prop} (h : hal.Keeps adinSpiMaxburst P) (dev : Adin2111) {s : σ}

include h

theorem keeps_adin2111ReadReg (reg : ℕ) (hs : P s) : P (adin2111ReadReg hal dev reg s).2 := by
  have hlen : (readRegTx dev reg).length ≤ adinSpiMaxburst := by
    rw [readRegTx, readHeader, List.length_append, List.length_append, length_adinBuildHeader,
      List.length_replicate]
    cases dev.crcEnabled <;> decide
  have hx := h _ s hlen hs
  rw [adin2111ReadReg]
  generalize hal.spiXfer (readRegTx dev reg) s = r at hx ⊢
  obtain ⟨_ | rx, s'⟩ := r
  · exact hx
  · dsimp only
    split <;> exact hx

theorem keeps_adin2111WriteReg (reg : ℕ) (val : Word) (hs : P s) :
    P (adin2111WriteReg hal dev reg val s).2 := by
  have hlen : (writeRegTx dev reg val).length ≤ adinSpiMaxburst := by
    rw [writeRegTx, List.length_append, List.length_append, length_adinBuildHeader]
    cases dev.crcEnabled with
    | false => exact (by decide : 2 + 4 + 0 ≤ adinSpiMaxburst)
    | true => exact (by decide : 3 + 4 + 1 ≤ adinSpiMaxburst)
  have hx := h _ s hlen hs
  rw [adin2111WriteReg]
  generalize hal.spiXfer (writeRegTx dev reg val) s = r at hx ⊢
  obtain ⟨_ | rx, s'⟩ := r <;> exact hx

theorem keeps_adinFifoWrite (reg : ℕ) (body : List Byte) (hs : P s) :
    P (adinFifoWrite hal dev reg body s).2 := by
  rw [adinFifoWrite]
  split
  · exact hs
  · next hle =>
    rw [not_lt, ← List.length_append] at hle
    have hx := h _ s hle hs
    generalize hal.spiXfer _ s = r at hx ⊢
    obtain ⟨_ | rx, s'⟩ := r <;> exact hx

theorem keeps_adinFifoRead (reg bodyLen : ℕ) (hs : P s) :
    P (adinFifoRead hal dev reg bodyLen s).2 := by
  rw [adinFifoRead]
  split
  · exact hs
  · next hle =>
    have hlen : (readHeader dev reg ++ List.replicate bodyLen (0 : Byte)).length ≤
        adinSpiMaxburst := by
      rw [List.length_append, List.length_replicate]
      exact not_lt.mp hle
    have hx := h _ s hlen hs
    generalize hal.spiXfer _ s = r at hx ⊢
    obtain ⟨_ | rx, s'⟩ := r <;> exact hx

end Transactions

/-! ### Functions of several transactions -/

theorem keeps_thenOk {P : σ → Prop} {r : Status × σ} {k : σ → Status × σ} (hr : P r.2)
    (hk : ∀ s, P s → P (k s).2) : P (thenOk r k).2 := by
  rw [thenOk]
  split
  · exact hk _ hr
  · exact hr

theorem keeps_andThen {P : σ → Prop} {r : Except Status α × σ} {k : α → σ → Except Status β × σ}
    (hr : P r.2) (hk : ∀ a s, P s → P (k a s).2) : P (andThen r k).2 := by
  obtain ⟨_ | a, s⟩ := r
  · exact hr
  · exact hk a s hr

section Functions

variable {hal : Hal σ} {P : σ → Prop} (h : hal.Keeps adinSpiMaxburst P) (dev : Adin2111) {s : σ}

include h

theorem keeps_adinWriteFilter (slot : ℕ) (ctl : Word) (aU : BitVec 16) (aL : Word)
    (mU : BitVec 16) (mL : Word) (hs : P s) :
    P (adinWriteFilter hal dev slot ctl aU aL mU mL s).2 :=
  keeps_thenOk (keeps_adin2111WriteReg h dev _ _ hs) fun _ hs =>
  keeps_thenOk (keeps_adin2111WriteReg h dev _ _ hs) fun _ hs =>
  keeps_thenOk (keeps_adin2111WriteReg h dev _ _ hs) fun _ hs =>
  keeps_adin2111WriteReg h dev _ _ hs

theorem keeps_adin2111RxReady (hs : P s) : P (adin2111RxReady hal dev s).2 := by
  have hr := keeps_adin2111ReadReg h dev adinRegStatus1 hs
  rw [adin2111RxReady]
  generalize adin2111ReadReg hal dev adinRegStatus1 s = r at hr ⊢
  obtain ⟨_ | s1, s'⟩ := r <;> exact hr

theorem keeps_adin2111LinkUp (port : Port) (hs : P s) : P (adin2111LinkUp hal dev port s).2 := by
  have hr := keeps_adin2111ReadReg h dev adinRegStatus1 hs
  rw [adin2111LinkUp]
  generalize adin2111ReadReg hal dev adinRegStatus1 s = r at hr ⊢
  obtain ⟨_ | s1, s'⟩ := r <;> exact hr

theorem keeps_adin2111IrqAck (hs : P s) : P (adin2111IrqAck hal dev s).2 :=
  keeps_andThen (keeps_adin2111ReadReg h dev _ hs) fun _ _ hs =>
  keeps_andThen (keeps_adin2111ReadReg h dev _ hs) fun _ _ hs =>
  keeps_adin2111WriteReg h dev _ _ (keeps_adin2111WriteReg h dev _ _ hs)

theorem keeps_adin2111ReadFrame (bufLen : ℕ) (hs : P s) :
    P (adin2111ReadFrame hal dev bufLen s).2 := by
  refine keeps_andThen (keeps_adin2111ReadReg h dev _ hs) fun s1 s hs => ?_
  cases adinRxPort dev s1 with
  | none => exact hs
  | some port =>
    refine keeps_andThen (keeps_adin2111ReadReg h dev _ hs) fun fsize s hs => ?_
    split
    · exact keeps_adin2111WriteReg h dev _ _ hs
    · dsimp only
      split
      · exact keeps_adin2111WriteReg h dev _ _ hs
      · exact keeps_andThen (keeps_adinFifoRead h dev _ _ hs) fun _ _ hs => hs

theorem keeps_adin2111WriteFrame (port : Port) (frame : List Byte) (len : ℕ) (hs : P s) :
    P (adin2111WriteFrame hal dev port frame len s).2 := by
  refine keeps_thenOk ?_ fun _ hs => keeps_adinFifoWrite h dev _ _ hs
  rw [adinTxReserve]
  split
  · exact hs
  · have hr := keeps_adin2111ReadReg h dev adinRegTxSpace hs
    generalize adin2111ReadReg hal dev adinRegTxSpace s = r at hr ⊢
    obtain ⟨_ | space, s'⟩ := r
    · exact hr
    · dsimp only
      split
      · exact hr
      · exact keeps_adin2111WriteReg h dev _ _ hr

theorem keeps_adin2111FdbSet (slot : ℕ) (mac : Mac) (port : Port) (hs : P s) :
    P (adin2111FdbSet hal dev slot mac port s).2 := by
  rw [adin2111FdbSet]
  split
  · exact hs
  · exact keeps_adinWriteFilter h dev _ _ _ _ _ _ hs

theorem keeps_adin2111FdbClear (slot : ℕ) (hs : P s) :
    P (adin2111FdbClear hal dev slot s).2 := by
  rw [adin2111FdbClear]
  split
  · exact hs
  · exact keeps_adinWriteFilter h dev _ _ _ _ _ _ hs

theorem keeps_adinWaitResetc : ∀ (n : ℕ) {s : σ}, P s → P (adinWaitResetc hal dev n s) := by
  intro n
  induction n with
  | zero => intro s hs; exact hs
  | succ n ih =>
    intro s hs
    have hr := keeps_adin2111ReadReg h dev adinRegStatus0 hs
    rw [adinWaitResetc]
    generalize adin2111ReadReg hal dev adinRegStatus0 s = r at hr ⊢
    obtain ⟨_ | s0, s'⟩ := r
    · exact ih hr
    · dsimp only
      split
      · exact hr
      · exact ih hr

theorem keeps_adinConfigure (hs : P s) : P (adinConfigure hal dev s).2 := by
  refine keeps_thenOk (keeps_adin2111WriteReg h dev _ _ (keeps_adin2111WriteReg h dev _ _ hs))
    fun _ hs => ?_
  refine keeps_thenOk (keeps_adin2111WriteReg h dev _ _
    (keeps_adinWriteFilter h dev _ _ _ _ _ _ hs)) fun _ hs => ?_
  exact keeps_adin2111WriteReg h dev _ _ (keeps_adin2111ReadReg h dev _ hs)

theorem keeps_adin2111Init (crcEnabled : Bool) (mode : Mode) (hs : P s) :
    P (adin2111Init hal crcEnabled mode s).2 := by
  refine keeps_andThen (keeps_adin2111ReadReg h _ _ (keeps_adinWaitResetc h _ _
    (keeps_adin2111WriteReg h _ _ _ hs))) fun phyId s hs => ?_
  rw [adinInitFrom]
  split
  · exact hs
  · exact keeps_adinConfigure h _ hs

end Functions

/-! ### The driver -/

/-- A call of a function of `adin2111.h`. -/
inductive DriverOp
  | init (crcEnabled : Bool) (mode : Mode)
  | fdbSet (dev : Adin2111) (slot : ℕ) (mac : Mac) (livePort : Port)
  | fdbClear (dev : Adin2111) (slot : ℕ)
  | readReg (dev : Adin2111) (reg : ℕ)
  | writeReg (dev : Adin2111) (reg : ℕ) (val : Word)
  | setHostMac (dev : Adin2111) (mac : Mac)
  | rxReady (dev : Adin2111)
  | readStatus (dev : Adin2111)
  | linkUp (dev : Adin2111) (port : Port)
  | readFrame (dev : Adin2111) (bufLen : ℕ)
  | writeFrame (dev : Adin2111) (port : Port) (frame : List Byte) (len : ℕ)
  | irqAck (dev : Adin2111)

namespace DriverOp

/-- The bus after the call. -/
def run (hal : Hal σ) (s : σ) : DriverOp → σ
  | init crcEnabled mode => (adin2111Init hal crcEnabled mode s).2
  | fdbSet dev slot mac livePort => (adin2111FdbSet hal dev slot mac livePort s).2
  | fdbClear dev slot => (adin2111FdbClear hal dev slot s).2
  | readReg dev reg => (adin2111ReadReg hal dev reg s).2
  | writeReg dev reg val => (adin2111WriteReg hal dev reg val s).2
  | setHostMac dev mac => (adin2111SetHostMac hal dev mac s).2
  | rxReady dev => (adin2111RxReady hal dev s).2
  | readStatus dev => (adin2111ReadStatus hal dev s).2
  | linkUp dev port => (adin2111LinkUp hal dev port s).2
  | readFrame dev bufLen => (adin2111ReadFrame hal dev bufLen s).2
  | writeFrame dev port frame len => (adin2111WriteFrame hal dev port frame len s).2
  | irqAck dev => (adin2111IrqAck hal dev s).2

/-- **Every function of the driver keeps what its transfers keep.** -/
theorem keeps {hal : Hal σ} {P : σ → Prop} (h : hal.Keeps adinSpiMaxburst P) {s : σ} (hs : P s)
    (op : DriverOp) : P (op.run hal s) := by
  cases op with
  | init crcEnabled mode => exact keeps_adin2111Init h crcEnabled mode hs
  | fdbSet dev slot mac livePort => exact keeps_adin2111FdbSet h dev slot mac livePort hs
  | fdbClear dev slot => exact keeps_adin2111FdbClear h dev slot hs
  | readReg dev reg | readStatus dev => exact keeps_adin2111ReadReg h dev _ hs
  | writeReg dev reg val => exact keeps_adin2111WriteReg h dev reg val hs
  | setHostMac dev mac => exact keeps_adinWriteFilter h dev _ _ _ _ _ _ hs
  | rxReady dev => exact keeps_adin2111RxReady h dev hs
  | linkUp dev port => exact keeps_adin2111LinkUp h dev port hs
  | readFrame dev bufLen => exact keeps_adin2111ReadFrame h dev bufLen hs
  | writeFrame dev port frame len => exact keeps_adin2111WriteFrame h dev port frame len hs
  | irqAck dev => exact keeps_adin2111IrqAck h dev hs

/-- What a call shifts out. -/
def transfers (hal : Hal σ) (s : σ) (op : DriverOp) : List (List Byte) :=
  (op.run (logged hal) (s, [])).2

/-- **No transfer of the driver is longer than its scratch buffers.** -/
theorem transfers_le (hal : Hal σ) (s : σ) (op : DriverOp) :
    ∀ tx ∈ op.transfers hal s, tx.length ≤ adinSpiMaxburst := by
  have hlogged : (logged hal).Keeps adinSpiMaxburst
      fun s => ∀ tx ∈ s.2, tx.length ≤ adinSpiMaxburst := by
    intro tx s htx hs tx' hmem
    rcases List.mem_append.mp hmem with hmem | hmem
    · exact hs tx' hmem
    · rw [List.mem_singleton.mp hmem]
      exact htx
  exact keeps hlogged (fun tx hmem => absurd hmem List.not_mem_nil) op

end DriverOp

end Usb2T1L
