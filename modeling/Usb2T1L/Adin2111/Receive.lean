import Usb2T1L.Adin2111.Init
import Usb2T1L.Lib.Layout

/-!
# Receiving on the chip

What the driver does to the receive FIFOs.  Only the burst of `adin2111_read_frame` takes a
frame away; around every other transaction frames at most arrive.

## Main definitions

* `Chip.Grows` — no frame has been taken away.
* `Chip.firstReady` — the port `adin2111_read_frame` reads from.

## Main results

* `adin2111RxReady_chip` — the driver sees whether a frame is queued.
* `adin2111ReadFrame_ok` — without a fault **the frame at the head is returned and removed**.
* `adin2111ReadFrame_fault`, `adin2111ReadFrame_error` — with one nothing is removed.
-/

namespace Usb2T1L

/-! ### No frame is taken away -/

namespace Chip

/-- The number of frames in the receive FIFOs. -/
def queued (c : Chip) : ℕ := (c.rx .port1).length + (c.rx .port2).length

/-- The number of frames that arrive before the `n`-th transaction from now. -/
def toCome (c : Chip) (n : ℕ) : ℕ := ((List.range n).map fun i => (c.arrivals i).length).sum

/-- At most `k` frames are queued or still to come. -/
def AtMost (k : ℕ) (c : Chip) : Prop := ∀ n, c.queued + c.toCome n ≤ k

/-- Between the two states frames may have arrived, and none has been taken away. -/
structure Grows (c c' : Chip) : Prop where
  rx : ∀ p, ∃ new, c'.rx p = c.rx p ++ new ∧ c'.arrived p = c.arrived p ++ new
  atMost : ∀ k, c.AtMost k → c'.AtMost k
  /-- Each access has made some turns. -/
  faults : ∀ a, ∃ m, ∀ n, c'.faults a n = c.faults a (n + m)
  /-- Without arrivals the FIFOs are as they were. -/
  quiet : (∀ n, c.arrivals n = []) → c'.rx = c.rx ∧ ∀ n, c'.arrivals n = []

variable {c c' c'' : Chip}

theorem Grows.refl (c : Chip) : Grows c c where
  rx := fun _ => ⟨[], (List.append_nil _).symm, (List.append_nil _).symm⟩
  atMost := fun _ h => h
  faults := fun _ => ⟨0, fun _ => rfl⟩
  quiet := fun h => ⟨rfl, h⟩

theorem Grows.trans (h : Grows c c') (h' : Grows c' c'') : Grows c c'' where
  rx := fun p => by
    obtain ⟨new, hrx, harr⟩ := h.rx p
    obtain ⟨new', hrx', harr'⟩ := h'.rx p
    exact ⟨new ++ new', by rw [hrx', hrx, List.append_assoc],
      by rw [harr', harr, List.append_assoc]⟩
  atMost := fun k hk => h'.atMost k (h.atMost k hk)
  faults := fun a => by
    obtain ⟨m, hm⟩ := h.faults a
    obtain ⟨m', hm'⟩ := h'.faults a
    exact ⟨m' + m, fun n => by rw [hm', hm, Nat.add_assoc]⟩
  quiet := fun hq => by
    obtain ⟨hrx, hq⟩ := h.quiet hq
    obtain ⟨hrx', hq⟩ := h'.quiet hq
    exact ⟨hrx'.trans hrx, hq⟩

/-- A bus that works goes on working. -/
theorem Grows.works (h : Grows c c') (hw : ∀ a n, c.faults a n = .none) (a : Access) (n : ℕ) :
    c'.faults a n = .none := by
  obtain ⟨m, hm⟩ := h.faults a
  rw [hm]
  exact hw a _

/-- On a bus that works no access has a fault. -/
theorem fault_of_works (h : ∀ a n, c.faults a n = .none) (crc : Bool) (a : Access) :
    c.fault crc a = .none := by
  rw [fault, h a 0]
  split <;> rfl

/-- Each frame of a batch arrives on one of the two ports. -/
theorem length_framesOn (batch : List (Port × RxFrame)) :
    (framesOn .port1 batch).length + (framesOn .port2 batch).length = batch.length := by
  induction batch with
  | nil => rfl
  | cons a batch ih =>
    obtain ⟨p, f⟩ := a
    simp only [framesOn, List.length_map, List.filter_cons] at ih ⊢
    cases p <;> simp <;> omega

theorem toCome_succ (c : Chip) (n : ℕ) :
    c.toCome (n + 1) = (c.arrivals 0).length + ((List.range n).map fun i =>
      (c.arrivals (i + 1)).length).sum := by
  rw [toCome, List.range_succ_eq_map, List.map_cons, List.sum_cons, List.map_map]
  rfl

theorem grows_next (a : Access) (c : Chip) : Grows c (c.next a) where
  rx := fun p => ⟨framesOn p (c.arrivals 0), rfl, rfl⟩
  atMost := fun k hk n => by
    have hframes := length_framesOn (c.arrivals 0)
    have hall := hk (n + 1)
    rw [toCome_succ] at hall
    simp only [queued, toCome, next, List.length_append] at hall ⊢
    omega
  faults := fun b => by
    have hfaults : (c.next a).faults = Function.update c.faults a fun n => c.faults a (n + 1) := rfl
    by_cases hb : b = a
    · subst hb
      exact ⟨1, fun n => by rw [hfaults, Function.update_self]⟩
    · exact ⟨0, fun n => by rw [hfaults, Function.update_of_ne hb]; rfl⟩
  quiet := fun hq =>
    ⟨funext fun p => by
      show c.rx p ++ framesOn p (c.arrivals 0) = c.rx p
      rw [hq 0]
      exact List.append_nil _, fun n => hq (n + 1)⟩

/-- A write that neither resets the device nor clears a FIFO. -/
theorem grows_write {reg : ℕ} (hreset : reg ≠ adinRegReset) (hclr : reg ≠ adinRegFifoClr)
    (val : Word) (c : Chip) : Grows c (c.write reg val) := by
  rw [write, if_neg hreset, if_neg hclr]
  split <;> exact ⟨(Grows.refl c).rx, (Grows.refl c).atMost, (Grows.refl c).faults,
    (Grows.refl c).quiet⟩

end Chip

section

variable (dev : Adin2111)

theorem adin2111WriteReg_grows {reg : ℕ} (h : reg < 2 ^ 13) (hreset : reg ≠ adinRegReset)
    (hclr : reg ≠ adinRegFifoClr) (val : Word) (c : Chip) :
    c.Grows (adin2111WriteReg (chipHal dev) dev reg val c).2 := by
  have hnext := Chip.grows_next (true, reg) c
  rw [adin2111WriteReg_chip dev h]
  cases c.fault dev.crcEnabled (true, reg) with
  | none => exact hnext.trans (Chip.grows_write hreset hclr val _)
  | spi => exact hnext
  | crc => exact hnext

theorem adin2111ReadReg_grows {reg : ℕ} (h : reg < 2 ^ 13) (hreg : Chip.rxPortOf reg = none)
    (c : Chip) : c.Grows (adin2111ReadReg (chipHal dev) dev reg c).2 := by
  have hnext := Chip.grows_next (false, reg) c
  rw [adin2111ReadReg_chip dev h hreg]
  cases c.fault dev.crcEnabled (false, reg) <;> exact hnext

theorem Chip.writeSeq_grows : ∀ {ws : List (ℕ × Word)}, (∀ w ∈ ws, PlainReg w.1) → ∀ c : Chip,
    c.Grows (writeSeq dev ws c).2 := by
  intro ws
  induction ws with
  | nil => intro _ c; exact Grows.refl c
  | cons w ws ih =>
    intro h c
    obtain ⟨hw, hws⟩ := List.forall_mem_cons.mp h
    have hgrows := adin2111WriteReg_grows dev hw.1 hw.2.1 hw.2.2.1 w.2 c
    rw [writeSeq, thenOk]
    split
    · exact hgrows.trans (ih hws _)
    · exact hgrows

theorem adin2111FdbSet_grows (slot : ℕ) (mac : Mac) (livePort : Port) (c : Chip) :
    c.Grows (adin2111FdbSet (chipHal dev) dev slot mac livePort c).2 := by
  rw [adin2111FdbSet]
  split
  · exact Chip.Grows.refl c
  · next h =>
    push Not at h
    rw [adinWriteFilter_chip]
    exact Chip.writeSeq_grows dev (plainReg_filterWrites h.2.2 _ _ _ _ _) c

theorem andThen_grows {α β : Type} {c : Chip} {r : Except Status α × Chip}
    {k : α → Chip → Except Status β × Chip} (h : c.Grows r.2)
    (hk : ∀ a c', c.Grows c' → c.Grows (k a c').2) : c.Grows (andThen r k).2 := by
  obtain ⟨rc | a, c'⟩ := r
  · exact h
  · exact hk a c' h

theorem adin2111IrqAck_grows (c : Chip) : c.Grows (adin2111IrqAck (chipHal dev) dev c).2 := by
  have h0 : adinRegStatus0 < 2 ^ 13 := by decide
  have h1 : adinRegStatus1 < 2 ^ 13 := by decide
  refine andThen_grows (adin2111ReadReg_grows dev h0 rfl c) fun s0 c1 hc1 => ?_
  refine andThen_grows (hc1.trans (adin2111ReadReg_grows dev h1 rfl c1)) fun s1 c2 hc2 => ?_
  have hc3 := hc2.trans (adin2111WriteReg_grows dev h0 (by decide) (by decide) s0 c2)
  exact hc3.trans (adin2111WriteReg_grows dev h1 (by decide) (by decide) _ _)

/-- Nor does the burst of a frame that is sent. -/
theorem adinFifoWrite_grows (body : List Byte) (c : Chip) :
    c.Grows (adinFifoWrite (chipHal dev) dev adinRegTx body c).2 := by
  have hreset : adinRegTx ≠ adinRegReset := by decide
  have hclr : adinRegTx ≠ adinRegFifoClr := by decide
  have hnext := Chip.grows_next (true, adinRegTx) c
  have hxfer :
      c.Grows ((chipHal dev).spiXfer (adinBuildHeader dev adinRegTx true ++ body) c).2 := by
    dsimp only [chipHal, Chip.xfer]
    rw [decodeHeader_adinBuildHeader dev (by decide)]
    dsimp only
    cases c.fault dev.crcEnabled (true, adinRegTx) with
    | none =>
      dsimp only [Chip.perform]
      rw [if_pos rfl]
      cases decodeData dev.crcEnabled body with
      | none => exact hnext
      | some val => exact hnext.trans (Chip.grows_write hreset hclr val _)
    | spi => exact hnext
    | crc => exact hnext
  rw [adinFifoWrite]
  split
  · exact Chip.Grows.refl c
  · split
    · next hx => rwa [hx] at hxfer
    · next hx => rwa [hx] at hxfer

theorem adin2111WriteFrame_grows (port : Port) (frame : List Byte) (len : ℕ) (c : Chip) :
    c.Grows (adin2111WriteFrame (chipHal dev) dev port frame len c).2 := by
  have hreserve : c.Grows (adinTxReserve (chipHal dev) dev len c).2 := by
    have hspace := adin2111ReadReg_grows dev (by decide : adinRegTxSpace < 2 ^ 13) rfl c
    rw [adinTxReserve]
    split
    · exact Chip.Grows.refl c
    · split
      · next hread => rwa [hread] at hspace
      · next hread =>
        rw [hread] at hspace
        split
        · exact hspace
        · exact hspace.trans (adin2111WriteReg_grows dev (by decide) (by decide) (by decide) _ _)
  rw [adin2111WriteFrame, thenOk]
  split
  · exact hreserve.trans (adinFifoWrite_grows dev _ _)
  · exact hreserve

theorem adin2111LinkUp_grows (port : Port) (c : Chip) :
    c.Grows (adin2111LinkUp (chipHal dev) dev port c).2 := by
  have hread := adin2111ReadReg_grows dev (by decide : adinRegStatus1 < 2 ^ 13) rfl c
  rw [adin2111LinkUp]
  split
  · next hr => rwa [hr] at hread
  · next hr => rwa [hr] at hread

theorem adin2111FdbClear_grows (slot : ℕ) (c : Chip) :
    c.Grows (adin2111FdbClear (chipHal dev) dev slot c).2 := by
  rw [adin2111FdbClear]
  split
  · exact Chip.Grows.refl c
  · next h =>
    rw [adinWriteFilter_chip]
    exact Chip.writeSeq_grows dev (plainReg_filterWrites (not_le.mp h) _ _ _ _ _) c

end

/-! ### Which port is ready -/

/-- The port `adin2111_read_frame` reads from: port 1 first. -/
def Chip.firstReady (c : Chip) : Option Port :=
  if c.rx .port1 ≠ [] then some .port1 else if c.rx .port2 ≠ [] then some .port2 else none

theorem Chip.rx_of_firstReady {c : Chip} {p : Port} (h : c.firstReady = some p) : c.rx p ≠ [] := by
  unfold firstReady at h
  split at h
  · next h1 =>
    rw [← Option.some.inj h]
    exact h1
  · split at h
    · next h2 =>
      rw [← Option.some.inj h]
      exact h2
    · exact absurd h (by simp)

theorem Chip.firstReady_eq_none_iff {c : Chip} :
    c.firstReady = none ↔ c.rx .port1 = [] ∧ c.rx .port2 = [] := by
  unfold firstReady
  split
  · next h1 => simp [h1]
  · next h1 =>
    rw [ne_eq, not_not] at h1
    split
    · next h2 => simp [h2]
    · next h2 => exact iff_of_true rfl ⟨h1, not_not.mp h2⟩

/-- Where no frame is ready now, none was before. -/
theorem Chip.Grows.firstReady_eq_none {c c' : Chip} (h : c.Grows c')
    (hnone : c'.firstReady = none) : c.firstReady = none := by
  obtain ⟨h1, h2⟩ := firstReady_eq_none_iff.mp hnone
  have hrx : ∀ p, c'.rx p = [] → c.rx p = [] := by
    intro p hp
    obtain ⟨new, hnew, -⟩ := h.rx p
    exact (List.append_eq_nil_iff.mp (hnew.symm.trans hp)).1
  exact firstReady_eq_none_iff.mpr ⟨hrx _ h1, hrx _ h2⟩

/-- What a mask of ready bits shows of `STATUS1`. -/
theorem Chip.read_status1_and (c : Chip) {m : Word}
    (hm : ~~~(adinStatus1RxRdy ||| adin2111Status1P2RxRdy) &&& m = 0) :
    c.read adinRegStatus1 &&& m = (c.rdyBit .port1 ||| c.rdyBit .port2) &&& m := by
  have hregs : c.regs adinRegStatus1 &&& ~~~(adinStatus1RxRdy ||| adin2111Status1P2RxRdy) &&& m =
      0 := by
    rw [BitVec.and_assoc, hm]
    exact BitVec.and_zero
  rw [read, if_pos rfl, BitVec.and_or_distrib_right, hregs]
  exact BitVec.zero_or

theorem Chip.rdyBit_nil {c : Chip} {p : Port} (h : c.rx p = []) : c.rdyBit p = 0 := by
  rw [rdyBit, h]
  rfl

theorem Chip.rdyBit_ne_nil {c : Chip} {p : Port} (h : c.rx p ≠ []) : c.rdyBit p = rxRdy p := by
  rw [rdyBit, if_neg (by simpa using h)]

/-- **A ready bit is set exactly if the port's FIFO is not empty.** -/
theorem Chip.read_status1_rxRdy (c : Chip) (p : Port) :
    c.read adinRegStatus1 &&& rxRdy p ≠ 0 ↔ c.rx p ≠ [] := by
  rw [c.read_status1_and (by cases p <;> decide)]
  by_cases h1 : c.rx .port1 = [] <;> by_cases h2 : c.rx .port2 = []
  · rw [rdyBit_nil h1, rdyBit_nil h2]
    cases p <;> simp [h1, h2]
  · rw [rdyBit_nil h1, rdyBit_ne_nil h2]
    cases p <;> simp [h1, h2, rxRdy] <;> decide
  · rw [rdyBit_ne_nil h1, rdyBit_nil h2]
    cases p <;> simp [h1, h2, rxRdy] <;> decide
  · rw [rdyBit_ne_nil h1, rdyBit_ne_nil h2]
    cases p <;> simp [h1, h2, rxRdy] <;> decide

theorem adinRxPort_read (crc : Bool) (mode : Mode) (c : Chip) :
    adinRxPort (twoPorts crc mode) (c.read adinRegStatus1) = c.firstReady := by
  have h1 := c.read_status1_rxRdy .port1
  have h2 := c.read_status1_rxRdy .port2
  have hports : 1 < (twoPorts crc mode).numPorts := Nat.one_lt_two
  rw [adinRxPort, Chip.firstReady]
  exact if_congr h1 rfl (if_congr ((and_iff_right hports).trans h2) rfl rfl)

/-- `adin2111_rx_ready` on the chip. -/
theorem adin2111RxReady_chip (dev : Adin2111) (c : Chip) :
    adin2111RxReady (chipHal dev) dev c =
      (decide (c.fault dev.crcEnabled (false, adinRegStatus1) = .none ∧
          (c.next (false, adinRegStatus1)).firstReady ≠ none), c.next (false, adinRegStatus1)) := by
  have hany : (c.next (false, adinRegStatus1)).read adinRegStatus1 &&&
      (adinStatus1RxRdy ||| adin2111Status1P2RxRdy) ≠ 0 ↔
        (c.next (false, adinRegStatus1)).firstReady ≠ none := by
    generalize c.next (false, adinRegStatus1) = c1
    have h1 := c1.read_status1_rxRdy .port1
    have h2 := c1.read_status1_rxRdy .port2
    have hor : ∀ x y : Word, x ||| y = 0 ↔ x = 0 ∧ y = 0 := fun x y => BitVec.or_eq_zero_iff
    rw [BitVec.and_or_distrib_left, ne_eq, hor, not_and_or]
    exact (h1.or h2).trans (not_and_or.symm.trans (not_congr Chip.firstReady_eq_none_iff.symm))
  rw [adin2111RxReady, adin2111ReadReg_chip dev (by decide) rfl]
  cases c.fault dev.crcEnabled (false, adinRegStatus1) with
  | none => simp only [hany, true_and]
  | spi => simp
  | crc => simp

/-! ### Reading a frame -/

theorem getD_bytesFrom {rx : List Byte} {off n i : ℕ} (h : i < n) :
    (bytesFrom rx off n).getD i 0 = rx.getD (off + i) 0 := by
  rw [bytesFrom, List.getD_eq_getElem?_getD, List.getElem?_map, List.getElem?_range h]
  rfl

theorem bytesFrom_bytesFrom {rx : List Byte} {m n off k : ℕ} (h : off + k ≤ n) :
    bytesFrom (bytesFrom rx m n) off k = bytesFrom rx (m + off) k := by
  refine List.map_congr_left fun i hi => ?_
  have hi : i < k := List.mem_range.mp hi
  rw [getD_bytesFrom (by omega), Nat.add_assoc]

/-- The Ethernet frame behind the port header. -/
theorem bytesFrom_rxFrame (f : RxFrame) :
    bytesFrom f.bytes adinFrameHeaderLen f.eth.length = f.eth := by
  have hlen : adinFrameHeaderLen + f.eth.length ≤ f.bytes.length := by
    simp only [RxFrame.bytes, List.length_append, List.length_cons, List.length_nil]
    have hhdr : adinFrameHeaderLen = 2 := rfl
    omega
  rw [bytesFrom, ← Layout.take_drop_eq_map hlen]
  exact List.take_left

/-- The size of the frame at the head of a FIFO, as the driver reads it. -/
theorem Chip.read_rxFsizeReg {c : Chip} {p : Port} {f : RxFrame} {rest : List RxFrame}
    (h : c.rx p = f :: rest) :
    (c.read (rxFsizeReg p)).toNat = adinFrameHeaderLen + f.eth.length + adinFcsLen := by
  have hread : c.read (rxFsizeReg p) =
      BitVec.ofNat 32 (adinFrameHeaderLen + f.eth.length + adinFcsLen) := by
    have hfsize : c.fsize p = BitVec.ofNat 32 (adinFrameHeaderLen + f.eth.length + adinFcsLen) := by
      rw [fsize, h]
    rw [← hfsize]
    cases p <;> rfl
  have heth : f.eth.length ≤ 1520 := f.eth_le
  have hhdr : adinFrameHeaderLen = 2 := rfl
  have hfcs : adinFcsLen = 4 := rfl
  rw [hread, BitVec.toNat_ofNat, Nat.mod_eq_of_lt (by omega)]

section

variable (dev : Adin2111) {reg : ℕ} {c : Chip}

theorem adin2111ReadReg_ok (h : reg < 2 ^ 13) (hreg : Chip.rxPortOf reg = none)
    (hf : c.fault dev.crcEnabled (false, reg) = .none) :
    adin2111ReadReg (chipHal dev) dev reg c =
      (.ok ((c.next (false, reg)).read reg), c.next (false, reg)) := by
  rw [adin2111ReadReg_chip dev h hreg, hf]

theorem adin2111ReadReg_fault (h : reg < 2 ^ 13) (hreg : Chip.rxPortOf reg = none)
    (hf : c.fault dev.crcEnabled (false, reg) ≠ .none) :
    ∃ rc, rc ≠ .errNodata ∧
      adin2111ReadReg (chipHal dev) dev reg c = (.error rc, c.next (false, reg)) := by
  rw [adin2111ReadReg_chip dev h hreg]
  cases hc : c.fault dev.crcEnabled (false, reg) with
  | none => exact absurd hc hf
  | spi => exact ⟨.errSpi, by decide, rfl⟩
  | crc => exact ⟨.errCrc, by decide, rfl⟩

/-- A burst with a fault takes no frame away; where the device has ignored it the driver takes
what it reads for one. -/
theorem adinFifoRead_fault (p : Port) {bodyLen : ℕ} (hlen : bodyLen + 4 ≤ adinSpiMaxburst)
    (hf : c.fault dev.crcEnabled (false, rxFifoReg p) ≠ .none) :
    ∃ r, r ≠ .error .errNodata ∧ adinFifoRead (chipHal dev) dev (rxFifoReg p) bodyLen c =
      (r, c.next (false, rxFifoReg p)) := by
  rw [adinFifoRead, if_neg (readHeader_fits dev _ hlen)]
  simp only [chipHal, Chip.xfer, decodeHeader_readHeader dev (rxFifoReg_lt p)]
  cases hc : c.fault dev.crcEnabled (false, rxFifoReg p) with
  | none => exact absurd hc hf
  | spi => exact ⟨.error .errSpi, by simp, rfl⟩
  | crc => exact ⟨.ok _, by simp, rfl⟩

end

section

variable (crc : Bool) (mode : Mode) {bufLen : ℕ} {c : Chip}

/-- The read of `STATUS1` fails. -/
theorem adin2111ReadFrame_status1 (hf : c.fault crc (false, adinRegStatus1) ≠ .none) :
    ∃ rc, rc ≠ .errNodata ∧ adin2111ReadFrame (chipHal (twoPorts crc mode)) (twoPorts crc mode)
      bufLen c = (.error rc, c.next (false, adinRegStatus1)) := by
  obtain ⟨rc, hrc, hread⟩ := adin2111ReadReg_fault (twoPorts crc mode)
    (by decide : adinRegStatus1 < 2 ^ 13) rfl hf
  exact ⟨rc, hrc, by rw [adin2111ReadFrame, hread, andThen]⟩

/-- The read of the frame size fails. -/
theorem adin2111ReadFrame_fsize (h1 : c.fault crc (false, adinRegStatus1) = .none) {p : Port}
    (hp : (c.next (false, adinRegStatus1)).firstReady = some p)
    (hf : (c.next (false, adinRegStatus1)).fault crc (false, rxFsizeReg p) ≠ .none) :
    ∃ rc, rc ≠ .errNodata ∧ adin2111ReadFrame (chipHal (twoPorts crc mode)) (twoPorts crc mode)
      bufLen c = (.error rc, (c.next (false, adinRegStatus1)).next (false, rxFsizeReg p)) := by
  obtain ⟨rc, hrc, hread⟩ := adin2111ReadReg_fault (twoPorts crc mode)
    (rxFsizeReg_lt p) (by cases p <;> rfl) hf
  refine ⟨rc, hrc, ?_⟩
  rw [adin2111ReadFrame, adin2111ReadReg_ok (twoPorts crc mode) (by decide) rfl h1, andThen]
  dsimp only
  rw [adinRxPort_read, hp]
  dsimp only
  rw [hread, andThen]

/-- Up to the burst: the size of the frame at the head is read. -/
theorem adin2111ReadFrame_burst (hbuf : adinMaxEthFrame ≤ bufLen)
    (h1 : c.fault crc (false, adinRegStatus1) = .none) {p : Port}
    (hp : (c.next (false, adinRegStatus1)).firstReady = some p)
    (h2 : (c.next (false, adinRegStatus1)).fault crc (false, rxFsizeReg p) = .none)
    {f : RxFrame} {rest : List RxFrame}
    (hrx : ((c.next (false, adinRegStatus1)).next (false, rxFsizeReg p)).rx p = f :: rest) :
    adin2111ReadFrame (chipHal (twoPorts crc mode)) (twoPorts crc mode) bufLen c =
      andThen (adinFifoRead (chipHal (twoPorts crc mode)) (twoPorts crc mode) (rxFifoReg p)
          (adinRound4 (adinFrameHeaderLen + f.eth.length + adinFcsLen))
          ((c.next (false, adinRegStatus1)).next (false, rxFsizeReg p))) fun body s =>
        (.ok (bytesFrom body adinFrameHeaderLen f.eth.length, p), s) := by
  have hlen : f.eth.length ≤ 1520 := f.eth_le
  have hhdr : adinFrameHeaderLen = 2 := rfl
  have hfcs : adinFcsLen = 4 := rfl
  have hmax : adinMaxEthFrame = 1520 := rfl
  have hsize := Chip.read_rxFsizeReg hrx
  rw [adin2111ReadFrame, adin2111ReadReg_ok (twoPorts crc mode) (by decide) rfl h1, andThen]
  dsimp only
  rw [adinRxPort_read, hp]
  dsimp only
  rw [adin2111ReadReg_ok (twoPorts crc mode) (rxFsizeReg_lt p) (by cases p <;> rfl) h2, andThen]
  rw [hsize, if_neg (by omega), if_neg (by omega)]
  have heth : adinFrameHeaderLen + f.eth.length + adinFcsLen - adinFrameHeaderLen - adinFcsLen =
      f.eth.length := by omega
  rw [heth]

/-- The burst of a frame fits the scratch buffer. -/
theorem adinRound4_le (f : RxFrame) :
    adinRound4 (adinFrameHeaderLen + f.eth.length + adinFcsLen) + 4 ≤ adinSpiMaxburst := by
  have hlen : f.eth.length ≤ 1520 := f.eth_le
  unfold adinRound4 adinFrameHeaderLen adinFcsLen adinSpiMaxburst
  omega

/-- One of the transactions of `adin2111_read_frame` on a port fails. -/
def Chip.ReadFails (crc : Bool) (p : Port) (c : Chip) : Prop :=
  c.fault crc (false, adinRegStatus1) ≠ .none ∨ c.fault crc (false, rxFsizeReg p) ≠ .none ∨
    c.fault crc (false, rxFifoReg p) ≠ .none

instance (p : Port) : Decidable (c.ReadFails crc p) := inferInstanceAs (Decidable (_ ∨ _))

/-- The other accesses wait for their own faults. -/
theorem Chip.fault_next_of_ne {a b : Access} (h : b ≠ a) :
    (c.next a).fault crc b = c.fault crc b :=
  (Chip.touches_next a c).fault crc fun hm => h (List.mem_singleton.mp hm)

theorem Chip.fault_rxFsizeReg (p : Port) :
    (c.next (false, adinRegStatus1)).fault crc (false, rxFsizeReg p) =
      c.fault crc (false, rxFsizeReg p) :=
  fault_next_of_ne crc (by cases p <;> decide)

theorem Chip.fault_rxFifoReg (p : Port) :
    ((c.next (false, adinRegStatus1)).next (false, rxFsizeReg p)).fault crc (false, rxFifoReg p) =
      c.fault crc (false, rxFifoReg p) :=
  (fault_next_of_ne crc (by cases p <;> decide)).trans
    (fault_next_of_ne crc (by cases p <;> decide))

theorem Chip.grows_next_next_next (a b d : Access) (c : Chip) :
    c.Grows (((c.next a).next b).next d) :=
  ((Chip.grows_next a c).trans (Chip.grows_next b _)).trans (Chip.grows_next d _)

/-- **Without a fault the frame at the head is returned, and removed.** -/
theorem adin2111ReadFrame_ok (hbuf : adinMaxEthFrame ≤ bufLen) {p : Port}
    (hp : (c.next (false, adinRegStatus1)).firstReady = some p) (hf : ¬ c.ReadFails crc p) :
    ∃ c' f rest, c.Grows c' ∧ c'.rx p = f :: rest ∧
      adin2111ReadFrame (chipHal (twoPorts crc mode)) (twoPorts crc mode) bufLen c =
        (.ok (f.eth, p), c'.pop p) := by
  rw [Chip.ReadFails, not_or, not_or, not_not, not_not, not_not] at hf
  obtain ⟨h1, h2, h3⟩ := hf
  rw [← Chip.fault_rxFsizeReg] at h2
  rw [← Chip.fault_rxFifoReg] at h3
  obtain ⟨f, rest, hrx⟩ := List.exists_cons_of_ne_nil (Chip.rx_of_firstReady hp)
  generalize hc1 : c.next (false, adinRegStatus1) = c1 at hp h2 h3 hrx
  -- further arrivals go behind the frame at the head
  obtain ⟨new, hrx2, -⟩ := (Chip.grows_next (false, rxFsizeReg p) c1).rx p
  rw [hrx, List.cons_append] at hrx2
  obtain ⟨new', hrx3, -⟩ :=
    (Chip.grows_next (false, rxFifoReg p) (c1.next (false, rxFsizeReg p))).rx p
  rw [hrx2, List.cons_append] at hrx3
  subst hc1
  refine ⟨_, f, _, Chip.grows_next_next_next _ _ _ c, hrx3, ?_⟩
  rw [adin2111ReadFrame_burst crc mode hbuf h1 hp h2 hrx2,
    adinFifoRead_chip (twoPorts crc mode) p (adinRound4_le f) _ h3, hrx3, andThen]
  have hbytes : adinFrameHeaderLen + f.eth.length ≤
      adinRound4 (adinFrameHeaderLen + f.eth.length + adinFcsLen) := by
    unfold adinRound4 adinFrameHeaderLen adinFcsLen
    omega
  rw [List.head?_cons, Option.elim_some, bytesFrom_bytesFrom hbytes, Nat.zero_add,
    bytesFrom_rxFrame]

/-- **With a fault no frame is removed.** -/
theorem adin2111ReadFrame_fault (hbuf : adinMaxEthFrame ≤ bufLen) {p : Port}
    (hp : (c.next (false, adinRegStatus1)).firstReady = some p) (hf : c.ReadFails crc p) :
    ∃ r c', r ≠ .error .errNodata ∧ c.Grows c' ∧
      adin2111ReadFrame (chipHal (twoPorts crc mode)) (twoPorts crc mode) bufLen c = (r, c') := by
  by_cases h1 : c.fault crc (false, adinRegStatus1) = .none
  swap
  · obtain ⟨rc, hrc, hread⟩ := adin2111ReadFrame_status1 crc mode h1
    exact ⟨_, _, by simpa using hrc, Chip.grows_next _ c, hread⟩
  by_cases h2 : c.fault crc (false, rxFsizeReg p) = .none
  swap
  · rw [← Chip.fault_rxFsizeReg] at h2
    obtain ⟨rc, hrc, hread⟩ := adin2111ReadFrame_fsize crc mode h1 hp h2
    exact ⟨_, _, by simpa using hrc, (Chip.grows_next _ c).trans (Chip.grows_next _ _), hread⟩
  have h3 : c.fault crc (false, rxFifoReg p) ≠ .none :=
    (hf.resolve_left (not_not.mpr h1)).resolve_left (not_not.mpr h2)
  rw [← Chip.fault_rxFsizeReg] at h2
  rw [← Chip.fault_rxFifoReg] at h3
  obtain ⟨f, rest, hrx⟩ := List.exists_cons_of_ne_nil (Chip.rx_of_firstReady hp)
  obtain ⟨new, hrx2, -⟩ :=
    (Chip.grows_next (false, rxFsizeReg p) (c.next (false, adinRegStatus1))).rx p
  rw [hrx, List.cons_append] at hrx2
  obtain ⟨r, hr, hburst⟩ := adinFifoRead_fault (twoPorts crc mode) p (adinRound4_le f) h3
  have hread := adin2111ReadFrame_burst crc mode hbuf h1 hp h2 hrx2
  rw [hburst] at hread
  cases r with
  | error rc => exact ⟨_, _, by simpa using hr, Chip.grows_next_next_next _ _ _ c, hread⟩
  | ok body => exact ⟨_, _, by simp, Chip.grows_next_next_next _ _ _ c, hread⟩

/-- A burst that fails otherwise than by damage is noticed. -/
theorem adinFifoRead_spi (dev : Adin2111) (p : Port) {bodyLen : ℕ}
    (hlen : bodyLen + 4 ≤ adinSpiMaxburst)
    (hf : c.fault dev.crcEnabled (false, rxFifoReg p) = .spi) :
    adinFifoRead (chipHal dev) dev (rxFifoReg p) bodyLen c =
      (.error .errSpi, c.next (false, rxFifoReg p)) := by
  rw [adinFifoRead, if_neg (readHeader_fits dev _ hlen)]
  simp only [chipHal, Chip.xfer, decodeHeader_readHeader dev (rxFifoReg_lt p), hf]

/-- **With a fault other than a damaged burst an error is returned.** -/
theorem adin2111ReadFrame_error (hbuf : adinMaxEthFrame ≤ bufLen) {p : Port}
    (hp : (c.next (false, adinRegStatus1)).firstReady = some p) (hf : c.ReadFails crc p)
    (hburst : c.fault crc (false, rxFifoReg p) ≠ .crc) :
    ∃ rc c', rc ≠ .errNodata ∧ c.Grows c' ∧
      adin2111ReadFrame (chipHal (twoPorts crc mode)) (twoPorts crc mode) bufLen c =
        (.error rc, c') := by
  by_cases h1 : c.fault crc (false, adinRegStatus1) = .none
  swap
  · obtain ⟨rc, hrc, hread⟩ := adin2111ReadFrame_status1 crc mode h1
    exact ⟨rc, _, hrc, Chip.grows_next _ c, hread⟩
  by_cases h2 : c.fault crc (false, rxFsizeReg p) = .none
  swap
  · rw [← Chip.fault_rxFsizeReg] at h2
    obtain ⟨rc, hrc, hread⟩ := adin2111ReadFrame_fsize crc mode h1 hp h2
    exact ⟨rc, _, hrc, (Chip.grows_next _ c).trans (Chip.grows_next _ _), hread⟩
  have h3 : c.fault crc (false, rxFifoReg p) = .spi := by
    have hnone := (hf.resolve_left (not_not.mpr h1)).resolve_left (not_not.mpr h2)
    cases hfault : c.fault crc (false, rxFifoReg p) with
    | none => exact absurd hfault hnone
    | spi => rfl
    | crc => exact absurd hfault hburst
  rw [← Chip.fault_rxFsizeReg] at h2
  rw [← Chip.fault_rxFifoReg] at h3
  obtain ⟨f, rest, hrx⟩ := List.exists_cons_of_ne_nil (Chip.rx_of_firstReady hp)
  obtain ⟨new, hrx2, -⟩ :=
    (Chip.grows_next (false, rxFsizeReg p) (c.next (false, adinRegStatus1))).rx p
  rw [hrx, List.cons_append] at hrx2
  have hread := adin2111ReadFrame_burst crc mode hbuf h1 hp h2 hrx2
  rw [adinFifoRead_spi (twoPorts crc mode) p (adinRound4_le f) h3] at hread
  exact ⟨.errSpi, _, by decide, Chip.grows_next_next_next _ _ _ c, hread⟩

end

end Usb2T1L
