import Usb2T1L.Adin2111.Chip
import Usb2T1L.Bridge.TxTask

/-!
# What an attempt shifts out

`adin2111_write_frame` reads `TX_SPACE`, writes `TX_FSIZE` and then issues the burst to the TX
FIFO.  Among the bytes shifted out the bursts are those the device decodes as a write to `TX`.

## Main definitions

* `burstsOn` — the bursts with a port's header, in a record of what has been shifted out.
* `frameBody` — the burst of a frame.

## Main results

* `adinTxReserve_logged` — before the burst **nothing is written to the FIFO**, and nothing at all
  where there is no space.
* `adinFifoWrite_logged` — the burst.
-/

namespace Usb2T1L

/-- The body of a burst to the TX FIFO, if these bytes are one. -/
def burstBody (dev : Adin2111) (tx : List Byte) : Option (List Byte) :=
  match decodeHeader dev.crcEnabled tx with
  | some (true, reg, body) => if reg = adinRegTx then some body else none
  | _ => none

/-- The port header of a burst. -/
def portHeader (p : Port) : List Byte := [(p.val >>> 8).setWidth 8, p.val.setWidth 8]

/-- The bursts to the TX FIFO with the header of port `p`, oldest first. -/
def burstsOn (dev : Adin2111) (p : Port) (log : List (List Byte)) : List (List Byte) :=
  (log.filterMap (burstBody dev)).filter fun body => body.take 2 = portHeader p

/-- The burst of a frame on a port. -/
def frameBody (p : Port) (f : NetFrame) : List Byte :=
  txBody p (List.ofFn f.data) f.len.toNat

section

variable (dev : Adin2111)

theorem burstBody_readRegTx {reg : ℕ} (h : reg < 2 ^ 13) :
    burstBody dev (readRegTx dev reg) = none := by
  rw [burstBody, readRegTx, decodeHeader_readHeader dev h]

theorem burstBody_writeRegTx {reg : ℕ} (h : reg < 2 ^ 13) (hreg : reg ≠ adinRegTx) (val : Word) :
    burstBody dev (writeRegTx dev reg val) = none := by
  rw [burstBody, writeRegTx, List.append_assoc, decodeHeader_adinBuildHeader dev h]
  exact if_neg hreg

theorem burstBody_burst (body : List Byte) :
    burstBody dev (adinBuildHeader dev adinRegTx true ++ body) = some body := by
  rw [burstBody, decodeHeader_adinBuildHeader dev (by decide)]
  exact if_pos rfl

theorem burstsOn_append (p : Port) (log log' : List (List Byte)) :
    burstsOn dev p (log ++ log') = burstsOn dev p log ++ burstsOn dev p log' := by
  simp only [burstsOn, List.filterMap_append, List.filter_append]

theorem portHeader_inj {p q : Port} (h : portHeader p = portHeader q) : p = q := by
  cases p <;> cases q
  · rfl
  · exact absurd h (by decide)
  · exact absurd h (by decide)
  · rfl

/-- A burst is on the port of its header. -/
theorem burstsOn_burst (p q : Port) (f : NetFrame) :
    burstsOn dev p [adinBuildHeader dev adinRegTx true ++ frameBody q f] =
      if p = q then [frameBody q f] else [] := by
  have hhead : (frameBody q f).take 2 = portHeader q := rfl
  have hport : portHeader q = portHeader p ↔ p = q :=
    ⟨fun h => (portHeader_inj h).symm, fun h => by rw [h]⟩
  rw [burstsOn, List.filterMap_cons, burstBody_burst]
  simp only [List.filterMap_nil, List.filter_cons, List.filter_nil, hhead, hport, decide_eq_true_eq]

end

variable {σ : Type} (hal : Hal σ) (dev : Adin2111)

/-! ### The transactions -/

/-- A transaction that is no burst. -/
theorem burstsOn_singleton {tx : List Byte} (h : burstBody dev tx = none) (p : Port) :
    burstsOn dev p [tx] = [] := by
  rw [burstsOn, List.filterMap_cons, h]
  rfl

/-- **Before the burst** nothing is written to the FIFO; where there is no space, only `TX_SPACE`
has been read. -/
theorem adinTxReserve_logged (len : ℕ) (s : σ × List (List Byte)) :
    ∃ more, (adinTxReserve (logged hal) dev len s).2.2 = s.2 ++ more ∧
      (∀ p, burstsOn dev p more = []) ∧
      ((adinTxReserve (logged hal) dev len s).1 = .errNospace →
        more = [readRegTx dev adinRegTxSpace]) := by
  have hspace : ∀ p, burstsOn dev p [readRegTx dev adinRegTxSpace] = [] :=
    burstsOn_singleton dev (burstBody_readRegTx dev (by decide))
  rw [adinTxReserve]
  split
  · exact ⟨[], (List.append_nil _).symm, fun p => rfl, fun h => absurd h (by simp)⟩
  obtain ⟨hlog, hstatus⟩ := adin2111ReadReg_logged hal dev adinRegTxSpace s
  cases hr : adin2111ReadReg (logged hal) dev adinRegTxSpace s with
  | mk r s1 =>
    rw [hr] at hlog hstatus
    cases r with
    | error rc =>
      refine ⟨_, hlog, hspace, fun h => ?_⟩
      have h : rc = .errNospace := h
      exact absurd (congrArg Except.error h) hstatus
    | ok space =>
      dsimp only
      split
      · exact ⟨_, hlog, hspace, fun _ => rfl⟩
      · obtain ⟨hlog', hstatus'⟩ := adin2111WriteReg_logged hal dev adinRegTxFsize
          (BitVec.ofNat 32 (paddedLen len + adinFrameHeaderLen)) s1
        have hlog : s1.2 = s.2 ++ [readRegTx dev adinRegTxSpace] := hlog
        rw [hlog, List.append_assoc] at hlog'
        refine ⟨_, hlog', fun p => ?_, fun h => absurd h hstatus'⟩
        have hfsize := burstsOn_singleton dev (burstBody_writeRegTx dev
          (by decide : adinRegTxFsize < 2 ^ 13) (by decide)
            (BitVec.ofNat 32 (paddedLen len + adinFrameHeaderLen))) p
        rw [burstsOn_append, hspace, hfsize]
        rfl

/-- **The burst** is shifted out once, if it fits at all, and is not tried again. -/
theorem adinFifoWrite_logged (body : List Byte) (s : σ × List (List Byte)) :
    ((adinFifoWrite (logged hal) dev adinRegTx body s).2.2 = s.2 ∨
        (adinFifoWrite (logged hal) dev adinRegTx body s).2.2 =
          s.2 ++ [adinBuildHeader dev adinRegTx true ++ body]) ∧
      (adinFifoWrite (logged hal) dev adinRegTx body s).1 ≠ .errNospace := by
  rw [adinFifoWrite]
  split
  · exact ⟨Or.inl rfl, by simp⟩
  cases hx : (logged hal).spiXfer (adinBuildHeader dev adinRegTx true ++ body) s with
  | mk r s' =>
    have hlog := logged_log hx
    cases r with
    | none => exact ⟨Or.inr hlog, by simp⟩
    | some rx => exact ⟨Or.inr hlog, by simp⟩

end Usb2T1L
