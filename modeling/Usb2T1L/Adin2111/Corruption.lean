import Usb2T1L.Adin2111.Buffered
import Usb2T1L.Lib.Detection

/-!
# Corrupted register reads

The CRC of `adin_crc8` has the polynomial `x^8 + x^2 + x + 1`.  It has a constant term and an even
number of terms, and `x` has an order of more than 40 by it, so of the 40 bits of an answer
at most three may be wrong, or any within eight consecutive ones, and the driver notices.

## Main results

* `adinCrc8_eq` — `adin_crc8` is the remainder.
* `adin2111ReadReg_answer` — what the driver makes of an answer.
* `corrupted_read_rejected` — **an answer with such an error is rejected**.
-/

namespace Usb2T1L

/-! ### The polynomial -/

/-- The polynomial of `adin_crc8`, without its leading term. -/
def crcPoly : Byte := 0x07

theorem adinCrc8Bit_eq : ∀ r : Byte, adinCrc8Bit r = Crc.shift crcPoly r false := by
  decide +kernel

theorem crcPoly_order : ∀ k < 40, 0 < k →
    Crc.remainder crcPoly crcPoly (List.replicate k false) ≠ crcPoly := by
  decide +kernel

/-- **`adin_crc8` is the remainder by this polynomial.** -/
theorem adinCrc8_eq (data : List Byte) :
    adinCrc8 data = Crc.remainder crcPoly 0 (data.flatMap Crc.highBits) := by
  rw [adinCrc8, funext adinCrc8Bit_eq]
  exact Crc.foldl_shift data 0

/-- The bits of a register value in the order in which its bytes are sent. -/
theorem flatMap_wordBytes (v : Word) : (wordBytes v).flatMap Crc.highBits = Crc.highBits v := by
  conv_rhs => rw [← append_wordBytes v, Crc.highBits_append, Crc.highBits_append,
    Crc.highBits_append]
  simp [wordBytes]

/-- **An error passes unnoticed exactly if its own remainder is zero.** -/
theorem adinCrc8_corrupted (d e : Word) (c : Byte) :
    adinCrc8 (wordBytes (d ^^^ e)) = adinCrc8 (wordBytes d) ^^^ c ↔
      Crc.remainder crcPoly 0 (Crc.highBits (e ++ c)) = 0 := by
  have hlinear : adinCrc8 (wordBytes (d ^^^ e)) =
      adinCrc8 (wordBytes d) ^^^ Crc.remainder crcPoly 0 (Crc.highBits e) := by
    rw [adinCrc8_eq, adinCrc8_eq, flatMap_wordBytes, flatMap_wordBytes, Crc.highBits_xor]
    exact Crc.remainder_xor crcPoly d.getMsbD e.getMsbD (List.range 32) 0 0
  rw [hlinear, Crc.highBits_append]
  exact (BitVec.xor_right_inj _).trans (Crc.remainder_append_highBits rfl _ c).symm

/-! ### The answer -/

/-- What the driver makes of an answer, behind whatever it has received during the header. -/
theorem adin2111ReadReg_answer {σ : Type} {hal : Hal σ} {dev : Adin2111}
    (hcrc : dev.crcEnabled = true) {reg : ℕ} {s s' : σ} {head tail : List Byte}
    (hhead : head.length = (readHeader dev reg).length) {v : Word} {b : Byte}
    (hx : hal.spiXfer (readRegTx dev reg) s = (some (head ++ wordBytes v ++ b :: tail), s')) :
    adin2111ReadReg hal dev reg s =
      if adinCrc8 (wordBytes v) = b then (.ok v, s') else (.error .errCrc, s') := by
  rw [List.append_assoc] at hx
  have hdata : bytesFrom (head ++ (wordBytes v ++ b :: tail)) (readHeader dev reg).length 4 =
      wordBytes v := bytesFrom_behind hhead 4
  have hword : wordFrom (head ++ (wordBytes v ++ b :: tail)) (readHeader dev reg).length = v :=
    (wordFrom_behind hhead).trans (wordFrom_wordBytes v _)
  have hb : (head ++ (wordBytes v ++ b :: tail)).getD ((readHeader dev reg).length + 4) 0 = b :=
    getD_behind hhead 4
  rw [adin2111ReadReg, hx]
  simp only [hcrc, true_and, hdata, hword, hb, ne_eq, ite_not]

/-- **A corrupted register read is rejected.**  The answer is the four bytes of `d` and their CRC,
of which the bits of `e` and `c` are flipped.  Without an error the driver returns `d`; with one
in at most three bits, or in bits within eight consecutive ones, it reports the CRC and does not
write `*val`. -/
theorem corrupted_read_rejected {σ : Type} {hal : Hal σ} {dev : Adin2111}
    (hcrc : dev.crcEnabled = true) {reg : ℕ} {s s' : σ} {head tail : List Byte}
    (hhead : head.length = (readHeader dev reg).length) (d e : Word) (c : Byte)
    (hx : hal.spiXfer (readRegTx dev reg) s = (some (head ++ wordBytes (d ^^^ e) ++
      (adinCrc8 (wordBytes d) ^^^ c) :: tail), s')) (val : Word) :
    (e ++ c = 0#40 → Buffered.adin2111ReadReg hal dev reg val s = some (.ok, d, s')) ∧
    (e ++ c ≠ 0#40 →
      (Crc.highBits (e ++ c)).count true ≤ 3 ∨
        (∃ k, ∀ i, (e ++ c).getLsbD i = true → k ≤ i ∧ i < k + 8) →
      Buffered.adin2111ReadReg hal dev reg val s = some (.errCrc, val, s')) := by
  have hread := adin2111ReadReg_answer hcrc hhead hx
  constructor
  · intro hzero
    have he := congrArg (BitVec.extractLsb' 8 32) hzero
    have hc := congrArg (BitVec.extractLsb' 0 8) hzero
    rw [BitVec.extractLsb'_append_eq_left] at he
    rw [BitVec.extractLsb'_append_eq_right] at hc
    subst he hc
    rw [BitVec.extractLsb'_zero, BitVec.extractLsb'_zero, BitVec.xor_zero, BitVec.xor_zero,
      if_pos rfl] at hread
    exact Buffered.adin2111ReadReg_ok hread val
  · intro hne herr
    have hrem := Crc.remainder_highBits_ne_zero rfl (by decide) (by decide)
      (fun k hpos hk => crcPoly_order k hk hpos) hne herr
    rw [if_neg fun h => hrem ((adinCrc8_corrupted d e c).mp h)] at hread
    exact Buffered.adin2111ReadReg_error hread val

/-- The device id with its first, its last and a CRC bit flipped. -/
theorem corrupted_read_rejected_board :
    let hal : Hal Unit := ⟨fun _ s => (some ([0, 0, 0, 0] ++
      wordBytes (adin2111PhyidVal ^^^ 0x80000001) ++
        (adinCrc8 (wordBytes adin2111PhyidVal) ^^^ 0x10) :: []), s)⟩
    Buffered.adin2111ReadReg hal boardAdin adinRegPhyid 0 () = some (.errCrc, 0, ()) := by
  have hhead : [(0 : Byte), 0, 0, 0].length = (readHeader boardAdin adinRegPhyid).length := by
    rw [length_readHeader]
    rfl
  exact (corrupted_read_rejected rfl hhead adin2111PhyidVal 0x80000001 0x10 rfl 0).2 (by decide)
    (.inl (by decide))

end Usb2T1L
