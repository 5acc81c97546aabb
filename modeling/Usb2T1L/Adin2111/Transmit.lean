import Usb2T1L.Adin2111.Protocol

/-!
# Frames to the device

What `adin2111_write_frame` shifts out, taken apart by a receiver that knows the documented
layout only: the size in `TX_FSIZE` says where the frame ends in the burst that follows, and the
first two bytes of the burst are the port.

`TX_SPACE` is in half-words, and the driver doubles it in 32 bits.  Doubling can only lose: a
space that is too small stays too small.

## Main definitions

* `receiveTx` — the receiver.

## Main results

* `isLeast_adinRound4` — what `adin_round4` rounds to.
* `adin2111WriteFrame_full`, `adin2111WriteFrame_room` — the driver function on the device, where
  there is no room and where there is.
* `tx_round_trip` — **the receiver gets the port and the padded frame**, and nothing is written
  where there is no room.
-/

namespace Usb2T1L

/-! ### The receiver -/

/-- The port header of a burst, two big-endian bytes. -/
def portOf (body : List Byte) : BitVec 16 := body.getD 0 0 ++ body.getD 1 0

/-- The frames in a record of what has been shifted out, with their ports: a write to `TX_FSIZE`
says how long the next one is, its port header included, and a burst to `TX` carries it. -/
def receiveTx (crc : Bool) : Option Word → List (List Byte) → List (BitVec 16 × List Byte)
  | _, [] => []
  | fsize, tx :: log =>
    match decodeHeader crc tx with
    | some (true, reg, body) =>
      if reg = adinRegTxFsize then receiveTx crc (decodeData crc body) log
      else if reg = adinRegTx then
        match fsize with
        | some n => (portOf body, (body.drop 2).take (n.toNat - 2)) :: receiveTx crc none log
        | none => receiveTx crc none log
      else receiveTx crc fsize log
    | _ => receiveTx crc fsize log

section Receiver

variable (dev : Adin2111) (fsize : Option Word) (log : List (List Byte))

theorem receiveTx_read {reg : ℕ} (h : reg < 2 ^ 13) :
    receiveTx dev.crcEnabled fsize (readRegTx dev reg :: log) =
      receiveTx dev.crcEnabled fsize log := by
  rw [receiveTx, readRegTx, decodeHeader_readHeader dev h]

theorem receiveTx_fsize (n : Word) :
    receiveTx dev.crcEnabled fsize (writeRegTx dev adinRegTxFsize n :: log) =
      receiveTx dev.crcEnabled (some n) log := by
  rw [receiveTx, writeRegTx, List.append_assoc, decodeHeader_adinBuildHeader dev (by decide)]
  dsimp only
  rw [if_pos rfl, decodeData_wordBytes]

theorem receiveTx_burst (n : Word) (body : List Byte) :
    receiveTx dev.crcEnabled (some n) ((adinBuildHeader dev adinRegTx true ++ body) :: log) =
      (portOf body, (body.drop 2).take (n.toNat - 2)) :: receiveTx dev.crcEnabled none log := by
  rw [receiveTx, decodeHeader_adinBuildHeader dev (by decide)]
  dsimp only
  rw [if_neg (by decide), if_pos rfl]

end Receiver

/-! ### The body of the burst -/

/-- **`adin_round4` rounds up** to the least multiple of four that is not below. -/
theorem isLeast_adinRound4 (n : ℕ) : IsLeast {m | 4 ∣ m ∧ n ≤ m} (adinRound4 n) := by
  rw [adinRound4]
  refine ⟨⟨Dvd.intro_left _ rfl, by omega⟩, ?_⟩
  rintro m ⟨⟨k, rfl⟩, hm⟩
  omega

theorem paddedLen_eq (len : ℕ) : paddedLen len = max 60 len := by
  rw [paddedLen]
  split <;> omega

section Body

variable (port : Port) (frame : List Byte)

theorem length_txBody :
    (txBody port frame frame.length).length = adinRound4 (2 + max 60 frame.length) := by
  obtain ⟨-, hle⟩ := (isLeast_adinRound4 (2 + max 60 frame.length)).1
  rw [txBody, paddedLen_eq, Nat.add_comm _ adinFrameHeaderLen, adinFrameHeaderLen]
  simp only [List.length_append, List.length_cons, List.length_nil, List.length_take,
    List.length_replicate]
  omega

/-- The port header comes first. -/
theorem portOf_txBody : portOf (txBody port frame frame.length) = port.val := by
  show ((port.val >>> 8).setWidth 8 : Byte) ++ (port.val.setWidth 8 : Byte) = port.val
  cases port <;> decide

/-- The frame follows it, padded to the Ethernet minimum. -/
theorem frame_txBody :
    ((txBody port frame frame.length).drop 2).take (max 60 frame.length) =
      frame.rightpad 60 0 := by
  obtain ⟨-, hle⟩ := (isLeast_adinRound4 (2 + max 60 frame.length)).1
  rw [txBody, paddedLen_eq, Nat.add_comm _ adinFrameHeaderLen, adinFrameHeaderLen, List.take_length]
  show (frame ++ List.replicate _ 0).take _ = frame ++ List.replicate _ 0
  rw [List.take_append, List.take_of_length_le (le_max_right _ _), List.take_replicate]
  congr 2
  omega

end Body

/-- **The receiver gets the frame** from what the driver shifts out for it. -/
theorem receiveTx_frame (dev : Adin2111) (port : Port) (frame : List Byte) {fsize : Word}
    (hsize : fsize.toNat = 2 + max 60 frame.length) :
    receiveTx dev.crcEnabled none [readRegTx dev adinRegTxSpace,
        writeRegTx dev adinRegTxFsize fsize,
        adinBuildHeader dev adinRegTx true ++ txBody port frame frame.length] =
      [(port.val, frame.rightpad 60 0)] := by
  rw [receiveTx_read dev _ _ (by decide), receiveTx_fsize, receiveTx_burst, portOf_txBody, hsize,
    Nat.add_sub_cancel_left, frame_txBody]
  rfl

/-! ### On the device -/

/-- A burst is no register write: it is too long for one. -/
theorem decodeCommand_burst (dev : Adin2111) {body : List Byte} (h : 5 < body.length) :
    decodeCommand dev.crcEnabled (adinBuildHeader dev adinRegTx true ++ body) = none := by
  have hdata : decodeData dev.crcEnabled body = none := by
    unfold decodeData
    split
    · exact absurd h (by simp)
    · exact absurd h (by simp)
    · rfl
  rw [decodeCommand, decodeHeader_adinBuildHeader dev (by decide)]
  simp only [hdata, Option.map_none]

/-- The burst of a frame fits the driver's scratch buffers. -/
theorem burst_fits (dev : Adin2111) {len : ℕ} (h : len ≤ adinMaxEthFrame) :
    (adinBuildHeader dev adinRegTx true).length + adinRound4 (2 + max 60 len) ≤
      adinSpiMaxburst := by
  have hhead : (adinBuildHeader dev adinRegTx true).length ≤ 3 := by
    rw [length_adinBuildHeader]
    split <;> omega
  unfold adinMaxEthFrame at h
  unfold adinRound4 adinSpiMaxburst
  omega

/-- The driver doubles `TX_SPACE` in 32 bits, and does not see more space than there is. -/
theorem toNat_mul_two_le (space : Word) : (space * 2).toNat ≤ 2 * space.toNat := by
  rw [BitVec.toNat_mul, Nat.mul_comm]
  exact Nat.mod_le _ _

section Device

variable (dev : Adin2111) (port : Port) {frame : List Byte} (d : RegDevice)

/-- There is too little room, as far as the driver sees. -/
theorem adin2111WriteFrame_full (hpos : 0 < frame.length) (hlen : frame.length ≤ adinMaxEthFrame)
    (hfull : (d.regs adinRegTxSpace * 2).toNat <
      adinRound4 (2 + max 60 frame.length) + adinFcsLen) :
    adin2111WriteFrame (regHal dev) dev port frame frame.length d =
      (.errNospace, ⟨d.regs, d.log ++ [readRegTx dev adinRegTxSpace]⟩) := by
  have hparam : ¬ (frame.length = 0 ∨ adinMaxEthFrame < frame.length) := by omega
  have hreserve : adinTxReserve (regHal dev) dev frame.length d =
      (.errNospace, ⟨d.regs, d.log ++ [readRegTx dev adinRegTxSpace]⟩) := by
    rw [adinTxReserve, if_neg hparam, adin2111ReadReg_device dev (by decide)]
    rw [paddedLen_eq, Nat.add_comm _ adinFrameHeaderLen]
    exact if_pos hfull
  rw [adin2111WriteFrame, hreserve, thenOk]
  exact if_neg (by simp)

/-- There is room: the size is written, and then the burst. -/
theorem adin2111WriteFrame_room (hpos : 0 < frame.length) (hlen : frame.length ≤ adinMaxEthFrame)
    (hroom : adinRound4 (2 + max 60 frame.length) + adinFcsLen ≤
      (d.regs adinRegTxSpace * 2).toNat) :
    adin2111WriteFrame (regHal dev) dev port frame frame.length d =
      (.ok, ⟨RegFile.write d.regs (adinRegTxFsize, BitVec.ofNat 32 (2 + max 60 frame.length)),
        d.log ++ [readRegTx dev adinRegTxSpace,
          writeRegTx dev adinRegTxFsize (BitVec.ofNat 32 (2 + max 60 frame.length)),
          adinBuildHeader dev adinRegTx true ++ txBody port frame frame.length]⟩) := by
  have hparam : ¬ (frame.length = 0 ∨ adinMaxEthFrame < frame.length) := by omega
  have hreserve : adinTxReserve (regHal dev) dev frame.length d =
      (.ok, ⟨RegFile.write d.regs (adinRegTxFsize, BitVec.ofNat 32 (2 + max 60 frame.length)),
        d.log ++ [readRegTx dev adinRegTxSpace,
          writeRegTx dev adinRegTxFsize (BitVec.ofNat 32 (2 + max 60 frame.length))]⟩) := by
    rw [adinTxReserve, if_neg hparam, adin2111ReadReg_device dev (by decide)]
    rw [paddedLen_eq, Nat.add_comm _ adinFrameHeaderLen, show adinFrameHeaderLen = 2 from rfl]
    dsimp only
    rw [if_neg (not_lt.mpr hroom), adin2111WriteReg_device dev (by decide), List.append_assoc]
    rfl
  have hfits : ¬ adinSpiMaxburst <
      (adinBuildHeader dev adinRegTx true).length + (txBody port frame frame.length).length := by
    rw [length_txBody]
    exact not_lt.mpr (burst_fits dev hlen)
  have hlong : 5 < (txBody port frame frame.length).length := by
    obtain ⟨-, hle⟩ := (isLeast_adinRound4 (2 + max 60 frame.length)).1
    rw [length_txBody]
    omega
  rw [adin2111WriteFrame, hreserve, thenOk, if_pos rfl, adinFifoWrite, if_neg hfits]
  simp only [regHal, RegDevice.xfer, decodeCommand_burst dev hlong, List.append_assoc,
    List.cons_append, List.nil_append]

end Device

/-- **TX framing round trip**, with CRC and without, whatever `TX_SPACE` says.  When
`adin2111_write_frame` succeeds, a receiver of the documented layout gets the port and the frame
padded to 60 bytes; the body of the burst is as long as the least multiple of four that holds
`TX_FSIZE` bytes, fits the scratch buffers, and fits the reported space with its FCS.  Where it
does not fit, the function says so and has written nothing. -/
theorem tx_round_trip (dev : Adin2111) (port : Port) (frame : List Byte) (regs : ℕ → Word)
    (hpos : 0 < frame.length) (hlen : frame.length ≤ adinMaxEthFrame) :
    let r := adin2111WriteFrame (regHal dev) dev port frame frame.length ⟨regs, []⟩
    (r.1 = .ok →
      receiveTx dev.crcEnabled none r.2.log = [(port.val, frame.rightpad 60 0)] ∧
      (r.2.regs adinRegTxFsize).toNat = 2 + max 60 frame.length ∧
      ∃ body, r.2.log.getLast? = some (adinBuildHeader dev adinRegTx true ++ body) ∧
        IsLeast {m | 4 ∣ m ∧ (r.2.regs adinRegTxFsize).toNat ≤ m} body.length ∧
        (adinBuildHeader dev adinRegTx true).length + body.length ≤ adinSpiMaxburst ∧
        body.length + adinFcsLen ≤ 2 * (regs adinRegTxSpace).toNat) ∧
    (2 * (regs adinRegTxSpace).toNat < adinRound4 (2 + max 60 frame.length) + adinFcsLen →
      r = (.errNospace, ⟨regs, [readRegTx dev adinRegTxSpace]⟩)) := by
  intro r
  by_cases hfull : (regs adinRegTxSpace * 2).toNat <
      adinRound4 (2 + max 60 frame.length) + adinFcsLen
  · have hr : r = (.errNospace, ⟨regs, [readRegTx dev adinRegTxSpace]⟩) :=
      adin2111WriteFrame_full dev port ⟨regs, []⟩ hpos hlen hfull
    rw [hr]
    exact ⟨fun h => absurd h (by simp), fun _ => rfl⟩
  · -- the driver sees room, so there is
    have hroom := not_lt.mp hfull
    have hspace := hroom.trans (toNat_mul_two_le _)
    have hr := adin2111WriteFrame_room dev port ⟨regs, []⟩ hpos hlen hroom
    rw [List.nil_append] at hr
    have hmax : adinMaxEthFrame = 1520 := rfl
    have hsize : (BitVec.ofNat 32 (2 + max 60 frame.length)).toNat = 2 + max 60 frame.length := by
      rw [BitVec.toNat_ofNat]
      exact Nat.mod_eq_of_lt (by omega)
    have hregs : r.2.regs adinRegTxFsize = BitVec.ofNat 32 (2 + max 60 frame.length) := by
      rw [show r = _ from hr]
      exact RegFile.write_self regs (adinRegTxFsize, BitVec.ofNat 32 (2 + max 60 frame.length))
    refine ⟨fun _ => ⟨?_, ?_, txBody port frame frame.length, ?_, ?_, ?_, ?_⟩,
      fun h => absurd hspace (not_le.mpr h)⟩
    · rw [show r = _ from hr]
      exact receiveTx_frame dev port frame hsize
    · rw [hregs, hsize]
    · rw [show r = _ from hr]
      rfl
    · rw [hregs, hsize, length_txBody]
      exact isLeast_adinRound4 _
    · rw [length_txBody]
      exact burst_fits dev hlen
    · rw [length_txBody]
      exact hspace

/-- A frame of one byte, on the board. -/
theorem tx_round_trip_board :
    let regs : ℕ → Word := fun _ => 100
    let frame : List Byte := [0xA5]
    let r := adin2111WriteFrame (regHal boardAdin) boardAdin .port2 frame frame.length ⟨regs, []⟩
    r.1 = .ok ∧ receiveTx boardAdin.crcEnabled none r.2.log =
      [(Port.port2.val, frame.rightpad 60 0)] := by
  intro regs frame
  have hpos : 0 < frame.length := by decide
  have hlen : frame.length ≤ adinMaxEthFrame := by decide
  have hroom : adinRound4 (2 + max 60 frame.length) + adinFcsLen ≤
      (regs adinRegTxSpace * 2).toNat := by
    show adinRound4 (2 + max 60 [(0xA5 : Byte)].length) + adinFcsLen ≤ ((100 : Word) * 2).toNat
    decide
  have hok := congrArg Prod.fst
    (adin2111WriteFrame_room boardAdin .port2 ⟨regs, []⟩ hpos hlen hroom)
  exact ⟨hok, ((tx_round_trip boardAdin .port2 frame regs hpos hlen).1 hok).1⟩

end Usb2T1L
