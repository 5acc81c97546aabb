import Usb2T1L.Adin2111.Device
import Usb2T1L.Adin2111.Transfer

/-!
# The chip: registers, receive FIFOs and faults

The device of the documented layout with everything the driver reads from it: a register file,
one receive FIFO for each port with its ready bit in `STATUS1` and its frame size register, and
bursts that return the frame at the head and remove it.

Frames may arrive before any transaction.  A transaction may fail on the SPI bus, or be
corrupted so that the receiver finds the CRC wrong; the device takes no part in either.  Which
arrive and which fail is arbitrary, and given with the state: the faults by what is accessed and
how often it has been accessed before.

## Main definitions

* `RxFrame`, `Fault`, `Chip` — frames, faults and the state.
* `Chip.read`, `Chip.write`, `Chip.pop` — what a transaction reads and does.
* `chipHal` — the platform callbacks.

## Main results

* `adin2111WriteReg_chip`, `adin2111ReadReg_chip`, `adinFifoRead_chip` — the driver's
  transactions as operations on the chip.
-/

namespace Usb2T1L

/-- A frame in a receive FIFO, with the chip's port header before it and its FCS behind it. -/
structure RxFrame where
  header : Byte × Byte
  eth : List Byte
  fcs : Word
  eth_pos : 0 < eth.length
  eth_le : eth.length ≤ adinMaxEthFrame

/-- What a burst returns of a frame. -/
def RxFrame.bytes (f : RxFrame) : List Byte := [f.header.1, f.header.2] ++ f.eth ++ wordBytes f.fcs

/-- What happens to a transaction. -/
inductive Fault
  | none
  /-- `spi_xfer` fails. -/
  | spi
  /-- A CRC does not match: the device ignores a command, or the driver gets a damaged answer. -/
  | crc
  deriving DecidableEq

/-- What a transaction accesses: whether it writes, and the register. -/
abbrev Access := Bool × ℕ

/-- The device, and what is to happen to it. -/
structure Chip where
  regs : ℕ → Word
  /-- What a software reset makes of the registers. -/
  reset : (ℕ → Word) → ℕ → Word
  /-- The receive FIFOs, oldest frame first. -/
  rx : Port → List RxFrame
  /-- The frames that arrive before the `n`-th transaction from now. -/
  arrivals : ℕ → List (Port × RxFrame)
  /-- Everything that has arrived so far. -/
  arrived : Port → List RxFrame
  /-- What happens to the `n`-th access from now of each kind. -/
  faults : Access → ℕ → Fault

/-- The frames of a batch that arrive on a port. -/
def framesOn (p : Port) (batch : List (Port × RxFrame)) : List RxFrame :=
  (batch.filter fun a => a.1 = p).map Prod.snd

namespace Chip

/-- What happens to the next such access; without CRCs nobody finds one wrong. -/
def fault (crc : Bool) (a : Access) (c : Chip) : Fault :=
  if c.faults a 0 = .crc ∧ crc = false then .none else c.faults a 0

/-- Frames arrive, and the access takes its turn. -/
def next (a : Access) (c : Chip) : Chip :=
  { c with
    rx := fun p => c.rx p ++ framesOn p (c.arrivals 0)
    arrivals := fun n => c.arrivals (n + 1)
    arrived := fun p => c.arrived p ++ framesOn p (c.arrivals 0)
    faults := Function.update c.faults a fun n => c.faults a (n + 1) }

/-- The ready bit of a port in `STATUS1`. -/
def rxRdy : Port → Word
  | .port1 => adinStatus1RxRdy
  | .port2 => adin2111Status1P2RxRdy

/-- The size of the frame at the head of a FIFO. -/
def fsize (c : Chip) (p : Port) : Word :=
  match c.rx p with
  | [] => c.regs (rxFsizeReg p)
  | f :: _ => BitVec.ofNat 32 (adinFrameHeaderLen + f.eth.length + adinFcsLen)

/-- A ready bit: set exactly if the port's FIFO is not empty. -/
def rdyBit (c : Chip) (p : Port) : Word := if (c.rx p).isEmpty then 0 else rxRdy p

/-- What a register reads as. -/
def read (c : Chip) (reg : ℕ) : Word :=
  if reg = adinRegStatus1 then
    (c.regs reg &&& ~~~(adinStatus1RxRdy ||| adin2111Status1P2RxRdy)) |||
      (c.rdyBit .port1 ||| c.rdyBit .port2)
  else if reg = adinRegRxFsize then c.fsize .port1
  else if reg = adin2111RegRxP2Fsize then c.fsize .port2
  else c.regs reg

/-- What writing a register does. -/
def write (reg : ℕ) (val : Word) (c : Chip) : Chip :=
  if reg = adinRegReset then
    if val &&& adinResetSwreset = 0 then c
    else { c with regs := c.reset c.regs, rx := fun _ => [] }
  else if reg = adinRegFifoClr then
    if val &&& adinFifoClrRx = 0 then c else { c with rx := fun _ => [] }
  else if reg = adinRegStatus0 ∨ reg = adinRegStatus1 then
    -- write one to clear
    { c with regs := RegFile.write c.regs (reg, c.regs reg &&& ~~~val) }
  else { c with regs := RegFile.write c.regs (reg, val) }

/-- The frame at the head of a FIFO is gone. -/
def pop (p : Port) (c : Chip) : Chip := { c with rx := Function.update c.rx p (c.rx p).tail }

/-- The port whose data register this is. -/
def rxPortOf (reg : ℕ) : Option Port :=
  if reg = adinRegRx then some .port1 else if reg = adin2111RegRxP2 then some .port2 else none

/-- An answer, after the command header and the turnaround byte. -/
def reply (crc : Bool) (bytes : List Byte) : List Byte :=
  List.replicate (if crc then 4 else 3) 0 ++ bytes

/-- A transaction without a fault. -/
def perform (crc : Bool) (wr : Bool) (reg : ℕ) (body : List Byte) (c : Chip) : List Byte × Chip :=
  if wr then
    match decodeData crc body with
    | some val => ([], c.write reg val)
    | none => ([], c)
  else
    match rxPortOf reg with
    | some p => (reply crc ((c.rx p).head?.elim [] RxFrame.bytes), c.pop p)
    | none => (reply crc (wordBytes (c.read reg) ++ [adinCrc8 (wordBytes (c.read reg))]), c)

/-- An answer with a wrong CRC. -/
def damaged (crc : Bool) (reg : ℕ) (c : Chip) : List Byte :=
  reply crc (wordBytes (c.read reg) ++ [~~~adinCrc8 (wordBytes (c.read reg))])

/-- One SPI transaction. -/
def xfer (crc : Bool) (tx : List Byte) (c : Chip) : Option (List Byte) × Chip :=
  match decodeHeader crc tx with
  | none => (some [], c)
  | some (wr, reg, body) =>
    match c.fault crc (wr, reg) with
    | .spi => (none, c.next (wr, reg))
    | .crc => (some (damaged crc reg (c.next (wr, reg))), c.next (wr, reg))
    | .none =>
      (some (perform crc wr reg body (c.next (wr, reg))).1,
        (perform crc wr reg body (c.next (wr, reg))).2)

end Chip

/-- The platform callbacks of a board whose device is strapped like the driver's
`crc_enabled`. -/
def chipHal (dev : Adin2111) : Hal Chip := ⟨Chip.xfer dev.crcEnabled⟩

/-! ### The driver's transactions -/

/-- The first header byte of a read. -/
theorem readHeader_bits : ∀ hi : Fin 32,
    (BitVec.ofNat 8 (adinSpiCd ||| 0 ||| (hi : ℕ))).getLsbD 7 = true ∧
      (BitVec.ofNat 8 (adinSpiCd ||| 0 ||| (hi : ℕ))).getLsbD 5 = false ∧
        (BitVec.ofNat 8 (adinSpiCd ||| 0 ||| (hi : ℕ))).toNat % 32 = hi := by
  decide

/-- **The device reads a read command as the driver meant it.** -/
theorem decodeHeader_read (dev : Adin2111) {reg : ℕ} (h : reg < 2 ^ 13) (body : List Byte) :
    decodeHeader dev.crcEnabled (adinBuildHeader dev reg false ++ body) =
      some (false, reg, body) := by
  obtain ⟨hhi, hsplit⟩ := adinSpiAddr_split h
  obtain ⟨h7, h5, hmod⟩ := readHeader_bits ⟨adinSpiAddrHi reg, hhi⟩
  have hlo : (BitVec.ofNat 8 (adinSpiAddrLo reg)).toNat = adinSpiAddrLo reg := by
    rw [BitVec.toNat_ofNat, adinSpiAddrLo, show (0xFF : ℕ) = 2 ^ 8 - 1 by rfl,
      Nat.and_two_pow_sub_one_eq_mod, Nat.mod_mod]
  simp only [adinBuildHeader, Bool.false_eq_true, if_false]
  -- the header bytes as such, so that simp does not take their bits apart
  generalize BitVec.ofNat 8 (adinSpiCd ||| 0 ||| adinSpiAddrHi reg) = b0 at h7 h5 hmod ⊢
  generalize BitVec.ofNat 8 (adinSpiAddrLo reg) = b1 at hlo ⊢
  cases hcrc : dev.crcEnabled
  · simp only [decodeHeader, h7, h5, hmod, hlo, hsplit, Bool.false_eq_true, if_false,
      List.cons_append, List.nil_append, Bool.true_eq_false]
  · simp only [decodeHeader, h7, h5, hmod, hlo, hsplit, if_true, if_false,
      List.cons_append, List.nil_append, Bool.true_eq_false]

/-- `adin2111_write_reg` on the chip. -/
theorem adin2111WriteReg_chip (dev : Adin2111) {reg : ℕ} (h : reg < 2 ^ 13) (val : Word)
    (c : Chip) :
    adin2111WriteReg (chipHal dev) dev reg val c =
      match c.fault dev.crcEnabled (true, reg) with
      | .none => (.ok, (c.next (true, reg)).write reg val)
      | .spi => (.errSpi, c.next (true, reg))
      | .crc => (.ok, c.next (true, reg)) := by
  have hdec : decodeHeader dev.crcEnabled (writeRegTx dev reg val) =
      some (true, reg,
        wordBytes val ++ if dev.crcEnabled then [adinCrc8 (wordBytes val)] else []) := by
    rw [writeRegTx, List.append_assoc, decodeHeader_adinBuildHeader dev h]
  simp only [adin2111WriteReg, chipHal, Chip.xfer, hdec]
  cases c.fault dev.crcEnabled (true, reg) with
  | none => simp only [Chip.perform, if_true, decodeData_wordBytes]
  | spi => rfl
  | crc => rfl

theorem decodeHeader_readHeader (dev : Adin2111) {reg : ℕ} (h : reg < 2 ^ 13) (tail : List Byte) :
    decodeHeader dev.crcEnabled (readHeader dev reg ++ tail) = some (false, reg, 0 :: tail) := by
  rw [readHeader, List.append_assoc, decodeHeader_read dev h]
  rfl

theorem length_adinBuildHeader (dev : Adin2111) (reg : ℕ) (wr : Bool) :
    (adinBuildHeader dev reg wr).length = if dev.crcEnabled then 3 else 2 := by
  rw [adinBuildHeader]
  cases dev.crcEnabled <;> rfl

theorem length_readHeader (dev : Adin2111) (reg : ℕ) :
    (readHeader dev reg).length = if dev.crcEnabled then 4 else 3 := by
  rw [readHeader, List.length_append, length_adinBuildHeader]
  cases dev.crcEnabled <;> rfl

theorem length_readHeader_le (dev : Adin2111) (reg : ℕ) : (readHeader dev reg).length ≤ 4 := by
  rw [length_readHeader]
  split <;> decide

/-- A burst that leaves room for the header passes the check of `adin_fifo_read`. -/
theorem readHeader_fits (dev : Adin2111) (reg : ℕ) {bodyLen : ℕ}
    (hlen : bodyLen + 4 ≤ adinSpiMaxburst) :
    ¬ adinSpiMaxburst < (readHeader dev reg).length + bodyLen := by
  have hle := length_readHeader_le dev reg
  omega

theorem length_reply_head (dev : Adin2111) (reg : ℕ) :
    (List.replicate (if dev.crcEnabled then 4 else 3) (0 : Byte)).length =
      (readHeader dev reg).length := by
  rw [List.length_replicate, length_readHeader]

section Behind

variable {head bytes : List Byte} {off : ℕ}

/-- What is received behind the first `off` bytes. -/
theorem getD_behind (h : head.length = off) (i : ℕ) :
    (head ++ bytes).getD (off + i) 0 = bytes.getD i 0 := by
  rw [List.getD_eq_getElem?_getD, List.getD_eq_getElem?_getD,
    List.getElem?_append_right (by omega), h, Nat.add_sub_cancel_left]

theorem bytesFrom_behind (h : head.length = off) (n : ℕ) :
    bytesFrom (head ++ bytes) off n = bytesFrom bytes 0 n := by
  refine List.map_congr_left fun i _ => ?_
  rw [getD_behind h, Nat.zero_add]

theorem wordFrom_behind (h : head.length = off) :
    wordFrom (head ++ bytes) off = wordFrom bytes 0 := by
  have h0 : (head ++ bytes).getD off 0 = bytes.getD 0 0 := getD_behind h 0
  simp only [wordFrom, h0, getD_behind h, Nat.zero_add]

end Behind

/-- What the driver finds behind command header and turnaround byte. -/
theorem getD_reply (dev : Adin2111) (reg : ℕ) (bytes : List Byte) (i : ℕ) :
    (Chip.reply dev.crcEnabled bytes).getD ((readHeader dev reg).length + i) 0 =
      bytes.getD i 0 :=
  getD_behind (length_reply_head dev reg) i

theorem bytesFrom_reply (dev : Adin2111) (reg n : ℕ) (bytes : List Byte) :
    bytesFrom (Chip.reply dev.crcEnabled bytes) (readHeader dev reg).length n =
      bytesFrom bytes 0 n :=
  bytesFrom_behind (length_reply_head dev reg) n

/-- Four big-endian bytes, read as a value. -/
theorem wordFrom_wordBytes (v : Word) (rest : List Byte) :
    wordFrom (wordBytes v ++ rest) 0 = v := by
  show (((v >>> 24).setWidth 8 : Byte).setWidth 32 <<< 24) |||
    (((v >>> 16).setWidth 8 : Byte).setWidth 32 <<< 16) |||
      (((v >>> 8).setWidth 8 : Byte).setWidth 32 <<< 8) ||| ((v.setWidth 8 : Byte).setWidth 32) = v
  apply BitVec.eq_of_getLsbD_eq
  intro i hi
  simp only [BitVec.getLsbD_or, BitVec.getLsbD_shiftLeft, BitVec.getLsbD_setWidth,
    BitVec.getLsbD_ushiftRight]
  grind

theorem wordFrom_reply (dev : Adin2111) (reg : ℕ) (v : Word) (rest : List Byte) :
    wordFrom (Chip.reply dev.crcEnabled (wordBytes v ++ rest)) (readHeader dev reg).length = v :=
  (wordFrom_behind (length_reply_head dev reg)).trans (wordFrom_wordBytes v rest)

theorem bytesFrom_wordBytes (v : Word) (rest : List Byte) :
    bytesFrom (wordBytes v ++ rest) 0 4 = wordBytes v := rfl

theorem Chip.fault_eq_crc {crc : Bool} {a : Access} {c : Chip} (h : c.fault crc a = .crc) :
    crc = true := by
  unfold Chip.fault at h
  split at h
  · exact absurd h (by simp)
  · next hn =>
    cases crc with
    | true => rfl
    | false => exact absurd ⟨h, rfl⟩ hn

/-- `adin2111_read_reg` on the chip. -/
theorem adin2111ReadReg_chip (dev : Adin2111) {reg : ℕ} (h : reg < 2 ^ 13)
    (hreg : Chip.rxPortOf reg = none) (c : Chip) :
    adin2111ReadReg (chipHal dev) dev reg c =
      match c.fault dev.crcEnabled (false, reg) with
      | .none => (.ok ((c.next (false, reg)).read reg), c.next (false, reg))
      | .spi => (.error .errSpi, c.next (false, reg))
      | .crc => (.error .errCrc, c.next (false, reg)) := by
  simp only [adin2111ReadReg, chipHal, Chip.xfer, readRegTx, decodeHeader_readHeader dev h]
  cases hf : c.fault dev.crcEnabled (false, reg) with
  | none =>
    simp only [Chip.perform, hreg, Bool.false_eq_true, if_false, bytesFrom_reply, getD_reply,
      wordFrom_reply, bytesFrom_wordBytes]
    rw [if_neg]
    rintro ⟨-, hne⟩
    exact hne rfl
  | spi => rfl
  | crc =>
    simp only [Chip.damaged, bytesFrom_reply, getD_reply, bytesFrom_wordBytes]
    rw [if_pos]
    refine ⟨Chip.fault_eq_crc hf, fun heq => ?_⟩
    have heq : adinCrc8 (wordBytes ((c.next (false, reg)).read reg)) =
        ~~~adinCrc8 (wordBytes ((c.next (false, reg)).read reg)) := heq
    generalize adinCrc8 (wordBytes ((c.next (false, reg)).read reg)) = x at heq
    have hbit := congrArg (fun y : Byte => y.getLsbD 0) heq
    rw [BitVec.getLsbD_not] at hbit
    simp at hbit

/-- A burst of `adin_fifo_read` on the chip that does not fail. -/
theorem adinFifoRead_chip (dev : Adin2111) (p : Port) {bodyLen : ℕ}
    (hlen : bodyLen + 4 ≤ adinSpiMaxburst) (c : Chip)
    (hf : c.fault dev.crcEnabled (false, rxFifoReg p) = .none) :
    adinFifoRead (chipHal dev) dev (rxFifoReg p) bodyLen c =
      (.ok (bytesFrom (((c.next (false, rxFifoReg p)).rx p).head?.elim [] RxFrame.bytes) 0 bodyLen),
        (c.next (false, rxFifoReg p)).pop p) := by
  have hport : Chip.rxPortOf (rxFifoReg p) = some p := by cases p <;> rfl
  rw [adinFifoRead, if_neg (readHeader_fits dev _ hlen)]
  simp only [chipHal, Chip.xfer, decodeHeader_readHeader dev (rxFifoReg_lt p), hf, Chip.perform,
    hport, Bool.false_eq_true, if_false, bytesFrom_reply]

end Usb2T1L
