import Usb2T1L.Adin2111.Driver

/-!
# The ADIN2111 driver core: register reads and frames

The rest of the register access of `adin2111.c`, the bursts to and from the FIFOs, and the
operations on top of them that the bridge uses: `adin2111_rx_ready`, `adin2111_irq_ack`,
`adin2111_read_frame` and `adin2111_write_frame`.

A function that returns a status and fills a variable of its caller returns the one or the
other.  Receive buffers start out zeroed, so a byte that `spi_xfer` does not give is zero.

## Main definitions

* `adin2111ReadReg`, `adinFifoRead`, `adinFifoWrite` — single transactions.
* `adin2111ReadFrame`, `adin2111WriteFrame` — frames.
* `logged` — a bus that records what is shifted out.
-/

namespace Usb2T1L

/-! ### The register map, `adin2111_regs.h` -/

/-- `ADIN_REG_PHYID`: device identification. -/
def adinRegPhyid : ℕ := 0x01

/-- `ADIN_REG_RESET`: software reset. -/
def adinRegReset : ℕ := 0x03

/-- `ADIN_REG_CONFIG0`. -/
def adinRegConfig0 : ℕ := 0x04

/-- `ADIN_REG_CONFIG2`. -/
def adinRegConfig2 : ℕ := 0x06

/-- `ADIN_REG_STATUS0`. -/
def adinRegStatus0 : ℕ := 0x08

/-- `ADIN_REG_STATUS1`. -/
def adinRegStatus1 : ℕ := 0x09

/-- `ADIN_REG_IMASK1`: the interrupts that `STATUS1` does not raise. -/
def adinRegImask1 : ℕ := 0x0D

/-- `ADIN_REG_TX_FSIZE`: the size of the next frame to be sent. -/
def adinRegTxFsize : ℕ := 0x30

/-- `ADIN_REG_TX`: the data port of the transmit FIFO. -/
def adinRegTx : ℕ := 0x31

/-- `ADIN_REG_TX_SPACE`: the room in the transmit FIFO, in half-words. -/
def adinRegTxSpace : ℕ := 0x32

/-- `ADIN_REG_FIFO_CLR`. -/
def adinRegFifoClr : ℕ := 0x36

/-- `ADIN_REG_RX_FSIZE`: the size of the next frame received on port 1. -/
def adinRegRxFsize : ℕ := 0x90

/-- `ADIN_REG_RX`: the data port of the receive FIFO of port 1. -/
def adinRegRx : ℕ := 0x91

/-- `ADIN2111_REG_RX_P2_FSIZE`: the size of the next frame received on port 2. -/
def adin2111RegRxP2Fsize : ℕ := 0xC0

/-- `ADIN2111_REG_RX_P2`: the data port of the receive FIFO of port 2. -/
def adin2111RegRxP2 : ℕ := 0xC1

/-- `ADIN_RESET_SWRESET` of `RESET`: reset now. -/
def adinResetSwreset : Word := 1 <<< 0

/-- `ADIN_CONFIG0_SYNC` of `CONFIG0`: the configuration is done. -/
def adinConfig0Sync : Word := 1 <<< 15

/-- `ADIN_CONFIG2_CRC_APPEND` of `CONFIG2`: the device appends and checks the FCS. -/
def adinConfig2CrcAppend : Word := 1 <<< 5

/-- `ADIN_CONFIG2_FWD_UNK2HOST` of `CONFIG2`: what no slot matches on port 1 goes to the host. -/
def adinConfig2FwdUnk2host : Word := 1 <<< 2

/-- `ADIN2111_CONFIG2_PORT_CUT_THRU` of `CONFIG2`: cut-through between the ports. -/
def adin2111Config2PortCutThru : Word := 1 <<< 11

/-- `ADIN2111_CONFIG2_P2_FWD_UNK2HOST` of `CONFIG2`: the same for port 2. -/
def adin2111Config2P2FwdUnk2host : Word := 1 <<< 12

/-- `ADIN_STATUS0_RESETC` of `STATUS0`: reset complete. -/
def adinStatus0Resetc : Word := 1 <<< 6

/-- `ADIN_STATUS1_LINK_STATE` of `STATUS1`: port 1 has a link. -/
def adinStatus1LinkState : Word := 1 <<< 0

/-- `ADIN2111_STATUS1_P2_LINK_STATE` of `STATUS1`: port 2 has a link. -/
def adin2111Status1P2LinkState : Word := 1 <<< 5

/-- `ADIN_STATUS1_RX_RDY` of `STATUS1`: a frame has been received on port 1. -/
def adinStatus1RxRdy : Word := 1 <<< 4

/-- `ADIN2111_STATUS1_P2_RX_RDY` of `STATUS1`: a frame has been received on port 2. -/
def adin2111Status1P2RxRdy : Word := 1 <<< 17

/-- `ADIN_IMASK1_RX_RDY` of `IMASK1`: frames on port 1 raise no interrupt. -/
def adinImask1RxRdy : Word := 1 <<< 4

/-- `ADIN_IMASK1_SPI_ERR` of `IMASK1`: errors on the SPI bus raise no interrupt. -/
def adinImask1SpiErr : Word := 1 <<< 10

/-- `ADIN2111_IMASK1_P2_RX_RDY` of `IMASK1`: frames on port 2 raise no interrupt. -/
def adin2111Imask1P2RxRdy : Word := 1 <<< 17

/-- `ADIN_FIFO_CLR_RX` of `FIFO_CLR`: the receive FIFOs. -/
def adinFifoClrRx : Word := 1 <<< 0

/-- `ADIN_FIFO_CLR_TX` of `FIFO_CLR`: the transmit FIFO. -/
def adinFifoClrTx : Word := 1 <<< 1

/-- `ADIN_MAC_ADDR_TO_HOST` of a filter slot: what the slot matches goes to the host. -/
def adinMacAddrToHost : Word := 1 <<< 16

/-- `ADIN_MAC_SLOT_GROUP`: the slot for broadcast and multicast. -/
def adinMacSlotGroup : ℕ := 0

/-- `ADIN_MAC_SLOT_HOST`: the slot for the address of the host. -/
def adinMacSlotHost : ℕ := 1

/-- `ADIN1110_PHYID_VAL`. -/
def adin1110PhyidVal : Word := 0x0283BC91

/-- `ADIN2111_PHYID_VAL`. -/
def adin2111PhyidVal : Word := 0x0283BCA1

/-- `ADIN_FRAME_HEADER_LEN`: the port header before each frame. -/
def adinFrameHeaderLen : ℕ := 2

/-- `ADIN_FCS_LEN`: the FCS behind it. -/
def adinFcsLen : ℕ := 4

/-- `ADIN_MAX_ETH_FRAME`: the largest frame the scratch buffers take, without FCS. -/
def adinMaxEthFrame : ℕ := 1520

/-- `ADIN_SPI_MAXBURST`, the size of the driver's scratch buffers. -/
def adinSpiMaxburst : ℕ := 8 + 1536

/-- The value of an enumerator of `adin2111_port_t`. -/
def Port.val : Port → BitVec 16
  | .port1 => 0
  | .port2 => 1

/-! ### Register access -/

variable {σ α β : Type}

/-- The rest of a function after a call that returns a status and a value. -/
def andThen (r : Except Status α × σ) (k : α → σ → Except Status β × σ) : Except Status β × σ :=
  match r with
  | (.ok a, s) => k a s
  | (.error rc, s) => (.error rc, s)

/-- `n` bytes of a receive buffer. -/
def bytesFrom (rx : List Byte) (off n : ℕ) : List Byte :=
  (List.range n).map fun i => rx.getD (off + i) 0

/-- Four received bytes, most significant first, as a value. -/
def wordFrom (rx : List Byte) (off : ℕ) : Word :=
  ((rx.getD off 0).setWidth 32 <<< 24) ||| ((rx.getD (off + 1) 0).setWidth 32 <<< 16) |||
    ((rx.getD (off + 2) 0).setWidth 32 <<< 8) ||| (rx.getD (off + 3) 0).setWidth 32

/-- The command header of a read, with its turnaround byte. -/
def readHeader (dev : Adin2111) (reg : ℕ) : List Byte := adinBuildHeader dev reg false ++ [0]

/-- The transmit buffer of `adin2111_read_reg`. -/
def readRegTx (dev : Adin2111) (reg : ℕ) : List Byte :=
  readHeader dev reg ++ List.replicate (4 + if dev.crcEnabled then 1 else 0) 0

/-- `adin2111_read_reg`. -/
def adin2111ReadReg (hal : Hal σ) (dev : Adin2111) (reg : ℕ) (s : σ) : Except Status Word × σ :=
  match hal.spiXfer (readRegTx dev reg) s with
  | (none, s) => (.error .errSpi, s)
  | (some rx, s) =>
    let dataOff := (readHeader dev reg).length
    if dev.crcEnabled = true ∧ adinCrc8 (bytesFrom rx dataOff 4) ≠ rx.getD (dataOff + 4) 0 then
      (.error .errCrc, s)
    else (.ok (wordFrom rx dataOff), s)

/-! ### FIFO access -/

/-- `adin_round4`, for lengths that `uint16_t` holds after rounding. -/
def adinRound4 (len : ℕ) : ℕ := (len + 3) / 4 * 4

/-- `adin_fifo_write`. -/
def adinFifoWrite (hal : Hal σ) (dev : Adin2111) (reg : ℕ) (body : List Byte) (s : σ) :
    Status × σ :=
  if adinSpiMaxburst < (adinBuildHeader dev reg true).length + body.length then (.errToobig, s)
  else
    match hal.spiXfer (adinBuildHeader dev reg true ++ body) s with
    | (some _, s) => (.ok, s)
    | (none, s) => (.errSpi, s)

/-- `adin_fifo_read`. -/
def adinFifoRead (hal : Hal σ) (dev : Adin2111) (reg bodyLen : ℕ) (s : σ) :
    Except Status (List Byte) × σ :=
  if adinSpiMaxburst < (readHeader dev reg).length + bodyLen then (.error .errToobig, s)
  else
    match hal.spiXfer (readHeader dev reg ++ List.replicate bodyLen 0) s with
    | (none, s) => (.error .errSpi, s)
    | (some rx, s) => (.ok (bytesFrom rx (readHeader dev reg).length bodyLen), s)

/-! ### High-level operations -/

/-- `adin2111_read_status`. -/
def adin2111ReadStatus (hal : Hal σ) (dev : Adin2111) (s : σ) : Except Status Word × σ :=
  adin2111ReadReg hal dev adinRegStatus1 s

/-- `adin2111_link_up`. -/
def adin2111LinkUp (hal : Hal σ) (dev : Adin2111) (port : Port) (s : σ) : Bool × σ :=
  match adin2111ReadReg hal dev adinRegStatus1 s with
  | (.error _, s) => (false, s)
  | (.ok s1, s) =>
    let mask := if port = .port2 then adin2111Status1P2LinkState else adinStatus1LinkState
    (decide (s1 &&& mask ≠ 0), s)

/-- `adin2111_rx_ready`. -/
def adin2111RxReady (hal : Hal σ) (dev : Adin2111) (s : σ) : Bool × σ :=
  match adin2111ReadReg hal dev adinRegStatus1 s with
  | (.error _, s) => (false, s)
  | (.ok s1, s) => (decide (s1 &&& (adinStatus1RxRdy ||| adin2111Status1P2RxRdy) ≠ 0), s)

/-- `adin2111_irq_ack`. -/
def adin2111IrqAck (hal : Hal σ) (dev : Adin2111) (s : σ) : Except Status Word × σ :=
  andThen (adin2111ReadReg hal dev adinRegStatus0 s) fun s0 s =>
  andThen (adin2111ReadReg hal dev adinRegStatus1 s) fun s1 s =>
  let s := (adin2111WriteReg hal dev adinRegStatus0 s0 s).2
  let s := (adin2111WriteReg hal dev adinRegStatus1
    (s1 &&& ~~~(adinStatus1RxRdy ||| adin2111Status1P2RxRdy)) s).2
  (.ok s1, s)

/-- The port `adin2111_read_frame` reads from, port 1 first. -/
def adinRxPort (dev : Adin2111) (s1 : Word) : Option Port :=
  if s1 &&& adinStatus1RxRdy ≠ 0 then some .port1
  else if 1 < dev.numPorts ∧ s1 &&& adin2111Status1P2RxRdy ≠ 0 then some .port2
  else none

/-- The frame size register of a port. -/
def rxFsizeReg : Port → ℕ
  | .port1 => adinRegRxFsize
  | .port2 => adin2111RegRxP2Fsize

/-- The data register of a port. -/
def rxFifoReg : Port → ℕ
  | .port1 => adinRegRx
  | .port2 => adin2111RegRxP2

theorem rxFsizeReg_lt (p : Port) : rxFsizeReg p < 2 ^ 13 := by
  cases p <;> decide

theorem rxFifoReg_lt (p : Port) : rxFifoReg p < 2 ^ 13 := by
  cases p <;> decide

/-- `adin2111_read_frame`: the Ethernet frame, `*out_len` bytes, and its port. -/
def adin2111ReadFrame (hal : Hal σ) (dev : Adin2111) (bufLen : ℕ) (s : σ) :
    Except Status (List Byte × Port) × σ :=
  andThen (adin2111ReadReg hal dev adinRegStatus1 s) fun s1 s =>
  match adinRxPort dev s1 with
  | none => (.error .errNodata, s)
  | some port =>
    andThen (adin2111ReadReg hal dev (rxFsizeReg port) s) fun fsize s =>
    if fsize.toNat < adinFrameHeaderLen + adinFcsLen ∨
        adinFrameHeaderLen + adinFcsLen + adinMaxEthFrame < fsize.toNat then
      -- corrupt length: flush the FIFO and report no data
      (.error .errNodata, (adin2111WriteReg hal dev adinRegFifoClr adinFifoClrRx s).2)
    else
      let ethLen := fsize.toNat - adinFrameHeaderLen - adinFcsLen
      if bufLen < ethLen then
        (.error .errToobig, (adin2111WriteReg hal dev adinRegFifoClr adinFifoClrRx s).2)
      else
        andThen (adinFifoRead hal dev (rxFifoReg port) (adinRound4 fsize.toNat) s) fun body s =>
        (.ok (bytesFrom body adinFrameHeaderLen ethLen, port), s)

/-- The length of a frame after padding to the Ethernet minimum. -/
def paddedLen (len : ℕ) : ℕ := if len < 60 then 60 else len

/-- `adin2111_write_frame` before its burst: there is room in the TX FIFO, and `TX_FSIZE` has
been written. -/
def adinTxReserve (hal : Hal σ) (dev : Adin2111) (len : ℕ) (s : σ) : Status × σ :=
  if len = 0 ∨ adinMaxEthFrame < len then (.errParam, s)
  else
    match adin2111ReadReg hal dev adinRegTxSpace s with
    | (.error rc, s) => (rc, s)
    | (.ok space, s) =>
      -- `TX_SPACE` is in half-words
      if (space * 2).toNat < adinRound4 (paddedLen len + adinFrameHeaderLen) + adinFcsLen then
        (.errNospace, s)
      else
        adin2111WriteReg hal dev adinRegTxFsize
          (BitVec.ofNat 32 (paddedLen len + adinFrameHeaderLen)) s

/-- The body of the burst: port header, frame, and zeros up to the rounded length. -/
def txBody (port : Port) (frame : List Byte) (len : ℕ) : List Byte :=
  [(port.val >>> 8).setWidth 8, port.val.setWidth 8] ++ frame.take len ++
    List.replicate (adinRound4 (paddedLen len + adinFrameHeaderLen) - adinFrameHeaderLen - len) 0

/-- `adin2111_write_frame`, of the first `len` bytes of `frame`. -/
def adin2111WriteFrame (hal : Hal σ) (dev : Adin2111) (port : Port) (frame : List Byte) (len : ℕ)
    (s : σ) : Status × σ :=
  thenOk (adinTxReserve hal dev len s) fun s =>
  adinFifoWrite hal dev adinRegTx (txBody port frame len) s

/-! ### What is shifted out -/

/-- The same bus, recording what is shifted out. -/
def logged {σ : Type} (hal : Hal σ) : Hal (σ × List (List Byte)) where
  spiXfer := fun tx s => ((hal.spiXfer tx s.1).1, (hal.spiXfer tx s.1).2, s.2 ++ [tx])

theorem logged_log {hal : Hal σ} {tx : List Byte} {s s' : σ × List (List Byte)}
    {r : Option (List Byte)} (h : (logged hal).spiXfer tx s = (r, s')) : s'.2 = s.2 ++ [tx] :=
  (congrArg (fun x => x.2.2) h).symm

theorem adin2111ReadReg_logged (hal : Hal σ) (dev : Adin2111) (reg : ℕ) (s : σ × List (List Byte)) :
    (adin2111ReadReg (logged hal) dev reg s).2.2 = s.2 ++ [readRegTx dev reg] ∧
      (adin2111ReadReg (logged hal) dev reg s).1 ≠ .error .errNospace := by
  rw [adin2111ReadReg]
  cases hx : (logged hal).spiXfer (readRegTx dev reg) s with
  | mk r s' =>
    have hlog := logged_log hx
    cases r with
    | none => exact ⟨hlog, by simp⟩
    | some rx =>
      dsimp only
      split
      · exact ⟨hlog, by simp⟩
      · exact ⟨hlog, by simp⟩

theorem adin2111WriteReg_logged (hal : Hal σ) (dev : Adin2111) (reg : ℕ) (val : Word)
    (s : σ × List (List Byte)) :
    (adin2111WriteReg (logged hal) dev reg val s).2.2 = s.2 ++ [writeRegTx dev reg val] ∧
      (adin2111WriteReg (logged hal) dev reg val s).1 ≠ .errNospace := by
  rw [adin2111WriteReg]
  cases hx : (logged hal).spiXfer (writeRegTx dev reg val) s with
  | mk r s' =>
    have hlog := logged_log hx
    cases r with
    | none => exact ⟨hlog, by simp⟩
    | some rx => exact ⟨hlog, by simp⟩

end Usb2T1L
