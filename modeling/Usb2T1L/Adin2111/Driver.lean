import Mathlib.Tactic

/-!
# The ADIN2111 driver core: registers and address filters

The part of `adin2111.c` that programs registers over the generic SPI control
protocol, with the register map of `adin2111_regs.h`.  The platform callbacks
are a `Hal` over an arbitrary bus state, so the same driver text runs against
any device and any pattern of SPI failures.

C's `uint8_t`, `uint16_t` and `uint32_t` data are bit vectors.  Register
addresses and slot numbers are `ℕ`: every address the driver forms is below
`2 ^ 13`, every slot below 16.

## Main definitions

* `Hal`, `Adin2111` — the platform callbacks and the driver instance.
* `adinCrc8`, `adinBuildHeader`, `adin2111WriteReg` — register access.
* `adinWriteFilter`, `adin2111FdbSet`, `adin2111FdbClear` — the filter table.
-/

namespace Usb2T1L

/-- `uint8_t`. -/
abbrev Byte := BitVec 8

/-- `uint32_t`. -/
abbrev Word := BitVec 32

/-- A MAC address, `uint8_t mac[6]`. -/
abbrev Mac := Fin 6 → Byte

/-- So that the octets of an address can be written as literals. -/
instance octet_neZero : NeZero 6 := ⟨Nat.succ_ne_zero 5⟩

/-! ### Types of `adin2111.h` -/

/-- `adin2111_status_t`. -/
inductive Status
  | ok
  | errParam
  | errSpi
  | errId
  | errCrc
  | errNodata
  | errToobig
  | errNospace
  | errTimeout
  deriving DecidableEq, Repr

/-- `adin2111_port_t`. -/
inductive Port
  | port1
  | port2
  deriving DecidableEq, Repr

/-- The other of the two ports. -/
def Port.opposite : Port → Port
  | .port1 => .port2
  | .port2 => .port1

@[simp] theorem Port.opposite_opposite (p : Port) : p.opposite.opposite = p := by
  cases p <;> rfl

theorem Port.opposite_injective : Function.Injective Port.opposite :=
  Function.LeftInverse.injective Port.opposite_opposite

/-- `adin2111_mode_t`. -/
inductive Mode
  | endpoint
  | switch
  deriving DecidableEq, Repr

/-- The `spi_xfer` callback of `adin2111_hal_t`, called with chip select
asserted: it clocks `tx` out and returns the received bytes, or `none` on a
non-zero return code. -/
structure Hal (σ : Type) where
  spiXfer : List Byte → σ → Option (List Byte) × σ

/-- `adin2111_t`, after `adin2111_init`: a single-port device has been forced
into endpoint mode. -/
structure Adin2111 where
  crcEnabled : Bool
  mode : Mode
  numPorts : ℕ
  switch_ports : mode = .switch → 2 ≤ numPorts

/-- The board's device: `ADIN_SPI_USE_CRC` and `ADIN_DAISY_CHAIN_MODE` are 1. -/
def boardAdin : Adin2111 := ⟨true, .switch, 2, fun _ => le_rfl⟩

/-! ### The register map, `adin2111_regs.h` -/

/-- `ADIN_SPI_CD`: the first header byte is that of a command. -/
def adinSpiCd : ℕ := 1 <<< 7

/-- `ADIN_SPI_RW_WRITE`: set in the header of a write, clear in that of a read. -/
def adinSpiRwWrite : ℕ := 1 <<< 5

/-- `ADIN_SPI_ADDR_HI`: the upper five of the thirteen address bits, for the first header byte. -/
def adinSpiAddrHi (reg : ℕ) : ℕ := (reg >>> 8) &&& 0x1F

/-- `ADIN_SPI_ADDR_LO`: the lower eight, for the second. -/
def adinSpiAddrLo (reg : ℕ) : ℕ := reg &&& 0xFF

/-- `ADIN_REG_MAC_ADDR_FILT_UPR`: control bits and upper address of filter slot `x`. -/
def adinRegMacAddrFiltUpr (x : ℕ) : ℕ := 0x50 + 2 * x

/-- `ADIN_REG_MAC_ADDR_FILT_LWR`: the lower address of filter slot `x`. -/
def adinRegMacAddrFiltLwr (x : ℕ) : ℕ := 0x51 + 2 * x

/-- `ADIN_REG_MAC_ADDR_MASK_UPR`: which bits of the upper address count. -/
def adinRegMacAddrMaskUpr (x : ℕ) : ℕ := 0x70 + 2 * x

/-- `ADIN_REG_MAC_ADDR_MASK_LWR`: which bits of the lower address count. -/
def adinRegMacAddrMaskLwr (x : ℕ) : ℕ := 0x71 + 2 * x

/-- `ADIN_MAC_FILTER_SLOTS`: how many filter slots there are. -/
def adinMacFilterSlots : ℕ := 16

/-- `ADIN_MAC_SLOT_FDB_BASE`: the first slot for learned stations. -/
def adinMacSlotFdbBase : ℕ := 2

/-- `NET_FDB_MAX_ENTRIES` of `app_config.h`: the free filter slots. -/
abbrev netFdbMaxEntries : ℕ := 14

/-- `ADIN_MAC_ADDR_APPLY2PORT1`: the slot is for frames that enter on port 1. -/
def adinMacAddrApply2port1 : Word := 1 <<< 30

/-- `ADIN2111_MAC_ADDR_APPLY2PORT2`: the slot is for frames that enter on port 2. -/
def adin2111MacAddrApply2port2 : Word := 1 <<< 31

/-- `ADIN2111_MAC_ADDR_TO_OTHER_PORT`: what the slot matches goes on. -/
def adin2111MacAddrToOtherPort : Word := 1 <<< 17

/-! ### Register access -/

/-- One round of the inner loop of `adin_crc8`. -/
def adinCrc8Bit (crc : Byte) : Byte :=
  if crc &&& 0x80 ≠ 0 then (crc <<< 1) ^^^ 0x07 else crc <<< 1

/-- `adin_crc8`. -/
def adinCrc8 (data : List Byte) : Byte :=
  data.foldl (fun crc d => adinCrc8Bit^[8] (crc ^^^ d)) 0

/-- `adin_build_header`: the command header, with its CRC when enabled. -/
def adinBuildHeader (dev : Adin2111) (reg : ℕ) (write : Bool) : List Byte :=
  let buf0 : Byte :=
    BitVec.ofNat 8 (adinSpiCd ||| (if write then adinSpiRwWrite else 0) ||| adinSpiAddrHi reg)
  let buf1 : Byte := BitVec.ofNat 8 (adinSpiAddrLo reg)
  if dev.crcEnabled then [buf0, buf1, adinCrc8 [buf0, buf1]] else [buf0, buf1]

/-- The four big-endian bytes of a register value. -/
def wordBytes (val : Word) : List Byte :=
  [(val >>> 24).setWidth 8, (val >>> 16).setWidth 8, (val >>> 8).setWidth 8, val.setWidth 8]

/-- The transmit buffer of `adin2111_write_reg`. -/
def writeRegTx (dev : Adin2111) (reg : ℕ) (val : Word) : List Byte :=
  adinBuildHeader dev reg true ++ wordBytes val ++
    if dev.crcEnabled then [adinCrc8 (wordBytes val)] else []

variable {σ : Type}

/-- `adin2111_write_reg`. -/
def adin2111WriteReg (hal : Hal σ) (dev : Adin2111) (reg : ℕ) (val : Word) (s : σ) : Status × σ :=
  match hal.spiXfer (writeRegTx dev reg val) s with
  | (some _, s) => (.ok, s)
  | (none, s) => (.errSpi, s)

/-- The driver's `if (rc != ADIN2111_OK) return rc;` after a call, before the rest. -/
def thenOk (r : Status × σ) (k : σ → Status × σ) : Status × σ := if r.1 = .ok then k r.2 else r

/-! ### The address filter table -/

/-- `adin_write_filter`: mask, then `FILT_LWR`, then `FILT_UPR`, which carries
the control bits; the first failing write ends it. -/
def adinWriteFilter (hal : Hal σ) (dev : Adin2111) (slot : ℕ) (ctl : Word)
    (addrUpr : BitVec 16) (addrLwr : Word) (maskUpr : BitVec 16) (maskLwr : Word) (s : σ) :
    Status × σ :=
  thenOk (adin2111WriteReg hal dev (adinRegMacAddrMaskUpr slot) (maskUpr.setWidth 32) s) fun s =>
  thenOk (adin2111WriteReg hal dev (adinRegMacAddrMaskLwr slot) maskLwr s) fun s =>
  thenOk (adin2111WriteReg hal dev (adinRegMacAddrFiltLwr slot) addrLwr s) fun s =>
  adin2111WriteReg hal dev (adinRegMacAddrFiltUpr slot) (ctl ||| addrUpr.setWidth 32) s

/-- The upper 16 address bits as `adin2111_fdb_set` assembles them. -/
def addrUpr (mac : Mac) : BitVec 16 :=
  ((mac 0).setWidth 16 <<< 8) ||| (mac 1).setWidth 16

/-- The lower 32 address bits as `adin2111_fdb_set` assembles them. -/
def addrLwr (mac : Mac) : Word :=
  ((mac 2).setWidth 32 <<< 24) ||| ((mac 3).setWidth 32 <<< 16) |||
    ((mac 4).setWidth 32 <<< 8) ||| (mac 5).setWidth 32

/-- The control word `adin2111_fdb_set` gives a station living on `livePort`:
forwarded to the other port, for frames entering on the port opposite. -/
def fdbCtl (livePort : Port) : Word :=
  adin2111MacAddrToOtherPort |||
    if livePort = .port1 then adin2111MacAddrApply2port2 else adinMacAddrApply2port1

/-- `adin2111_fdb_set`. -/
def adin2111FdbSet (hal : Hal σ) (dev : Adin2111) (slot : ℕ) (mac : Mac) (livePort : Port)
    (s : σ) : Status × σ :=
  if dev.numPorts < 2 ∨ slot < adinMacSlotFdbBase ∨ adinMacFilterSlots ≤ slot then (.errParam, s)
  else
    adinWriteFilter hal dev slot (fdbCtl livePort) (addrUpr mac) (addrLwr mac)
      0xFFFF 0xFFFFFFFF s

/-- `adin2111_fdb_clear`. -/
def adin2111FdbClear (hal : Hal σ) (dev : Adin2111) (slot : ℕ) (s : σ) : Status × σ :=
  if adinMacFilterSlots ≤ slot then (.errParam, s)
  else adinWriteFilter hal dev slot 0 0 0 0 0 s

end Usb2T1L
