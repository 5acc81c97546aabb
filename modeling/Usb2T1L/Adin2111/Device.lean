import Usb2T1L.Adin2111.Driver
import Usb2T1L.Lib.RegFile

/-!
# The device at the other end of the SPI bus

A register file behind the documented command layout: command header, optional
header CRC, then four big-endian data bytes and their optional CRC.  A
transaction that fails leaves every register as it was; which transactions fail
is arbitrary.

## Main definitions

* `Bus` — the registers, the failures to come, and the writes performed so far.
* `decodeWrite` — the documented layout of a register write.
* `Bus.perform` — a driver's write sequence, given up at the first failure.

## Main results

* `decodeWrite_writeRegTx` — the device reads what the driver meant.
* `adin2111WriteReg_bus`, `adinWriteFilter_bus` — the driver functions as
  operations on the register file.
-/

namespace Usb2T1L

open RegFile

/-! ### The layout of a register write -/

/-- The command header: control bit, write bit and 13-bit address, with the rest
of the transaction after the header CRC. -/
def decodeHeader (crc : Bool) : List Byte → Option (Bool × ℕ × List Byte)
  | b0 :: b1 :: rest =>
    let head := (b0.getLsbD 5, b0.toNat % 32 * 256 + b1.toNat)
    if b0.getLsbD 7 = false then none
    else if crc then
      match rest with
      | c :: rest => if c = adinCrc8 [b0, b1] then some (head.1, head.2, rest) else none
      | [] => none
    else some (head.1, head.2, rest)
  | _ => none

/-- Four data bytes and, when enabled, their CRC. -/
def decodeData (crc : Bool) : List Byte → Option Word
  | [d3, d2, d1, d0] => if crc then none else some (d3 ++ d2 ++ d1 ++ d0)
  | [d3, d2, d1, d0, c] =>
    if crc ∧ c = adinCrc8 [d3, d2, d1, d0] then some (d3 ++ d2 ++ d1 ++ d0) else none
  | _ => none

/-- The register and value a transaction writes, if it is a register write. -/
def decodeWrite (crc : Bool) (tx : List Byte) : Option (ℕ × Word) :=
  match decodeHeader crc tx with
  | some (true, reg, body) => (decodeData crc body).map fun val => (reg, val)
  | _ => none

/-- The first header byte of a write to an address below `2 ^ 13`: control bit,
write bit and upper address bits can be read back. -/
theorem writeHeader_bits : ∀ hi : Fin 32,
    (BitVec.ofNat 8 (adinSpiCd ||| adinSpiRwWrite ||| (hi : ℕ))).getLsbD 7 = true ∧
      (BitVec.ofNat 8 (adinSpiCd ||| adinSpiRwWrite ||| (hi : ℕ))).getLsbD 5 = true ∧
        (BitVec.ofNat 8 (adinSpiCd ||| adinSpiRwWrite ||| (hi : ℕ))).toNat % 32 = hi := by
  decide

/-- Splitting an address into its header fields loses nothing below `2 ^ 13`. -/
theorem adinSpiAddr_split {reg : ℕ} (h : reg < 2 ^ 13) :
    adinSpiAddrHi reg < 32 ∧ adinSpiAddrHi reg * 256 + adinSpiAddrLo reg = reg := by
  have hhi : adinSpiAddrHi reg = reg / 256 % 32 := by
    rw [adinSpiAddrHi, show (0x1F : ℕ) = 2 ^ 5 - 1 by rfl, Nat.and_two_pow_sub_one_eq_mod,
      Nat.shiftRight_eq_div_pow]
  have hlo : adinSpiAddrLo reg = reg % 256 := by
    rw [adinSpiAddrLo, show (0xFF : ℕ) = 2 ^ 8 - 1 by rfl, Nat.and_two_pow_sub_one_eq_mod]
  omega

/-- The four data bytes are the value. -/
theorem append_wordBytes (v : Word) :
    ((v >>> 24).setWidth 8 : Byte) ++ ((v >>> 16).setWidth 8 : Byte) ++
      ((v >>> 8).setWidth 8 : Byte) ++ (v.setWidth 8 : Byte) = v := by
  apply BitVec.eq_of_getLsbD_eq
  intro i hi
  simp only [BitVec.getLsbD_append, BitVec.getLsbD_setWidth, BitVec.getLsbD_ushiftRight]
  grind

theorem decodeHeader_adinBuildHeader (dev : Adin2111) {reg : ℕ} (h : reg < 2 ^ 13)
    (body : List Byte) :
    decodeHeader dev.crcEnabled (adinBuildHeader dev reg true ++ body) =
      some (true, reg, body) := by
  obtain ⟨hhi, hsplit⟩ := adinSpiAddr_split h
  obtain ⟨h7, h5, hmod⟩ := writeHeader_bits ⟨adinSpiAddrHi reg, hhi⟩
  have hlo : (BitVec.ofNat 8 (adinSpiAddrLo reg)).toNat = adinSpiAddrLo reg := by
    rw [BitVec.toNat_ofNat, adinSpiAddrLo, show (0xFF : ℕ) = 2 ^ 8 - 1 by rfl,
      Nat.and_two_pow_sub_one_eq_mod, Nat.mod_mod]
  simp only [adinBuildHeader, if_true]
  -- the header bytes as such, so that simp does not take their bits apart
  generalize BitVec.ofNat 8 (adinSpiCd ||| adinSpiRwWrite ||| adinSpiAddrHi reg) = b0
    at h7 h5 hmod ⊢
  generalize BitVec.ofNat 8 (adinSpiAddrLo reg) = b1 at hlo ⊢
  cases hcrc : dev.crcEnabled
  · simp only [decodeHeader, h7, h5, hmod, hlo, hsplit, Bool.false_eq_true, if_false,
      List.cons_append, List.nil_append, Bool.true_eq_false]
  · simp only [decodeHeader, h7, h5, hmod, hlo, hsplit, if_true, if_false,
      List.cons_append, List.nil_append, Bool.true_eq_false]

theorem decodeData_wordBytes (crc : Bool) (v : Word) :
    decodeData crc (wordBytes v ++ if crc then [adinCrc8 (wordBytes v)] else []) = some v := by
  have hv := append_wordBytes v
  cases crc
  · simpa [decodeData, wordBytes] using hv
  · simpa [decodeData, wordBytes] using hv

/-- **The device reads what the driver meant**: the bytes of `adin2111_write_reg`
are, under the documented layout, a write of `val` to `reg`. -/
theorem decodeWrite_writeRegTx (dev : Adin2111) {reg : ℕ} (h : reg < 2 ^ 13) (val : Word) :
    decodeWrite dev.crcEnabled (writeRegTx dev reg val) = some (reg, val) := by
  rw [decodeWrite, writeRegTx, List.append_assoc, decodeHeader_adinBuildHeader dev h]
  simp only [decodeData_wordBytes, Option.map_some]

/-! ### The bus -/

/-- The device's registers, whether the `n`-th transaction from now on succeeds,
and the writes performed so far, oldest first. -/
structure Bus where
  regs : ℕ → Word
  works : ℕ → Bool
  writes : List (ℕ × Word)

/-- The bus works from here on. -/
def Bus.Works (b : Bus) : Prop := ∀ n, b.works n = true

/-- A transaction that fails. -/
def Bus.skip (b : Bus) : Bus := { b with works := fun n => b.works (n + 1) }

/-- A register write that is performed. -/
def Bus.write (b : Bus) (w : ℕ × Word) : Bus where
  regs := RegFile.write b.regs w
  works := fun n => b.works (n + 1)
  writes := b.writes ++ [w]

/-- One SPI transaction.  What is clocked out to the host during a write is
immaterial: the driver passes no receive buffer. -/
def Bus.xfer (crc : Bool) (tx : List Byte) (b : Bus) : Option (List Byte) × Bus :=
  if b.works 0 then
    match decodeWrite crc tx with
    | some w => (some [], b.write w)
    | none => (some [], b.skip)
  else (none, b.skip)

/-- The platform callbacks of a board whose device is strapped like the driver's
`crc_enabled`. -/
def busHal (dev : Adin2111) : Hal Bus := ⟨Bus.xfer dev.crcEnabled⟩

/-- `adin2111_write_reg` as an operation on the register file. -/
theorem adin2111WriteReg_bus (dev : Adin2111) {reg : ℕ} (h : reg < 2 ^ 13) (val : Word) (b : Bus) :
    adin2111WriteReg (busHal dev) dev reg val b =
      if b.works 0 then (.ok, b.write (reg, val)) else (.errSpi, b.skip) := by
  simp only [adin2111WriteReg, busHal, Bus.xfer, decodeWrite_writeRegTx dev h]
  by_cases hw : b.works 0 = true <;> simp [hw]

/-! ### Write sequences -/

/-- The bus after a driver function that performs the writes `ws` in order and
returns at the first one that fails. -/
def Bus.perform (b : Bus) : List (ℕ × Word) → Bus
  | [] => b
  | w :: ws => if b.works 0 then (b.write w).perform ws else b.skip

theorem Bus.perform_regs : ∀ (ws : List (ℕ × Word)) (b : Bus),
    (b.perform ws).regs = RegFile.writes b.regs (cut b.works ws) := by
  intro ws
  induction ws with
  | nil => intro b; rfl
  | cons w ws ih =>
    intro b
    rw [perform, cut]
    split
    · rw [ih]; rfl
    · rfl

theorem Bus.perform_writes : ∀ (ws : List (ℕ × Word)) (b : Bus),
    (b.perform ws).writes = b.writes ++ cut b.works ws := by
  intro ws
  induction ws with
  | nil => intro b; simp [perform, cut]
  | cons w ws ih =>
    intro b
    rw [perform, cut]
    split
    · rw [ih, Bus.write, List.append_assoc]; rfl
    · simp [skip]

theorem Bus.Works.perform : ∀ (ws : List (ℕ × Word)) {b : Bus}, b.Works → (b.perform ws).Works := by
  intro ws
  induction ws with
  | nil => intro b h; exact h
  | cons w ws ih =>
    intro b h
    rw [Bus.perform, if_pos (h 0)]
    exact ih fun n => h (n + 1)

/-- On a bus that works every register write is performed. -/
theorem Bus.Works.perform_regs {b : Bus} (h : b.Works) (ws : List (ℕ × Word)) :
    (b.perform ws).regs = RegFile.writes b.regs ws := by
  rw [Bus.perform_regs, cut_of_works ws h]

/-- The writes `adin_write_filter` issues for a slot, in order. -/
def filterWrites (slot : ℕ) (ctl : Word) (addrUpr : BitVec 16) (addrLwr : Word)
    (maskUpr : BitVec 16) (maskLwr : Word) : List (ℕ × Word) :=
  [(adinRegMacAddrMaskUpr slot, maskUpr.setWidth 32), (adinRegMacAddrMaskLwr slot, maskLwr),
    (adinRegMacAddrFiltLwr slot, addrLwr),
    (adinRegMacAddrFiltUpr slot, ctl ||| addrUpr.setWidth 32)]

theorem thenOk_bus (dev : Adin2111) {reg : ℕ} (h : reg < 2 ^ 13) (val : Word)
    {k : Bus → Status × Bus} {ws : List (ℕ × Word)} (hk : ∀ b, (k b).2 = b.perform ws) (b : Bus) :
    (thenOk (adin2111WriteReg (busHal dev) dev reg val b) k).2 = b.perform ((reg, val) :: ws) := by
  rw [adin2111WriteReg_bus dev h, Bus.perform]
  by_cases hw : b.works 0 = true
  · rw [if_pos hw, if_pos hw, thenOk, if_pos rfl, hk]
  · rw [if_neg hw, if_neg hw, thenOk, if_neg (by simp)]

/-- **`adin_write_filter` performs its four writes up to the first failure.** -/
theorem adinWriteFilter_bus (dev : Adin2111) {slot : ℕ} (h : slot < adinMacFilterSlots)
    (ctl : Word) (aU : BitVec 16) (aL : Word) (mU : BitVec 16) (mL : Word) (b : Bus) :
    (adinWriteFilter (busHal dev) dev slot ctl aU aL mU mL b).2 =
      b.perform (filterWrites slot ctl aU aL mU mL) := by
  rw [adinMacFilterSlots] at h
  have h1 : adinRegMacAddrMaskUpr slot < 2 ^ 13 := by rw [adinRegMacAddrMaskUpr]; omega
  have h2 : adinRegMacAddrMaskLwr slot < 2 ^ 13 := by rw [adinRegMacAddrMaskLwr]; omega
  have h3 : adinRegMacAddrFiltLwr slot < 2 ^ 13 := by rw [adinRegMacAddrFiltLwr]; omega
  have h4 : adinRegMacAddrFiltUpr slot < 2 ^ 13 := by rw [adinRegMacAddrFiltUpr]; omega
  refine thenOk_bus dev h1 _ (thenOk_bus dev h2 _ (thenOk_bus dev h3 _ fun b => ?_)) b
  rw [adin2111WriteReg_bus dev h4, Bus.perform]
  by_cases hw : b.works 0 = true
  · rw [if_pos hw, if_pos hw]; rfl
  · rw [if_neg hw, if_neg hw]

end Usb2T1L
