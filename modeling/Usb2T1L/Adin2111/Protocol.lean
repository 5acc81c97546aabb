import Usb2T1L.Adin2111.Chip

/-!
# The register protocol

The layout of the file comment of `adin2111.c`, from the device's side: what a command stands
for, and a device that does nothing but hold registers and answer by that layout.

## Main definitions

* `decodeCommand` — the command that some bytes are under the documented layout.
* `RegDevice`, `regHal` — a register file behind that layout.

## Main results

* `adinBuildHeader_inj` — **a header says direction and address**.
* `adin2111WriteReg_device`, `adin2111ReadReg_device` — the driver's transactions on the device.
* `register_round_trip` — **the register protocol round trip**.
-/

namespace Usb2T1L

/-! ### Commands -/

/-- A register command. -/
inductive Command
  | write (reg : ℕ) (val : Word)
  | read (reg : ℕ)
  deriving DecidableEq

/-- The command that some bytes are: a header, and four data bytes with their CRC, or a
turnaround byte and room for the answer. -/
def decodeCommand (crc : Bool) (tx : List Byte) : Option Command :=
  match decodeHeader crc tx with
  | some (true, reg, body) => (decodeData crc body).map (Command.write reg)
  | some (false, reg, body) =>
    if body.length = (if crc then 6 else 5) then some (.read reg) else none
  | none => none

theorem decodeCommand_writeRegTx (dev : Adin2111) {reg : ℕ} (h : reg < 2 ^ 13) (val : Word) :
    decodeCommand dev.crcEnabled (writeRegTx dev reg val) = some (.write reg val) := by
  rw [decodeCommand, writeRegTx, List.append_assoc, decodeHeader_adinBuildHeader dev h]
  simp only [decodeData_wordBytes, Option.map_some]

theorem decodeCommand_readRegTx (dev : Adin2111) {reg : ℕ} (h : reg < 2 ^ 13) :
    decodeCommand dev.crcEnabled (readRegTx dev reg) = some (.read reg) := by
  rw [decodeCommand, readRegTx, decodeHeader_readHeader dev h]
  refine if_pos ?_
  rw [List.length_cons, List.length_replicate]
  cases dev.crcEnabled <;> rfl

/-- A header, either way. -/
theorem decodeHeader_build (dev : Adin2111) {reg : ℕ} (h : reg < 2 ^ 13) (wr : Bool) :
    decodeHeader dev.crcEnabled (adinBuildHeader dev reg wr) = some (wr, reg, []) := by
  rw [← List.append_nil (adinBuildHeader dev reg wr)]
  cases wr with
  | true => exact decodeHeader_adinBuildHeader dev h []
  | false => exact decodeHeader_read dev h []

/-- **A header says direction and address**: requests that differ in one of them differ in their
headers. -/
theorem adinBuildHeader_inj (dev : Adin2111) {reg reg' : ℕ} (h : reg < 2 ^ 13)
    (h' : reg' < 2 ^ 13) {wr wr' : Bool}
    (heq : adinBuildHeader dev reg wr = adinBuildHeader dev reg' wr') : wr = wr' ∧ reg = reg' := by
  have hdec := decodeHeader_build dev h wr
  rw [heq, decodeHeader_build dev h' wr', Option.some.injEq, Prod.mk.injEq, Prod.mk.injEq] at hdec
  exact ⟨hdec.1.symm, hdec.2.1.symm⟩

/-! ### The device -/

/-- A register file, and everything shifted into it so far. -/
structure RegDevice where
  regs : ℕ → Word
  log : List (List Byte)

namespace RegDevice

/-- What the device sends for a register value. -/
def answer (crc : Bool) (val : Word) : List Byte :=
  Chip.reply crc (wordBytes val ++ if crc then [adinCrc8 (wordBytes val)] else [])

/-- One SPI transaction: a write is performed, a read is answered, and anything else ignored. -/
def xfer (crc : Bool) (tx : List Byte) (d : RegDevice) : Option (List Byte) × RegDevice :=
  match decodeCommand crc tx with
  | some (.write reg val) => (some [], ⟨RegFile.write d.regs (reg, val), d.log ++ [tx]⟩)
  | some (.read reg) => (some (answer crc (d.regs reg)), ⟨d.regs, d.log ++ [tx]⟩)
  | none => (some [], ⟨d.regs, d.log ++ [tx]⟩)

end RegDevice

/-- The platform callbacks of a board with this device and a bus that works. -/
def regHal (dev : Adin2111) : Hal RegDevice := ⟨RegDevice.xfer dev.crcEnabled⟩

/-- `adin2111_write_reg` on the device. -/
theorem adin2111WriteReg_device (dev : Adin2111) {reg : ℕ} (h : reg < 2 ^ 13) (val : Word)
    (d : RegDevice) :
    adin2111WriteReg (regHal dev) dev reg val d =
      (.ok, ⟨RegFile.write d.regs (reg, val), d.log ++ [writeRegTx dev reg val]⟩) := by
  simp only [adin2111WriteReg, regHal, RegDevice.xfer, decodeCommand_writeRegTx dev h]

/-- `adin2111_read_reg` on the device. -/
theorem adin2111ReadReg_device (dev : Adin2111) {reg : ℕ} (h : reg < 2 ^ 13) (d : RegDevice) :
    adin2111ReadReg (regHal dev) dev reg d =
      (.ok (d.regs reg), ⟨d.regs, d.log ++ [readRegTx dev reg]⟩) := by
  simp only [adin2111ReadReg, regHal, RegDevice.xfer, decodeCommand_readRegTx dev h,
    RegDevice.answer, bytesFrom_reply, getD_reply, wordFrom_reply, bytesFrom_wordBytes]
  rw [if_neg]
  rintro ⟨hcrc, hne⟩
  rw [hcrc] at hne
  exact hne rfl

/-- A sequence of register writes by the driver. -/
def writeRegs {σ : Type} (hal : Hal σ) (dev : Adin2111) (ws : List (ℕ × Word)) (s : σ) : σ :=
  ws.foldl (fun s w => (adin2111WriteReg hal dev w.1 w.2 s).2) s

/-- **The registers after a sequence of writes.** -/
theorem writeRegs_regs (dev : Adin2111) : ∀ {ws : List (ℕ × Word)}, (∀ w ∈ ws, w.1 < 2 ^ 13) →
    ∀ d : RegDevice, (writeRegs (regHal dev) dev ws d).regs = RegFile.writes d.regs ws := by
  intro ws
  induction ws with
  | nil => intro _ d; rfl
  | cons w ws ih =>
    intro h d
    obtain ⟨hw, hws⟩ := List.forall_mem_cons.mp h
    rw [writeRegs, List.foldl_cons, adin2111WriteReg_device dev hw]
    exact ih hws _

/-- **The register protocol round trip**, with CRC and without.  What the driver shifts out for a
write or a read is, under the documented layout with its CRCs, that write or read; headers of
different requests differ; and from a register file behind that layout a read returns the last
value that was written to the register, whatever was written to others. -/
theorem register_round_trip (dev : Adin2111) :
    (∀ {σ : Type} (hal : Hal σ) (s : σ) (reg : ℕ) (val : Word), reg < 2 ^ 13 → ∃ tx,
      (adin2111WriteReg (logged hal) dev reg val (s, [])).2.2 = [tx] ∧
        decodeCommand dev.crcEnabled tx = some (.write reg val)) ∧
    (∀ {σ : Type} (hal : Hal σ) (s : σ) (reg : ℕ), reg < 2 ^ 13 → ∃ tx,
      (adin2111ReadReg (logged hal) dev reg (s, [])).2.2 = [tx] ∧
        decodeCommand dev.crcEnabled tx = some (.read reg)) ∧
    (∀ (reg reg' : ℕ) (wr wr' : Bool), reg < 2 ^ 13 → reg' < 2 ^ 13 →
      adinBuildHeader dev reg wr = adinBuildHeader dev reg' wr' → wr = wr' ∧ reg = reg') ∧
    ∀ (d : RegDevice) (ws : List (ℕ × Word)) (reg : ℕ), (∀ w ∈ ws, w.1 < 2 ^ 13) → reg < 2 ^ 13 →
      (adin2111ReadReg (regHal dev) dev reg (writeRegs (regHal dev) dev ws d)).1 =
        .ok (((ws.filter fun w => w.1 = reg).getLast?.map Prod.snd).getD (d.regs reg)) := by
  refine ⟨fun hal s reg val h => ?_, fun hal s reg h => ?_, fun reg reg' wr wr' h h' heq => ?_,
    fun d ws reg hws h => ?_⟩
  · exact ⟨_, (adin2111WriteReg_logged hal dev reg val (s, [])).1,
      decodeCommand_writeRegTx dev h val⟩
  · exact ⟨_, (adin2111ReadReg_logged hal dev reg (s, [])).1, decodeCommand_readRegTx dev h⟩
  · exact adinBuildHeader_inj dev h h' heq
  · rw [adin2111ReadReg_device dev h, writeRegs_regs dev hws, RegFile.writes_apply]

/-- Of two writes to a register the second counts, and one to another register does not. -/
theorem register_round_trip_board :
    (adin2111ReadReg (regHal boardAdin) boardAdin adinRegConfig2 (writeRegs (regHal boardAdin)
      boardAdin [(adinRegConfig2, 1), (adinRegConfig2, 2), (adinRegConfig0, 3)]
        ⟨fun _ => 0, []⟩)).1 = .ok 2 :=
  (register_round_trip boardAdin).2.2.2 _ _ _ (by decide) (by decide)

end Usb2T1L
