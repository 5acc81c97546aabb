import Usb2T1L.Adin2111.Receive
import Usb2T1L.Lib.Buffer

/-!
# Transactions on the arrays of the C code

What `adin2111_read_frame` calls once more, this time with every array of the source.  A copy that
would leave its array has no result.  Lengths are held in 16 bits where that could matter.

## Main definitions

* `Buffered.adin2111ReadReg`, `Buffered.adin2111WriteReg`, `Buffered.adinFifoRead` — single
  transactions.

## Main results

* `Buffered.adin2111ReadReg_eq`, `Buffered.adin2111WriteReg_eq` — register access **stays in
  its arrays** and does what it does without them.
* `Buffered.adinFifoRead_eq` — so does a burst that fits the scratch buffers.
-/

namespace Usb2T1L

namespace Buffered

/-! ### Single transactions -/

/-- `adin_build_header`, and the number of bytes it has written. -/
def adinBuildHeader (dev : Adin2111) (reg : ℕ) (write : Bool) {n : ℕ} (buf : Buffer Byte n) :
    Option (Buffer Byte n × ℕ) := do
  let buf ← buf.store 0
    [BitVec.ofNat 8 (adinSpiCd ||| (if write then adinSpiRwWrite else 0) ||| adinSpiAddrHi reg)]
  let buf ← buf.store 1 [BitVec.ofNat 8 (adinSpiAddrLo reg)]
  if dev.crcEnabled then
    let head ← buf.load 0 2
    let buf ← buf.store 2 [adinCrc8 head]
    return (buf, 3)
  else return (buf, 2)

variable {σ : Type}

/-- `spi_xfer` of `len` bytes from `tx` into `rx`: whether it has returned zero, and `rx`. -/
def spiXfer (hal : Hal σ) {m n : ℕ} (tx : Buffer Byte m) (rx : Buffer Byte n) (len : ℕ) (s : σ) :
    Option (Bool × Buffer Byte n × σ) := do
  let out ← tx.load 0 len
  let (bytes, s) := hal.spiXfer out s
  let rx ← rx.store 0 (bytesFrom (bytes.getD []) 0 len)
  return (bytes.isSome, rx, s)

/-- `spi_xfer` of `len` bytes from `tx`, whose answer is dropped, and the status. -/
def spiSend (hal : Hal σ) {n : ℕ} (tx : Buffer Byte n) (len : ℕ) (s : σ) : Option (Status × σ) := do
  let out ← tx.load 0 len
  match hal.spiXfer out s with
  | (some _, s) => return (.ok, s)
  | (none, s) => return (.errSpi, s)

/-- `adin2111_write_reg`. -/
def adin2111WriteReg (hal : Hal σ) (dev : Adin2111) (reg : ℕ) (val : Word) (tx : Buffer Byte 8)
    (s : σ) : Option (Status × σ) := do
  let (tx, n) ← adinBuildHeader dev reg true tx
  let tx ← tx.store n (wordBytes val)
  let len := n + 4
  let (tx, len) ← (if dev.crcEnabled then do
      let data ← tx.load n 4
      let tx ← tx.store len [adinCrc8 data]
      return (tx, len + 1)
    else some (tx, len))
  spiSend hal tx len s

/-- `adin2111_read_reg`, of a variable `*val`. -/
def adin2111ReadReg (hal : Hal σ) (dev : Adin2111) (reg : ℕ) (val : Word) (s : σ) :
    Option (Status × Word × σ) := do
  let (tx, n) ← adinBuildHeader dev reg false (Buffer.fill 10 0)
  -- the turnaround byte
  let tx ← tx.store n [0]
  let dataOff := n + 1
  let len := dataOff + 4 + if dev.crcEnabled then 1 else 0
  let (sent, rx, s) ← spiXfer hal tx (Buffer.fill 10 0) len s
  if sent then
    let crcOk ← (if dev.crcEnabled then do
        let data ← rx.load dataOff 4
        let crc ← rx.load (dataOff + 4) 1
        return adinCrc8 data == crc.getD 0 0
      else some true)
    if crcOk then
      let data ← rx.load dataOff 4
      return (.ok, wordFrom data 0, s)
    else return (.errCrc, val, s)
  else return (.errSpi, val, s)

/-! ### Their arrays -/

/-- A command header fits wherever three bytes do, and what is behind it stays. -/
theorem adinBuildHeader_eq (dev : Adin2111) (reg : ℕ) (write : Bool) {n : ℕ} (hn : 3 ≤ n)
    (buf : Buffer Byte n) : ∃ buf', adinBuildHeader dev reg write buf =
        some (buf', (Usb2T1L.adinBuildHeader dev reg write).length) ∧
      buf'.cells = Usb2T1L.adinBuildHeader dev reg write ++
        buf.cells.drop (Usb2T1L.adinBuildHeader dev reg write).length := by
  have hlen := buf.length_cells
  obtain ⟨a, ha⟩ : ∃ a : Byte, a = BitVec.ofNat 8
    (adinSpiCd ||| (if write then adinSpiRwWrite else 0) ||| adinSpiAddrHi reg) := ⟨_, rfl⟩
  obtain ⟨b, hb⟩ : ∃ b : Byte, b = BitVec.ofNat 8 (adinSpiAddrLo reg) := ⟨_, rfl⟩
  have hheader : Usb2T1L.adinBuildHeader dev reg write =
      if dev.crcEnabled then [a, b, adinCrc8 [a, b]] else [a, b] := by
    rw [Usb2T1L.adinBuildHeader, ha, hb]
  obtain ⟨buf1, h1, hc1⟩ : ∃ buf1, buf.store 0 [a] = some buf1 ∧
      buf1.cells = [a] ++ buf.cells.drop 1 := buf.store_zero [a] (by simp; omega)
  obtain ⟨buf2, h2, hc2⟩ : ∃ buf2, buf1.store 1 [b] = some buf2 ∧
      buf2.cells = [a, b] ++ (buf.cells.drop 1).drop 1 :=
    Buffer.store_of_cells [b] hc1 rfl (by simp; omega)
  rw [List.drop_drop] at hc2
  rw [hheader, adinBuildHeader, ← ha, ← hb, h1, Option.bind_eq_bind, Option.bind_some, h2,
    Option.bind_eq_bind, Option.bind_some]
  cases dev.crcEnabled with
  | false => exact ⟨buf2, rfl, hc2⟩
  | true =>
    obtain ⟨buf3, h3, hc3⟩ : ∃ buf3, buf2.store 2 [adinCrc8 [a, b]] = some buf3 ∧
        buf3.cells = [a, b, adinCrc8 [a, b]] ++ (buf.cells.drop 2).drop 1 :=
      Buffer.store_of_cells [adinCrc8 [a, b]] hc2 rfl (by simp; omega)
    rw [List.drop_drop] at hc3
    have hload : buf2.load 0 2 = some [a, b] := Buffer.load_zero hc2 rfl
    refine ⟨buf3, ?_, hc3⟩
    rw [if_pos rfl, hload, Option.bind_some, h3]
    rfl

theorem bytesFrom_add (rx : List Byte) (off m n : ℕ) :
    bytesFrom rx off (m + n) = bytesFrom rx off m ++ bytesFrom rx (off + m) n := by
  rw [bytesFrom, List.range_add, List.map_append, List.map_map]
  refine congrArg (bytesFrom rx off m ++ ·) (List.map_congr_left fun i _ => ?_)
  rw [Function.comp_apply, Nat.add_assoc]

theorem length_bytesFrom (rx : List Byte) (off n : ℕ) : (bytesFrom rx off n).length = n := by
  rw [bytesFrom, List.length_map, List.length_range]

theorem wordFrom_bytesFrom (rx : List Byte) (off : ℕ) :
    wordFrom (bytesFrom rx off 4) 0 = wordFrom rx off := by
  have h : ∀ i < 4, (bytesFrom rx off 4).getD i 0 = rx.getD (off + i) 0 :=
    fun i hi => getD_bytesFrom hi
  simp only [wordFrom, h 0 (by decide), h 1 (by decide), h 2 (by decide), h 3 (by decide),
    Nat.zero_add, Nat.add_zero]

/-- A part of the received bytes. -/
theorem load_bytesFrom_add {n m len off k : ℕ} {b : Buffer Byte n} {rx rest : List Byte}
    (hb : b.cells = bytesFrom rx m len ++ rest) (h : off + k ≤ len) :
    b.load off k = some (bytesFrom rx (m + off) k) := by
  obtain ⟨j, rfl⟩ := Nat.exists_eq_add_of_le h
  rw [bytesFrom_add, bytesFrom_add, List.append_assoc] at hb
  exact Buffer.load_of_cells hb (length_bytesFrom _ _ _) (length_bytesFrom _ _ _)

/-- What is found in a receive buffer after a transfer. -/
theorem load_bytesFrom {n len off k : ℕ} {b : Buffer Byte n} {rx rest : List Byte}
    (hb : b.cells = bytesFrom rx 0 len ++ rest) (h : off + k ≤ len) :
    b.load off k = some (bytesFrom rx off k) := by
  rw [load_bytesFrom_add hb h, Nat.zero_add]

/-- A transfer that both arrays have room for. -/
theorem spiXfer_eq (hal : Hal σ) {m n len : ℕ} {tx : Buffer Byte m} (rx : Buffer Byte n)
    {out rest : List Byte} (htx : tx.cells = out ++ rest) (hout : out.length = len) (hrx : len ≤ n)
    {s s' : σ} {bytes : Option (List Byte)} (hx : hal.spiXfer out s = (bytes, s')) :
    ∃ rx', spiXfer hal tx rx len s = some (bytes.isSome, rx', s') ∧
      rx'.cells = bytesFrom (bytes.getD []) 0 len ++ rx.cells.drop len := by
  obtain ⟨rx', hstore, hcells⟩ := rx.store_zero (bytesFrom (bytes.getD []) 0 len)
    (by rwa [length_bytesFrom])
  rw [length_bytesFrom] at hcells
  refine ⟨rx', ?_, hcells⟩
  rw [spiXfer, Buffer.load_zero htx hout, Option.bind_eq_bind, Option.bind_some, hx]
  dsimp only
  rw [hstore]
  rfl

theorem readHeader_succ (dev : Adin2111) (reg : ℕ) :
    (Usb2T1L.adinBuildHeader dev reg false).length + 1 = (readHeader dev reg).length := by
  rw [readHeader, List.length_append]
  rfl

theorem spiSend_eq (hal : Hal σ) {n len : ℕ} {tx : Buffer Byte n} {out rest : List Byte}
    (htx : tx.cells = out ++ rest) (hout : out.length = len) {s s' : σ}
    {bytes : Option (List Byte)} (hx : hal.spiXfer out s = (bytes, s')) :
    spiSend hal tx len s = some (if bytes.isSome then .ok else .errSpi, s') := by
  rw [spiSend, Buffer.load_zero htx hout, Option.bind_eq_bind, Option.bind_some, hx]
  cases bytes <;> rfl

/-- A command header with its turnaround byte. -/
theorem readHeader_eq (dev : Adin2111) (reg : ℕ) {n : ℕ} (hn : 4 ≤ n) (buf : Buffer Byte n) :
    ∃ tx1 tx2, adinBuildHeader dev reg false buf =
        some (tx1, (Usb2T1L.adinBuildHeader dev reg false).length) ∧
      tx1.store (Usb2T1L.adinBuildHeader dev reg false).length [0] = some tx2 ∧
      tx2.cells = readHeader dev reg ++ buf.cells.drop (readHeader dev reg).length := by
  have hhead := readHeader_succ dev reg
  have hle := length_readHeader_le dev reg
  obtain ⟨tx1, h1, hc1⟩ := adinBuildHeader_eq dev reg false (by omega) buf
  obtain ⟨tx2, h2, hc2⟩ := Buffer.store_of_cells [0] hc1 rfl (by
    rw [List.length_drop, buf.length_cells, List.length_singleton]
    omega)
  rw [List.drop_drop, List.length_singleton, hhead] at hc2
  exact ⟨tx1, tx2, h1, h2, hc2⟩

/-- The status and the variable, from the one or the other. -/
def storeVal (val : Word) : Except Status Word × σ → Status × Word × σ
  | (.ok v, s) => (.ok, v, s)
  | (.error rc, s) => (rc, val, s)

/-- **A register read stays in its arrays**, and writes `*val` when it succeeds only. -/
theorem adin2111ReadReg_eq (hal : Hal σ) (dev : Adin2111) (reg : ℕ) (val : Word) (s : σ) :
    adin2111ReadReg hal dev reg val s =
      some (storeVal val (Usb2T1L.adin2111ReadReg hal dev reg s)) := by
  obtain ⟨tx1, tx2, h1, h2, hc2⟩ := readHeader_eq dev reg (by decide) (Buffer.fill 10 0)
  -- what is shifted out behind the header was zero from the start
  have htx : tx2.cells =
      readRegTx dev reg ++ List.replicate (if dev.crcEnabled then 1 else 3) 0 := by
    rw [hc2, length_readHeader, readRegTx, List.append_assoc]
    cases dev.crcEnabled <;> rfl
  have hlen : (readRegTx dev reg).length =
      (readHeader dev reg).length + 4 + if dev.crcEnabled then 1 else 0 := by
    rw [readRegTx, List.length_append, List.length_replicate, Nat.add_assoc]
  have hfits : (readHeader dev reg).length + 4 + (if dev.crcEnabled then 1 else 0) ≤ 10 := by
    rw [length_readHeader]
    split <;> decide
  cases hx : hal.spiXfer (readRegTx dev reg) s with
  | mk bytes s' =>
    obtain ⟨rx, h3, hc3⟩ := spiXfer_eq hal (Buffer.fill 10 0) htx hlen hfits hx
    have hdata : rx.load (readHeader dev reg).length 4 =
        some (bytesFrom (bytes.getD []) (readHeader dev reg).length 4) :=
      load_bytesFrom hc3 (Nat.le_add_right _ _)
    rw [adin2111ReadReg, h1]
    simp only [Option.bind_eq_bind, Option.bind_some, h2, readHeader_succ, h3, hdata]
    rw [Usb2T1L.adin2111ReadReg, hx]
    cases bytes with
    | none => rfl
    | some bytes =>
      dsimp only [Option.isSome_some, Option.getD_some] at hc3 ⊢
      rw [if_pos rfl, wordFrom_bytesFrom]
      cases hcrc : dev.crcEnabled with
      | false => rfl
      | true =>
        have hload : rx.load ((readHeader dev reg).length + 4) 1 =
            some (bytesFrom bytes ((readHeader dev reg).length + 4) 1) :=
          load_bytesFrom hc3 (by rw [hcrc]; rfl)
        have hcrcByte : (bytesFrom bytes ((readHeader dev reg).length + 4) 1).getD 0 0 =
            bytes.getD ((readHeader dev reg).length + 4) 0 := getD_bytesFrom Nat.one_pos
        rw [if_pos rfl, hload]
        simp only [Option.bind_some, Option.pure_def, hcrcByte, beq_iff_eq, true_and, ne_eq,
          ite_not]
        split <;> rfl

section

variable {hal : Hal σ} {dev : Adin2111} {reg : ℕ} {s s' : σ}

theorem adin2111ReadReg_ok {v : Word}
    (h : Usb2T1L.adin2111ReadReg hal dev reg s = (.ok v, s')) (val : Word) :
    adin2111ReadReg hal dev reg val s = some (.ok, v, s') := by
  rw [adin2111ReadReg_eq, h]
  rfl

theorem adin2111ReadReg_error {rc : Status}
    (h : Usb2T1L.adin2111ReadReg hal dev reg s = (.error rc, s')) (val : Word) :
    adin2111ReadReg hal dev reg val s = some (rc, val, s') := by
  rw [adin2111ReadReg_eq, h]
  rfl

theorem adin2111WriteReg_of_xfer {val : Word} {bytes : Option (List Byte)}
    (hx : hal.spiXfer (writeRegTx dev reg val) s = (bytes, s')) :
    Usb2T1L.adin2111WriteReg hal dev reg val s =
      (if bytes.isSome then .ok else .errSpi, s') := by
  rw [Usb2T1L.adin2111WriteReg, hx]
  cases bytes <;> rfl

end

/-- **A register write stays in its array**, whatever was there before. -/
theorem adin2111WriteReg_eq (hal : Hal σ) (dev : Adin2111) (reg : ℕ) (val : Word)
    (tx : Buffer Byte 8) (s : σ) :
    adin2111WriteReg hal dev reg val tx s = some (Usb2T1L.adin2111WriteReg hal dev reg val s) := by
  have hlen := length_adinBuildHeader dev reg true
  obtain ⟨tx1, h1, hc1⟩ := adinBuildHeader_eq dev reg true (by decide) tx
  have hroom : (Usb2T1L.adinBuildHeader dev reg true).length + 4 ≤ 8 := by
    rw [hlen]
    split <;> decide
  obtain ⟨tx2, h2, hc2⟩ : ∃ tx2,
      tx1.store (Usb2T1L.adinBuildHeader dev reg true).length (wordBytes val) = some tx2 ∧
        tx2.cells = Usb2T1L.adinBuildHeader dev reg true ++ wordBytes val ++
          (tx.cells.drop (Usb2T1L.adinBuildHeader dev reg true).length).drop 4 :=
    Buffer.store_of_cells (wordBytes val) hc1 rfl (by
      rw [List.length_drop, tx.length_cells]
      exact Nat.le_sub_of_add_le' hroom)
  have hword : (Usb2T1L.adinBuildHeader dev reg true ++ wordBytes val).length =
      (Usb2T1L.adinBuildHeader dev reg true).length + 4 := List.length_append
  cases hx : hal.spiXfer (writeRegTx dev reg val) s with
  | mk bytes s' =>
    rw [adin2111WriteReg, h1, adin2111WriteReg_of_xfer hx]
    simp only [Option.bind_eq_bind, Option.bind_some, h2]
    rw [writeRegTx] at hx
    cases hcrc : dev.crcEnabled with
    | false =>
      rw [hcrc, if_neg Bool.false_ne_true, List.append_nil] at hx
      exact spiSend_eq hal hc2 hword hx
    | true =>
      have hload : tx2.load (Usb2T1L.adinBuildHeader dev reg true).length 4 =
          some (wordBytes val) := Buffer.load_of_cells hc2 rfl rfl
      rw [hcrc, if_pos rfl] at hlen hx
      obtain ⟨tx3, h3, hc3⟩ := Buffer.store_of_cells [adinCrc8 (wordBytes val)] hc2 hword (by
        rw [List.length_drop, List.length_drop, tx.length_cells, hlen, List.length_singleton])
      have hlen3 : (Usb2T1L.adinBuildHeader dev reg true ++ wordBytes val ++
          [adinCrc8 (wordBytes val)]).length =
            (Usb2T1L.adinBuildHeader dev reg true).length + 4 + 1 := by
        rw [List.length_append, hword, List.length_singleton]
      rw [if_pos rfl, hload, Option.bind_some, h3]
      exact spiSend_eq hal hc3 hlen3 hx

/-! ### The burst -/

/-- The arrays that nothing initialises: those of the bursts are static and hold whatever an
earlier call has left there, and that of `adin2111_write_reg` is on the stack. -/
structure Scratch where
  tx : Buffer Byte adinSpiMaxburst
  rx : Buffer Byte adinSpiMaxburst
  body : Buffer Byte adinSpiMaxburst
  regTx : Buffer Byte 8

/-- `adin_fifo_read`, and the buffer `body`. -/
def adinFifoRead (hal : Hal σ) (dev : Adin2111) (reg : ℕ) (scratch : Scratch)
    (bodyLen : BitVec 16) (s : σ) : Option (Status × Buffer Byte adinSpiMaxburst × σ) := do
  let (tx, n) ← adinBuildHeader dev reg false scratch.tx
  -- the turnaround byte
  let tx ← tx.store n [0]
  let n := n + 1
  if adinSpiMaxburst < n + bodyLen.toNat then return (.errToobig, scratch.body, s)
  else
    let tx ← tx.store n (List.replicate bodyLen.toNat 0)
    let (sent, rx, s) ← spiXfer hal tx scratch.rx ((n + bodyLen.toNat) % 2 ^ 16) s
    if sent then
      let data ← rx.load n bodyLen.toNat
      let body ← scratch.body.store 0 data
      return (.ok, body, s)
    else return (.errSpi, scratch.body, s)

/-- **A burst that fits stays in its arrays.**  The bytes behind the header come to stand at the
start of `body`. -/
theorem adinFifoRead_eq (hal : Hal σ) (dev : Adin2111) (reg : ℕ) (scratch : Scratch)
    {bodyLen : BitVec 16} (hlen : 4 + bodyLen.toNat ≤ adinSpiMaxburst) {s s' : σ}
    {bytes : Option (List Byte)}
    (hx : hal.spiXfer (readHeader dev reg ++ List.replicate bodyLen.toNat 0) s = (bytes, s')) :
    ∃ body, adinFifoRead hal dev reg scratch bodyLen s =
        some (if bytes.isSome then .ok else .errSpi, body, s') ∧
      ∀ rx, bytes = some rx → ∃ rest,
        body.cells = bytesFrom rx (readHeader dev reg).length bodyLen.toNat ++ rest := by
  have hle := length_readHeader_le dev reg
  have hmax : adinSpiMaxburst = 1544 := rfl
  obtain ⟨tx1, tx2, h1, h2, hc2⟩ := readHeader_eq dev reg (by decide) scratch.tx
  obtain ⟨tx3, h3, hc3⟩ := Buffer.store_of_cells (List.replicate bodyLen.toNat 0) hc2 rfl (by
    rw [List.length_drop, scratch.tx.length_cells, List.length_replicate]
    omega)
  have hout : (readHeader dev reg ++ List.replicate bodyLen.toNat (0 : Byte)).length =
      (readHeader dev reg).length + bodyLen.toNat := by
    rw [List.length_append, List.length_replicate]
  have hfits : ¬ adinSpiMaxburst < (readHeader dev reg).length + bodyLen.toNat := by omega
  have hlen16 : ((readHeader dev reg).length + bodyLen.toNat) % 2 ^ 16 =
      (readHeader dev reg).length + bodyLen.toNat := Nat.mod_eq_of_lt (by omega)
  obtain ⟨rx, h4, hc4⟩ := spiXfer_eq hal scratch.rx hc3 hout (not_lt.mp hfits) hx
  rw [adinFifoRead, h1]
  simp only [Option.bind_eq_bind, Option.bind_some, h2, readHeader_succ, if_neg hfits, h3, hlen16,
    h4]
  cases bytes with
  | none =>
    -- `body` is not written
    exact ⟨scratch.body, rfl, fun rx h => by simp at h⟩
  | some bytes =>
    have hload := load_bytesFrom hc4 le_rfl
    obtain ⟨body, h5, hc5⟩ := scratch.body.store_zero
      (bytesFrom bytes (readHeader dev reg).length bodyLen.toNat)
      (by rw [length_bytesFrom]; omega)
    refine ⟨body, ?_, fun rx h => ⟨_, Option.some.inj h ▸ hc5⟩⟩
    rw [if_pos Option.isSome_some, hload, Option.bind_some, Option.getD_some, h5]
    rfl

end Buffered

end Usb2T1L
