import Usb2T1L.Adin2111.Buffered

/-!
# Reading a frame, into the caller's variables

`adin2111_read_frame` on the arrays of the source, against a device that answers anything: the
size of the frame comes from the device, and decides how much is copied through three arrays.

## Main definitions

* `Buffered.Caller` — what the function's pointers point to.
* `Buffered.adin2111ReadFrame` — the function.

## Main results

* `Buffered.adin2111ReadFrame_agrees` — it does what the function without arrays does.
* `Buffered.read_frame_safe` — **no array is left**, and the caller's variables are written
  together or not at all.
-/

namespace Usb2T1L

namespace Buffered

/-- `adin_round4`. -/
def adinRound4 (len : BitVec 16) : BitVec 16 :=
  ((len.setWidth 32 + 3) &&& ~~~(3 : Word)).setWidth 16

/-- `eth_len` of `adin2111_read_frame`. -/
def ethLen (fsize : Word) : BitVec 16 :=
  (fsize - BitVec.ofNat 32 adinFrameHeaderLen - BitVec.ofNat 32 adinFcsLen).setWidth 16

/-- `buf`, `*out_len` and `*out_port`, each absent where the pointer is `NULL`. -/
structure Caller (bufLen : BitVec 16) where
  buf : Option (Buffer Byte bufLen.toNat)
  outLen : Option (BitVec 16)
  outPort : Option Port

/-- What a call returns and leaves behind. -/
structure Outcome (σ : Type) (bufLen : BitVec 16) where
  rc : Status
  caller : Caller bufLen
  bus : σ
  /-- What `adin_fifo_read` has returned, where it was called. -/
  fifo : Option Status

variable {σ : Type} {bufLen : BitVec 16}

/-- `adin2111_read_frame` once it has the size of the frame. -/
def takeFrame (hal : Hal σ) (dev : Adin2111) (scratch : Scratch) (caller : Caller bufLen)
    (buf : Buffer Byte bufLen.toNat) (port : Port) (fsize : Word) (s : σ) :
    Option (Outcome σ bufLen) :=
  if fsize.toNat < adinFrameHeaderLen + adinFcsLen ∨
      adinFrameHeaderLen + adinFcsLen + adinMaxEthFrame < fsize.toNat then do
    -- corrupt length: flush the FIFO and report no data
    let (_, s) ← adin2111WriteReg hal dev adinRegFifoClr adinFifoClrRx scratch.regTx s
    return ⟨.errNodata, caller, s, none⟩
  else
    let bodyLen := adinRound4 (fsize.setWidth 16)
    if bufLen < ethLen fsize then do
      let (_, s) ← adin2111WriteReg hal dev adinRegFifoClr adinFifoClrRx scratch.regTx s
      return ⟨.errToobig, caller, s, none⟩
    else do
      let (rc, body, s) ← adinFifoRead hal dev (rxFifoReg port) scratch bodyLen s
      if rc = .ok then
        -- the port header is skipped
        let eth ← body.load adinFrameHeaderLen (ethLen fsize).toNat
        let buf ← buf.store 0 eth
        return ⟨.ok, ⟨some buf, some (ethLen fsize), caller.outPort.map fun _ => port⟩, s, some rc⟩
      else return ⟨rc, caller, s, some rc⟩

/-- `adin2111_read_frame`. -/
def adin2111ReadFrame (hal : Hal σ) (dev : Adin2111) (scratch : Scratch) (caller : Caller bufLen)
    (s : σ) : Option (Outcome σ bufLen) :=
  match caller.buf, caller.outLen with
  | some buf, some _ => do
    let (rc, s1, s) ← adin2111ReadReg hal dev adinRegStatus1 0 s
    if rc = .ok then
      match adinRxPort dev s1 with
      | none => return ⟨.errNodata, caller, s, none⟩
      | some port =>
        let (rc, fsize, s) ← adin2111ReadReg hal dev (rxFsizeReg port) 0 s
        if rc = .ok then takeFrame hal dev scratch caller buf port fsize s
        else return ⟨rc, caller, s, none⟩
    else return ⟨rc, caller, s, none⟩
  | _, _ => some ⟨.errParam, caller, s, none⟩

/-! ### Sizes -/

/-- Clearing the two low bits. -/
theorem and_not_three (x : Word) : x &&& ~~~(3 : Word) = (x >>> 2) <<< 2 := by
  have hbit : ∀ i : Fin 32, (~~~(3 : Word)).getLsbD i = decide (2 ≤ i.val) := by decide
  refine BitVec.eq_of_getLsbD_eq fun i hi => ?_
  rw [BitVec.getLsbD_and, hbit ⟨i, hi⟩, BitVec.getLsbD_shiftLeft, BitVec.getLsbD_ushiftRight]
  by_cases h2 : 2 ≤ i
  · simp [h2, hi, Nat.add_sub_cancel' h2, not_lt.mpr h2]
  · simp [h2, not_le.mp h2]

/-- Below the top of the range rounding is exact in 16 bits. -/
theorem toNat_adinRound4 {len : BitVec 16} (h : len.toNat + 3 < 2 ^ 16) :
    (adinRound4 len).toNat = Usb2T1L.adinRound4 len.toNat := by
  have hadd : (len.setWidth 32 + 3 : Word).toNat = len.toNat + 3 := by
    rw [BitVec.toNat_add, BitVec.toNat_setWidth]
    show (len.toNat % 2 ^ 32 + 3) % 2 ^ 32 = len.toNat + 3
    omega
  rw [adinRound4, and_not_three, Usb2T1L.adinRound4, BitVec.toNat_setWidth, BitVec.toNat_shiftLeft,
    BitVec.toNat_ushiftRight, hadd, Nat.shiftRight_eq_div_pow, Nat.shiftLeft_eq]
  omega

/-- So is the length of the Ethernet frame. -/
theorem toNat_ethLen {fsize : Word}
    (h : ¬ (fsize.toNat < adinFrameHeaderLen + adinFcsLen ∨
      adinFrameHeaderLen + adinFcsLen + adinMaxEthFrame < fsize.toNat)) :
    (ethLen fsize).toNat = fsize.toNat - adinFrameHeaderLen - adinFcsLen := by
  unfold ethLen adinFrameHeaderLen adinFcsLen adinMaxEthFrame at *
  have hsub : (fsize - BitVec.ofNat 32 2 - BitVec.ofNat 32 4).toNat = fsize.toNat - 2 - 4 := by
    bv_omega
  rw [BitVec.toNat_setWidth, hsub]
  omega

/-- And that of the body, which holds the frame and fits the scratch buffers. -/
theorem toNat_bodyLen {fsize : Word}
    (h : ¬ (fsize.toNat < adinFrameHeaderLen + adinFcsLen ∨
      adinFrameHeaderLen + adinFcsLen + adinMaxEthFrame < fsize.toNat)) :
    (adinRound4 (fsize.setWidth 16)).toNat = Usb2T1L.adinRound4 fsize.toNat ∧
      adinFrameHeaderLen + (fsize.toNat - adinFrameHeaderLen - adinFcsLen) ≤
        Usb2T1L.adinRound4 fsize.toNat ∧
      4 + Usb2T1L.adinRound4 fsize.toNat ≤ adinSpiMaxburst := by
  unfold adinFrameHeaderLen adinFcsLen adinMaxEthFrame at *
  have hsize : (fsize.setWidth 16 : BitVec 16).toNat = fsize.toNat := by
    rw [BitVec.toNat_setWidth]
    omega
  rw [toNat_adinRound4 (by omega), hsize]
  unfold Usb2T1L.adinRound4 adinSpiMaxburst
  omega

/-! ### The frame -/

section TakeFrame

variable (hal : Hal σ) (dev : Adin2111) (scratch : Scratch) (caller : Caller bufLen)
  (buf : Buffer Byte bufLen.toNat) (port : Port) {fsize : Word} {s s' : σ}

theorem takeFrame_corrupt (h : fsize.toNat < adinFrameHeaderLen + adinFcsLen ∨
    adinFrameHeaderLen + adinFcsLen + adinMaxEthFrame < fsize.toNat) :
    takeFrame hal dev scratch caller buf port fsize s = some ⟨.errNodata, caller,
      (Usb2T1L.adin2111WriteReg hal dev adinRegFifoClr adinFifoClrRx s).2, none⟩ := by
  rw [takeFrame, if_pos h, adin2111WriteReg_eq]
  rfl

variable (h : ¬ (fsize.toNat < adinFrameHeaderLen + adinFcsLen ∨
  adinFrameHeaderLen + adinFcsLen + adinMaxEthFrame < fsize.toNat))

include h

theorem takeFrame_toobig
    (hbuf : bufLen.toNat < fsize.toNat - adinFrameHeaderLen - adinFcsLen) :
    takeFrame hal dev scratch caller buf port fsize s = some ⟨.errToobig, caller,
      (Usb2T1L.adin2111WriteReg hal dev adinRegFifoClr adinFifoClrRx s).2, none⟩ := by
  rw [← toNat_ethLen h] at hbuf
  rw [takeFrame, if_neg h]
  dsimp only
  rw [if_pos (show bufLen < _ from hbuf), adin2111WriteReg_eq]
  rfl

theorem takeFrame_none
    (hbuf : fsize.toNat - adinFrameHeaderLen - adinFcsLen ≤ bufLen.toNat)
    (hx : hal.spiXfer (readHeader dev (rxFifoReg port) ++
      List.replicate (Usb2T1L.adinRound4 fsize.toNat) 0) s = (none, s')) :
    takeFrame hal dev scratch caller buf port fsize s =
      some ⟨.errSpi, caller, s', some .errSpi⟩ := by
  obtain ⟨hbody, -, hfits⟩ := toNat_bodyLen h
  rw [← hbody] at hfits hx
  obtain ⟨body, hread, -⟩ := adinFifoRead_eq hal dev (rxFifoReg port) scratch hfits hx
  rw [← toNat_ethLen h] at hbuf
  rw [takeFrame, if_neg h]
  dsimp only
  rw [if_neg (show ¬ bufLen < _ from not_lt.mpr hbuf), hread]
  rfl

theorem takeFrame_some
    (hbuf : fsize.toNat - adinFrameHeaderLen - adinFcsLen ≤ bufLen.toNat) {rx : List Byte}
    (hx : hal.spiXfer (readHeader dev (rxFifoReg port) ++
      List.replicate (Usb2T1L.adinRound4 fsize.toNat) 0) s = (some rx, s')) :
    ∃ buf' : Buffer Byte bufLen.toNat, takeFrame hal dev scratch caller buf port fsize s =
        some ⟨.ok, ⟨some buf', some (ethLen fsize), caller.outPort.map fun _ => port⟩, s',
          some .ok⟩ ∧
      buf'.cells = bytesFrom rx ((readHeader dev (rxFifoReg port)).length + adinFrameHeaderLen)
        (ethLen fsize).toNat ++ buf.cells.drop (ethLen fsize).toNat := by
  obtain ⟨hbody, heth, hfits⟩ := toNat_bodyLen h
  rw [← hbody] at heth hfits hx
  rw [← toNat_ethLen h] at hbuf heth
  obtain ⟨body, hread, hcells⟩ := adinFifoRead_eq hal dev (rxFifoReg port) scratch hfits hx
  obtain ⟨rest, hcells⟩ := hcells rx rfl
  have hload := load_bytesFrom_add hcells heth
  obtain ⟨buf', hstore, hbuf'⟩ := buf.store_zero (bytesFrom rx
    ((readHeader dev (rxFifoReg port)).length + adinFrameHeaderLen) (ethLen fsize).toNat)
    (by rwa [length_bytesFrom])
  rw [length_bytesFrom] at hbuf'
  refine ⟨buf', ?_, hbuf'⟩
  rw [takeFrame, if_neg h]
  dsimp only
  rw [if_neg (show ¬ bufLen < _ from not_lt.mpr hbuf), hread]
  simp only [Option.bind_eq_bind, Option.bind_some, Option.isSome_some, if_true, hload, hstore,
    Option.pure_def]

end TakeFrame

/-! ### The function without arrays -/

/-- The outcome is the one that the function without arrays describes. -/
def Outcome.Agrees (caller : Caller bufLen) (o : Outcome σ bufLen) :
    Except Status (List Byte × Port) × σ → Prop
  | (.error rc, s) => o.rc = rc ∧ rc ≠ .ok ∧ o.caller = caller ∧ o.bus = s
  | (.ok (frame, port), s) => o.rc = .ok ∧ o.bus = s ∧
      ∃ (buf buf' : Buffer Byte bufLen.toNat) (n : BitVec 16), caller.buf = some buf ∧
        o.caller = ⟨some buf', some n, caller.outPort.map fun _ => port⟩ ∧
        n.toNat = frame.length ∧ buf'.cells = frame ++ buf.cells.drop frame.length

/-- A register read that fails says so. -/
theorem ne_ok_of_error {hal : Hal σ} {dev : Adin2111} {reg : ℕ} {s s' : σ} {rc : Status}
    (h : Usb2T1L.adin2111ReadReg hal dev reg s = (.error rc, s')) : rc ≠ .ok := by
  rintro rfl
  rw [Usb2T1L.adin2111ReadReg] at h
  split at h
  · exact absurd (congrArg Prod.fst h) (by simp)
  · dsimp only at h
    split at h <;> exact absurd (congrArg Prod.fst h) (by simp)

theorem takeFrame_agrees (hal : Hal σ) (dev : Adin2111) (scratch : Scratch)
    {caller : Caller bufLen} {buf : Buffer Byte bufLen.toNat} (hbuf : caller.buf = some buf)
    (port : Port) (fsize : Word) (s : σ) :
    ∃ o, takeFrame hal dev scratch caller buf port fsize s = some o ∧ o.fifo ≠ some .errToobig ∧
      o.Agrees caller
        (if fsize.toNat < adinFrameHeaderLen + adinFcsLen ∨
            adinFrameHeaderLen + adinFcsLen + adinMaxEthFrame < fsize.toNat then
          (.error .errNodata,
            (Usb2T1L.adin2111WriteReg hal dev adinRegFifoClr adinFifoClrRx s).2)
        else if bufLen.toNat < fsize.toNat - adinFrameHeaderLen - adinFcsLen then
          (.error .errToobig,
            (Usb2T1L.adin2111WriteReg hal dev adinRegFifoClr adinFifoClrRx s).2)
        else
          andThen (Usb2T1L.adinFifoRead hal dev (rxFifoReg port)
            (Usb2T1L.adinRound4 fsize.toNat) s) fun body s =>
          (.ok (bytesFrom body adinFrameHeaderLen
            (fsize.toNat - adinFrameHeaderLen - adinFcsLen), port), s)) := by
  split
  · next h =>
    exact ⟨_, takeFrame_corrupt hal dev scratch caller buf port h, by simp, rfl, by simp, rfl, rfl⟩
  · next h =>
    split
    · next hlarge =>
      exact ⟨_, takeFrame_toobig hal dev scratch caller buf port h hlarge, by simp, rfl, by simp,
        rfl, rfl⟩
    · next hsmall =>
      have hsmall := not_lt.mp hsmall
      obtain ⟨-, heth, hfits⟩ := toNat_bodyLen h
      have hle := length_readHeader_le dev (rxFifoReg port)
      rw [Usb2T1L.adinFifoRead, if_neg (by omega)]
      cases hx : hal.spiXfer (readHeader dev (rxFifoReg port) ++
          List.replicate (Usb2T1L.adinRound4 fsize.toNat) 0) s with
      | mk bytes s' =>
        cases bytes with
        | none =>
          exact ⟨_, takeFrame_none hal dev scratch caller buf port h hsmall hx, by simp, rfl,
            by simp, rfl, rfl⟩
        | some rx =>
          obtain ⟨buf', htake, hcells⟩ :=
            takeFrame_some hal dev scratch caller buf port h hsmall hx
          refine ⟨_, htake, by simp, rfl, rfl, buf, buf', _, hbuf, rfl, ?_, ?_⟩
          · rw [length_bytesFrom, toNat_ethLen h]
          · rw [length_bytesFrom, bytesFrom_bytesFrom heth, ← toNat_ethLen h]
            exact hcells

/-- **On the arrays of the source the function does what it does without them**, and no burst is
refused as too long. -/
theorem adin2111ReadFrame_agrees (hal : Hal σ) (dev : Adin2111) (scratch : Scratch)
    {caller : Caller bufLen} {buf : Buffer Byte bufLen.toNat} (hbuf : caller.buf = some buf)
    {len : BitVec 16} (hlen : caller.outLen = some len) (s : σ) :
    ∃ o, adin2111ReadFrame hal dev scratch caller s = some o ∧ o.fifo ≠ some .errToobig ∧
      o.Agrees caller (Usb2T1L.adin2111ReadFrame hal dev bufLen.toNat s) := by
  rw [adin2111ReadFrame, hbuf, hlen, Usb2T1L.adin2111ReadFrame]
  cases h1 : Usb2T1L.adin2111ReadReg hal dev adinRegStatus1 s with
  | mk r1 s1 =>
    cases r1 with
    | error rc =>
      have hne := ne_ok_of_error h1
      simp only [adin2111ReadReg_error h1, Option.bind_eq_bind, Option.bind_some, if_neg hne]
      exact ⟨_, rfl, by simp, rfl, hne, rfl, rfl⟩
    | ok status1 =>
      simp only [adin2111ReadReg_ok h1, Option.bind_eq_bind, Option.bind_some, reduceIte, andThen]
      cases adinRxPort dev status1 with
      | none => exact ⟨_, rfl, by simp, rfl, by simp, rfl, rfl⟩
      | some port =>
        dsimp only
        cases h2 : Usb2T1L.adin2111ReadReg hal dev (rxFsizeReg port) s1 with
        | mk r2 s2 =>
          cases r2 with
          | error rc =>
            have hne := ne_ok_of_error h2
            simp only [adin2111ReadReg_error h2, Option.bind_some, if_neg hne]
            exact ⟨_, rfl, by simp, rfl, hne, rfl, rfl⟩
          | ok fsize =>
            simp only [adin2111ReadReg_ok h2, Option.bind_some, reduceIte]
            exact takeFrame_agrees hal dev scratch hbuf port fsize s2

/-! ### Against any device -/

/-- A port is read from because its ready bit is set, and port 2 only where that of port 1 is
not. -/
theorem adinRxPort_rdy {dev : Adin2111} {status1 : Word} {port : Port}
    (h : adinRxPort dev status1 = some port) :
    status1 &&& Chip.rxRdy port ≠ 0 ∧ (port = .port2 → status1 &&& Chip.rxRdy .port1 = 0) := by
  rw [adinRxPort] at h
  split at h
  · next h1 =>
    cases Option.some.inj h
    exact ⟨h1, fun h => absurd h (by decide)⟩
  · next h1 =>
    split at h
    · next h2 =>
      cases Option.some.inj h
      exact ⟨h2.2, fun _ => not_not.mp h1⟩
    · exact absurd h (by simp)

/-- The device has shown a port ready and a size, and has shifted out a burst from that port's
FIFO, and `frame` is what follows the port header in it. -/
def Offered (hal : Hal σ) (dev : Adin2111) (s s' : σ) (port : Port) (fsize : Word)
    (frame : List Byte) : Prop :=
  ∃ (status1 : Word) (s1 s2 : σ) (rx : List Byte),
    Usb2T1L.adin2111ReadReg hal dev adinRegStatus1 s = (.ok status1, s1) ∧
    status1 &&& Chip.rxRdy port ≠ 0 ∧ (port = .port2 → status1 &&& Chip.rxRdy .port1 = 0) ∧
    Usb2T1L.adin2111ReadReg hal dev (rxFsizeReg port) s1 = (.ok fsize, s2) ∧
    hal.spiXfer (readHeader dev (rxFifoReg port) ++
      List.replicate (Usb2T1L.adinRound4 fsize.toNat) 0) s2 = (some rx, s') ∧
    frame = bytesFrom rx ((readHeader dev (rxFifoReg port)).length + adinFrameHeaderLen)
      frame.length

theorem andThen_ok {α β : Type} {r : Except Status α × σ} {k : α → σ → Except Status β × σ}
    {b : β} {s' : σ} (h : andThen r k = (.ok b, s')) :
    ∃ a s1, r = (.ok a, s1) ∧ k a s1 = (.ok b, s') := by
  obtain ⟨rc | a, s1⟩ := r
  · exact absurd (congrArg Prod.fst h) (by simp [andThen])
  · exact ⟨a, s1, rfl, h⟩

theorem adinFifoRead_ok {hal : Hal σ} {dev : Adin2111} {reg bodyLen : ℕ} {s s' : σ}
    {body : List Byte} (h : Usb2T1L.adinFifoRead hal dev reg bodyLen s = (.ok body, s')) :
    ∃ rx, hal.spiXfer (readHeader dev reg ++ List.replicate bodyLen 0) s = (some rx, s') ∧
      body = bytesFrom rx (readHeader dev reg).length bodyLen := by
  rw [Usb2T1L.adinFifoRead] at h
  split at h
  · exact absurd (congrArg Prod.fst h) (by simp)
  · split at h
    · exact absurd (congrArg Prod.fst h) (by simp)
    · next rx s1 hx =>
      obtain ⟨hbody, hs⟩ := Prod.mk.inj h
      exact ⟨rx, hx.trans (by rw [hs]), (Except.ok.inj hbody).symm⟩

/-- **A frame that is returned was offered**, with a size in range. -/
theorem adin2111ReadFrame_offered {hal : Hal σ} {dev : Adin2111} {n : ℕ} {s s' : σ}
    {frame : List Byte} {port : Port}
    (h : Usb2T1L.adin2111ReadFrame hal dev n s = (.ok (frame, port), s')) :
    ∃ fsize : Word, frame.length + adinFrameHeaderLen + adinFcsLen = fsize.toNat ∧
      frame.length ≤ n ∧ frame.length ≤ adinMaxEthFrame ∧
      Offered hal dev s s' port fsize frame := by
  rw [Usb2T1L.adin2111ReadFrame] at h
  obtain ⟨status1, s1, h1, h⟩ := andThen_ok h
  cases hp : adinRxPort dev status1 with
  | none =>
    rw [hp] at h
    exact absurd (congrArg Prod.fst h) (by simp)
  | some p =>
    rw [hp] at h
    dsimp only at h
    obtain ⟨fsize, s2, h2, h⟩ := andThen_ok h
    split at h
    · exact absurd (congrArg Prod.fst h) (by simp)
    · next hsize =>
      split at h
      · exact absurd (congrArg Prod.fst h) (by simp)
      · next hbuf =>
        obtain ⟨body, s3, h3, h⟩ := andThen_ok h
        obtain ⟨rx, hx, hbody⟩ := adinFifoRead_ok h3
        obtain ⟨hok, hs⟩ := Prod.mk.inj h
        obtain ⟨hframe, hport⟩ := Prod.mk.inj (Except.ok.inj hok)
        subst hport hs
        obtain ⟨-, heth, -⟩ := toNat_bodyLen hsize
        rw [hbody, bytesFrom_bytesFrom heth] at hframe
        have hlen : frame.length = fsize.toNat - adinFrameHeaderLen - adinFcsLen := by
          rw [← hframe, length_bytesFrom]
        obtain ⟨hrdy, hfirst⟩ := adinRxPort_rdy hp
        refine ⟨fsize, by omega, by omega, by omega, status1, s1, s2, rx, h1, hrdy, hfirst, h2, hx,
          ?_⟩
        rw [hlen]
        exact hframe.symm

/-- **`adin2111_read_frame` is safe and atomic against any device.**  Whatever is answered, no
array is left, and no burst is refused as too long.  On success `*out_len` bytes of a frame that
was offered are in `buf` and the rest of `buf` is as it was; else nothing of the caller's has
changed. -/
theorem read_frame_safe (hal : Hal σ) (dev : Adin2111) (scratch : Scratch)
    (caller : Caller bufLen) (s : σ) :
    ∃ o, adin2111ReadFrame hal dev scratch caller s = some o ∧ o.fifo ≠ some .errToobig ∧
      (o.rc = .ok → ∃ (port : Port) (fsize : Word) (outLen : BitVec 16)
          (buf buf' : Buffer Byte bufLen.toNat),
        caller.buf = some buf ∧
        o.caller = ⟨some buf', some outLen, caller.outPort.map fun _ => port⟩ ∧
        outLen.toNat + adinFrameHeaderLen + adinFcsLen = fsize.toNat ∧
        outLen ≤ bufLen ∧ outLen.toNat ≤ adinMaxEthFrame ∧
        Offered hal dev s o.bus port fsize (buf'.cells.take outLen.toNat) ∧
        buf'.cells.drop outLen.toNat = buf.cells.drop outLen.toNat) ∧
      (o.rc ≠ .ok → o.caller = caller) := by
  cases hbuf : caller.buf with
  | none =>
    -- `buf` is `NULL`
    refine ⟨⟨.errParam, caller, s, none⟩, ?_, by simp, by simp, fun _ => rfl⟩
    rw [adin2111ReadFrame, hbuf]
  | some buf =>
    cases hlen : caller.outLen with
    | none =>
      -- `out_len` is `NULL`
      refine ⟨⟨.errParam, caller, s, none⟩, ?_, by simp, by simp, fun _ => rfl⟩
      rw [adin2111ReadFrame, hbuf, hlen]
    | some len =>
      obtain ⟨o, ho, hfifo, hagrees⟩ := adin2111ReadFrame_agrees hal dev scratch hbuf hlen s
      refine ⟨o, ho, hfifo, ?_⟩
      cases hr : Usb2T1L.adin2111ReadFrame hal dev bufLen.toNat s with
      | mk r s' =>
        rw [hr] at hagrees
        cases r with
        | error rc =>
          obtain ⟨hrc, hne, hcaller, -⟩ := hagrees
          exact ⟨fun h => absurd (hrc.symm.trans h) hne, fun _ => hcaller⟩
        | ok fp =>
          obtain ⟨frame, port⟩ := fp
          obtain ⟨hrc, hbus, buf1, buf', n, hbuf1, hcaller, hn, hcells⟩ := hagrees
          refine ⟨fun _ => ?_, fun h => absurd hrc h⟩
          obtain ⟨fsize, hsize, hle, hmax, hoffered⟩ := adin2111ReadFrame_offered hr
          rw [← hn] at hsize hle hmax
          refine ⟨port, fsize, n, buf1, buf', hbuf1.symm.trans hbuf ▸ rfl, hcaller, hsize, hle,
            hmax, ?_, ?_⟩
          · rw [hcells, hn, List.take_left, hbus]
            exact hoffered
          · rw [hcells, hn, List.drop_left]

/-- A frame of one byte on port 1, without CRC, for a caller that does not ask for the port. -/
example :
    let hal : Hal (List (List Byte)) := ⟨fun _ s => (s.head?, s.tail)⟩
    let answers : List (List Byte) :=
      [[0, 0, 0, 0, 0, 0, 0x10], [0, 0, 0, 0, 0, 0, 7], [0, 0, 0, 0, 0, 0xA5]]
    let scratch : Scratch := ⟨Buffer.fill _ 1, Buffer.fill _ 2, Buffer.fill _ 3, Buffer.fill _ 4⟩
    let caller : Caller 4 := ⟨some (Buffer.fill _ 9), some 0, none⟩
    (adin2111ReadFrame hal ⟨false, .switch, 2, fun _ => le_rfl⟩ scratch caller answers).map
      (fun o => (o.rc, o.caller.buf.map Buffer.cells, o.caller.outLen, o.caller.outPort)) =
        some (.ok, some [0xA5, 9, 9, 9], some 1, none) := by
  decide +kernel

end Buffered

end Usb2T1L
