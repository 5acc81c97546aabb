import Usb2T1L.Adin2111.Writes

/-!
# Bring-up of the ADIN2111

`adin2111_init` and the two filters the firmware itself needs: the group filter, which
`adin2111_init` programs, and the host filter of `adin2111_set_host_mac`.

The reset pulse and the delays make no transaction: the chip is as it is after them.

## Main definitions

* `adin2111Init`, `adinSetGroupFilter`, `adin2111SetHostMac` — the functions.
* `Configured` — the intended configuration.
* `Chip.InitSucceeds`, `ConfigLands` — the conditions on the chip and its faults.

## Main results

* `adin2111Init_spec` — what `adin2111_init` returns and leaves behind, under any faults.
* `init_configures` — **`ADIN2111_OK` means configured** exactly under these conditions.
-/

namespace Usb2T1L

section Functions

variable {σ : Type} (hal : Hal σ) (dev : Adin2111)

/-- `adin_apply_all_ports`. -/
def adinApplyAllPorts : Word :=
  adinMacAddrApply2port1 ||| if 1 < dev.numPorts then adin2111MacAddrApply2port2 else 0

/-- The control word of `adin_set_group_filter`. -/
def groupCtl (floodOther : Bool) : Word :=
  adinMacAddrToHost ||| adinApplyAllPorts dev |||
    if floodOther = true ∧ 1 < dev.numPorts then adin2111MacAddrToOtherPort else 0

/-- `adin_set_group_filter`: compare only the group bit. -/
def adinSetGroupFilter (floodOther : Bool) (s : σ) : Status × σ :=
  adinWriteFilter hal dev adinMacSlotGroup (groupCtl dev floodOther) 0x0100 0 0x0100 0 s

/-- `adin2111_set_host_mac`: an exact match goes to the host only. -/
def adin2111SetHostMac (mac : Mac) (s : σ) : Status × σ :=
  adinWriteFilter hal dev adinMacSlotHost (adinMacAddrToHost ||| adinApplyAllPorts dev)
    (addrUpr mac) (addrLwr mac) 0xFFFF 0xFFFFFFFF s

/-- The wait for `RESETC`, for at most so many reads of `STATUS0`. -/
def adinWaitResetc : ℕ → σ → σ
  | 0, s => s
  | i + 1, s =>
    match adin2111ReadReg hal dev adinRegStatus0 s with
    | (.ok s0, s) => if s0 &&& adinStatus0Resetc ≠ 0 then s else adinWaitResetc i s
    | (.error _, s) => adinWaitResetc i s

/-- The value for `CONFIG2`. -/
def adinCfg2 : Word :=
  adinConfig2CrcAppend |||
    if dev.mode = .endpoint then
      adinConfig2FwdUnk2host ||| if 1 < dev.numPorts then adin2111Config2P2FwdUnk2host else 0
    else adin2111Config2PortCutThru

/-- The value for `IMASK1`. -/
def adinImask1 : Word :=
  0xFFFFFFFF &&& ~~~(adinImask1RxRdy ||| adinImask1SpiErr) &&&
    ~~~(if 1 < dev.numPorts then adin2111Imask1P2RxRdy else 0)

/-- The local `cfg0` after the read of `CONFIG0`, whose result is not looked at. -/
def cfg0Of (r : Except Status Word) : Word :=
  match r with
  | .ok val => val
  | .error _ => 0

/-- The end of `adin2111_init`: set `SYNC` in `CONFIG0`. -/
def adinSetSync (s : σ) : Status × σ :=
  adin2111WriteReg hal dev adinRegConfig0
    (cfg0Of (adin2111ReadReg hal dev adinRegConfig0 s).1 ||| adinConfig0Sync)
    (adin2111ReadReg hal dev adinRegConfig0 s).2

/-- `adin2111_init` from where the device is known. -/
def adinConfigure (s : σ) : Status × σ :=
  let s := (adin2111WriteReg hal dev adinRegFifoClr (adinFifoClrRx ||| adinFifoClrTx) s).2
  thenOk (adin2111WriteReg hal dev adinRegConfig2 (adinCfg2 dev) s) fun s =>
  let s := (adinSetGroupFilter hal dev (decide (dev.mode = .switch)) s).2
  thenOk (adin2111WriteReg hal dev adinRegImask1 (adinImask1 dev) s) fun s =>
  adinSetSync hal dev s

end Functions

/-- A device with two ports: what `adin2111_init` assumes before it knows. -/
def twoPorts (crcEnabled : Bool) (mode : Mode) : Adin2111 := ⟨crcEnabled, mode, 2, fun _ => le_rfl⟩

/-- The device with the given `PHYID`, if it is supported; a single port cannot switch. -/
def adinIdentify (crcEnabled : Bool) (mode : Mode) (phyId : Word) : Option Adin2111 :=
  if phyId = adin1110PhyidVal then some ⟨crcEnabled, .endpoint, 1, fun h => absurd h (by simp)⟩
  else if phyId = adin2111PhyidVal then some (twoPorts crcEnabled mode)
  else none

/-- The device, if the status is `ADIN2111_OK`. -/
def initResult {σ : Type} (dev : Adin2111) (r : Status × σ) : Except Status Adin2111 × σ :=
  (if r.1 = .ok then .ok dev else .error r.1, r.2)

/-- `adin2111_init` from where `PHYID` has been read. -/
def adinInitFrom {σ : Type} (hal : Hal σ) (crcEnabled : Bool) (mode : Mode) (phyId : Word) (s : σ) :
    Except Status Adin2111 × σ :=
  match adinIdentify crcEnabled mode phyId with
  | none => (.error .errId, s)
  | some dev => initResult dev (adinConfigure hal dev s)

/-- `adin2111_init`, after the reset pulse: the device when `ADIN2111_OK` is returned. -/
def adin2111Init {σ : Type} (hal : Hal σ) (crcEnabled : Bool) (mode : Mode) (s : σ) :
    Except Status Adin2111 × σ :=
  let s := (adin2111WriteReg hal (twoPorts crcEnabled mode) adinRegReset adinResetSwreset s).2
  let s := adinWaitResetc hal (twoPorts crcEnabled mode) 100 s
  andThen (adin2111ReadReg hal (twoPorts crcEnabled mode) adinRegPhyid s) fun phyId s =>
  adinInitFrom hal crcEnabled mode phyId s

/-! ### The intended configuration -/

/-- The four registers of the group filter slot. -/
def groupWrites (dev : Adin2111) : List (ℕ × Word) :=
  filterWrites adinMacSlotGroup (groupCtl dev (decide (dev.mode = .switch))) 0x0100 0 0x0100 0

/-- The registers hold the whole intended configuration, where `old` is what they held
before. -/
structure Configured (dev : Adin2111) (old regs : ℕ → Word) : Prop where
  config2 : regs adinRegConfig2 = adinCfg2 dev
  group : ∀ w ∈ groupWrites dev, regs w.1 = w.2
  imask1 : regs adinRegImask1 = adinImask1 dev
  config0 : regs adinRegConfig0 = old adinRegConfig0 ||| adinConfig0Sync

/-- The configuration is as intended in spite of the faults: `f` those of the writes to each
register, `r` that of the read of `CONFIG0`. -/
structure ConfigLands (dev : Adin2111) (f : ℕ → Fault) (r : Fault) (regs : ℕ → Word) : Prop where
  config2 : Lands f regs [(adinRegConfig2, adinCfg2 dev)]
  group : Lands f regs (groupWrites dev)
  imask1 : Lands f regs [(adinRegImask1, adinImask1 dev)]
  /-- The value written is the old one with `SYNC`, or no write was needed. -/
  config0 : regs adinRegConfig0 ||| adinConfig0Sync =
    if f adinRegConfig0 ≠ .none then regs adinRegConfig0
    else if r = .none then regs adinRegConfig0 ||| adinConfig0Sync
    else adinConfig0Sync

/-! ### Under faults -/

theorem lands_singleton {f : ℕ → Fault} {regs : ℕ → Word} {w : ℕ × Word} :
    Lands f regs [w] ↔ (if f w.1 = .none then w.2 else regs w.1) = w.2 := by
  rw [Lands]
  cases f w.1 <;> simp [Lands]

theorem adin2111WriteReg_fifoClr_touches (dev : Adin2111) (val : Word) (c : Chip) :
    c.Touches [(true, adinRegFifoClr)]
      (adin2111WriteReg (chipHal dev) dev adinRegFifoClr val c).2 := by
  have hnext := Chip.touches_next (true, adinRegFifoClr) c
  rw [adin2111WriteReg_chip dev (by decide)]
  cases c.fault dev.crcEnabled (true, adinRegFifoClr) with
  | none =>
    have hreset : ¬ adinRegFifoClr = adinRegReset := by decide
    dsimp only
    rw [Chip.write, if_neg hreset, if_pos rfl]
    split <;> exact ⟨hnext.faults, hnext.regs, hnext.reset⟩
  | spi => exact hnext
  | crc => exact hnext

/-- The end of `adin2111_init`: `CONFIG0` is read and written. -/
theorem adinSetSync_spec (dev : Adin2111) (c : Chip) :
    ((adinSetSync (chipHal dev) dev c).1 = .ok ↔
        c.fault dev.crcEnabled (true, adinRegConfig0) ≠ .spi) ∧
      c.Touches [(false, adinRegConfig0), (true, adinRegConfig0)]
        (adinSetSync (chipHal dev) dev c).2 ∧
      (adinSetSync (chipHal dev) dev c).2.regs adinRegConfig0 =
        if c.fault dev.crcEnabled (true, adinRegConfig0) ≠ .none then c.regs adinRegConfig0
        else if c.fault dev.crcEnabled (false, adinRegConfig0) = .none then
          c.regs adinRegConfig0 ||| adinConfig0Sync
        else adinConfig0Sync := by
  have htouch := adin2111ReadReg_touches dev plainReg_config0.1 rfl c
  have hval : cfg0Of (adin2111ReadReg (chipHal dev) dev adinRegConfig0 c).1 =
      if c.fault dev.crcEnabled (false, adinRegConfig0) = .none then c.regs adinRegConfig0
      else 0 := by
    rw [adin2111ReadReg_chip dev (by decide) rfl]
    cases c.fault dev.crcEnabled (false, adinRegConfig0) <;> rfl
  obtain ⟨hok, htouch', hwrite⟩ := adin2111WriteReg_spec dev plainReg_config0
    (cfg0Of (adin2111ReadReg (chipHal dev) dev adinRegConfig0 c).1 ||| adinConfig0Sync)
    (adin2111ReadReg (chipHal dev) dev adinRegConfig0 c).2
  rw [htouch.fault _ (by decide)] at hok hwrite
  refine ⟨hok, htouch.trans htouch', ?_⟩
  rw [adinSetSync, hwrite, hval, htouch.regs _ (by decide)]
  cases c.fault dev.crcEnabled (true, adinRegConfig0) with
  | none =>
    rw [if_pos rfl, if_neg (not_not.mpr rfl)]
    by_cases hread : c.fault dev.crcEnabled (false, adinRegConfig0) = .none
    · rw [if_pos hread, if_pos hread]
    · rw [if_neg hread, if_neg hread]
      exact BitVec.zero_or
  | spi => rfl
  | crc => rfl

/-- The group filter touches only its slot, and is as intended exactly if its writes land. -/
theorem adinSetGroupFilter_spec (dev : Adin2111) (c : Chip) :
    c.Touches ([0x70, 0x71, 0x51, 0x50].map (Prod.mk true))
        (adinSetGroupFilter (chipHal dev) dev (decide (dev.mode = .switch)) c).2 ∧
      ((∀ w ∈ groupWrites dev,
          (adinSetGroupFilter (chipHal dev) dev (decide (dev.mode = .switch)) c).2.regs w.1 = w.2) ↔
        Lands (fun reg => c.fault dev.crcEnabled (true, reg)) c.regs (groupWrites dev)) :=
  have hslot : adinMacSlotGroup < adinMacFilterSlots := by decide
  ⟨adinWriteFilter_touches dev hslot _ _ _ _ _ c, adinWriteFilter_lands dev hslot _ _ _ _ _ c⟩

theorem fst_of_mem_groupWrites {dev : Adin2111} {w : ℕ × Word} (h : w ∈ groupWrites dev) :
    w.1 = 0x70 ∨ w.1 = 0x71 ∨ w.1 = 0x51 ∨ w.1 = 0x50 := by
  have hmem : w.1 ∈ (groupWrites dev).map Prod.fst := List.mem_map_of_mem h
  rw [groupWrites, map_fst_filterWrites] at hmem
  simpa [adinMacSlotGroup] using hmem

/-- Transactions with other registers leave the group filter alone. -/
theorem Chip.Touches.group {as : List Access} {c c' : Chip} {dev : Adin2111} {w : ℕ × Word}
    (h : c.Touches as c') (hw : w ∈ groupWrites dev)
    (has : ∀ reg ∈ [0x70, 0x71, 0x51, 0x50], ((true, reg) : Access) ∉ as) (crc : Bool) :
    c'.fault crc (true, w.1) = c.fault crc (true, w.1) ∧ c'.regs w.1 = c.regs w.1 := by
  have hmem : w.1 ∈ [0x70, 0x71, 0x51, 0x50] := by
    simpa using fst_of_mem_groupWrites hw
  exact ⟨h.fault crc (has _ hmem), h.regs _ (has _ hmem)⟩

/-- **What `adinConfigure` returns and leaves behind.** -/
theorem adinConfigure_spec (dev : Adin2111) (c : Chip) :
    ((adinConfigure (chipHal dev) dev c).1 = .ok ↔
        c.fault dev.crcEnabled (true, adinRegConfig2) ≠ .spi ∧
          c.fault dev.crcEnabled (true, adinRegImask1) ≠ .spi ∧
            c.fault dev.crcEnabled (true, adinRegConfig0) ≠ .spi) ∧
      ((adinConfigure (chipHal dev) dev c).1 = .ok →
        (Configured dev c.regs (adinConfigure (chipHal dev) dev c).2.regs ↔
          ConfigLands dev (fun reg => c.fault dev.crcEnabled (true, reg))
            (c.fault dev.crcEnabled (false, adinRegConfig0)) c.regs)) := by
  -- the chip after each of the calls, and what the call has left alone
  have t1 := adin2111WriteReg_fifoClr_touches dev (adinFifoClrRx ||| adinFifoClrTx) c
  unfold adinConfigure
  generalize (adin2111WriteReg (chipHal dev) dev adinRegFifoClr _ c).2 = c1 at t1 ⊢
  obtain ⟨ok2, t2, v2⟩ := adin2111WriteReg_spec dev plainReg_config2 (adinCfg2 dev) c1
  rw [t1.fault _ (by decide)] at ok2 v2
  dsimp only
  generalize adin2111WriteReg (chipHal dev) dev adinRegConfig2 (adinCfg2 dev) c1 = r2 at ok2 t2 v2 ⊢
  by_cases h2 : r2.1 = .ok
  swap
  · rw [thenOk, if_neg h2]
    exact ⟨⟨fun h => absurd h h2, fun h => absurd (ok2.mpr h.1) h2⟩, fun h => absurd h h2⟩
  rw [thenOk, if_pos h2]
  obtain ⟨t3, lands3⟩ := adinSetGroupFilter_spec dev r2.2
  generalize (adinSetGroupFilter (chipHal dev) dev _ r2.2).2 = c3 at t3 lands3 ⊢
  obtain ⟨ok4, t4, v4⟩ := adin2111WriteReg_spec dev plainReg_imask1 (adinImask1 dev) c3
  have t13 := (t1.trans t2).trans t3
  rw [t13.fault _ (by decide), t13.regs _ (by decide)] at v4
  rw [t13.fault _ (by decide)] at ok4
  generalize adin2111WriteReg (chipHal dev) dev adinRegImask1 (adinImask1 dev) c3 = r4
    at ok4 t4 v4 ⊢
  by_cases h4 : r4.1 = .ok
  swap
  · rw [thenOk, if_neg h4]
    exact ⟨⟨fun h => absurd h h4, fun h => absurd (ok4.mpr h.2.1) h4⟩, fun h => absurd h h4⟩
  rw [thenOk, if_pos h4]
  obtain ⟨ok6, t6, v6⟩ := adinSetSync_spec dev r4.2
  have t14 := t13.trans t4
  rw [t14.fault _ (by decide)] at ok6
  rw [t14.fault _ (by decide), t14.fault _ (by decide), t14.regs _ (by decide)] at v6
  refine ⟨ok6.trans ⟨fun h => ⟨ok2.mp h2, ok4.mp h4, h⟩, fun h => h.2.2⟩, fun _ => ?_⟩
  generalize (adinSetSync (chipHal dev) dev r4.2).2 = c6 at t6 v6 ⊢
  -- what each register holds in the end
  have hcfg2 : c6.regs adinRegConfig2 = if c.fault dev.crcEnabled (true, adinRegConfig2) = .none
      then adinCfg2 dev else c.regs adinRegConfig2 := by
    rw [((t3.trans t4).trans t6).regs _ (by decide), v2, t1.regs _ (by decide)]
  have himask : c6.regs adinRegImask1 = if c.fault dev.crcEnabled (true, adinRegImask1) = .none
      then adinImask1 dev else c.regs adinRegImask1 := by
    rw [t6.regs _ (by decide), v4]
  have hgroup : (∀ w ∈ groupWrites dev, c6.regs w.1 = w.2) ↔
      Lands (fun reg => c.fault dev.crcEnabled (true, reg)) c.regs (groupWrites dev) := by
    refine Iff.trans (forall₂_congr fun w hw => ?_) (lands3.trans (lands_congr fun w hw => ?_))
    · rw [((t4.trans t6).group hw (by decide) dev.crcEnabled).2]
    · exact (t1.trans t2).group hw (by decide) dev.crcEnabled
  constructor
  · rintro ⟨h1, h2, h3, h5⟩
    exact ⟨lands_singleton.mpr (hcfg2.symm.trans h1), hgroup.mp h2,
      lands_singleton.mpr (himask.symm.trans h3), h5.symm.trans v6⟩
  · rintro ⟨h1, h2, h3, h5⟩
    exact ⟨hcfg2.trans (lands_singleton.mp h1), hgroup.mpr h2,
      himask.trans (lands_singleton.mp h3), v6.trans h5.symm⟩

/-- What `adinConfigure` accesses. -/
def configureAccesses : List Access :=
  [(true, adinRegFifoClr), (true, adinRegConfig2), (true, 0x70), (true, 0x71), (true, 0x51),
    (true, 0x50), (true, adinRegImask1), (false, adinRegConfig0), (true, adinRegConfig0)]

theorem adinConfigure_touches (dev : Adin2111) (c : Chip) :
    c.Touches configureAccesses (adinConfigure (chipHal dev) dev c).2 := by
  have t1 := adin2111WriteReg_fifoClr_touches dev (adinFifoClrRx ||| adinFifoClrTx) c
  unfold adinConfigure
  generalize (adin2111WriteReg (chipHal dev) dev adinRegFifoClr _ c).2 = c1 at t1 ⊢
  have t2 := t1.trans (adin2111WriteReg_spec dev plainReg_config2 (adinCfg2 dev) c1).2.1
  dsimp only
  rw [thenOk]
  split
  swap
  · exact t2.mono (by decide)
  have t3 := t2.trans (adinSetGroupFilter_spec dev _).1
  rw [thenOk]
  have t4 := t3.trans (adin2111WriteReg_spec dev plainReg_imask1 (adinImask1 dev) _).2.1
  split
  · exact (t4.trans (adinSetSync_spec dev _).2.1).mono (by decide)
  · exact t4.mono (by decide)

/-! ### From the reset on -/

/-- The registers once the software reset has been asked for. -/
def Chip.rebootRegs (crc : Bool) (c : Chip) : ℕ → Word :=
  if c.fault crc (true, adinRegReset) = .none then c.reset c.regs else c.regs

/-- The software reset leaves the faults to come as they were. -/
theorem reset_spec (dev : Adin2111) (c : Chip) :
    (adin2111WriteReg (chipHal dev) dev adinRegReset adinResetSwreset c).2.regs =
        c.rebootRegs dev.crcEnabled ∧
      ∀ a, a ∉ [(true, adinRegReset)] →
        (adin2111WriteReg (chipHal dev) dev adinRegReset adinResetSwreset c).2.faults a =
          c.faults a := by
  have hnext := Chip.touches_next (true, adinRegReset) c
  have hbit : ¬ adinResetSwreset &&& adinResetSwreset = 0 := by decide
  rw [adin2111WriteReg_chip dev (by decide), Chip.rebootRegs]
  cases c.fault dev.crcEnabled (true, adinRegReset) with
  | none =>
    dsimp only
    rw [Chip.write, if_pos rfl, if_neg hbit, if_pos rfl]
    exact ⟨rfl, hnext.faults⟩
  | spi => exact ⟨rfl, hnext.faults⟩
  | crc => exact ⟨rfl, hnext.faults⟩

/-- The wait for `RESETC` only reads `STATUS0`. -/
theorem adinWaitResetc_touches (dev : Adin2111) : ∀ (n : ℕ) (c : Chip),
    c.Touches [(false, adinRegStatus0)] (adinWaitResetc (chipHal dev) dev n c) := by
  intro n
  induction n with
  | zero => intro c; exact Chip.Touches.refl _ c
  | succ n ih =>
    intro c
    have htouch := adin2111ReadReg_touches dev (by decide : adinRegStatus0 < 2 ^ 13) rfl c
    rw [adinWaitResetc]
    generalize adin2111ReadReg (chipHal dev) dev adinRegStatus0 c = r at htouch ⊢
    match r with
    | (.ok s0, c') =>
      dsimp only
      split
      · exact htouch
      · exact (htouch.trans (ih c')).mono (by decide)
    | (.error _, c') => exact (htouch.trans (ih c')).mono (by decide)

/-- All the transactions whose results `adin2111_init` looks at succeed, and the device is a
supported one. -/
structure Chip.InitSucceeds (crc : Bool) (mode : Mode) (c : Chip) (dev : Adin2111) : Prop where
  phyid : c.fault crc (false, adinRegPhyid) = .none
  known : adinIdentify crc mode (c.rebootRegs crc adinRegPhyid) = some dev
  config2 : c.fault crc (true, adinRegConfig2) ≠ .spi
  imask1 : c.fault crc (true, adinRegImask1) ≠ .spi
  config0 : c.fault crc (true, adinRegConfig0) ≠ .spi

theorem crcEnabled_of_adinIdentify {crc : Bool} {mode : Mode} {phyId : Word} {dev : Adin2111}
    (h : adinIdentify crc mode phyId = some dev) : dev.crcEnabled = crc := by
  unfold adinIdentify at h
  split at h
  · rw [← Option.some.inj h]
  · split at h
    · rw [← Option.some.inj h]
      rfl
    · exact absurd h (by simp)

/-- Only the faults of the registers written matter. -/
theorem ConfigLands.congr {dev : Adin2111} {f g : ℕ → Fault} {r : Fault} {regs : ℕ → Word}
    (hfg : ∀ reg, (true, reg) ∈ configureAccesses → f reg = g reg)
    (h : ConfigLands dev f r regs) : ConfigLands dev g r regs := by
  have hgroup : ∀ w ∈ groupWrites dev, f w.1 = g w.1 := by
    intro w hw
    refine hfg _ ?_
    obtain he | he | he | he := fst_of_mem_groupWrites hw <;> rw [he] <;> decide
  have hone : ∀ w : ℕ × Word, f w.1 = g w.1 → (Lands f regs [w] ↔ Lands g regs [w]) :=
    fun w hw => lands_congr fun v hv => by rw [List.mem_singleton.mp hv]; exact ⟨hw, rfl⟩
  have hcfg0 := h.config0
  rw [hfg _ (by decide)] at hcfg0
  exact
    { config2 := (hone _ (hfg adinRegConfig2 (by decide))).mp h.config2
      group := (lands_congr fun w hw => ⟨hgroup w hw, rfl⟩).mp h.group
      imask1 := (hone _ (hfg adinRegImask1 (by decide))).mp h.imask1
      config0 := hcfg0 }

/-- The accesses up to the read of `PHYID`. -/
def identifyAccesses : List Access :=
  [(true, adinRegReset), (false, adinRegStatus0), (false, adinRegPhyid)]

/-- `adin2111_init` up to the read of `PHYID`: the registers are as after the reset. -/
theorem adin2111Init_identify (crc : Bool) (mode : Mode) (c : Chip) :
    ∃ c2 : Chip, c2.regs = c.rebootRegs crc ∧
      (∀ a, a ∉ identifyAccesses → c2.faults a = c.faults a) ∧
      if c.fault crc (false, adinRegPhyid) = .none then
        adin2111Init (chipHal (twoPorts crc mode)) crc mode c =
          adinInitFrom (chipHal (twoPorts crc mode)) crc mode (c.rebootRegs crc adinRegPhyid) c2
      else ∃ rc, adin2111Init (chipHal (twoPorts crc mode)) crc mode c = (.error rc, c2) := by
  obtain ⟨hregs, hfaults⟩ := reset_spec (twoPorts crc mode) c
  have t1 := adinWaitResetc_touches (twoPorts crc mode) 100
    (adin2111WriteReg (chipHal (twoPorts crc mode)) (twoPorts crc mode) adinRegReset
      adinResetSwreset c).2
  unfold adin2111Init
  generalize (adin2111WriteReg (chipHal (twoPorts crc mode)) (twoPorts crc mode) adinRegReset
    adinResetSwreset c).2 = c0 at hregs hfaults t1 ⊢
  dsimp only
  generalize adinWaitResetc (chipHal (twoPorts crc mode)) (twoPorts crc mode) 100 c0 = c1 at t1 ⊢
  have hregs1 : c1.regs = c.rebootRegs crc :=
    funext fun reg => (t1.regs reg (by simp)).trans (congrFun hregs reg)
  have hfaults1 : ∀ a, a ∉ [(true, adinRegReset), (false, adinRegStatus0)] →
      c1.faults a = c.faults a := by
    intro a ha
    rw [List.mem_cons, not_or] at ha
    exact (t1.faults a ha.2).trans (hfaults a (by simpa using ha.1))
  have hnext := Chip.touches_next (false, adinRegPhyid) c1
  refine ⟨c1.next (false, adinRegPhyid), hregs1, fun a ha => ?_, ?_⟩
  · simp only [identifyAccesses, List.mem_cons, List.not_mem_nil, or_false, not_or] at ha
    exact (hnext.faults a (by simpa using ha.2.2)).trans
      (hfaults1 a (by simpa using ⟨ha.1, ha.2.1⟩))
  have hphyid : c1.fault (twoPorts crc mode).crcEnabled (false, adinRegPhyid) =
      c.fault crc (false, adinRegPhyid) := by
    rw [Chip.fault, Chip.fault, hfaults1 _ (by decide)]
    rfl
  have hval : (c1.next (false, adinRegPhyid)).read adinRegPhyid = c.rebootRegs crc adinRegPhyid :=
    congrFun hregs1 adinRegPhyid
  have hread := adin2111ReadReg_chip (twoPorts crc mode) (by decide : adinRegPhyid < 2 ^ 13) rfl c1
  rw [hphyid, hval] at hread
  rw [hread]
  cases c.fault crc (false, adinRegPhyid) with
  | none =>
    rw [if_pos rfl]
    rfl
  | spi => exact ⟨_, rfl⟩
  | crc => exact ⟨_, rfl⟩

section Identified

variable {crc : Bool} {c c2 : Chip} {dev : Adin2111} (hcrc : dev.crcEnabled = crc)
  (hfaults : ∀ a, a ∉ identifyAccesses → c2.faults a = c.faults a)
include hcrc hfaults

/-- The faults of the accesses that follow are those the chip had before. -/
theorem fault_identified {a : Access} (ha : a ∉ identifyAccesses) :
    c2.fault dev.crcEnabled a = c.fault crc a := by
  rw [Chip.fault, Chip.fault, hfaults a ha, hcrc]

theorem configLands_identified (hregs : c2.regs = c.rebootRegs crc) :
    ConfigLands dev (fun reg => c2.fault dev.crcEnabled (true, reg))
        (c2.fault dev.crcEnabled (false, adinRegConfig0)) c2.regs ↔
      ConfigLands dev (fun reg => c.fault crc (true, reg))
        (c.fault crc (false, adinRegConfig0)) (c.rebootRegs crc) := by
  have hwrite : ∀ reg, (true, reg) ∈ configureAccesses →
      c2.fault dev.crcEnabled (true, reg) = c.fault crc (true, reg) := by
    intro reg hreg
    refine fault_identified hcrc hfaults fun hm => ?_
    revert hreg
    simp only [identifyAccesses, List.mem_cons, Prod.mk.injEq, true_and, List.not_mem_nil,
      or_false, Bool.true_eq_false, false_and] at hm
    rw [hm]
    decide
  rw [hregs, fault_identified hcrc hfaults (by decide)]
  exact ⟨fun h => h.congr hwrite, fun h => h.congr fun reg hreg => (hwrite reg hreg).symm⟩

end Identified

/-- **What `adin2111_init` returns and leaves behind.** -/
theorem adin2111Init_spec (crc : Bool) (mode : Mode) (c : Chip) :
    (∀ dev, (adin2111Init (chipHal (twoPorts crc mode)) crc mode c).1 = .ok dev ↔
        c.InitSucceeds crc mode dev) ∧
      (∀ dev, c.InitSucceeds crc mode dev →
        (Configured dev (c.rebootRegs crc)
            (adin2111Init (chipHal (twoPorts crc mode)) crc mode c).2.regs ↔
          ConfigLands dev (fun reg => c.fault crc (true, reg))
            (c.fault crc (false, adinRegConfig0)) (c.rebootRegs crc))) ∧
      (∀ reg, (true, reg) ∉ configureAccesses →
        (adin2111Init (chipHal (twoPorts crc mode)) crc mode c).2.regs reg =
          c.rebootRegs crc reg) ∧
      ∀ a, a ∉ identifyAccesses ++ configureAccesses →
        (adin2111Init (chipHal (twoPorts crc mode)) crc mode c).2.faults a = c.faults a := by
  obtain ⟨c2, hregs, hfaults, hinit⟩ := adin2111Init_identify crc mode c
  have hfaults' : ∀ a, a ∉ identifyAccesses ++ configureAccesses → c2.faults a = c.faults a :=
    fun a ha => hfaults a fun hm => ha (List.mem_append_left _ hm)
  by_cases hphyid : c.fault crc (false, adinRegPhyid) = .none
  swap
  · rw [if_neg hphyid] at hinit
    obtain ⟨rc, hinit⟩ := hinit
    rw [hinit]
    exact ⟨fun dev => ⟨fun h => by simp at h, fun h => absurd h.phyid hphyid⟩,
      fun dev h => absurd h.phyid hphyid, fun reg _ => congrFun hregs reg, hfaults'⟩
  rw [if_pos hphyid] at hinit
  cases hid : adinIdentify crc mode (c.rebootRegs crc adinRegPhyid) with
  | none =>
    have hnot : ∀ dev, ¬ c.InitSucceeds crc mode dev := fun dev h => by simp [h.known] at hid
    rw [adinInitFrom, hid] at hinit
    rw [hinit]
    exact ⟨fun dev => ⟨fun h => by simp at h, fun h => absurd h (hnot dev)⟩,
      fun dev h => absurd h (hnot dev), fun reg _ => congrFun hregs reg, hfaults'⟩
  | some dev =>
    have hcrc := crcEnabled_of_adinIdentify hid
    have hhal : chipHal (twoPorts crc mode) = chipHal dev := by rw [chipHal, chipHal, hcrc]; rfl
    obtain ⟨hok, hconf⟩ := adinConfigure_spec dev c2
    have htouch := adinConfigure_touches dev c2
    have hinit' : adin2111Init (chipHal (twoPorts crc mode)) crc mode c =
        initResult dev (adinConfigure (chipHal dev) dev c2) := by
      rw [hinit, adinInitFrom, hid, hhal]
    rw [hinit']
    dsimp only [initResult]
    rw [fault_identified hcrc hfaults (by decide), fault_identified hcrc hfaults (by decide),
      fault_identified hcrc hfaults (by decide)] at hok
    refine ⟨fun dev' => ⟨fun h => ?_, fun h => ?_⟩, fun dev' h => ?_, fun reg hr => ?_,
      fun a ha => ?_⟩
    · split at h
      · next hst =>
        obtain ⟨h2, h1, h0⟩ := hok.mp hst
        rw [← Except.ok.inj h]
        exact ⟨hphyid, hid, h2, h1, h0⟩
      · simp at h
    · rw [if_pos (hok.mpr ⟨h.config2, h.imask1, h.config0⟩),
        Option.some.inj (hid.symm.trans h.known)]
    · obtain rfl := Option.some.inj (hid.symm.trans h.known)
      rw [← configLands_identified hcrc hfaults hregs, ← hregs]
      exact hconf (hok.mpr ⟨h.config2, h.imask1, h.config0⟩)
    · rw [htouch.regs reg hr, hregs]
    · rw [htouch.faults a fun hm => ha (List.mem_append_right _ hm), hfaults' a ha]

/-- **`ADIN2111_OK` means configured** exactly if, whenever it is returned, every write lands and
the read of `CONFIG0` succeeds or makes no difference. -/
theorem init_configures (crc : Bool) (mode : Mode) (c : Chip) :
    (∀ dev, (adin2111Init (chipHal (twoPorts crc mode)) crc mode c).1 = .ok dev →
        Configured dev (c.rebootRegs crc)
          (adin2111Init (chipHal (twoPorts crc mode)) crc mode c).2.regs) ↔
      ∀ dev, c.InitSucceeds crc mode dev →
        ConfigLands dev (fun reg => c.fault crc (true, reg))
          (c.fault crc (false, adinRegConfig0)) (c.rebootRegs crc) := by
  obtain ⟨hok, hconf, -⟩ := adin2111Init_spec crc mode c
  refine forall_congr' fun dev => ?_
  rw [hok dev]
  exact forall_congr' fun h => hconf dev h

/-- An ADIN2111 on a bus that works. -/
def workingChip : Chip where
  regs := fun _ => 0
  reset := fun _ reg => if reg = adinRegPhyid then adin2111PhyidVal else 0
  rx := fun _ => []
  arrivals := fun _ => []
  arrived := fun _ => []
  faults := fun _ _ => .none

theorem workingChip_succeeds :
    workingChip.InitSucceeds true .switch (twoPorts true .switch) where
  phyid := rfl
  known := rfl
  config2 := by decide
  imask1 := by decide
  config0 := by decide

/-- The same, but the first write of the group filter fails. -/
def groupFails : Chip :=
  { workingChip with faults := fun a _ => if a = (true, 0x70) then .spi else .none }

theorem groupFails_succeeds :
    groupFails.InitSucceeds true .switch (twoPorts true .switch) where
  phyid := rfl
  known := rfl
  config2 := by decide
  imask1 := by decide
  config0 := by decide

/-- **The failure is not seen**: the result is cast to `void`. -/
theorem init_drops_groups :
    ¬ ∀ (crc : Bool) (mode : Mode) (c : Chip) (dev : Adin2111),
      (adin2111Init (chipHal (twoPorts crc mode)) crc mode c).1 = .ok dev →
        Configured dev (c.rebootRegs crc)
          (adin2111Init (chipHal (twoPorts crc mode)) crc mode c).2.regs := by
  intro h
  obtain ⟨hok, hconf, -⟩ := adin2111Init_spec true .switch groupFails
  have hlands := (hconf _ groupFails_succeeds).mp (h _ _ _ _ ((hok _).mpr groupFails_succeeds))
  have hnot : ¬ Lands (fun reg => groupFails.fault true (true, reg)) (groupFails.rebootRegs true)
      (groupWrites (twoPorts true .switch)) := by decide
  exact hnot hlands.group

end Usb2T1L
