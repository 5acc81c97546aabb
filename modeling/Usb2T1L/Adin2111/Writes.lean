import Usb2T1L.Adin2111.Chip

/-!
# Register writes under faults

What a driver function leaves alone, and what its writes leave behind when any of them may
fail.  A write that fails on the SPI bus is seen by the driver; one that the device ignores for
its CRC is not.

## Main definitions

* `Chip.Touches` — only some accesses have been made.
* `Lands` — a sequence of writes, given up at the first that fails, leaves its values behind.

## Main results

* `adin2111WriteReg_spec`, `adin2111ReadReg_touches` — the transactions.
* `adinWriteFilter_lands` — **a filter slot is as intended** exactly if its writes land.
-/

namespace Usb2T1L

/-! ### What is left alone -/

/-- Between the two states no access but these has been made, and no register written but
theirs. -/
structure Chip.Touches (as : List Access) (c c' : Chip) : Prop where
  faults : ∀ a, a ∉ as → c'.faults a = c.faults a
  regs : ∀ reg, (true, reg) ∉ as → c'.regs reg = c.regs reg
  reset : c'.reset = c.reset

namespace Chip.Touches

variable {as bs : List Access} {c c' c'' : Chip}

theorem refl (as : List Access) (c : Chip) : Touches as c c := ⟨fun _ _ => rfl, fun _ _ => rfl, rfl⟩

theorem trans (h : Touches as c c') (h' : Touches bs c' c'') : Touches (as ++ bs) c c'' where
  faults := fun a ha => by
    rw [List.mem_append, not_or] at ha
    exact (h'.faults a ha.2).trans (h.faults a ha.1)
  regs := fun reg hr => by
    rw [List.mem_append, not_or] at hr
    exact (h'.regs reg hr.2).trans (h.regs reg hr.1)
  reset := h'.reset.trans h.reset

theorem mono (h : Touches as c c') (hsub : as ⊆ bs) : Touches bs c c' :=
  ⟨fun a ha => h.faults a fun hm => ha (hsub hm),
    fun reg hr => h.regs reg fun hm => hr (hsub hm), h.reset⟩

/-- The fault of an access that has not been made is still to come. -/
theorem fault (h : Touches as c c') (crc : Bool) {a : Access} (ha : a ∉ as) :
    c'.fault crc a = c.fault crc a := by
  rw [Chip.fault, Chip.fault, h.faults a ha]

end Chip.Touches

theorem Chip.touches_next (a : Access) (c : Chip) : Touches [a] c (c.next a) where
  faults := fun _ hb => Function.update_of_ne (fun h => hb (List.mem_singleton.mpr h)) _ _
  regs := fun _ _ => rfl
  reset := rfl

/-- A register that a write stores to. -/
def PlainReg (reg : ℕ) : Prop :=
  reg < 2 ^ 13 ∧ reg ≠ adinRegReset ∧ reg ≠ adinRegFifoClr ∧ reg ≠ adinRegStatus0 ∧
    reg ≠ adinRegStatus1

instance (reg : ℕ) : Decidable (PlainReg reg) := inferInstanceAs (Decidable (_ ∧ _))

theorem plainReg_config0 : PlainReg adinRegConfig0 := by decide

theorem plainReg_config2 : PlainReg adinRegConfig2 := by decide

theorem plainReg_imask1 : PlainReg adinRegImask1 := by decide

theorem Chip.regs_write {reg : ℕ} (h : PlainReg reg) (val : Word) (c : Chip) :
    (c.write reg val).regs = RegFile.write c.regs (reg, val) ∧
      (c.write reg val).faults = c.faults ∧ (c.write reg val).reset = c.reset := by
  obtain ⟨-, h1, h2, h3, h4⟩ := h
  rw [Chip.write, if_neg h1, if_neg h2, if_neg (not_or.mpr ⟨h3, h4⟩)]
  exact ⟨rfl, rfl, rfl⟩

/-- **What a write does**: the driver sees a failure on the bus only, and the value is stored
only without a fault. -/
theorem adin2111WriteReg_spec (dev : Adin2111) {reg : ℕ} (h : PlainReg reg) (val : Word)
    (c : Chip) :
    ((adin2111WriteReg (chipHal dev) dev reg val c).1 = .ok ↔
        c.fault dev.crcEnabled (true, reg) ≠ .spi) ∧
      c.Touches [(true, reg)] (adin2111WriteReg (chipHal dev) dev reg val c).2 ∧
        (adin2111WriteReg (chipHal dev) dev reg val c).2.regs reg =
          if c.fault dev.crcEnabled (true, reg) = .none then val else c.regs reg := by
  have hnext := Chip.touches_next (true, reg) c
  obtain ⟨hregs, hfaults, hreset⟩ := Chip.regs_write h val (c.next (true, reg))
  rw [adin2111WriteReg_chip dev h.1]
  cases c.fault dev.crcEnabled (true, reg) with
  | none =>
    refine ⟨by simp, ⟨fun a ha => ?_, fun r hr => ?_, hreset.trans hnext.reset⟩, ?_⟩
    · rw [hfaults]
      exact hnext.faults a ha
    · have hne : r ≠ reg := fun he => hr (List.mem_singleton.mpr (by rw [he]))
      rw [hregs, RegFile.write_of_ne _ hne]
      exact hnext.regs r hr
    · rw [hregs]
      exact Function.update_self _ _ _
  | spi => exact ⟨by simp, hnext, rfl⟩
  | crc => exact ⟨by simp, hnext, rfl⟩

theorem adin2111ReadReg_touches (dev : Adin2111) {reg : ℕ} (h : reg < 2 ^ 13)
    (hreg : Chip.rxPortOf reg = none) (c : Chip) :
    c.Touches [(false, reg)] (adin2111ReadReg (chipHal dev) dev reg c).2 := by
  have hnext := Chip.touches_next (false, reg) c
  rw [adin2111ReadReg_chip dev h hreg]
  cases c.fault dev.crcEnabled (false, reg) <;> exact hnext

/-! ### Sequences of writes -/

/-- The writes leave their values behind, when the writes to each register meet the given faults
and the first failure on the bus ends the sequence. -/
def Lands (f : ℕ → Fault) (regs : ℕ → Word) : List (ℕ × Word) → Prop
  | [] => True
  | w :: ws =>
    match f w.1 with
    | .none => Lands f regs ws
    | .crc => regs w.1 = w.2 ∧ Lands f regs ws
    | .spi => regs w.1 = w.2 ∧ ∀ v ∈ ws, regs v.1 = v.2

instance decidableLands (f : ℕ → Fault) (regs : ℕ → Word) : ∀ ws, Decidable (Lands f regs ws)
  | [] => isTrue trivial
  | w :: ws =>
    have : Decidable (Lands f regs ws) := decidableLands f regs ws
    match h : f w.1 with
    | .none => decidable_of_iff (Lands f regs ws) (by rw [Lands, h])
    | .crc => decidable_of_iff (regs w.1 = w.2 ∧ Lands f regs ws) (by rw [Lands, h])
    | .spi => decidable_of_iff (regs w.1 = w.2 ∧ ∀ v ∈ ws, regs v.1 = v.2) (by rw [Lands, h])

/-- Only the faults and the contents of the registers written matter. -/
theorem lands_congr {f g : ℕ → Fault} {regs regs' : ℕ → Word} : ∀ {ws : List (ℕ × Word)},
    (∀ w ∈ ws, f w.1 = g w.1 ∧ regs w.1 = regs' w.1) → (Lands f regs ws ↔ Lands g regs' ws) := by
  intro ws
  induction ws with
  | nil => intro _; rfl
  | cons w ws ih =>
    intro h
    obtain ⟨⟨hf, hr⟩, hws⟩ := List.forall_mem_cons.mp h
    have hall : (∀ v ∈ ws, regs v.1 = v.2) ↔ ∀ v ∈ ws, regs' v.1 = v.2 :=
      forall₂_congr fun v hv => by rw [(hws v hv).2]
    rw [Lands, Lands, hf, hr]
    cases g w.1 with
    | none => exact ih hws
    | crc => exact and_congr_right fun _ => ih hws
    | spi => exact and_congr_right fun _ => hall

/-- A sequence of writes on the chip, as the driver makes it. -/
def Chip.writeSeq (dev : Adin2111) : List (ℕ × Word) → Chip → Status × Chip
  | [], c => (.ok, c)
  | w :: ws, c => thenOk (adin2111WriteReg (chipHal dev) dev w.1 w.2 c) (writeSeq dev ws)

theorem thenOk_ok {σ : Type} (r : Status × σ) : thenOk r (fun s => (.ok, s)) = r := by
  unfold thenOk
  split
  · next h => exact Prod.ext h.symm rfl
  · rfl

theorem Chip.writeSeq_touches (dev : Adin2111) : ∀ {ws : List (ℕ × Word)},
    (∀ w ∈ ws, PlainReg w.1) → ∀ c : Chip,
      c.Touches (ws.map fun w => (true, w.1)) (writeSeq dev ws c).2 := by
  intro ws
  induction ws with
  | nil => intro _ c; exact Touches.refl _ c
  | cons w ws ih =>
    intro h c
    obtain ⟨hw, hws⟩ := List.forall_mem_cons.mp h
    have htouch := (adin2111WriteReg_spec dev hw w.2 c).2.1
    rw [writeSeq, thenOk]
    split
    · exact htouch.trans (ih hws _)
    · exact htouch.mono (List.cons_subset_cons _ (List.nil_subset _))

/-- **A sequence of writes leaves its values behind exactly if they land.** -/
theorem Chip.writeSeq_lands (dev : Adin2111) : ∀ {ws : List (ℕ × Word)},
    (∀ w ∈ ws, PlainReg w.1) → (ws.map Prod.fst).Nodup → ∀ c : Chip,
      ((∀ w ∈ ws, (writeSeq dev ws c).2.regs w.1 = w.2) ↔
        Lands (fun reg => c.fault dev.crcEnabled (true, reg)) c.regs ws) := by
  intro ws
  induction ws with
  | nil => intro _ _ c; simp [Lands]
  | cons w ws ih =>
    intro h hnodup c
    obtain ⟨hw, hws⟩ := List.forall_mem_cons.mp h
    rw [List.map_cons, List.nodup_cons] at hnodup
    obtain ⟨hnew, hnodup⟩ := hnodup
    obtain ⟨hok, htouch, hval⟩ := adin2111WriteReg_spec dev hw w.2 c
    -- the later writes are to other registers
    have hother : ∀ v ∈ ws, v.1 ≠ w.1 := fun v hv he => hnew (he ▸ List.mem_map_of_mem hv)
    have hnot : ∀ {b : Bool} {v : ℕ × Word}, v ∈ ws → ((b, v.1) : Access) ∉ [(true, w.1)] := by
      intro b v hv hm
      exact hother v hv (congrArg Prod.snd (List.mem_singleton.mp hm))
    rw [List.forall_mem_cons, writeSeq, thenOk]
    by_cases hspi : c.fault dev.crcEnabled (true, w.1) = .spi
    · rw [if_neg (fun hc => hok.mp hc hspi), hval, hspi, if_neg (by simp), Lands, hspi]
      exact and_congr_right fun _ => forall₂_congr fun v hv => by rw [htouch.regs _ (hnot hv)]
    · rw [if_pos (hok.mpr hspi), ih hws hnodup]
      have hkeep : (writeSeq dev ws (adin2111WriteReg (chipHal dev) dev w.1 w.2 c).2).2.regs w.1 =
          (adin2111WriteReg (chipHal dev) dev w.1 w.2 c).2.regs w.1 := by
        refine (writeSeq_touches dev hws _).regs w.1 fun hm => ?_
        obtain ⟨v, hv, he⟩ := List.mem_map.mp hm
        exact hother v hv (congrArg Prod.snd he)
      have hcongr : Lands (fun reg => (adin2111WriteReg (chipHal dev) dev w.1 w.2 c).2.fault
          dev.crcEnabled (true, reg)) (adin2111WriteReg (chipHal dev) dev w.1 w.2 c).2.regs ws ↔
          Lands (fun reg => c.fault dev.crcEnabled (true, reg)) c.regs ws :=
        lands_congr fun v hv => ⟨htouch.fault _ (hnot hv), htouch.regs _ (hnot hv)⟩
      rw [hcongr, hkeep, hval, Lands]
      cases hf : c.fault dev.crcEnabled (true, w.1) with
      | none => simp
      | crc => simp
      | spi => exact absurd hf hspi

/-! ### A filter slot -/

/-- `adin_write_filter` on the chip. -/
theorem adinWriteFilter_chip (dev : Adin2111) (slot : ℕ) (ctl : Word) (aU : BitVec 16) (aL : Word)
    (mU : BitVec 16) (mL : Word) (c : Chip) :
    adinWriteFilter (chipHal dev) dev slot ctl aU aL mU mL c =
      Chip.writeSeq dev (filterWrites slot ctl aU aL mU mL) c := by
  simp only [adinWriteFilter, filterWrites, Chip.writeSeq, thenOk_ok]

theorem map_fst_filterWrites (slot : ℕ) (ctl : Word) (aU : BitVec 16) (aL : Word) (mU : BitVec 16)
    (mL : Word) : (filterWrites slot ctl aU aL mU mL).map Prod.fst =
      [0x70 + 2 * slot, 0x71 + 2 * slot, 0x51 + 2 * slot, 0x50 + 2 * slot] := rfl

theorem plainReg_filterWrites {slot : ℕ} (h : slot < adinMacFilterSlots) (ctl : Word)
    (aU : BitVec 16) (aL : Word) (mU : BitVec 16) (mL : Word) :
    ∀ w ∈ filterWrites slot ctl aU aL mU mL, PlainReg w.1 := by
  have h : slot < 16 := h
  intro w hw
  have hreg : w.1 ∈ (filterWrites slot ctl aU aL mU mL).map Prod.fst := List.mem_map_of_mem hw
  rw [map_fst_filterWrites] at hreg
  simp only [List.mem_cons, List.not_mem_nil, or_false] at hreg
  unfold PlainReg adinRegReset adinRegFifoClr adinRegStatus0 adinRegStatus1
  omega

/-- **A filter slot is as intended** exactly if its writes land. -/
theorem adinWriteFilter_lands (dev : Adin2111) {slot : ℕ} (h : slot < adinMacFilterSlots)
    (ctl : Word) (aU : BitVec 16) (aL : Word) (mU : BitVec 16) (mL : Word) (c : Chip) :
    (∀ w ∈ filterWrites slot ctl aU aL mU mL,
        (adinWriteFilter (chipHal dev) dev slot ctl aU aL mU mL c).2.regs w.1 = w.2) ↔
      Lands (fun reg => c.fault dev.crcEnabled (true, reg)) c.regs
        (filterWrites slot ctl aU aL mU mL) := by
  have hnodup : ((filterWrites slot ctl aU aL mU mL).map Prod.fst).Nodup := by
    rw [map_fst_filterWrites]
    simp
  rw [adinWriteFilter_chip]
  exact Chip.writeSeq_lands dev (plainReg_filterWrites h ctl aU aL mU mL) hnodup c

/-- It touches nothing but the four registers of the slot. -/
theorem adinWriteFilter_touches (dev : Adin2111) {slot : ℕ} (h : slot < adinMacFilterSlots)
    (ctl : Word) (aU : BitVec 16) (aL : Word) (mU : BitVec 16) (mL : Word) (c : Chip) :
    c.Touches ([0x70 + 2 * slot, 0x71 + 2 * slot, 0x51 + 2 * slot, 0x50 + 2 * slot].map
      (Prod.mk true)) (adinWriteFilter (chipHal dev) dev slot ctl aU aL mU mL c).2 := by
  rw [adinWriteFilter_chip, ← map_fst_filterWrites slot ctl aU aL mU mL, List.map_map]
  exact Chip.writeSeq_touches dev (plainReg_filterWrites h ctl aU aL mU mL) c

end Usb2T1L
