import Usb2T1L.Bridge.Coherence
import Usb2T1L.Bridge.Directory
import Usb2T1L.Bridge.StartUp

/-!
# The forwarding decision of the device

A frame that enters on a port goes to the host, to the other port, to both or to neither, as the
slots of the filter table that match it say; where none matches, `CONFIG2` decides about the host.
Here this is put together with the filters the bring-up programs and with FDB slots that are in
step with the table.

## Main definitions

* `deviceVerdict` — what the device does with a frame, read off its registers.
* `switchVerdict` — what the bridge is for, in terms of its table.
* `Forwards` — the registers that decide are as the bring-up programs them.

## Main results

* `Forwards.someMatch_iff` — which frames are matched.
* `Synced.verdict` — **the device does what the table says**.
* `Forwards.verdict_endpoint` — the same in endpoint mode, where there is no table.
-/

namespace Usb2T1L

/-! ### The decision of the device -/

/-- Some slot matches a frame to `da` entering on `ingress` and satisfies `P`. -/
def SomeMatch (regs : ℕ → Word) (da : Mac) (ingress : Port) (P : FilterSlot → Bool) : Prop :=
  ∃ k < adinMacFilterSlots, (slotAt regs k).Matches da ingress ∧ P (slotAt regs k) = true

instance (regs : ℕ → Word) (da : Mac) (ingress : Port) (P : FilterSlot → Bool) :
    Decidable (SomeMatch regs da ingress P) :=
  inferInstanceAs (Decidable (∃ k, k < adinMacFilterSlots ∧ _))

/-- The bit of `CONFIG2` that sends frames matched by no slot to the host. -/
def fwdUnk2host : Port → Word
  | .port1 => adinConfig2FwdUnk2host
  | .port2 => adin2111Config2P2FwdUnk2host

/-- Where a frame goes. -/
@[ext] structure Verdict where
  toHost : Bool
  toOtherPort : Bool
  deriving DecidableEq

/-- What the device does with a frame to `da` entering on `ingress`. -/
def deviceVerdict (regs : ℕ → Word) (da : Mac) (ingress : Port) : Verdict where
  toHost := if SomeMatch regs da ingress fun _ => true then
      decide (SomeMatch regs da ingress FilterSlot.toHost)
    else decide (regs adinRegConfig2 &&& fwdUnk2host ingress ≠ 0)
  toOtherPort := decide (SomeMatch regs da ingress FilterSlot.toOtherPort)

/-- What the bridge is for, in switch mode: groups to everybody, the host's own frames to the
host, and other stations' frames to where they are. -/
def switchVerdict (sOwnMac : Mac) (fdb : Fdb) (da : Mac) (ingress : Port) : Verdict :=
  if macIsGroup da then ⟨true, true⟩
  else if da = sOwnMac then ⟨true, false⟩
  else ⟨false, decide (netBridgeFdbLookup fdb da = some ingress.opposite)⟩

/-! ### What a filter slot does, by its control word -/

/-- A control word leaves the address bits alone. -/
def IsCtl (ctl : Word) : Prop := ctl.setWidth 16 = 0

instance (ctl : Word) : Decidable (IsCtl ctl) := inferInstanceAs (Decidable (_ = _))

section WrittenSlot

variable {ctl : Word} {aU mU : BitVec 16} {aL mL : Word}

theorem getLsbD_ctl_or (ctl : Word) (aU : BitVec 16) {i : ℕ} (hi : 16 ≤ i) :
    (ctl ||| aU.setWidth 32).getLsbD i = ctl.getLsbD i := by
  rw [BitVec.getLsbD_or, BitVec.getLsbD_setWidth, BitVec.getLsbD_of_ge aU i hi, Bool.and_false,
    Bool.or_false]

/-- The control bits of a slot are those of its control word. -/
theorem writtenSlot_appliesTo (p : Port) : (writtenSlot ctl aU aL mU mL).appliesTo p =
    match p with
    | .port1 => ctl.getLsbD 30
    | .port2 => ctl.getLsbD 31 := by
  cases p
  · exact getLsbD_ctl_or ctl aU (by decide)
  · exact getLsbD_ctl_or ctl aU (by decide)

theorem writtenSlot_toHost : (writtenSlot ctl aU aL mU mL).toHost = ctl.getLsbD 16 :=
  getLsbD_ctl_or ctl aU (by decide)

theorem writtenSlot_toOtherPort :
    (writtenSlot ctl aU aL mU mL).toOtherPort = ctl.getLsbD 17 :=
  getLsbD_ctl_or ctl aU (by decide)

/-- The address is compared as the mask says. -/
theorem writtenSlot_matches (hctl : IsCtl ctl) {da : Mac} {p : Port} :
    (writtenSlot ctl aU aL mU mL).Matches da p ↔
      (writtenSlot ctl aU aL mU mL).appliesTo p = true ∧
        (addrUpr da ^^^ aU) &&& mU = 0 ∧ (addrLwr da ^^^ aL) &&& mL = 0 := by
  have haddr : (ctl ||| aU.setWidth 32).setWidth 16 = aU := by
    rw [BitVec.setWidth_or, hctl, BitVec.setWidth_setWidth_of_le aU (by decide),
      BitVec.setWidth_eq]
    exact BitVec.zero_or
  have hmask : (mU.setWidth 32).setWidth 16 = mU := by
    rw [BitVec.setWidth_setWidth_of_le mU (by decide), BitVec.setWidth_eq]
  unfold FilterSlot.Matches
  simp only [writtenSlot, haddr, hmask]

end WrittenSlot

/-- A slot whose four registers hold what a rewrite writes. -/
theorem slotAt_of_filterWrites {regs : ℕ → Word} {k : ℕ} {ctl : Word} {aU mU : BitVec 16}
    {aL mL : Word} (h : ∀ w ∈ filterWrites k ctl aU aL mU mL, regs w.1 = w.2) :
    slotAt regs k = writtenSlot ctl aU aL mU mL := by
  simp only [filterWrites, List.forall_mem_cons] at h
  obtain ⟨h1, h2, h3, h4, -⟩ := h
  rw [slotAt, writtenSlot, h1, h2, h3, h4]

/-- Masking with one bit asks whether it is set. -/
theorem and_twoPow_ne_zero {w : ℕ} {v : BitVec w} {i : ℕ} (hi : i < w) :
    v &&& BitVec.twoPow w i ≠ 0 ↔ v.getLsbD i = true := by
  rw [BitVec.and_twoPow]
  cases v.getLsbD i with
  | false => simp
  | true =>
    have hbit : (BitVec.twoPow w i).getLsbD i = true := by simp [hi]
    simp only [if_true, iff_true]
    intro hzero
    rw [hzero] at hbit
    exact absurd hbit (by simp)

/-- The group bit is the lowest of the first octet. -/
theorem macIsGroup_iff (m : Mac) : macIsGroup m = true ↔ (m 0).getLsbD 0 = true := by
  rw [macIsGroup, decide_eq_true_eq, show (0x01 : Byte) = BitVec.twoPow 8 0 by decide]
  exact and_twoPow_ne_zero (by decide)

/-- Only the group bit is compared. -/
theorem addrUpr_group_iff (da : Mac) :
    (addrUpr da ^^^ 0x0100) &&& 0x0100 = 0 ↔ macIsGroup da = true := by
  have hbit : (addrUpr da ^^^ 0x0100).getLsbD 8 = !(da 0).getLsbD 0 := by
    simp [addrUpr]
  have hmask : (addrUpr da ^^^ 0x0100) &&& 0x0100 ≠ 0 ↔
      (addrUpr da ^^^ 0x0100).getLsbD 8 = true :=
    and_twoPow_ne_zero (show 8 < 16 by decide)
  rw [macIsGroup_iff, ← not_iff_not, ← Ne, hmask, hbit]
  simp

/-! ### What the bring-up leaves behind -/

/-- The device has that port. -/
def Adin2111.HasPort (dev : Adin2111) (p : Port) : Prop := p = .port1 ∨ 1 < dev.numPorts

/-- The registers that decide about frames from the wire are as the bring-up programs them; the
FDB slots may hold anything. -/
structure Forwards (dev : Adin2111) (sOwnMac : Mac) (regs : ℕ → Word) : Prop where
  config2 : regs adinRegConfig2 = adinCfg2 dev
  group : ∀ w ∈ groupWrites dev, regs w.1 = w.2
  host : ∀ w ∈ hostWrites dev sOwnMac, regs w.1 = w.2

/-- The filter of the groups. -/
def groupSlot (dev : Adin2111) : FilterSlot :=
  writtenSlot (groupCtl dev (decide (dev.mode = .switch))) 0x0100 0 0x0100 0

/-- The filter of the host. -/
def hostSlot (dev : Adin2111) (sOwnMac : Mac) : FilterSlot :=
  writtenSlot (adinMacAddrToHost ||| adinApplyAllPorts dev) (addrUpr sOwnMac) (addrLwr sOwnMac)
    0xFFFF 0xFFFFFFFF

section Filters

variable {dev : Adin2111} {sOwnMac : Mac} {regs : ℕ → Word}

theorem Forwards.slotAt_group (h : Forwards dev sOwnMac regs) :
    slotAt regs adinMacSlotGroup = groupSlot dev := slotAt_of_filterWrites h.group

theorem Forwards.slotAt_host (h : Forwards dev sOwnMac regs) :
    slotAt regs adinMacSlotHost = hostSlot dev sOwnMac := slotAt_of_filterWrites h.host

theorem isCtl_host (dev : Adin2111) : IsCtl (adinMacAddrToHost ||| adinApplyAllPorts dev) := by
  unfold adinApplyAllPorts
  split <;> decide

theorem isCtl_group (dev : Adin2111) (flood : Bool) : IsCtl (groupCtl dev flood) := by
  have happly := isCtl_host dev
  rw [IsCtl, groupCtl, BitVec.setWidth_or, happly]
  split <;> decide

/-- Both filters apply to every port the device has. -/
theorem appliesTo_of_hasPort (sOwnMac : Mac) {p : Port} (hp : dev.HasPort p) :
    (groupSlot dev).appliesTo p = true ∧ (hostSlot dev sOwnMac).appliesTo p = true := by
  have hgroup : ∀ i, (adinMacAddrToHost ||| adinApplyAllPorts dev).getLsbD i = true →
      (groupCtl dev (decide (dev.mode = .switch))).getLsbD i = true := by
    intro i hi
    rw [groupCtl, BitVec.getLsbD_or, hi, Bool.true_or]
  rw [groupSlot, hostSlot, writtenSlot_appliesTo, writtenSlot_appliesTo]
  cases p with
  | port1 =>
    have h30 : (adinMacAddrToHost ||| adinApplyAllPorts dev).getLsbD 30 = true := by
      unfold adinApplyAllPorts
      split <;> decide
    exact ⟨hgroup 30 h30, h30⟩
  | port2 =>
    have h31 : (adinMacAddrToHost ||| adinApplyAllPorts dev).getLsbD 31 = true := by
      rw [adinApplyAllPorts, if_pos (hp.resolve_left (by simp))]
      decide
    exact ⟨hgroup 31 h31, h31⟩

theorem groupSlot_matches {p : Port} (hp : dev.HasPort p) {da : Mac} :
    (groupSlot dev).Matches da p ↔ macIsGroup da = true := by
  have happly := (appliesTo_of_hasPort da hp).1
  have hmatch : (groupSlot dev).Matches da p ↔ (groupSlot dev).appliesTo p = true ∧
      (addrUpr da ^^^ 0x0100) &&& 0x0100 = 0 ∧ (addrLwr da ^^^ 0) &&& 0 = 0 :=
    writtenSlot_matches (isCtl_group dev _)
  rw [hmatch, addrUpr_group_iff]
  exact ⟨fun h => h.2.1, fun h => ⟨happly, h, BitVec.and_zero⟩⟩

theorem hostSlot_matches {p : Port} (hp : dev.HasPort p) {da : Mac} :
    (hostSlot dev sOwnMac).Matches da p ↔ da = sOwnMac := by
  have happly := (appliesTo_of_hasPort sOwnMac hp).2
  rw [hostSlot] at happly
  rw [hostSlot, writtenSlot_matches (isCtl_host dev), happly, xor_and_allOnes (by decide),
    xor_and_allOnes (by decide)]
  exact ⟨fun h => addr_ext h.2.1 h.2.2, fun h => by rw [h]; exact ⟨rfl, rfl, rfl⟩⟩

theorem groupSlot_toHost : (groupSlot dev).toHost = true := by
  rw [groupSlot, writtenSlot_toHost, groupCtl, BitVec.getLsbD_or, BitVec.getLsbD_or,
    show adinMacAddrToHost.getLsbD 16 = true by decide]
  rfl

theorem hostSlot_toHost : (hostSlot dev sOwnMac).toHost = true := by
  rw [hostSlot, writtenSlot_toHost, BitVec.getLsbD_or,
    show adinMacAddrToHost.getLsbD 16 = true by decide]
  rfl

theorem toOtherPort_apply (dev : Adin2111) :
    (adinMacAddrToHost ||| adinApplyAllPorts dev).getLsbD 17 = false := by
  unfold adinApplyAllPorts
  split <;> decide

/-- Groups are passed on in switch mode only. -/
theorem groupSlot_toOtherPort : (groupSlot dev).toOtherPort = decide (dev.mode = .switch) := by
  rw [groupSlot, writtenSlot_toOtherPort, groupCtl, BitVec.getLsbD_or, toOtherPort_apply,
    Bool.false_or]
  by_cases hmode : dev.mode = .switch
  · have hports := dev.switch_ports hmode
    rw [if_pos ⟨decide_eq_true hmode, hports⟩, decide_eq_true hmode]
    decide
  · rw [if_neg fun h => hmode (of_decide_eq_true h.1), decide_eq_false hmode]
    decide

theorem hostSlot_toOtherPort : (hostSlot dev sOwnMac).toOtherPort = false := by
  rw [hostSlot, writtenSlot_toOtherPort]
  exact toOtherPort_apply dev

/-- The slots are those of the groups, of the host, and of the FDB. -/
theorem slot_cases {k : ℕ} (hk : k < adinMacFilterSlots) :
    k = adinMacSlotGroup ∨ k = adinMacSlotHost ∨ ∃ i, k = fdbSlotIndex i := by
  rw [adinMacFilterSlots] at hk
  rw [adinMacSlotGroup, adinMacSlotHost]
  by_cases h : k < 2
  · omega
  · refine Or.inr (Or.inr ⟨⟨k - 2, show k - 2 < 14 by omega⟩, ?_⟩)
    rw [fdbSlotIndex, adinMacSlotFdbBase]
    show k = 2 + (k - 2)
    omega

/-- **Which frames are matched**: those for groups, those for the host, and what the FDB slots
match. -/
theorem Forwards.someMatch_iff (h : Forwards dev sOwnMac regs) {p : Port} (hp : dev.HasPort p)
    {da : Mac} {P : FilterSlot → Bool} : SomeMatch regs da p P ↔
      (macIsGroup da = true ∧ P (groupSlot dev) = true) ∨
        (da = sOwnMac ∧ P (hostSlot dev sOwnMac) = true) ∨
          ∃ i, (slotAt regs (fdbSlotIndex i)).Matches da p ∧
            P (slotAt regs (fdbSlotIndex i)) = true := by
  constructor
  · rintro ⟨k, hk, hmatch, hP⟩
    rcases slot_cases hk with rfl | rfl | ⟨i, rfl⟩
    · rw [h.slotAt_group] at hmatch hP
      exact Or.inl ⟨(groupSlot_matches hp).mp hmatch, hP⟩
    · rw [h.slotAt_host] at hmatch hP
      exact Or.inr (Or.inl ⟨(hostSlot_matches hp).mp hmatch, hP⟩)
    · exact Or.inr (Or.inr ⟨i, hmatch, hP⟩)
  · rintro (⟨hda, hP⟩ | ⟨hda, hP⟩ | ⟨i, hmatch, hP⟩)
    · refine ⟨adinMacSlotGroup, by decide, ?_, ?_⟩
      · rw [h.slotAt_group]
        exact (groupSlot_matches hp).mpr hda
      · rw [h.slotAt_group]
        exact hP
    · refine ⟨adinMacSlotHost, by decide, ?_, ?_⟩
      · rw [h.slotAt_host]
        exact (hostSlot_matches hp).mpr hda
      · rw [h.slotAt_host]
        exact hP
    · exact ⟨fdbSlotIndex i, fdbSlotIndex_lt i, hmatch, hP⟩

end Filters

/-! ### In step with the table -/

section Verdicts

variable {dev : Adin2111} {sOwnMac : Mac} {regs : ℕ → Word} {da : Mac} {p : Port}

/-- In switch mode no unknown address is sent to the host. -/
theorem fwdUnk2host_switch (hmode : dev.mode = .switch) (p : Port) :
    adinCfg2 dev &&& fwdUnk2host p = 0 := by
  have hne : ¬ dev.mode = .endpoint := by simp [hmode]
  rw [adinCfg2, if_neg hne]
  cases p <;> decide

/-- In endpoint mode every unknown address is. -/
theorem fwdUnk2host_endpoint (hmode : dev.mode = .endpoint) (hp : dev.HasPort p) :
    adinCfg2 dev &&& fwdUnk2host p ≠ 0 := by
  rw [adinCfg2, if_pos hmode]
  cases p with
  | port1 => split <;> decide
  | port2 =>
    rw [if_pos (hp.resolve_left (by simp))]
    decide

theorem hasPort_of_switch (hmode : dev.mode = .switch) (p : Port) : dev.HasPort p :=
  Or.inr (dev.switch_ports hmode)

/-- The host gets what the group filter, the host filter or an FDB slot sends it. -/
theorem Forwards.toHost_iff (h : Forwards dev sOwnMac regs) (hmode : dev.mode = .switch) :
    (deviceVerdict regs da p).toHost = true ↔ macIsGroup da = true ∨ da = sOwnMac ∨
      ∃ i, (slotAt regs (fdbSlotIndex i)).Matches da p ∧
        (slotAt regs (fdbSlotIndex i)).toHost = true := by
  have hp := hasPort_of_switch hmode p
  have hsome : SomeMatch regs da p FilterSlot.toHost ↔ _ := h.someMatch_iff hp
  simp only [groupSlot_toHost, hostSlot_toHost, and_true] at hsome
  have hconfig : decide (regs adinRegConfig2 &&& fwdUnk2host p ≠ 0) = false := by
    rw [h.config2, fwdUnk2host_switch hmode]
    simp
  rw [deviceVerdict]
  dsimp only
  rw [hconfig, ← hsome]
  split
  · exact decide_eq_true_iff
  · next hnone =>
    -- nothing matches, so nothing matches and goes to the host
    have hnot : ¬ SomeMatch regs da p FilterSlot.toHost := by
      rintro ⟨k, hk, hmatch, -⟩
      exact hnone ⟨k, hk, hmatch, rfl⟩
    simp [hnot]

/-- The other port gets what the group filter or an FDB slot sends it. -/
theorem Forwards.toOtherPort_iff (h : Forwards dev sOwnMac regs) (hmode : dev.mode = .switch) :
    (deviceVerdict regs da p).toOtherPort = true ↔ macIsGroup da = true ∨
      ∃ i, (slotAt regs (fdbSlotIndex i)).Relays da p := by
  have hp := hasPort_of_switch hmode p
  have hsome : SomeMatch regs da p FilterSlot.toOtherPort ↔ _ := h.someMatch_iff hp
  simp only [groupSlot_toOtherPort, hostSlot_toOtherPort, hmode, decide_true, and_true,
    Bool.false_eq_true, and_false, false_or] at hsome
  rw [deviceVerdict]
  dsimp only
  rw [decide_eq_true_iff, hsome]
  rfl

theorem switchVerdict_toHost (sOwnMac : Mac) (fdb : Fdb) (da : Mac) (p : Port) :
    (switchVerdict sOwnMac fdb da p).toHost = true ↔ macIsGroup da = true ∨ da = sOwnMac := by
  rw [switchVerdict]
  split_ifs <;> simp_all

theorem switchVerdict_toOtherPort (sOwnMac : Mac) (fdb : Fdb) (da : Mac) (p : Port) :
    (switchVerdict sOwnMac fdb da p).toOtherPort = true ↔ macIsGroup da = true ∨
      da ≠ sOwnMac ∧ netBridgeFdbLookup fdb da = some p.opposite := by
  rw [switchVerdict]
  split_ifs <;> simp_all

/-- **The device does what the table says.** -/
theorem Synced.verdict (hmode : dev.mode = .switch) {s : Bridge Bus} (hs : Synced regs s)
    (hfwd : Forwards dev sOwnMac s.adin.regs) (hel : AllEligible sOwnMac s.fdb) (da : Mac)
    (p : Port) : deviceVerdict s.adin.regs da p = switchVerdict sOwnMac s.fdb da p := by
  -- the entries are of stations other than the host
  have hlookup : (∃ i, (slotAt s.adin.regs (fdbSlotIndex i)).Relays da p) ↔
      da ≠ sOwnMac ∧ netBridgeFdbLookup s.fdb da = some p.opposite := by
    rw [netBridgeFdbLookup, Table.lookup_eq_some_iff hs.distinct]
    constructor
    · rintro ⟨i, hi⟩
      obtain ⟨hv, hm, hp⟩ := hs.relays_iff.mp hi
      refine ⟨?_, i, hv, hm, ?_⟩
      · rw [← hm]
        exact (not_or.mp (hel i hv)).2
      · rw [hp, Port.opposite_opposite]
        rfl
    · rintro ⟨-, i, hv, hm, hp⟩
      have hp : (s.fdb i).port = p.opposite := hp
      exact ⟨i, hs.relays_iff.mpr ⟨hv, hm, by rw [hp, Port.opposite_opposite]⟩⟩
  have hquiet : ¬ ∃ i, (slotAt s.adin.regs (fdbSlotIndex i)).Matches da p ∧
      (slotAt s.adin.regs (fdbSlotIndex i)).toHost = true := by
    rintro ⟨i, hmatch, hhost⟩
    rw [(hs.coherent i).1 (hs.matches_iff.mp hmatch).1, fdbSlot_toHost] at hhost
    exact Bool.false_ne_true hhost
  apply Verdict.ext
  · rw [Bool.eq_iff_iff, hfwd.toHost_iff hmode, switchVerdict_toHost, iff_false_intro hquiet,
      or_false]
  · rw [Bool.eq_iff_iff, hfwd.toOtherPort_iff hmode, switchVerdict_toOtherPort, hlookup]

/-- In endpoint mode, with no FDB slot in use, every frame is for the host and none is passed
on. -/
theorem Forwards.verdict_endpoint (h : Forwards dev sOwnMac regs) (hmode : dev.mode = .endpoint)
    (hinactive : ∀ i, (slotAt regs (fdbSlotIndex i)).active = false) (hp : dev.HasPort p) :
    deviceVerdict regs da p = ⟨true, false⟩ := by
  have hfdb : ∀ P : FilterSlot → Bool, ¬ ∃ i, (slotAt regs (fdbSlotIndex i)).Matches da p ∧
      P (slotAt regs (fdbSlotIndex i)) = true := by
    rintro P ⟨i, hmatch, -⟩
    exact FilterSlot.not_matches_of_inactive (hinactive i) da p hmatch
  have hsome : ∀ P, SomeMatch regs da p P ↔ (macIsGroup da = true ∧ P (groupSlot dev) = true) ∨
      da = sOwnMac ∧ P (hostSlot dev sOwnMac) = true := by
    intro P
    rw [h.someMatch_iff hp, iff_false_intro (hfdb P), or_false]
  have hconfig : decide (regs adinRegConfig2 &&& fwdUnk2host p ≠ 0) = true := by
    rw [h.config2]
    exact decide_eq_true (fwdUnk2host_endpoint hmode hp)
  apply Verdict.ext
  · rw [deviceVerdict]
    dsimp only
    rw [hconfig]
    split
    · next hany =>
      rw [hsome] at hany
      rw [decide_eq_true_iff, hsome, groupSlot_toHost, hostSlot_toHost]
      exact hany
    · rfl
  · rw [deviceVerdict]
    dsimp only
    rw [decide_eq_false_iff_not, hsome, groupSlot_toOtherPort, hostSlot_toOtherPort]
    simp [hmode]

end Verdicts

end Usb2T1L
