import Usb2T1L.Bridge.Forwarding

/-!
# The bridge as a switch

What becomes of the frames from the wire over whole runs: from start-up on, on a bus that works,
and under any SPI faults, when an FDB slot may be left half written.

## Main definitions

* `FdbWrite`, `Journal` — the register writes of FDB operations, and a log of them.
* `Isolating` — what they keep.

## Main results

* `Isolating.verdict` — whatever the FDB slots hold, the host gets the frames for it.
* `bridge_forwards` — **from start-up on the device follows the last sightings**.
* `host_isolated` — **under any SPI faults, between any two register writes** the host gets its
  own frames and those for groups, no others, and groups are passed on.
-/

namespace Usb2T1L

open RegFile

/-! ### Whatever the FDB slots hold -/

/-- A register write of an FDB operation: it is in an FDB slot, and sends nothing to the host. -/
def FdbWrite (w : ℕ × Word) : Prop :=
  ∃ i, w.1 ∈ slotRegs (fdbSlotIndex i) ∧
    (w.1 = adinRegMacAddrFiltUpr (fdbSlotIndex i) → w.2.getLsbD 16 = false)

/-- The registers are as the bring-up leaves them, but for FDB slots that send nothing to the
host. -/
structure Isolating (dev : Adin2111) (sOwnMac : Mac) (regs : ℕ → Word) : Prop extends
    Forwards dev sOwnMac regs where
  quiet : ∀ i, (slotAt regs (fdbSlotIndex i)).toHost = false

/-- The device has gone through the writes in its log, all of them of FDB operations. -/
structure Journal (regs : ℕ → Word) (b : Bus) : Prop where
  replay : b.regs = writes regs b.writes
  fdb : ∀ w ∈ b.writes, FdbWrite w

section Isolation

variable {dev : Adin2111} {sOwnMac : Mac} {regs : ℕ → Word}

/-- Registers that have no business with the FDB decide about the rest. -/
theorem Forwards.congr {regs' : ℕ → Word} (h : Forwards dev sOwnMac regs)
    (hres : ∀ r, Reserved r → regs' r = regs r) : Forwards dev sOwnMac regs' where
  config2 := by
    rw [hres, h.config2]
    refine reserved_of_not_fdb (Or.inr (Or.inr fun k _ hk => ?_))
    simp only [slotRegs, List.mem_cons, List.not_mem_nil, or_false, adinRegMacAddrMaskUpr,
      adinRegMacAddrMaskLwr, adinRegMacAddrFiltLwr, adinRegMacAddrFiltUpr, adinRegConfig2] at hk
    omega
  group := fun w hw => by
    rw [hres _ (reserved_of_not_fdb (Or.inl (mem_slotRegs_of_mem_filterWrites hw))), h.group w hw]
  host := fun w hw => by
    rw [hres _ (reserved_of_not_fdb (Or.inr (Or.inl (mem_slotRegs_of_mem_filterWrites hw)))),
      h.host w hw]

/-- Every write an FDB operation issues is one. -/
theorem fdbWrite_of_mem_intended {op : FdbOp} {i : Fin netFdbMaxEntries} {w : ℕ × Word}
    (hw : w ∈ op.intended (fdbSlotIndex i)) : FdbWrite w := by
  refine ⟨i, FdbOp.mem_slotRegs_of_mem_intended hw, fun hreg => ?_⟩
  -- the write of `FILT_UPR` is the last one
  have hupr : ∀ (ctl : Word) (aU : BitVec 16) (aL : Word) (mU : BitVec 16) (mL : Word),
      w ∈ filterWrites (fdbSlotIndex i) ctl aU aL mU mL → w.2 = ctl ||| aU.setWidth 32 := by
    intro ctl aU aL mU mL hmem
    simp only [filterWrites, List.mem_cons, List.not_mem_nil, or_false] at hmem
    rcases hmem with rfl | rfl | rfl | rfl
    · simp only [adinRegMacAddrMaskUpr, adinRegMacAddrFiltUpr] at hreg
      omega
    · simp only [adinRegMacAddrMaskLwr, adinRegMacAddrFiltUpr] at hreg
      omega
    · simp only [adinRegMacAddrFiltLwr, adinRegMacAddrFiltUpr] at hreg
      omega
    · rfl
  cases op with
  | set mac p =>
    rw [hupr _ _ _ _ _ hw, getLsbD_fdbCtl_or p _ (by decide)]
    cases p <;> decide
  | clear =>
    rw [hupr _ _ _ _ _ hw]
    decide

theorem Isolating.write (h : Isolating dev sOwnMac regs) {w : ℕ × Word} (hw : FdbWrite w) :
    Isolating dev sOwnMac (RegFile.write regs w) := by
  obtain ⟨i, hreg, hupr⟩ := hw
  refine ⟨h.congr fun r hr => RegFile.write_of_ne regs fun heq => hr i (heq ▸ hreg), fun j => ?_⟩
  have hj := h.quiet j
  rw [FilterSlot.toHost, slotAt] at hj ⊢
  dsimp only at hj ⊢
  by_cases heq : adinRegMacAddrFiltUpr (fdbSlotIndex j) = w.1
  · rw [heq, RegFile.write_self]
    refine hupr ?_
    rcases eq_or_ne j i with rfl | hji
    · exact heq.symm
    · have hmem : adinRegMacAddrFiltUpr (fdbSlotIndex j) ∈ slotRegs (fdbSlotIndex j) := by
        simp [slotRegs]
      rw [heq] at hmem
      exact absurd hreg (slotRegs_disjoint (fdbSlotIndex_lt j) (fdbSlotIndex_lt i)
        (fun h => hji (fdbSlotIndex_injective h)) hmem)
  · rw [RegFile.write_of_ne regs heq]
    exact hj

theorem Isolating.writes {ws : List (ℕ × Word)} (hws : ∀ w ∈ ws, FdbWrite w) :
    ∀ {regs : ℕ → Word}, Isolating dev sOwnMac regs →
      Isolating dev sOwnMac (RegFile.writes regs ws) := by
  induction ws with
  | nil => intro regs h; exact h
  | cons w ws ih =>
    intro regs h
    obtain ⟨hw, hws⟩ := List.forall_mem_cons.mp hws
    exact ih hws (h.write hw)

/-- **Whatever the FDB slots hold**, the host gets the frames for it and for groups, and no
others; and groups are passed on. -/
theorem Isolating.verdict (h : Isolating dev sOwnMac regs) (hmode : dev.mode = .switch) (da : Mac)
    (p : Port) :
    ((deviceVerdict regs da p).toHost = true ↔ macIsGroup da = true ∨ da = sOwnMac) ∧
      (macIsGroup da = true → (deviceVerdict regs da p).toOtherPort = true) := by
  have hquiet : ¬ ∃ i, (slotAt regs (fdbSlotIndex i)).Matches da p ∧
      (slotAt regs (fdbSlotIndex i)).toHost = true := by
    rintro ⟨i, -, hhost⟩
    rw [h.quiet i] at hhost
    exact Bool.false_ne_true hhost
  rw [h.toHost_iff hmode, h.toOtherPort_iff hmode, iff_false_intro hquiet, or_false]
  exact ⟨Iff.rfl, Or.inl⟩

/-- Failing or not, an FDB operation adds to the log what it has written. -/
theorem Journal.exec {b : Bus} (h : Journal regs b) (hmode : dev.mode = .switch)
    (i : Fin netFdbMaxEntries) (op : FdbOp) :
    Journal regs (op.exec dev (fdbSlotIndex i) b) where
  replay := by
    rw [FdbOp.exec_eq_perform hmode, Bus.perform_regs, Bus.perform_writes, writes_append, h.replay]
  fdb := by
    intro w hw
    rw [FdbOp.exec_eq_perform hmode, Bus.perform_writes, List.mem_append] at hw
    rcases hw with hw | hw
    · exact h.fdb w hw
    · exact fdbWrite_of_mem_intended ((cut_isPrefix _ _).subset hw)

/-- Whatever faults there are, every operation on the table keeps the log. -/
theorem Journal.bridgeOp (hmode : dev.mode = .switch) {s : Bridge Bus} (h : Journal regs s.adin)
    (op : BridgeOp) : Journal regs (op.exec (busHal dev) dev sOwnMac s).adin := by
  cases op with
  | learn now src ingress =>
    rw [BridgeOp.exec]
    by_cases hel : Eligible sOwnMac src
    · by_cases hset : Settled s.fdb src ingress
      · obtain ⟨i, -, heq⟩ := netBridgeLearn_of_settled (busHal dev) dev hel hset
        rw [heq]
        exact h
      · rw [netBridgeLearn_of_not_settled (busHal dev) dev hel hset]
        exact h.exec hmode _ (.set src ingress)
    · rw [netBridgeLearn_of_not_eligible _ _ hel]
      exact h
  | sweep now =>
    rw [BridgeOp.exec, linkTaskSweep_adin]
    generalize (List.finRange netFdbMaxEntries).filter (stale now s.fdb) = l
    generalize s.adin = b at h ⊢
    induction l generalizing b with
    | nil => exact h
    | cons i l ih => exact ih _ (h.exec hmode i .clear)

end Isolation

/-! ### From start-up on -/

section StartUp

variable (k : Kernel) (crc : Bool) (mode : Mode) (mac : Mac)
  (rxStorage : Fin netRxPoolCount → NetFrame) (txStorage : Fin netTxPoolCount → NetFrame)
  (c : Chip)

/-- Every write of the bring-up lands that decides about frames from the wire. -/
structure BringUpLands (dev : Adin2111) (mac : Mac) (c : Chip) : Prop where
  config : ConfigLands dev (fun reg => c.fault dev.crcEnabled (true, reg))
    (c.fault dev.crcEnabled (false, adinRegConfig0)) (c.rebootRegs dev.crcEnabled)
  host : Lands (fun reg => c.fault dev.crcEnabled (true, reg)) (c.rebootRegs dev.crcEnabled)
    (hostWrites dev mac)

/-- **What the bring-up leaves**, where its writes land; the FDB slots are as the reset left
them. -/
theorem netBridgeInit_forwards (hk : k.GrantsObjects) {dev : Adin2111}
    (hdev : c.InitSucceeds crc mode dev) (hlands : BringUpLands dev mac c) :
    let r := (netBridgeInit k crc mode mac rxStorage txStorage c).2
    r.adin = some dev ∧ Forwards dev mac r.chip.regs ∧
      ∀ i, slotAt r.chip.regs (fdbSlotIndex i) = slotAt (c.rebootRegs crc) (fdbSlotIndex i) := by
  obtain ⟨rx, tx, hrx, htx, hinit⟩ :=
    netBridgeInit_of_succeeds k crc mode mac rxStorage txStorage c hk hdev
  obtain ⟨-, hconf, hregs, -⟩ := adin2111Init_spec crc mode c
  have hcrc := crcEnabled_of_adinIdentify hdev.known
  have hhost := (hostFilter_iff crc mode mac c hdev).mpr (hcrc ▸ hlands.host)
  have hconf := (hconf dev hdev).mpr (hcrc ▸ hlands.config)
  have htouch := adinWriteFilter_touches dev (by decide : adinMacSlotHost < adinMacFilterSlots)
    (adinMacAddrToHost ||| adinApplyAllPorts dev) (addrUpr mac) (addrLwr mac) 0xFFFF 0xFFFFFFFF
    (adin2111Init (chipHal (twoPorts crc mode)) crc mode c).2
  intro r
  have hr : r = _ := congrArg Prod.snd hinit
  rw [hr]
  refine ⟨rfl, ⟨?_, fun w hw => ?_, hhost⟩, fun i => ?_⟩
  · exact (htouch.regs _ (by decide)).trans hconf.config2
  · refine (htouch.regs _ ?_).trans (hconf.group w hw)
    obtain he | he | he | he := fst_of_mem_groupWrites hw <;> rw [he] <;> decide
  · refine slotAt_congr fun reg hreg => ?_
    have hfdb : 2 ≤ fdbSlotIndex i := le_fdbSlotIndex i
    have hlt : fdbSlotIndex i < 16 := fdbSlotIndex_lt i
    simp only [slotRegs, List.mem_cons, List.not_mem_nil, or_false, adinRegMacAddrMaskUpr,
      adinRegMacAddrMaskLwr, adinRegMacAddrFiltLwr, adinRegMacAddrFiltUpr] at hreg
    refine (htouch.regs _ ?_).trans (hregs _ ?_)
    · simp only [List.mem_map, Prod.mk.injEq, true_and, exists_eq_right, List.mem_cons,
        List.not_mem_nil, or_false, adinMacSlotHost]
      omega
    · simp only [configureAccesses, List.mem_cons, Prod.mk.injEq, true_and, List.not_mem_nil,
        or_false, false_or, Bool.true_eq_false, false_and, adinRegFifoClr, adinRegConfig2,
        adinRegImask1, adinRegConfig0]
      omega

/-- **What becomes of a frame from the wire**, from start-up on.  Where the writes of the bring-up
land and the reset leaves the FDB slots inactive: in switch mode, after every run of learns and
sweeps on a bus that works, groups go to the host and on, the host's frames to the host only, and
the frame of any other station goes on exactly if the last sighting of the station was on the port
opposite and still stands, and never to the host; in endpoint mode every frame goes to the host
only. -/
theorem bridge_forwards (hk : k.GrantsObjects) {dev : Adin2111}
    (hdev : c.InitSucceeds crc mode dev) (hlands : BringUpLands dev mac c)
    (hinactive : ∀ i, (slotAt (c.rebootRegs crc) (fdbSlotIndex i)).active = false) :
    let r := (netBridgeInit k crc mode mac rxStorage txStorage c).2
    r.adin = some dev ∧
    (dev.mode = .switch → ∀ (works : ℕ → Bool), (∀ n, works n = true) → ∀ ops : List BridgeOp,
      let start : Bridge Bus := ⟨emptyFdb, ⟨r.chip.regs, works, []⟩⟩
      let s := bridgeRun (busHal dev) dev mac start ops
      ∀ da p, deviceVerdict s.adin.regs da p =
        if macIsGroup da then ⟨true, true⟩
        else if da = mac then ⟨true, false⟩
        else ⟨false, decide (standing (history (busHal dev) dev mac da start ops) =
          some p.opposite)⟩) ∧
    (dev.mode = .endpoint → ∀ da p, dev.HasPort p →
      deviceVerdict r.chip.regs da p = ⟨true, false⟩) := by
  intro r
  obtain ⟨hadin, hfwd, hslots⟩ :=
    netBridgeInit_forwards k crc mode mac rxStorage txStorage c hk hdev hlands
  have hinactive' : ∀ i, (slotAt r.chip.regs (fdbSlotIndex i)).active = false := fun i => by
    rw [hslots i]
    exact hinactive i
  refine ⟨hadin, fun hmode works hworks ops => ?_, fun hmode da p hp =>
    hfwd.verdict_endpoint hmode hinactive' hp⟩
  intro start s da p
  have hs : Synced r.chip.regs s :=
    bridgeRun_invariant (fun _ op h => h.exec hmode op) ops (synced_empty hinactive' hworks)
  have hkeep : ∀ (t : Bridge Bus) (op : BridgeOp), AllEligible mac t.fdb →
      AllEligible mac (op.exec (busHal dev) dev mac t).fdb := fun t op h => h.exec op
  have hel : AllEligible mac s.fdb :=
    bridgeRun_invariant hkeep ops fun i h => absurd h Bool.false_ne_true
  have hd0 : fdbTable.Distinct start.fdb := distinct_of_all_invalid fun _ => rfl
  have hlookup : netBridgeFdbLookup s.fdb da =
      standing (history (busHal dev) dev mac da start ops) := by
    rw [lookup_run da ops hd0]
    split
    · next hnil =>
      rw [hnil]
      exact Table.lookup_eq_none_iff.mpr fun i h => absurd h Bool.false_ne_true
    · rfl
  rw [hs.verdict hmode (hfwd.congr hs.reserved) hel, switchVerdict, hlookup]

/-- A kernel that grants everything. -/
def amplyKernel : Kernel := ⟨true, true, true, true, true, fun _ => true⟩

theorem workingChip_lands (mac : Mac) : BringUpLands (twoPorts true .switch) mac workingChip where
  config := ⟨by decide, by decide, by decide, by decide⟩
  host := by simp [hostWrites, filterWrites, Lands, Chip.fault, workingChip]

/-- On the board, after one station has been sighted on port 1. -/
theorem bridge_forwards_sighted :
    let start : Bridge Bus := ⟨emptyFdb, ⟨(netBridgeInit amplyKernel true .switch (fun _ => 2)
      (freshPool _).storage (freshPool _).storage workingChip).2.chip.regs, fun _ => true, []⟩⟩
    let s := bridgeRun (busHal (twoPorts true .switch)) (twoPorts true .switch) (fun _ => 2) start
      [.learn 7 (fun _ => 4) .port1]
    deviceVerdict s.adin.regs (fun _ => 4) .port2 = ⟨false, true⟩ ∧
      deviceVerdict s.adin.regs (fun _ => 4) .port1 = ⟨false, false⟩ := by
  have h := (bridge_forwards amplyKernel true .switch (fun _ => 2) (freshPool _).storage
    (freshPool _).storage workingChip ⟨rfl, rfl, rfl, rfl, rfl⟩ workingChip_succeeds
    (workingChip_lands _) (by decide)).2.1 rfl (fun _ => true) (fun _ => rfl)
    [.learn 7 (fun _ => 4) .port1]
  have hgroup : ¬ macIsGroup (fun _ => 4) = true := by decide
  have hown : ¬ (fun _ => 4 : Mac) = fun _ => 2 := by decide
  have hel : Eligible (fun _ => 2) (fun _ => 4) := by decide
  simp only [history, BridgeOp.fate, if_pos hel, standing, Fate.port] at h
  have hverdict := fun p => (h (fun _ => 4) p).trans ((if_neg hgroup).trans (if_neg hown))
  exact ⟨hverdict .port2, hverdict .port1⟩

/-- The registers of a board with that address after start-up. -/
def startRegs (mac : Mac) : ℕ → Word :=
  (netBridgeInit amplyKernel true .switch mac (freshPool _).storage (freshPool _).storage
    workingChip).2.chip.regs

/-- The FDB slots are as the reset leaves them. -/
theorem slotAt_startRegs (mac : Mac) (i : Fin netFdbMaxEntries) :
    slotAt (startRegs mac) (fdbSlotIndex i) =
      slotAt (workingChip.rebootRegs true) (fdbSlotIndex i) :=
  (netBridgeInit_forwards amplyKernel true .switch mac (freshPool _).storage (freshPool _).storage
    workingChip ⟨rfl, rfl, rfl, rfl, rfl⟩ workingChip_succeeds (workingChip_lands _)).2.2 i

theorem startRegs_inactive (mac : Mac) (i : Fin netFdbMaxEntries) :
    (slotAt (startRegs mac) (fdbSlotIndex i)).active = false := by
  have hreset : ∀ i, (slotAt (workingChip.rebootRegs true) (fdbSlotIndex i)).active = false := by
    decide
  rw [slotAt_startRegs]
  exact hreset i

theorem startRegs_isolating (mac : Mac) :
    Isolating (twoPorts true .switch) mac (startRegs mac) := by
  obtain ⟨-, hfwd, -⟩ := netBridgeInit_forwards amplyKernel true .switch mac
    (freshPool _).storage (freshPool _).storage workingChip ⟨rfl, rfl, rfl, rfl, rfl⟩
    workingChip_succeeds (workingChip_lands _)
  have hreset : ∀ i, (slotAt (workingChip.rebootRegs true) (fdbSlotIndex i)).toHost = false := by
    decide
  refine ⟨hfwd, fun i => ?_⟩
  rw [slotAt_startRegs]
  exact hreset i

/-- **The host is isolated under any SPI faults.**  In switch mode, from registers as the bring-up
leaves them, whichever register writes of whichever learns and sweeps fail: the device goes through
the writes in its log, and after each of them the host gets the frames for it and for groups, and
no others, and groups are passed on. -/
theorem host_isolated {dev : Adin2111} {sOwnMac : Mac} {regs : ℕ → Word}
    (hmode : dev.mode = .switch) (h : Isolating dev sOwnMac regs) (fdb : Fdb) (works : ℕ → Bool)
    (ops : List BridgeOp) :
    let s := bridgeRun (busHal dev) dev sOwnMac ⟨fdb, ⟨regs, works, []⟩⟩ ops
    s.adin.regs = RegFile.writes regs s.adin.writes ∧
      ∀ n da p, let v := deviceVerdict (RegFile.writes regs (s.adin.writes.take n)) da p
        (v.toHost = true ↔ macIsGroup da = true ∨ da = sOwnMac) ∧
          (macIsGroup da = true → v.toOtherPort = true) := by
  intro s
  have hkeep : ∀ (t : Bridge Bus) (op : BridgeOp), Journal regs t.adin →
      Journal regs (op.exec (busHal dev) dev sOwnMac t).adin := fun t op ht => ht.bridgeOp hmode op
  have hstart : Journal regs (⟨fdb, ⟨regs, works, []⟩⟩ : Bridge Bus).adin :=
    ⟨rfl, fun w hw => absurd hw List.not_mem_nil⟩
  have hs : Journal regs s.adin := bridgeRun_invariant hkeep ops hstart
  refine ⟨hs.replay, fun n da p => ?_⟩
  exact (h.writes fun w hw => hs.fdb w (List.mem_of_mem_take hw)).verdict hmode da p

/-- With the bus failing at the third write of an FDB slot: halfway through, the host still does
not get the frames of the station. -/
theorem host_isolated_halfway :
    let s := bridgeRun (busHal (twoPorts true .switch)) (twoPorts true .switch) (fun _ => 2)
      ⟨emptyFdb, ⟨startRegs fun _ => 2, fun n => n ≠ 2, []⟩⟩ [.learn 7 (fun _ => 4) .port1]
    ¬ (deviceVerdict (RegFile.writes (startRegs fun _ => 2) (s.adin.writes.take 1)) (fun _ => 4)
      .port2).toHost = true := by
  have h := (host_isolated rfl (startRegs_isolating fun _ => 2) emptyFdb (fun n => n ≠ 2)
    [.learn 7 (fun _ => 4) .port1]).2 1 (fun _ => 4) .port2
  exact fun htrue => absurd (h.1.mp htrue) (by decide)

end StartUp

end Usb2T1L
