import Usb2T1L.Bridge.Requests

/-!
# The filters while the tasks run

The filters of the device from `net_bridge_init` on, under `net_rx_task`, `net_tx_task` and
`link_task` with each SPI transfer as a step of its own: between any two transfers, whatever fails
or is damaged; and whenever no task has the lock, if only the writes of the filters do not fail.

## Main definitions

* `Follows` — the chip is in step with a bus that has only table operations to carry out.

## Main results

* `Follows.locked` — what a task does with the lock is a table operation on the bus, or nothing.
* `host_kept_apart` — **at every moment** the host gets its own frames and those for groups, no
  others, and groups are passed on.
* `filters_follow_table` — **whenever no task has the lock** the device does what the table says.
-/

namespace Usb2T1L

/-! ### One operation after another -/

/-- The driver function of an operation, on the chip. -/
def FdbOp.onChip (dev : Adin2111) (slot : ℕ) (c : Chip) : FdbOp → Chip
  | .set mac p => (adin2111FdbSet (chipHal dev) dev slot mac p c).2
  | .clear => (adin2111FdbClear (chipHal dev) dev slot c).2

/-- The table and the registers, on a bus that works. -/
def Bridge.onBus (b : Bridge Chip) : Bridge Bus := ⟨b.fdb, ⟨b.adin.regs, fun _ => true, []⟩⟩

/-- The chip is in step with a bus that works. -/
structure Follows (b : Bridge Chip) (s : Bridge Bus) : Prop where
  fdb : b.fdb = s.fdb
  regs : ∀ r, Decides r → b.adin.regs r = s.adin.regs r
  filters : b.adin.FiltersWork
  works : s.adin.Works

section Follows

variable {dev : Adin2111} {b : Bridge Chip} {s : Bridge Bus}

theorem FdbOp.onChip_eq (hmode : dev.mode = .switch) (i : Fin netFdbMaxEntries) (op : FdbOp)
    (c : Chip) : op.onChip dev (fdbSlotIndex i) c =
      (Chip.writeSeq dev (op.intended (fdbSlotIndex i)) c).2 := by
  have hports := dev.switch_ports hmode
  have hlt := fdbSlotIndex_lt i
  have hge := le_fdbSlotIndex i
  cases op with
  | set mac p =>
    rw [onChip, adin2111FdbSet, if_neg (by omega), adinWriteFilter_chip]
    rfl
  | clear =>
    rw [onChip, adin2111FdbClear, if_neg (by omega), adinWriteFilter_chip]
    rfl

/-- Where they do not fail, the writes of filters store what they are to store. -/
theorem Chip.FiltersWork.writeSeq (dev : Adin2111) : ∀ {ws : List (ℕ × Word)},
    (∀ w ∈ ws, PlainReg w.1 ∧ Decides w.1) → ∀ {c : Chip}, c.FiltersWork →
      (Chip.writeSeq dev ws c).2.regs = RegFile.writes c.regs ws ∧
        (Chip.writeSeq dev ws c).2.FiltersWork := by
  intro ws
  induction ws with
  | nil => intro _ c h; exact ⟨rfl, h⟩
  | cons w ws ih =>
    intro hws c h
    obtain ⟨⟨hplain, hdec⟩, hws⟩ := List.forall_mem_cons.mp hws
    have hnone : c.fault dev.crcEnabled (true, w.1) = .none := by
      rw [Chip.fault, h w.1 0 hdec]
      split <;> rfl
    obtain ⟨hregs, hfaults, -⟩ := Chip.regs_write hplain w.2 (c.next (true, w.1))
    have hnext : ((c.next (true, w.1)).write w.1 w.2).FiltersWork := by
      intro r n hr
      rw [hfaults]
      exact (Chip.Spares.next _ c).works h r n hr
    rw [Chip.writeSeq, adin2111WriteReg_chip dev hplain.1, hnone]
    obtain ⟨hall, hwork⟩ := ih hws hnext
    exact ⟨hall.trans (by rw [hregs]; rfl), hwork⟩

/-- An operation on a slot does to the filters what it does to them on the bus. -/
theorem Follows.fdbOp (h : Follows b s) (hmode : dev.mode = .switch) (i : Fin netFdbMaxEntries)
    (op : FdbOp) (fdb : Fdb) : Follows ⟨fdb, op.onChip dev (fdbSlotIndex i) b.adin⟩
      ⟨fdb, op.exec dev (fdbSlotIndex i) s.adin⟩ := by
  have hplain : ∀ w ∈ op.intended (fdbSlotIndex i), PlainReg w.1 ∧ Decides w.1 := fun w hw =>
    ⟨by cases op <;> exact plainReg_filterWrites (fdbSlotIndex_lt i) _ _ _ _ _ w hw,
      Or.inr ⟨_, fdbSlotIndex_lt i, FdbOp.mem_slotRegs_of_mem_intended hw⟩⟩
  obtain ⟨hregs, hwork⟩ := Chip.FiltersWork.writeSeq dev hplain h.filters
  rw [← FdbOp.onChip_eq hmode] at hregs hwork
  refine ⟨rfl, fun r hr => ?_, hwork, FdbOp.works_exec hmode op h.works⟩
  dsimp only
  rw [hregs, FdbOp.exec_eq_perform hmode, h.works.perform_regs, RegFile.writes_apply,
    RegFile.writes_apply, h.regs r hr]

theorem follows_onBus (hfilters : b.adin.FiltersWork) : Follows b b.onBus :=
  ⟨rfl, fun _ _ => rfl, hfilters, fun _ => rfl⟩

/-- **Every operation on the table is one on the bus.** -/
theorem Follows.exec (h : Follows b s) (hmode : dev.mode = .switch) (sOwnMac : Mac)
    (op : BridgeOp) :
    Follows (op.exec (chipHal dev) dev sOwnMac b) (op.exec (busHal dev) dev sOwnMac s) := by
  cases op with
  | learn now src ingress =>
    rw [BridgeOp.exec, BridgeOp.exec]
    by_cases hel : Eligible sOwnMac src
    · by_cases hset : Settled b.fdb src ingress
      · have hset' := hset
        rw [h.fdb] at hset'
        obtain ⟨i, hfind, heq⟩ := netBridgeLearn_of_settled (chipHal dev) dev hel hset
        obtain ⟨j, hfind', heq'⟩ := netBridgeLearn_of_settled (busHal dev) dev hel hset'
        rw [heq, heq']
        rw [h.fdb, hfind'] at hfind
        obtain rfl := Option.some.inj hfind
        exact ⟨by rw [h.fdb], h.regs, h.filters, h.works⟩
      · have hset' := hset
        rw [h.fdb] at hset'
        rw [netBridgeLearn_of_not_settled (chipHal dev) dev hel hset,
          netBridgeLearn_of_not_settled (busHal dev) dev hel hset', h.fdb]
        exact h.fdbOp hmode _ (.set src ingress) _
    · rw [netBridgeLearn_of_not_eligible _ _ hel, netBridgeLearn_of_not_eligible _ _ hel]
      exact h
  | sweep now =>
    rw [BridgeOp.exec, BridgeOp.exec, linkTaskSweep, linkTaskSweep]
    generalize List.finRange netFdbMaxEntries = l
    induction l generalizing b s with
    | nil => exact h
    | cons i l ih =>
      rw [List.foldl_cons, List.foldl_cons]
      refine ih ?_
      rw [linkTaskAge, linkTaskAge, h.fdb]
      split
      · exact h.fdbOp hmode i .clear _
      · exact h

/-- What spares the filters is nothing to the bus. -/
theorem Follows.spares (h : Follows b s) {c : Chip} (hc : b.adin.Spares c) :
    Follows { b with adin := c } s where
  fdb := h.fdb
  regs := fun r hr => (hc.regs r hr).trans (h.regs r hr)
  filters := hc.works h.filters
  works := h.works

/-- A function of the driver that looks only. -/
theorem Scripted.Drives.spares {α : Type} {p : BridgeScript α} {f : Chip → α × Chip}
    (hp : Scripted.Drives (chipHal dev) p f) (hall : p.All (Looks dev)) (c : Chip) :
    c.Spares (f c).2 := by
  have hkeep := hall.exec (K := fun b b' : Bridge Chip => b.adin.Spares b'.adin)
    (fun b => Chip.Spares.refl b.adin) (fun _ _ _ => Chip.Spares.trans)
    (fun q b hq => (hq.spares b).2) ⟨emptyFdb, c⟩
  rwa [hp] at hkeep

/-- **What a task does with the lock** is a run of operations on the table, and nothing else to the
filters. -/
theorem Follows.locked (h : Follows b s) (hmode : dev.mode = .switch) (sOwnMac : Mac)
    (op : LockedOp) :
    ∃ ops : List BridgeOp, Follows (op.exec dev sOwnMac (chipHal dev) b)
      (bridgeRun (busHal dev) dev sOwnMac s ops) := by
  have hready := (Scripted.drives_adin2111RxReady dev).spares looks_adin2111RxReady b.adin
  cases op with
  | ack =>
    exact ⟨[], h.spares <|
      (Scripted.drives_adin2111IrqAck dev).spares looks_adin2111IrqAck b.adin⟩
  | attempt f port =>
    exact ⟨[], h.spares <| (Scripted.drives_adin2111WriteFrame dev port _ _).spares
      (looks_adin2111WriteFrame port _ _) b.adin⟩
  | lookup => exact ⟨[], h⟩
  | poll =>
    have hpoll := Scripted.Drives.spares drives_linkUp (looks_linkUp : (linkUp dev).All _) b.adin
    refine ⟨[], ?_⟩
    dsimp only at hpoll
    dsimp only [LockedOp.exec]
    split at hpoll
    · next hif =>
      rw [if_pos hif]
      exact h.spares hpoll
    · next hif =>
      rw [if_neg hif]
      exact h.spares hpoll
  | age now => exact ⟨[.sweep now], h.exec hmode sOwnMac (.sweep now)⟩
  | drain buf now =>
    have hready := h.spares hready
    dsimp only [LockedOp.exec]
    cases buf with
    | none => exact ⟨[], hready⟩
    | some buf =>
      dsimp only
      split
      · have hread := hready.spares <| (Scripted.drives_adin2111ReadFrame dev _).spares
          (looks_adin2111ReadFrame netMaxFrameLen) (adin2111RxReady (chipHal dev) dev b.adin).2
        rw [readAndLearn]
        split
        · next hr =>
          rw [hr] at hread
          exact ⟨[], hread⟩
        · next eth port c hr =>
          rw [hr] at hread
          rw [netRxLearn]
          split
          · exact ⟨[.learn now _ port], hread.exec hmode sOwnMac (.learn now _ port)⟩
          · exact ⟨[], hread⟩
      · exact ⟨[], hready⟩

/-- So is all that they do one after another. -/
theorem Follows.lockedRun (hmode : dev.mode = .switch) (sOwnMac : Mac) (ops : List LockedOp) :
    ∀ {b : Bridge Chip} {s : Bridge Bus}, Follows b s → ∃ table : List BridgeOp,
      Follows (ops.foldl (LockedOp.exec dev sOwnMac (chipHal dev)) b)
        (bridgeRun (busHal dev) dev sOwnMac s table) := by
  induction ops with
  | nil => intro b s h; exact ⟨[], h⟩
  | cons op ops ih =>
    intro b s h
    obtain ⟨first, hfirst⟩ := h.locked hmode sOwnMac op
    obtain ⟨rest, hrest⟩ := ih hfirst
    refine ⟨first ++ rest, ?_⟩
    rw [bridgeRun, List.foldl_append]
    exact hrest

/-- What learns and sweeps lead to from the empty table and inactive slots. -/
theorem Bridge.onBus_run (hmode : dev.mode = .switch) (sOwnMac : Mac) (hempty : b.fdb = emptyFdb)
    (hinactive : ∀ i, (slotAt b.adin.regs (fdbSlotIndex i)).active = false)
    (table : List BridgeOp) :
    Synced b.adin.regs (bridgeRun (busHal dev) dev sOwnMac b.onBus table) ∧
      AllEligible sOwnMac (bridgeRun (busHal dev) dev sOwnMac b.onBus table).fdb := by
  have hkeep : ∀ (t : Bridge Bus) (op : BridgeOp),
      Synced b.adin.regs t ∧ AllEligible sOwnMac t.fdb →
        Synced b.adin.regs (op.exec (busHal dev) dev sOwnMac t) ∧
          AllEligible sOwnMac (op.exec (busHal dev) dev sOwnMac t).fdb :=
    fun t op h => ⟨h.1.exec hmode op, h.2.exec op⟩
  refine bridgeRun_invariant hkeep table ?_
  rw [onBus, hempty]
  exact ⟨synced_empty hinactive fun _ => rfl, fun i hi => absurd hi Bool.false_ne_true⟩

end Follows

/-! ### From start-up on -/

section StartUp

variable (k : Kernel) (crc : Bool) (mode : Mode) (mac : Mac)
  (rxStorage : Fin netRxPoolCount → NetFrame) (txStorage : Fin netTxPoolCount → NetFrame)
  (c : Chip)

/-- The bus and the table as `net_bridge_init` leaves them. -/
def bridgeStart : Bridge Chip :=
  ⟨emptyFdb, (netBridgeInit k crc mode mac rxStorage txStorage c).2.chip⟩

/-- No transfer makes a write fail that was not to fail. -/
theorem keeps_filtersWork (dev : Adin2111) (n : ℕ) : (chipHal dev).Keeps n Chip.FiltersWork := by
  intro tx c _ h
  have hperform : ∀ (wr : Bool) (reg : ℕ) (body : List Byte) (c : Chip),
      (Chip.perform dev.crcEnabled wr reg body c).2.faults = c.faults := by
    intro wr reg body c
    rw [Chip.perform]
    split
    · split
      · unfold Chip.write
        split_ifs <;> rfl
      · rfl
    · split <;> rfl
  show (Chip.xfer dev.crcEnabled tx c).2.FiltersWork
  rw [Chip.xfer]
  cases decodeHeader dev.crcEnabled tx with
  | none => exact h
  | some r =>
    obtain ⟨wr, reg, body⟩ := r
    have hnext := (Chip.Spares.next (wr, reg) c).works h
    dsimp only
    split
    · exact hnext
    · exact hnext
    · intro r n hr
      rw [hperform]
      exact hnext r n hr

theorem filtersWork_bridgeStart (hk : k.GrantsObjects) {dev : Adin2111}
    (hdev : c.InitSucceeds crc mode dev) (h : c.FiltersWork) :
    (bridgeStart k crc mode mac rxStorage txStorage c).adin.FiltersWork := by
  obtain ⟨rx, tx, -, -, hinit⟩ :=
    netBridgeInit_of_succeeds k crc mode mac rxStorage txStorage c hk hdev
  rw [bridgeStart, hinit]
  exact keeps_adinWriteFilter (keeps_filtersWork dev _) dev _ _ _ _ _ _
    (keeps_adin2111Init (keeps_filtersWork _ _) crc mode h)

/-- **The host is kept apart at every moment.**  In switch mode, where the writes of the bring-up
land and the reset leaves the FDB slots sending nothing to the host: in every run of the three
tasks from there, between any two SPI transfers, also in the middle of an operation, and whichever
transfers fail or are damaged, the host gets the frames for it and for groups, and no others, and
groups are passed on. -/
theorem host_kept_apart (hk : k.GrantsObjects) {dev : Adin2111}
    (hdev : c.InitSucceeds crc mode dev) (hlands : BringUpLands dev mac c)
    (hmode : dev.mode = .switch)
    (hquiet : ∀ i, (slotAt (c.rebootRegs crc) (fdbSlotIndex i)).toHost = false)
    {as : List (BridgeTask × ((w : World) → w.Answer))}
    {s : LockState BridgeTask (Bridge Chip) BridgeReq.Answer World.Answer BridgeTask.Locals}
    (hrun : (netTasks dev mac (chipHal dev)).sys.run
      (tasksStart (bridgeStart k crc mode mac rxStorage txStorage c)) as = some s)
    (da : Mac) (p : Port) :
    ((deviceVerdict s.shared.adin.regs da p).toHost = true ↔ macIsGroup da = true ∨ da = mac) ∧
      (macIsGroup da = true → (deviceVerdict s.shared.adin.regs da p).toOtherPort = true) := by
  obtain ⟨-, hfwd, hslots⟩ :=
    netBridgeInit_forwards k crc mode mac rxStorage txStorage c hk hdev hlands
  have hstart : Isolating dev mac
      (bridgeStart k crc mode mac rxStorage txStorage c).adin.regs :=
    ⟨hfwd, fun i => by rw [bridgeStart, hslots i]; exact hquiet i⟩
  have hs := Threads.use_invariant (fun b => Isolating dev mac b.adin.regs)
    (programs_netTasks (chipHal dev)) (fun _ _ hq hb => hq.isolating hb) (asks_tasksStart _) hstart
    hrun
  exact hs.verdict hmode da p

/-- Station 04:04:04:04:04:04 sends a frame to everybody, as soon as the bring-up is over. -/
def stationHeard : Chip :=
  { workingChip with
    arrivals := fun n => if n = 115 then
      [(.port1, ⟨(0, 0), List.replicate 6 0xFF ++ List.replicate 54 4, 0, by decide, by decide⟩)]
    else [] }

theorem stationHeard_succeeds :
    stationHeard.InitSucceeds true .switch (twoPorts true .switch) where
  phyid := rfl
  known := rfl
  config2 := by decide
  imask1 := by decide
  config0 := by decide

theorem stationHeard_lands (mac : Mac) :
    BringUpLands (twoPorts true .switch) mac stationHeard where
  config := ⟨by decide, by decide, by decide, by decide⟩
  host := by simp [hostWrites, filterWrites, Lands, Chip.fault, stationHeard, workingChip]

/-- The board after start-up. -/
def boardStart : Bridge Chip :=
  bridgeStart amplyKernel true .switch (fun _ => 2) (freshPool _).storage (freshPool _).storage
    stationHeard

/-- There is a buffer for a frame. -/
def bufferWorld : (w : World) → w.Answer
  | .rxAlloc => (some ⟨0, 0, fun _ => 0⟩ : Option NetFrame)
  | w => quietWorld w

/-- While `link_task` waits for the lock, `net_rx_task` takes so many steps. -/
def rxSteps (n : ℕ) : List (BridgeTask × ((w : World) → w.Answer)) :=
  (.link, quietWorld) :: List.replicate n (.netRx, bufferWorld)

/-- With the entry of the station made, and two of the four writes of its slot. -/
theorem host_kept_apart_halfway : ∃ s, (netTasks (twoPorts true .switch) (fun _ => 2)
    (chipHal (twoPorts true .switch))).sys.run (tasksStart boardStart) (rxSteps 37) = some s ∧
      netBridgeFdbLookup s.shared.fdb (fun _ => 4) = some .port1 ∧
      (slotAt s.shared.adin.regs 2).maskLwr = 0xFFFFFFFF ∧
        (slotAt s.shared.adin.regs 2).filtLwr = 0 ∧
          ¬ (deviceVerdict s.shared.adin.regs (fun _ => 4) .port2).toHost = true := by
  have hquiet : ∀ i, (slotAt (stationHeard.rebootRegs true) (fdbSlotIndex i)).toHost = false := by
    decide
  have hsummary : ((netTasks (twoPorts true .switch) (fun _ => 2)
      (chipHal (twoPorts true .switch))).sys.run (tasksStart boardStart) (rxSteps 37)).map
        (fun s => (netBridgeFdbLookup s.shared.fdb (fun _ => 4),
          (slotAt s.shared.adin.regs 2).maskLwr, (slotAt s.shared.adin.regs 2).filtLwr)) =
          some (some .port1, 0xFFFFFFFF, 0) := by decide +kernel
  obtain ⟨s, hrun, hs⟩ := Option.map_eq_some_iff.mp hsummary
  simp only [Prod.mk.injEq] at hs
  have h := host_kept_apart amplyKernel true .switch (fun _ => 2) (freshPool _).storage
    (freshPool _).storage stationHeard ⟨rfl, rfl, rfl, rfl, rfl⟩ stationHeard_succeeds
    (stationHeard_lands _) rfl hquiet hrun (fun _ => 4) .port2
  exact ⟨s, hrun, hs.1, hs.2.1, hs.2.2, fun hhost => absurd (h.1.mp hhost) (by decide)⟩

/-- **The device does what the table says.**  In switch mode, where the writes of the bring-up land,
the reset leaves the FDB slots inactive and no write of a filter fails afterwards (other transfers
may): in every run of the three tasks, whenever none of them has the lock, the table is one that
learns and sweeps lead to, one after another, and the device sends each frame from the wire where
the table says. -/
theorem filters_follow_table (hk : k.GrantsObjects) {dev : Adin2111}
    (hdev : c.InitSucceeds crc mode dev) (hlands : BringUpLands dev mac c)
    (hmode : dev.mode = .switch)
    (hinactive : ∀ i, (slotAt (c.rebootRegs crc) (fdbSlotIndex i)).active = false)
    (hfilters : (bridgeStart k crc mode mac rxStorage txStorage c).adin.FiltersWork)
    {as : List (BridgeTask × ((w : World) → w.Answer))}
    {s : LockState BridgeTask (Bridge Chip) BridgeReq.Answer World.Answer BridgeTask.Locals}
    (hrun : (netTasks dev mac (chipHal dev)).sys.run
      (tasksStart (bridgeStart k crc mode mac rxStorage txStorage c)) as = some s)
    (hfree : s.holder = none) :
    (∃ table : List BridgeOp, s.shared.fdb = (bridgeRun (busHal dev) dev mac
      (bridgeStart k crc mode mac rxStorage txStorage c).onBus table).fdb) ∧
      ∀ da p, deviceVerdict s.shared.adin.regs da p = switchVerdict mac s.shared.fdb da p := by
  obtain ⟨-, hfwd, hslots⟩ :=
    netBridgeInit_forwards k crc mode mac rxStorage txStorage c hk hdev hlands
  have hinactive' : ∀ i, (slotAt (bridgeStart k crc mode mac rxStorage txStorage c).adin.regs
      (fdbSlotIndex i)).active = false := fun i => by
    rw [bridgeStart, hslots i]
    exact hinactive i
  -- the run is one of whole operations, and those are operations on the table
  obtain ⟨ops, hops⟩ := exists_ops_of_free (chipHal dev) dev mac _ hrun hfree
  obtain ⟨table, h⟩ := (follows_onBus hfilters).lockedRun hmode mac ops
  rw [← hops] at h
  obtain ⟨hsynced, hel⟩ := Bridge.onBus_run hmode mac rfl hinactive' table
  refine ⟨⟨table, h.fdb⟩, fun da p => ?_⟩
  rw [h.fdb, deviceVerdict_congr h.regs]
  exact hsynced.verdict hmode (hfwd.congr hsynced.reserved) hel da p

/-- With the station learnt and the lock given back: frames for it go on from the other port. -/
theorem filters_follow_table_learnt : ∃ s, (netTasks (twoPorts true .switch) (fun _ => 2)
    (chipHal (twoPorts true .switch))).sys.run (tasksStart boardStart) (rxSteps 40) = some s ∧
      netBridgeFdbLookup s.shared.fdb (fun _ => 4) = some .port1 ∧
        deviceVerdict s.shared.adin.regs (fun _ => 4) .port2 = ⟨false, true⟩ := by
  have hinactive : ∀ i,
      (slotAt (stationHeard.rebootRegs true) (fdbSlotIndex i)).active = false := by decide
  have hsummary : ((netTasks (twoPorts true .switch) (fun _ => 2)
      (chipHal (twoPorts true .switch))).sys.run (tasksStart boardStart) (rxSteps 40)).map
        (fun s => (s.holder.isNone, netBridgeFdbLookup s.shared.fdb (fun _ => 4))) =
          some (true, some .port1) := by decide +kernel
  obtain ⟨s, hrun, hs⟩ := Option.map_eq_some_iff.mp hsummary
  obtain ⟨hfree, hlookup⟩ := Prod.mk.inj hs
  have hfilters := filtersWork_bridgeStart amplyKernel true .switch (fun _ => 2)
    (freshPool _).storage (freshPool _).storage stationHeard ⟨rfl, rfl, rfl, rfl, rfl⟩
    stationHeard_succeeds fun _ _ _ => rfl
  have h := (filters_follow_table amplyKernel true .switch (fun _ => 2) (freshPool _).storage
    (freshPool _).storage stationHeard ⟨rfl, rfl, rfl, rfl, rfl⟩ stationHeard_succeeds
    (stationHeard_lands _) rfl hinactive hfilters hrun (Option.isNone_iff_eq_none.mp hfree)).2
    (fun _ => 4) .port2
  refine ⟨s, hrun, hlookup, h.trans ?_⟩
  rw [switchVerdict, hlookup]
  rfl

end StartUp

end Usb2T1L
