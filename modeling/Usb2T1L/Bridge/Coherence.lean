import Usb2T1L.Bridge.Fdb

/-!
# The hardware table follows the software table

On a bus that works, every operation leaves the filter slots exactly as `s_fdb`
says: slot `2 + i` is the entry of `s_fdb[i]` if that is valid, and inactive
otherwise.

## Main definitions

* `Coherent` — the slots are as the table says.
* `Synced` — the invariant of a run: coherence, distinct addresses, a bus that
  works, and a write log confined to the FDB slots.

## Main results

* `Synced.exec` — every operation keeps the invariant.
* `fdb_coherent` — **what the device relays is what the table says**, after every
  run.
-/

namespace Usb2T1L

/-- Filter slot `2 + i` is the entry of `s_fdb[i]`, if that is valid. -/
def Coherent (s : Bridge Bus) : Prop :=
  ∀ i, ((s.fdb i).valid = true →
      slotAt s.adin.regs (fdbSlotIndex i) = fdbSlot (s.fdb i).mac (s.fdb i).port) ∧
    ((s.fdb i).valid = false → (slotAt s.adin.regs (fdbSlotIndex i)).active = false)

/-- A register the FDB has no business with: one of the group or host filter, or
none of the filter table at all. -/
def Reserved (r : ℕ) : Prop := ∀ i : Fin netFdbMaxEntries, r ∉ slotRegs (fdbSlotIndex i)

/-- The invariant of a run from registers `regs`. -/
structure Synced (regs : ℕ → Word) (s : Bridge Bus) : Prop where
  works : s.adin.Works
  distinct : fdbTable.Distinct s.fdb
  coherent : Coherent s
  log : ∀ w ∈ s.adin.writes, ¬ Reserved w.1
  reserved : ∀ r, Reserved r → s.adin.regs r = regs r

variable {dev : Adin2111} {sOwnMac : Mac} {regs : ℕ → Word}

/-- Running a driver operation on slot `i`, with the table entry set to match,
keeps the two in step. -/
theorem Synced.update (hdev : dev.mode = .switch) {s : Bridge Bus} (hs : Synced regs s)
    (i : Fin netFdbMaxEntries) (op : FdbOp) {e : FdbEntry}
    (he : (e.valid = true → op.slot = fdbSlot e.mac e.port) ∧
      (e.valid = false → op.slot.active = false))
    (hd : fdbTable.Distinct (Function.update s.fdb i e)) :
    Synced regs ⟨Function.update s.fdb i e, op.exec dev (fdbSlotIndex i) s.adin⟩ where
  works := FdbOp.works_exec hdev op hs.works
  distinct := hd
  coherent := by
    intro j
    rcases eq_or_ne j i with rfl | hji
    · simp only [Function.update_self]
      rw [FdbOp.slotAt_exec_self hdev op hs.works]
      exact he
    · simp only [Function.update_of_ne hji]
      rw [FdbOp.slotAt_exec_of_ne hdev hji op s.adin]
      exact hs.coherent j
  log := by
    intro w hw
    rcases FdbOp.mem_writes_exec hdev hw with h | h
    · exact hs.log w h
    · exact fun hres => hres i h
  reserved := by
    intro r hr
    show (op.exec dev (fdbSlotIndex i) s.adin).regs r = regs r
    rw [FdbOp.exec_regs_of_notMem hdev (hr i) op]
    exact hs.reserved r hr

/-- Refreshing a stamp does not concern the device. -/
theorem Synced.refresh {s : Bridge Bus} (hs : Synced regs s) (i : Fin netFdbMaxEntries)
    (now : Word) :
    Synced regs { s with fdb := Function.update s.fdb i { s.fdb i with stamp := now } } := by
  have hsame : ∀ j, (Function.update s.fdb i { s.fdb i with stamp := now } j).mac = (s.fdb j).mac ∧
      (Function.update s.fdb i { s.fdb i with stamp := now } j).port = (s.fdb j).port ∧
        (Function.update s.fdb i { s.fdb i with stamp := now } j).valid = (s.fdb j).valid := by
    intro j
    rcases eq_or_ne j i with rfl | hji
    · rw [Function.update_self]; exact ⟨rfl, rfl, rfl⟩
    · rw [Function.update_of_ne hji]; exact ⟨rfl, rfl, rfl⟩
  refine ⟨hs.works, ?_, fun j => ?_, hs.log, hs.reserved⟩
  · intro j k hj hk hjk
    obtain ⟨hmj, -, hvj⟩ := hsame j
    obtain ⟨hmk, -, hvk⟩ := hsame k
    exact hs.distinct j k (hvj.symm.trans hj) (hvk.symm.trans hk) (hmj.symm.trans (hjk.trans hmk))
  · obtain ⟨hm, hp, hv⟩ := hsame j
    have hj := hs.coherent j
    rw [← hm, ← hp, ← hv] at hj
    exact hj

/-- A learn keeps table and device in step. -/
theorem Synced.learn (hdev : dev.mode = .switch) {s : Bridge Bus} (hs : Synced regs s)
    (now : Word) (src : Mac) (ingress : Port) :
    Synced regs (netBridgeLearn (busHal dev) dev sOwnMac now src ingress s) := by
  by_cases hel : Eligible sOwnMac src
  · by_cases hset : Settled s.fdb src ingress
    · obtain ⟨i, -, heq⟩ := netBridgeLearn_of_settled (busHal dev) dev hel hset
      rw [heq]
      exact hs.refresh i now
    · rw [netBridgeLearn_of_not_settled (busHal dev) dev hel hset]
      exact hs.update hdev _ (.set src ingress) ⟨fun _ => rfl, fun h => absurd h (by simp)⟩
        (distinct_learn hs.distinct now src ingress)
  · rw [netBridgeLearn_of_not_eligible _ _ hel]
    exact hs

/-- One round of the aging scan keeps table and device in step. -/
theorem Synced.age (hdev : dev.mode = .switch) {s : Bridge Bus} (hs : Synced regs s) (now : Word)
    (i : Fin netFdbMaxEntries) : Synced regs (linkTaskAge (busHal dev) dev now s i) := by
  rw [linkTaskAge]
  split
  · refine hs.update hdev i .clear ⟨fun h => absurd h (by simp), fun _ => rfl⟩ ?_
    refine hs.distinct.retire fun j hj => ?_
    rcases eq_or_ne j i with rfl | hji
    · rw [Function.update_self] at hj
      exact absurd hj Bool.false_ne_true
    · exact Function.update_of_ne hji _ _
  · exact hs

/-- **Every operation keeps table and device in step.** -/
theorem Synced.exec (hdev : dev.mode = .switch) {s : Bridge Bus} (hs : Synced regs s)
    (op : BridgeOp) : Synced regs (op.exec (busHal dev) dev sOwnMac s) := by
  cases op with
  | learn now src ingress => exact hs.learn hdev now src ingress
  | sweep now =>
    show Synced regs ((List.finRange netFdbMaxEntries).foldl (linkTaskAge (busHal dev) dev now) s)
    generalize List.finRange netFdbMaxEntries = l
    induction l generalizing s with
    | nil => exact hs
    | cons i l ih => exact ih (hs.age hdev now i)

/-- A device whose FDB slots are inactive agrees with the empty table. -/
theorem synced_empty (hinactive : ∀ i, (slotAt regs (fdbSlotIndex i)).active = false)
    {works : ℕ → Bool} (hworks : ∀ n, works n = true) :
    Synced regs ⟨emptyFdb, ⟨regs, works, []⟩⟩ where
  works := hworks
  distinct := distinct_of_all_invalid fun _ => rfl
  coherent := fun i => ⟨fun h => absurd h Bool.false_ne_true, fun _ => hinactive i⟩
  log := fun _ hw => absurd hw List.not_mem_nil
  reserved := fun _ _ => rfl

/-! ### Reading the invariant off -/

/-- The slot is active for exactly one station: an exact 48-bit match, forwarded
to the other port and not to the host, for frames entering on the port opposite
to where the station lives. -/
structure ActiveFor (f : FilterSlot) (mac : Mac) (port : Port) : Prop where
  addr : f.filtUpr.setWidth 16 = addrUpr mac ∧ f.filtLwr = addrLwr mac
  mask : f.maskUpr = 0xFFFF ∧ f.maskLwr = 0xFFFFFFFF
  toOtherPort : f.toOtherPort = true
  toHost : f.toHost = false
  appliesTo : ∀ p, f.appliesTo p = true ↔ p = port.opposite

theorem fdbSlot_activeFor (mac : Mac) (port : Port) : ActiveFor (fdbSlot mac port) mac port where
  addr := ⟨setWidth_fdbCtl_or port (addrUpr mac), rfl⟩
  mask := ⟨show (0xFFFF : BitVec 16).setWidth 32 = 0xFFFF by decide, rfl⟩
  toOtherPort := fdbSlot_toOtherPort mac port
  toHost := fdbSlot_toHost mac port
  appliesTo := by simp

/-- The registers of the group and host filters, and those outside the filter
table, are reserved. -/
theorem reserved_of_not_fdb {r : ℕ}
    (h : r ∈ slotRegs 0 ∨ r ∈ slotRegs 1 ∨ ∀ k < adinMacFilterSlots, r ∉ slotRegs k) :
    Reserved r := by
  intro i
  have hlt := fdbSlotIndex_lt i
  have hge : 2 ≤ fdbSlotIndex i := le_fdbSlotIndex i
  rcases h with h | h | h
  · exact slotRegs_disjoint (by decide) hlt (by omega) h
  · exact slotRegs_disjoint (by decide) hlt (by omega) h
  · exact h _ hlt

theorem Synced.matches_iff {s : Bridge Bus} (hs : Synced regs s) {i : Fin netFdbMaxEntries}
    {da : Mac} {ingress : Port} :
    (slotAt s.adin.regs (fdbSlotIndex i)).Matches da ingress ↔
      (s.fdb i).valid = true ∧ (s.fdb i).mac = da ∧ ingress = (s.fdb i).port.opposite := by
  obtain ⟨hvalid, hinvalid⟩ := hs.coherent i
  cases hv : (s.fdb i).valid with
  | true =>
    rw [hvalid hv, fdbSlot_matches]
    simp only [true_and, eq_comm]
  | false =>
    simp only [Bool.false_eq_true, false_and, iff_false]
    exact FilterSlot.not_matches_of_inactive (hinvalid hv) da ingress

theorem Synced.relays_iff {s : Bridge Bus} (hs : Synced regs s) {i : Fin netFdbMaxEntries}
    {da : Mac} {ingress : Port} :
    (slotAt s.adin.regs (fdbSlotIndex i)).Relays da ingress ↔
      (s.fdb i).valid = true ∧ (s.fdb i).mac = da ∧ ingress = (s.fdb i).port.opposite := by
  rw [FilterSlot.Relays, hs.matches_iff, and_iff_left_iff_imp]
  rintro ⟨hv, -, -⟩
  rw [(hs.coherent i).1 hv]
  exact fdbSlot_toOtherPort _ _

/-- **What the device relays is what the table says.**  After every run of learns
and sweeps on a bus that works, from the empty table and inactive FDB slots:
slot `2 + i` is active exactly if `s_fdb[i]` is valid, and then for exactly its
station; the pairs relayed are those of the valid entries; no destination is
matched by two FDB slots; and nothing else of the device has been written. -/
theorem fdb_coherent (dev : Adin2111) (hdev : dev.mode = .switch) (sOwnMac : Mac)
    (regs : ℕ → Word) (hinactive : ∀ i, (slotAt regs (fdbSlotIndex i)).active = false)
    (works : ℕ → Bool) (hworks : ∀ n, works n = true) (ops : List BridgeOp) :
    let s := bridgeRun (busHal dev) dev sOwnMac ⟨emptyFdb, ⟨regs, works, []⟩⟩ ops
    (∀ i, (slotAt s.adin.regs (fdbSlotIndex i)).active = (s.fdb i).valid ∧
      ((s.fdb i).valid = true →
        ActiveFor (slotAt s.adin.regs (fdbSlotIndex i)) (s.fdb i).mac (s.fdb i).port)) ∧
    (∀ da ingress, (∃ i, (slotAt s.adin.regs (fdbSlotIndex i)).Relays da ingress) ↔
      ∃ i, (s.fdb i).valid = true ∧ (s.fdb i).mac = da ∧ ingress = (s.fdb i).port.opposite) ∧
    (∀ da p q i j, (slotAt s.adin.regs (fdbSlotIndex i)).Matches da p →
      (slotAt s.adin.regs (fdbSlotIndex j)).Matches da q → i = j) ∧
    ∀ r, r ∈ slotRegs 0 ∨ r ∈ slotRegs 1 ∨ (∀ k < adinMacFilterSlots, r ∉ slotRegs k) →
      s.adin.regs r = regs r ∧ ∀ w ∈ s.adin.writes, w.1 ≠ r := by
  intro s
  have hs : Synced regs s :=
    bridgeRun_invariant (fun _ op h => h.exec hdev op) ops (synced_empty hinactive hworks)
  refine ⟨fun i => ?_, fun da ingress => exists_congr fun i => hs.relays_iff, ?_, fun r hr => ?_⟩
  · obtain ⟨hvalid, hinvalid⟩ := hs.coherent i
    cases hv : (s.fdb i).valid with
    | true =>
      rw [hvalid hv]
      exact ⟨fdbSlot_active _ _, fun _ => fdbSlot_activeFor _ _⟩
    | false => exact ⟨hinvalid hv, fun h => absurd h Bool.false_ne_true⟩
  · intro da p q i j hi hj
    obtain ⟨hvi, hmi, -⟩ := hs.matches_iff.mp hi
    obtain ⟨hvj, hmj, -⟩ := hs.matches_iff.mp hj
    exact hs.distinct i j hvi hvj (hmi.trans hmj.symm)
  · have hres := reserved_of_not_fdb hr
    exact ⟨hs.reserved r hres, fun w hw heq => hs.log w hw (heq ▸ hres)⟩

/-- On the board, after one station has been sighted on port 1. -/
theorem fdb_coherent_board :
    ∃ i, (slotAt (bridgeRun (busHal boardAdin) boardAdin (fun _ => 0)
      ⟨emptyFdb, ⟨fun _ => 0, fun _ => true, []⟩⟩
      [.learn 7 ![0x02, 0x11, 0x22, 0x33, 0x44, 0x55] .port1]).adin.regs (fdbSlotIndex i)).Relays
        ![0x02, 0x11, 0x22, 0x33, 0x44, 0x55] .port2 :=
  ((fdb_coherent boardAdin rfl (fun _ => 0) (fun _ => 0) (by decide) (fun _ => true)
    (fun _ => rfl) [.learn 7 ![0x02, 0x11, 0x22, 0x33, 0x44, 0x55] .port1]).2.1
      ![0x02, 0x11, 0x22, 0x33, 0x44, 0x55] .port2).mpr ⟨0, by decide⟩

end Usb2T1L
