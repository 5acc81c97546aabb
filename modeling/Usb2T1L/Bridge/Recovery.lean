import Usb2T1L.Bridge.Coherence

/-!
# After SPI faults

`net_bridge_learn` and the aging scan commit the software table first and discard
the status of the device update, and a sighting that only refreshes an entry
issues no write.  So a dropped update stays in the device, and this module says
when it does: an aging sweep and a sighting of `m`, both on a bus that works
again, put the device right for `m` exactly if the damage done before lies in
slots that the two rewrite.

## Main definitions

* `Repaired` — the device is right for a station.
* `Undamaged` — the condition, on the state before the sweep.

## Main results

* `Bridge.slotAt_sweep` — the slots after a sweep on a bus that works.
* `recovery_iff` — **when a sweep and a sighting repair the device.**
-/

namespace Usb2T1L

/-- The filter slot of entry `i`. -/
def Bridge.slot (s : Bridge Bus) (i : Fin netFdbMaxEntries) : FilterSlot :=
  slotAt s.adin.regs (fdbSlotIndex i)

/-- Exactly one FDB slot matches destination `m`, on whatever ingress port; it is
the slot of the table entry of `m`, and it relays `m` toward `p`. -/
def Repaired (s : Bridge Bus) (m : Mac) (p : Port) : Prop :=
  ∃ i, fdbTable.find s.fdb m = some i ∧ (∀ j, (∃ q, (s.slot j).Matches m q) ↔ j = i) ∧
    (s.slot i).Relays m p.opposite

/-- The table after a sweep at tick `now`. -/
def sweptFdb (now : Word) (fdb : Fdb) : Fdb := fun i =>
  if stale now fdb i then { fdb i with valid := false } else fdb i

/-- The failures so far have not damaged what a sweep at tick `now₁` and a learn
of `m` on `p` at tick `now₂` leave standing. -/
structure Undamaged (s : Bridge Bus) (now₁ now₂ : Word) (m : Mac) (p : Port) : Prop where
  /-- A slot that matches `m` belongs to an entry the sweep retires, or to the entry
  where `m` belongs after the sweep. -/
  others : ∀ j, (∃ q, (s.slot j).Matches m q) →
    stale now₁ s.fdb j = true ∨ Home (sweptFdb now₁ s.fdb) now₂ m j
  /-- If an entry has `m` on port `p` and is fresh, so that neither the sweep nor the
  learn writes its slot, then its slot already relays `m` toward `p`. -/
  own : ∀ i, (s.fdb i).valid = true → (s.fdb i).mac = m → (s.fdb i).port = p →
    stale now₁ s.fdb i = false → (s.slot i).Relays m p.opposite

variable {dev : Adin2111}

/-! ### The device after a sweep -/

/-- Clearing some slots, on a bus that works. -/
theorem foldl_fdbClear (hdev : dev.mode = .switch) :
    ∀ (l : List (Fin netFdbMaxEntries)) {b : Bus}, b.Works →
      (l.foldl (fun a i => (adin2111FdbClear (busHal dev) dev (fdbSlotIndex i) a).2) b).Works ∧
      ∀ j, slotAt (l.foldl (fun a i => (adin2111FdbClear (busHal dev) dev (fdbSlotIndex i) a).2)
          b).regs (fdbSlotIndex j) =
        if j ∈ l then FdbOp.slot .clear else slotAt b.regs (fdbSlotIndex j) := by
  intro l
  induction l with
  | nil => intro b hb; exact ⟨hb, fun j => by rw [if_neg List.not_mem_nil]; rfl⟩
  | cons i l ih =>
    intro b hb
    have hclear : (FdbOp.exec dev (fdbSlotIndex i) b .clear).Works :=
      FdbOp.works_exec hdev .clear hb
    obtain ⟨hworks, hslot⟩ := ih hclear
    refine ⟨hworks, fun j => (hslot j).trans ?_⟩
    by_cases hjl : j ∈ l
    · rw [if_pos hjl, if_pos (List.mem_cons_of_mem i hjl)]
    · rw [if_neg hjl]
      rcases eq_or_ne j i with rfl | hji
      · rw [if_pos List.mem_cons_self, FdbOp.slotAt_exec_self hdev .clear hb]
      · rw [if_neg fun h => hjl ((List.mem_cons.mp h).resolve_left hji),
          FdbOp.slotAt_exec_of_ne hdev hji .clear b]

theorem linkTaskSweep_works (hdev : dev.mode = .switch) {s : Bridge Bus} (hs : s.adin.Works)
    (now : Word) : (linkTaskSweep (busHal dev) dev now s).adin.Works := by
  rw [linkTaskSweep_adin]
  exact (foldl_fdbClear hdev _ hs).1

/-- **The slots after a sweep**: those of stale entries are cleared. -/
theorem Bridge.slotAt_sweep (hdev : dev.mode = .switch) {s : Bridge Bus} (hs : s.adin.Works)
    (now : Word) (j : Fin netFdbMaxEntries) :
    (linkTaskSweep (busHal dev) dev now s).slot j =
      if stale now s.fdb j then FdbOp.slot .clear else s.slot j := by
  rw [slot, linkTaskSweep_adin, (foldl_fdbClear hdev _ hs).2 j]
  simp only [List.mem_filter, List.mem_finRange, true_and]
  rfl

theorem not_matches_clear (m : Mac) (q : Port) : ¬ (FdbOp.slot .clear).Matches m q :=
  FilterSlot.not_matches_of_inactive (by decide) m q

/-! ### The device after a sweep and a learn -/

/-- Which slots match `m` after the sweep. -/
theorem matches_sweep_iff (hdev : dev.mode = .switch) {s : Bridge Bus} (hs : s.adin.Works)
    (now : Word) (m : Mac) (j : Fin netFdbMaxEntries) :
    (∃ q, ((linkTaskSweep (busHal dev) dev now s).slot j).Matches m q) ↔
      stale now s.fdb j = false ∧ ∃ q, (s.slot j).Matches m q := by
  rw [Bridge.slotAt_sweep hdev hs]
  cases stale now s.fdb j with
  | true => simp [not_matches_clear]
  | false => simp

theorem sweep_fdb_eq (s : Bridge Bus) (now : Word) :
    (linkTaskSweep (busHal dev) dev now s).fdb = sweptFdb now s.fdb :=
  funext fun i => linkTaskSweep_fdb now s i

/-- The entry of `m` in the swept table. -/
theorem find_swept_iff {fdb : Fdb} {now : Word} (hd : fdbTable.Distinct (sweptFdb now fdb))
    {m : Mac} {i : Fin netFdbMaxEntries} :
    fdbTable.find (sweptFdb now fdb) m = some i ↔
      (fdb i).valid = true ∧ (fdb i).mac = m ∧ stale now fdb i = false := by
  rw [Table.find_eq_some_iff hd]
  show (sweptFdb now fdb i).valid = true ∧ (sweptFdb now fdb i).mac = m ↔ _
  rw [sweptFdb]
  cases stale now fdb i with
  | true => simp
  | false => simp

section Learn

variable {sOwnMac : Mac} {s : Bridge Bus} {m : Mac} {p : Port} {now : Word}

/-- The entry of `m` after a learn. -/
theorem find_learn (hd : fdbTable.Distinct s.fdb) (hm : Eligible sOwnMac m) :
    fdbTable.find (netBridgeLearn (busHal dev) dev sOwnMac now m p s).fdb m =
      some (learnSlot s.fdb now m) := by
  rw [netBridgeLearn_fdb _ _ hm]
  rw [Table.find_eq_some_iff (distinct_learn hd now m p), Function.update_self]
  exact ⟨rfl, rfl⟩

theorem slot_learn_of_settled (hm : Eligible sOwnMac m) (hset : Settled s.fdb m p)
    (j : Fin netFdbMaxEntries) :
    (netBridgeLearn (busHal dev) dev sOwnMac now m p s).slot j = s.slot j := by
  obtain ⟨i, -, heq⟩ := netBridgeLearn_of_settled (busHal dev) dev hm hset
  rw [heq]
  rfl

theorem slot_learn_of_not_settled (hdev : dev.mode = .switch) (hs : s.adin.Works)
    (hm : Eligible sOwnMac m) (hset : ¬ Settled s.fdb m p) (j : Fin netFdbMaxEntries) :
    (netBridgeLearn (busHal dev) dev sOwnMac now m p s).slot j =
      if j = learnSlot s.fdb now m then fdbSlot m p else s.slot j := by
  rw [netBridgeLearn_of_not_settled (busHal dev) dev hm hset]
  split
  · next hj =>
    rw [hj]
    exact FdbOp.slotAt_exec_self hdev (.set m p) hs
  · next hj => exact FdbOp.slotAt_exec_of_ne hdev hj (.set m p) s.adin

/-- **What a learn repairs.**  On a bus that works a sighting of `m` on `p` leaves
the device right for `m` exactly if no slot but that of `m` matched it before,
and, when the sighting only refreshes the entry, its slot was right already. -/
theorem repaired_learn_iff (hdev : dev.mode = .switch) (hs : s.adin.Works)
    (hd : fdbTable.Distinct s.fdb) (hm : Eligible sOwnMac m) :
    Repaired (netBridgeLearn (busHal dev) dev sOwnMac now m p s) m p ↔
      (∀ j, (∃ q, (s.slot j).Matches m q) → j = learnSlot s.fdb now m) ∧
      ∀ i, fdbTable.find s.fdb m = some i → (s.fdb i).port = p →
        (s.slot i).Relays m p.opposite := by
  have hfind : fdbTable.find (netBridgeLearn (busHal dev) dev sOwnMac now m p s).fdb m =
      some (learnSlot s.fdb now m) := find_learn hd hm
  by_cases hset : Settled s.fdb m p
  · -- nothing is written, and `m` stays where it was found
    have hslot : ∀ j, (netBridgeLearn (busHal dev) dev sOwnMac now m p s).slot j = s.slot j :=
      slot_learn_of_settled hm hset
    obtain ⟨k, hk, hport⟩ := hset
    have hlearn : learnSlot s.fdb now m = k := by rw [learnSlot, hk]; rfl
    rw [hlearn] at hfind ⊢
    constructor
    · rintro ⟨i, hi, huniq, hrel⟩
      obtain rfl : k = i := Option.some.inj (hfind.symm.trans hi)
      refine ⟨fun j hj => (huniq j).mp ?_, fun i hi _ => ?_⟩
      · rw [hslot]; exact hj
      · obtain rfl : k = i := Option.some.inj (hk.symm.trans hi)
        rw [← hslot]; exact hrel
    · rintro ⟨huniq, hown⟩
      have hrel := hown k hk hport
      refine ⟨k, hfind, fun j => ⟨fun hj => huniq j ?_, fun hj => ⟨p.opposite, ?_⟩⟩, ?_⟩
      · rw [hslot] at hj; exact hj
      · rw [hslot, hj]; exact hrel.1
      · rw [hslot]; exact hrel
  · -- the slot of `m` is written, the others are left
    have hslot : ∀ j, (netBridgeLearn (busHal dev) dev sOwnMac now m p s).slot j =
        if j = learnSlot s.fdb now m then fdbSlot m p else s.slot j :=
      slot_learn_of_not_settled hdev hs hm hset
    constructor
    · rintro ⟨i, hi, huniq, -⟩
      obtain rfl : learnSlot s.fdb now m = i := Option.some.inj (hfind.symm.trans hi)
      refine ⟨fun j hj => ?_, fun i hi hport => absurd ⟨i, hi, hport⟩ hset⟩
      by_contra hne
      refine hne ((huniq j).mp ?_)
      rw [hslot, if_neg hne]
      exact hj
    · rintro ⟨huniq, -⟩
      refine ⟨learnSlot s.fdb now m, hfind, fun j => ⟨fun hj => ?_, fun hj => ?_⟩, ?_⟩
      · by_contra hne
        rw [hslot, if_neg hne] at hj
        exact hne (huniq j hj)
      · rw [hslot, if_pos hj]
        exact ⟨p.opposite, fdbSlot_matches.mpr ⟨rfl, rfl⟩⟩
      · rw [hslot, if_pos rfl]
        exact fdbSlot_relays.mpr ⟨rfl, rfl⟩

end Learn

/-- **When a sweep and a sighting repair the device.**  After any run in which any
of the register writes failed, once the bus works: a complete aging sweep and a
learn of `m` on `p` leave exactly one active slot for `m`, that of its table
entry, relaying it toward `p`, if and only if the state before was `Undamaged`. -/
theorem recovery_iff (dev : Adin2111) (hdev : dev.mode = .switch) (sOwnMac : Mac)
    (regs : ℕ → Word) (works : ℕ → Bool) (ops : List BridgeOp) (now₁ now₂ : Word) (m : Mac)
    (p : Port) (hm : Eligible sOwnMac m)
    (hworks : (bridgeRun (busHal dev) dev sOwnMac ⟨emptyFdb, ⟨regs, works, []⟩⟩ ops).adin.Works) :
    let s := bridgeRun (busHal dev) dev sOwnMac ⟨emptyFdb, ⟨regs, works, []⟩⟩ ops
    Repaired (bridgeRun (busHal dev) dev sOwnMac s [.sweep now₁, .learn now₂ m p]) m p ↔
      Undamaged s now₁ now₂ m p := by
  intro s
  have hd : fdbTable.Distinct s.fdb :=
    bridgeRun_invariant (fun s op h => op.distinct_exec s h) ops
      (distinct_of_all_invalid fun _ => rfl)
  have hd' : fdbTable.Distinct (linkTaskSweep (busHal dev) dev now₁ s).fdb :=
    hd.retire fun i hi => linkTaskSweep_fdb_of_valid i hi
  have hlearn : Repaired (netBridgeLearn (busHal dev) dev sOwnMac now₂ m p
      (linkTaskSweep (busHal dev) dev now₁ s)) m p ↔ _ ∧ _ :=
    repaired_learn_iff hdev (linkTaskSweep_works hdev hworks now₁) hd' hm
  rw [sweep_fdb_eq] at hlearn hd'
  refine hlearn.trans ⟨?_, ?_⟩
  · rintro ⟨huniq, hown⟩
    refine ⟨fun j hj => ?_, fun i hv hmac hport hst => ?_⟩
    · cases hst : stale now₁ s.fdb j with
      | true => exact Or.inl rfl
      | false =>
        have hj := huniq j ((matches_sweep_iff hdev hworks now₁ m j).mpr ⟨hst, hj⟩)
        exact Or.inr ((learnSlot_eq_iff hd').mp hj.symm)
    · have hsame : sweptFdb now₁ s.fdb i = s.fdb i := by rw [sweptFdb, hst]; rfl
      have hrel := hown i ((find_swept_iff hd').mpr ⟨hv, hmac, hst⟩) (by rw [hsame]; exact hport)
      rw [Bridge.slotAt_sweep hdev hworks, hst] at hrel
      exact hrel
  · rintro ⟨hothers, hown⟩
    refine ⟨fun j hj => ?_, fun i hi hport => ?_⟩
    · obtain ⟨hst, hj⟩ := (matches_sweep_iff hdev hworks now₁ m j).mp hj
      rcases hothers j hj with h | h
      · rw [hst] at h
        exact absurd h Bool.false_ne_true
      · exact ((learnSlot_eq_iff hd').mpr h).symm
    · obtain ⟨hv, hmac, hst⟩ := (find_swept_iff hd').mp hi
      have hsame : sweptFdb now₁ s.fdb i = s.fdb i := by rw [sweptFdb, hst]; rfl
      rw [hsame] at hport
      rw [Bridge.slotAt_sweep hdev hworks, hst]
      exact hown i hv hmac hport hst

/-- The bridge after the first sighting of one station, of whose update the very
first register write failed. -/
def droppedUpdate : Bridge Bus :=
  bridgeRun (busHal boardAdin) boardAdin (fun _ => 0)
    ⟨emptyFdb, ⟨fun _ => 0, fun n => decide (n ≠ 0), []⟩⟩
    [.learn 0 ![0x02, 0x11, 0x22, 0x33, 0x44, 0x55] .port1]

theorem droppedUpdate_works : droppedUpdate.adin.Works := fun _ => rfl

/-- The bus works again, the station is swept over and sighted once more, and yet
no slot relays it: its entry is only refreshed. -/
theorem refresh_does_not_repair :
    droppedUpdate.adin.Works ∧
      ¬ Repaired (bridgeRun (busHal boardAdin) boardAdin (fun _ => 0) droppedUpdate
        [.sweep 1, .learn 2 ![0x02, 0x11, 0x22, 0x33, 0x44, 0x55] .port1])
        ![0x02, 0x11, 0x22, 0x33, 0x44, 0x55] .port1 := by
  refine ⟨droppedUpdate_works, ?_⟩
  rintro ⟨i, -, -, hrel⟩
  have hnone : ∀ j, (slotAt (bridgeRun (busHal boardAdin) boardAdin (fun _ => 0) droppedUpdate
      [.sweep 1, .learn 2 ![0x02, 0x11, 0x22, 0x33, 0x44, 0x55] .port1]).adin.regs
        (fdbSlotIndex j)).active = false := by
    decide
  exact FilterSlot.not_matches_of_inactive (hnone i) _ _ hrel.1

theorem recovery_iff_dropped :
    Repaired (bridgeRun (busHal boardAdin) boardAdin (fun _ => 0) droppedUpdate
        [.sweep 1, .learn 2 ![0x02, 0x11, 0x22, 0x33, 0x44, 0x55] .port1])
        ![0x02, 0x11, 0x22, 0x33, 0x44, 0x55] .port1 ↔
      Undamaged droppedUpdate 1 2 ![0x02, 0x11, 0x22, 0x33, 0x44, 0x55] .port1 :=
  recovery_iff boardAdin rfl (fun _ => 0) (fun _ => 0) (fun n => decide (n ≠ 0))
    [.learn 0 ![0x02, 0x11, 0x22, 0x33, 0x44, 0x55] .port1] 1 2 _ .port1 (by decide)
    droppedUpdate_works

end Usb2T1L
