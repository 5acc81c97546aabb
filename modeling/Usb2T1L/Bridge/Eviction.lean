import Usb2T1L.Bridge.Coherence

/-!
# Which entry gives way

`net_bridge_learn` stores a new station over a free entry, over one that has aged out, or over
the least recently used one.  It takes the first of the former two kinds that its scan comes to,
so an aged-out entry in front of every free one is given up although there is room.

## Main definitions

* `Fresh` — a valid entry that has not aged out.
* `UsesFree` — a learn takes a free entry, and leaves the valid ones and their filter slots.
* `FreeFirst` — no entry has aged out in front of the first free one.

## Main results

* `learn_evicts_oldest` — **a fresh entry gives way only if all are fresh, and it is the oldest**.
* `learn_uses_free_iff` — **a free entry is used** exactly if the scan comes to it first.
-/

namespace Usb2T1L

/-- Entry `i` is valid, and its age is at most the limit. -/
def Fresh (fdb : Fdb) (now : Word) (i : Fin netFdbMaxEntries) : Prop :=
  (fdb i).valid = true ∧ age fdb now i ≤ agel.toNat

instance (fdb : Fdb) (now : Word) (i : Fin netFdbMaxEntries) : Decidable (Fresh fdb now i) :=
  inferInstanceAs (Decidable (_ ∧ _))

theorem fresh_iff {fdb : Fdb} {now : Word} {i : Fin netFdbMaxEntries} :
    Fresh fdb now i ↔ ¬ Reclaimable fdb now i := by
  rw [Fresh, Reclaimable, not_or, not_lt, Bool.not_eq_false]

/-- A fresh entry that is chosen is the oldest of fresh entries only. -/
theorem Chosen.oldest {fdb : Fdb} {now : Word} {i : Fin netFdbMaxEntries} (h : Chosen fdb now i)
    (hi : Fresh fdb now i) : (∀ j, Fresh fdb now j) ∧ ∀ j, age fdb now j ≤ age fdb now i := by
  rcases h with ⟨hrec, -⟩ | ⟨hnone, hold⟩
  · exact absurd hrec (fresh_iff.mp hi)
  · refine ⟨fun j => fresh_iff.mpr (hnone j), fun j => ?_⟩
    rcases hold j with h | ⟨h, -⟩
    · exact h.le
    · exact h.le

section Learn

variable {σ : Type} (hal : Hal σ) (dev : Adin2111) (sOwnMac : Mac)

/-- **Eviction protects fresh stations and picks the oldest.**  A station that is not in the
table goes to one entry, and the others are unchanged; if that entry was fresh, then all of them
were, and none was older. -/
theorem learn_evicts_oldest (s : Bridge σ) (now : Word) {src : Mac} (ingress : Port)
    (hel : Eligible sOwnMac src) (hnew : fdbTable.find s.fdb src = none) :
    let s' := netBridgeLearn hal dev sOwnMac now src ingress s
    ∃ i, s'.fdb i = ⟨src, ingress, true, now⟩ ∧ (∀ j, j ≠ i → s'.fdb j = s.fdb j) ∧
      (Fresh s.fdb now i →
        (∀ j, Fresh s.fdb now j) ∧ ∀ j, age s.fdb now j ≤ age s.fdb now i) := by
  intro s'
  have hfdb : s'.fdb = Function.update s.fdb (learnSlot s.fdb now src) ⟨src, ingress, true, now⟩ :=
    netBridgeLearn_fdb hal dev hel ingress s
  have hslot : Chosen s.fdb now (learnSlot s.fdb now src) := by
    rw [learnSlot, hnew, Option.getD_none]
    exact chosen_chooseSlot s.fdb now
  refine ⟨learnSlot s.fdb now src, ?_, fun j hj => ?_, hslot.oldest⟩
  · rw [hfdb, Function.update_self]
  · rw [hfdb, Function.update_of_ne hj]

end Learn

/-- A full table, each entry five ticks younger than the one before it. -/
def fullFdb : Fdb := fun i =>
  ⟨![0x02, 0, 0, 0, 0, BitVec.ofNat 8 i], .port1, true, BitVec.ofNat 32 (5 * i)⟩

/-- In the full table the oldest entry gives way. -/
theorem learn_evicts_oldest_full : ∃ i,
    (netBridgeLearn (busHal boardAdin) boardAdin (fun _ => 0) 100
      ![0x02, 0x11, 0x22, 0x33, 0x44, 0x55] .port2
      ⟨fullFdb, ⟨fun _ => 0, fun _ => true, []⟩⟩).fdb i =
        ⟨![0x02, 0x11, 0x22, 0x33, 0x44, 0x55], .port2, true, 100⟩ ∧
      ∀ j, age fullFdb 100 j ≤ age fullFdb 100 i := by
  obtain ⟨i, hi, -, hold⟩ := learn_evicts_oldest (busHal boardAdin) boardAdin (fun _ => 0)
    ⟨fullFdb, ⟨fun _ => 0, fun _ => true, []⟩⟩ 100 .port2
    (by decide : Eligible (fun _ => 0) ![0x02, 0x11, 0x22, 0x33, 0x44, 0x55]) (by decide)
  exact ⟨i, hi, (hold ((by decide : ∀ j, Fresh fullFdb 100 j) i)).2⟩

/-! ### A free entry first -/

/-- An entry before all free ones has not aged out. -/
def FreeFirst (fdb : Fdb) (now : Word) : Prop :=
  ∃ i, (fdb i).valid = false ∧ ∀ j < i, (fdb j).valid = true → age fdb now j ≤ agel.toNat

instance (fdb : Fdb) (now : Word) : Decidable (FreeFirst fdb now) :=
  inferInstanceAs (Decidable (∃ _, _ ∧ _))

/-- From `s` to `s'` the station has been stored in a free entry, and the valid entries are as
they were, with the filter slots that belong to them. -/
def UsesFree (s s' : Bridge Bus) (e : FdbEntry) : Prop :=
  ∃ i, (s.fdb i).valid = false ∧ s'.fdb i = e ∧ ∀ j, (s.fdb j).valid = true →
    s'.fdb j = s.fdb j ∧
      slotAt s'.adin.regs (fdbSlotIndex j) = slotAt s.adin.regs (fdbSlotIndex j)

/-- The entry chosen is free exactly if a free one comes first. -/
theorem Chosen.free_iff {fdb : Fdb} {now : Word} {i : Fin netFdbMaxEntries} (h : Chosen fdb now i)
    (hfree : ∃ j, (fdb j).valid = false) : (fdb i).valid = false ↔ FreeFirst fdb now := by
  rcases h with ⟨hrec, hfirst⟩ | ⟨hnone, -⟩
  · constructor
    · intro hi
      refine ⟨i, hi, fun j hj _ => ?_⟩
      exact (fresh_iff.mpr (hfirst j hj)).2
    · rintro ⟨k, hk, hbefore⟩
      rcases lt_trichotomy i k with hik | rfl | hki
      · -- an entry that is taken before the first free one has aged out
        by_contra hi
        have hvalid := (Bool.not_eq_false _).mp hi
        have hage := hbefore i hik hvalid
        exact absurd hrec (fresh_iff.mp ⟨hvalid, hage⟩)
      · exact hk
      · exact absurd (Or.inl hk) (hfirst k hki)
  · obtain ⟨j, hj⟩ := hfree
    exact absurd (Or.inl hj) (hnone j)

section Free

variable {dev : Adin2111} (hdev : dev.mode = .switch) {sOwnMac : Mac}

/-- What a learn of a new station does, to the table and to the filter slots. -/
theorem learn_new (dev : Adin2111) (s : Bridge Bus) (now : Word) {src : Mac} (ingress : Port)
    (hel : Eligible sOwnMac src) (hnew : fdbTable.find s.fdb src = none) :
    ∃ i, Chosen s.fdb now i ∧
      netBridgeLearn (busHal dev) dev sOwnMac now src ingress s =
        ⟨Function.update s.fdb i ⟨src, ingress, true, now⟩,
          (FdbOp.set src ingress).exec dev (fdbSlotIndex i) s.adin⟩ := by
  have hset : ¬ Settled s.fdb src ingress := by
    rintro ⟨i, hi, -⟩
    rw [hnew] at hi
    exact absurd hi (by simp)
  refine ⟨learnSlot s.fdb now src, ?_, netBridgeLearn_of_not_settled (busHal dev) dev hel hset⟩
  rw [learnSlot, hnew, Option.getD_none]
  exact chosen_chooseSlot s.fdb now

include hdev in
/-- **A free entry is used exactly if it comes first**, in whatever state. -/
theorem usesFree_iff (s : Bridge Bus) {now : Word} {src : Mac} {ingress : Port}
    (hel : Eligible sOwnMac src) (hnew : fdbTable.find s.fdb src = none)
    (hfree : ∃ i, (s.fdb i).valid = false) :
    UsesFree s (netBridgeLearn (busHal dev) dev sOwnMac now src ingress s)
      ⟨src, ingress, true, now⟩ ↔ FreeFirst s.fdb now := by
  obtain ⟨k, hk, heq⟩ := learn_new dev s now ingress hel hnew
  rw [← hk.free_iff hfree, heq, UsesFree]
  constructor
  · rintro ⟨i, hi, hstored, hkeep⟩
    by_contra hvalid
    have hvalid := (Bool.not_eq_false _).mp hvalid
    have hsame : Function.update s.fdb k ⟨src, ingress, true, now⟩ k = s.fdb k := (hkeep k hvalid).1
    rw [Function.update_self] at hsame
    -- the station would have been there before
    have hmac : (s.fdb k).mac = src := by rw [← hsame]
    exact Table.find_eq_none_iff.mp hnew k hvalid hmac
  · intro hi
    refine ⟨k, hi, Function.update_self _ _ _, fun j hj => ?_⟩
    have hjk : j ≠ k := by
      rintro rfl
      rw [hi] at hj
      exact absurd hj (by decide)
    exact ⟨Function.update_of_ne hjk _ _, FdbOp.slotAt_exec_of_ne hdev hjk _ _⟩

end Free

/-- **A free entry is used before any valid one is given up** exactly if no entry has aged out
in front of the first free one: at every learn of a new station, after every run, on a bus that
may fail at any transaction. -/
theorem learn_uses_free_iff (dev : Adin2111) (hdev : dev.mode = .switch) (sOwnMac : Mac) (b : Bus)
    (ops : List BridgeOp) (now : Word) (src : Mac) (ingress : Port)
    (hel : Eligible sOwnMac src) :
    let s := bridgeRun (busHal dev) dev sOwnMac ⟨emptyFdb, b⟩ ops
    fdbTable.find s.fdb src = none → (∃ i, (s.fdb i).valid = false) →
      (UsesFree s (netBridgeLearn (busHal dev) dev sOwnMac now src ingress s)
        ⟨src, ingress, true, now⟩ ↔ FreeFirst s.fdb now) :=
  fun hnew hfree => usesFree_iff hdev _ hel hnew hfree

/-- One station has been sighted at tick 0, and nothing has been swept since. -/
def oneSighted : Bridge Bus :=
  bridgeRun (busHal boardAdin) boardAdin (fun _ => 0) ⟨emptyFdb, ⟨fun _ => 0, fun _ => true, []⟩⟩
    [.learn 0 ![0x02, 0x11, 0x22, 0x33, 0x44, 0x55] .port1]

/-- As long as its entry has not aged out, another station goes to a free entry. -/
theorem learn_uses_free_oneSighted :
    UsesFree oneSighted (netBridgeLearn (busHal boardAdin) boardAdin (fun _ => 0) 300000
        ![0x02, 0, 0, 0, 0, 1] .port2 oneSighted)
      ⟨![0x02, 0, 0, 0, 0, 1], .port2, true, 300000⟩ :=
  (learn_uses_free_iff boardAdin rfl (fun _ => 0) _ _ 300000 _ .port2
    (by decide : Eligible (fun _ => 0) ![0x02, 0, 0, 0, 0, 1]) (by decide) (by decide)).mpr
      (by decide)

/-- **An aged-out entry is given up although there is room**: thirteen entries are free, and the
other station takes the place of the first. -/
theorem stale_given_up :
    Eligible (fun _ => 0) ![0x02, 0, 0, 0, 0, 1] ∧
      fdbTable.find oneSighted.fdb ![0x02, 0, 0, 0, 0, 1] = none ∧
      (∃ i, (oneSighted.fdb i).valid = false) ∧
      ¬ UsesFree oneSighted (netBridgeLearn (busHal boardAdin) boardAdin (fun _ => 0) 300001
          ![0x02, 0, 0, 0, 0, 1] .port2 oneSighted)
        ⟨![0x02, 0, 0, 0, 0, 1], .port2, true, 300001⟩ := by
  have hnew : fdbTable.find oneSighted.fdb ![0x02, 0, 0, 0, 0, 1] = none := by decide
  have hfree : ∃ i, (oneSighted.fdb i).valid = false := by decide
  refine ⟨by decide, hnew, hfree, fun h => ?_⟩
  exact absurd ((usesFree_iff rfl oneSighted (by decide) hnew hfree).mp h) (by decide)

end Usb2T1L
