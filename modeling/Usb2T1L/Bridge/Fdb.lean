import Usb2T1L.Adin2111.Filter
import Usb2T1L.Lib.KeyTable

/-!
# The learning table

The switch-mode forwarding database of `net_bridge.c`: `net_bridge_learn`,
`net_bridge_fdb_lookup` and the aging scan of `link_task`.  Each of them runs
under `s_adin_lock`, so each is one operation on the pair of the software table
and the ADIN device.

The tick counter is an argument: what `xTaskGetTickCount` returned to the caller.

## Main definitions

* `FdbEntry`, `Bridge` — `fdb_entry_t`, and what `s_adin_lock` protects.
* `netBridgeLearn`, `netBridgeFdbLookup`, `linkTaskSweep` — the three operations.

## Main results

* `chosen_chooseSlot` — the entry a new station goes to.
* `netBridgeLearn_fdb`, `netBridgeLearn_of_settled`, `netBridgeLearn_of_not_settled` — what
  `net_bridge_learn` does.
* `linkTaskSweep_fdb`, `linkTaskSweep_adin` — the effect of the aging scan.
-/

namespace Usb2T1L

/-- `fdb_entry_t`. -/
structure FdbEntry where
  mac : Mac
  port : Port
  valid : Bool
  stamp : Word
  deriving DecidableEq

/-- `s_fdb`. -/
abbrev Fdb := Fin netFdbMaxEntries → FdbEntry

/-- What `s_adin_lock` protects: `s_fdb`, and the device behind `s_adin`. -/
structure Bridge (σ : Type) where
  fdb : Fdb
  adin : σ

/-- `pdMS_TO_TICKS` at `configTICK_RATE_HZ` = 1000, in `TickType_t` arithmetic. -/
def pdMsToTicks (ms : Word) : Word := ms * 1000 / 1000

/-- The local `agel`: `pdMS_TO_TICKS(NET_FDB_AGE_MS)`. -/
def agel : Word := pdMsToTicks 300000

/-- `mac_is_group`. -/
def macIsGroup (m : Mac) : Bool := m 0 &&& 0x01 ≠ 0

/-- How the table is searched: valid entries, by address, for their port. -/
def fdbTable : Table FdbEntry Mac Port := ⟨FdbEntry.valid, FdbEntry.mac, FdbEntry.port⟩

/-- `net_bridge_fdb_lookup`, with `none` for `-1`. -/
def netBridgeFdbLookup (fdb : Fdb) (dst : Mac) : Option Port := fdbTable.lookup fdb dst

/-- The slot loop of `net_bridge_learn` over the indices still to come, with the
least recently used entry and its age so far. -/
def chooseSlot (fdb : Fdb) (now : Word) :
    List (Fin netFdbMaxEntries) → Fin netFdbMaxEntries → Word → Fin netFdbMaxEntries
  | [], lru, _ => lru
  | i :: is, lru, lruAge =>
    if (fdb i).valid = false then i
    else
      let age := now - (fdb i).stamp
      if agel < age then i
      else if lruAge ≤ age then chooseSlot fdb now is i age
      else chooseSlot fdb now is lru lruAge

/-! ### The choice of a slot -/

/-- The age of entry `i` at tick `now`, as the code computes it. -/
def age (fdb : Fdb) (now : Word) (i : Fin netFdbMaxEntries) : ℕ := (now - (fdb i).stamp).toNat

/-- Entry `i` may be taken at once: it is free, or aged out. -/
def Reclaimable (fdb : Fdb) (now : Word) (i : Fin netFdbMaxEntries) : Prop :=
  (fdb i).valid = false ∨ agel.toNat < age fdb now i

instance (fdb : Fdb) (now : Word) (i : Fin netFdbMaxEntries) : Decidable (Reclaimable fdb now i) :=
  inferInstanceAs (Decidable (_ ∨ _))

/-- Entry `j` is younger than entry `i`, or as old and not after it. -/
def Younger (fdb : Fdb) (now : Word) (j i : Fin netFdbMaxEntries) : Prop :=
  age fdb now j < age fdb now i ∨ age fdb now j = age fdb now i ∧ j ≤ i

instance (fdb : Fdb) (now : Word) (j i : Fin netFdbMaxEntries) : Decidable (Younger fdb now j i) :=
  inferInstanceAs (Decidable (_ ∨ _))

theorem Younger.trans {fdb : Fdb} {now : Word} {i j k : Fin netFdbMaxEntries}
    (hij : Younger fdb now i j) (hjk : Younger fdb now j k) : Younger fdb now i k := by
  unfold Younger at *
  rw [Fin.le_def] at *
  omega

theorem Younger.antisymm {fdb : Fdb} {now : Word} {i j : Fin netFdbMaxEntries}
    (hij : Younger fdb now i j) (hji : Younger fdb now j i) : i = j := by
  unfold Younger at *
  omega

/-- The entry for a new station: the first that is free or aged out; if there is
none, the least recently used, and of several the last. -/
def Chosen (fdb : Fdb) (now : Word) (i : Fin netFdbMaxEntries) : Prop :=
  (Reclaimable fdb now i ∧ ∀ j < i, ¬ Reclaimable fdb now j) ∨
    (∀ j, ¬ Reclaimable fdb now j) ∧ ∀ j, Younger fdb now j i

instance (fdb : Fdb) (now : Word) (i : Fin netFdbMaxEntries) : Decidable (Chosen fdb now i) :=
  inferInstanceAs (Decidable (_ ∨ _))

theorem chooseSlot_cons (fdb : Fdb) (now : Word) (i : Fin netFdbMaxEntries)
    (is : List (Fin netFdbMaxEntries)) (lru : Fin netFdbMaxEntries) (lruAge : Word) :
    chooseSlot fdb now (i :: is) lru lruAge =
      if Reclaimable fdb now i then i
      else if lruAge.toNat ≤ age fdb now i then chooseSlot fdb now is i (now - (fdb i).stamp)
      else chooseSlot fdb now is lru lruAge := by
  rw [chooseSlot]
  by_cases hvalid : (fdb i).valid = false
  · rw [if_pos hvalid, if_pos (show Reclaimable fdb now i from Or.inl hvalid)]
  rw [if_neg hvalid]
  by_cases hage : agel < now - (fdb i).stamp
  · rw [if_pos (show Reclaimable fdb now i from Or.inr hage)]
    exact if_pos hage
  · rw [if_neg (show ¬ Reclaimable fdb now i from fun h => h.elim hvalid hage)]
    exact if_neg hage

/-- The loop from entry `lru` on: it ends at the first entry to come that may be
taken, or else at the least recently used of all it has seen. -/
theorem chooseSlot_spec (fdb : Fdb) (now : Word) :
    ∀ (l : List (Fin netFdbMaxEntries)) (lru : Fin netFdbMaxEntries), (lru :: l).Pairwise (· < ·) →
      ∃ k, chooseSlot fdb now l lru (now - (fdb lru).stamp) = k ∧
        ((Reclaimable fdb now k ∧ k ∈ l ∧ ∀ j ∈ l, j < k → ¬ Reclaimable fdb now j) ∨
          (∀ j ∈ l, ¬ Reclaimable fdb now j) ∧ ∀ j ∈ lru :: l, Younger fdb now j k) := by
  intro l
  induction l with
  | nil =>
    intro lru _
    refine ⟨lru, rfl, Or.inr ⟨fun j hj => absurd hj List.not_mem_nil, fun j hj => ?_⟩⟩
    rw [List.mem_singleton.mp hj]
    exact Or.inr ⟨rfl, le_rfl⟩
  | cons i l ih =>
    intro lru hsorted
    obtain ⟨hlru, hil⟩ := List.pairwise_cons.mp hsorted
    obtain ⟨hi, hl⟩ := List.pairwise_cons.mp hil
    rw [chooseSlot_cons]
    by_cases hrec : Reclaimable fdb now i
    · rw [if_pos hrec]
      refine ⟨i, rfl, Or.inl ⟨hrec, List.mem_cons_self, fun j hj hlt => ?_⟩⟩
      rcases List.mem_cons.mp hj with rfl | hj
      · exact absurd hlt (lt_irrefl _)
      · exact absurd (hi j hj) (not_lt.mpr hlt.le)
    rw [if_neg hrec]
    -- whichever of the two the loop goes on with, it has passed both
    have hpass : ∀ lru' k, Younger fdb now lru lru' → Younger fdb now i lru' →
        ((Reclaimable fdb now k ∧ k ∈ l ∧ ∀ j ∈ l, j < k → ¬ Reclaimable fdb now j) ∨
          (∀ j ∈ l, ¬ Reclaimable fdb now j) ∧ ∀ j ∈ lru' :: l, Younger fdb now j k) →
        (Reclaimable fdb now k ∧ k ∈ i :: l ∧ ∀ j ∈ i :: l, j < k → ¬ Reclaimable fdb now j) ∨
          (∀ j ∈ i :: l, ¬ Reclaimable fdb now j) ∧ ∀ j ∈ lru :: i :: l, Younger fdb now j k := by
      intro lru' k hy1 hy2 h
      rcases h with ⟨hk, hmem, hfirst⟩ | ⟨hnone, hyoung⟩
      · refine Or.inl ⟨hk, List.mem_cons_of_mem i hmem, fun j hj hlt => ?_⟩
        rcases List.mem_cons.mp hj with rfl | hj
        · exact hrec
        · exact hfirst j hj hlt
      · have hk := hyoung lru' List.mem_cons_self
        refine Or.inr ⟨List.forall_mem_cons.mpr ⟨hrec, hnone⟩, ?_⟩
        rw [List.forall_mem_cons, List.forall_mem_cons]
        refine ⟨hy1.trans hk, hy2.trans hk, fun j hj => hyoung j (List.mem_cons_of_mem _ hj)⟩
    have hlt : lru < i := hlru i List.mem_cons_self
    by_cases hage : (now - (fdb lru).stamp).toNat ≤ age fdb now i
    · rw [if_pos hage]
      obtain ⟨k, hk, hspec⟩ := ih i hil
      refine ⟨k, hk, hpass i k ?_ (Or.inr ⟨rfl, le_rfl⟩) hspec⟩
      rcases hage.lt_or_eq with h | h
      · exact Or.inl h
      · exact Or.inr ⟨h, hlt.le⟩
    · rw [if_neg hage]
      obtain ⟨k, hk, hspec⟩ := ih lru (List.pairwise_cons.mpr
        ⟨fun j hj => hlru j (List.mem_cons_of_mem i hj), hl⟩)
      exact ⟨k, hk, hpass lru k (Or.inr ⟨rfl, le_rfl⟩) (Or.inl (not_le.mp hage)) hspec⟩

/-- **The slot pass 2 chooses.** -/
theorem chosen_chooseSlot (fdb : Fdb) (now : Word) :
    Chosen fdb now (chooseSlot fdb now (List.finRange netFdbMaxEntries) 0 0) := by
  have hsorted : (List.finRange netFdbMaxEntries).Pairwise (· < ·) := List.pairwise_lt_finRange _
  rw [List.finRange_succ] at hsorted ⊢
  have hall : ∀ j : Fin netFdbMaxEntries, j ∈ (0 : Fin 14) :: (List.finRange 13).map Fin.succ := by
    intro j
    rw [← List.finRange_succ]
    exact List.mem_finRange j
  rw [chooseSlot_cons]
  by_cases hrec : Reclaimable fdb now 0
  · rw [if_pos hrec]
    exact Or.inl ⟨hrec, fun j hj => absurd hj (Fin.not_lt_zero j)⟩
  rw [if_neg hrec, if_pos (show (0 : Word).toNat ≤ _ from Nat.zero_le _)]
  obtain ⟨k, hk, ⟨hr, -, hfirst⟩ | ⟨hnone, hyoung⟩⟩ := chooseSlot_spec fdb now _ 0 hsorted
  · rw [hk]
    refine Or.inl ⟨hr, fun j hj => ?_⟩
    rcases List.mem_cons.mp (hall j) with rfl | h
    · exact hrec
    · exact hfirst j h hj
  · rw [hk]
    refine Or.inr ⟨fun j => ?_, fun j => hyoung j (hall j)⟩
    rcases List.mem_cons.mp (hall j) with rfl | h
    · exact hrec
    · exact hnone j h

/-- There is one such entry. -/
theorem Chosen.unique {fdb : Fdb} {now : Word} {i k : Fin netFdbMaxEntries}
    (hi : Chosen fdb now i) (hk : Chosen fdb now k) : i = k := by
  rcases hi with ⟨hri, hfi⟩ | ⟨hni, hyi⟩ <;> rcases hk with ⟨hrk, hfk⟩ | ⟨hnk, hyk⟩
  · by_contra hne
    rcases lt_or_gt_of_ne hne with h | h
    · exact hfk i h hri
    · exact hfi k h hrk
  · exact absurd hri (hnk i)
  · exact absurd hrk (hni k)
  · exact Younger.antisymm (hyk i) (hyi k)

section Operations

variable {σ : Type} (hal : Hal σ) (dev : Adin2111) (sOwnMac : Mac)

/-- `net_bridge_learn`, at tick `now`. -/
def netBridgeLearn (now : Word) (src : Mac) (ingress : Port) (s : Bridge σ) : Bridge σ :=
  if macIsGroup src ∨ src = sOwnMac then s
  else
    -- pass 1: refresh an existing entry, and reprogram if the node moved
    match fdbTable.find s.fdb src with
    | some i =>
      let e := { s.fdb i with stamp := now }
      if e.port ≠ ingress then
        { fdb := Function.update s.fdb i { e with port := ingress }
          adin := (adin2111FdbSet hal dev (fdbSlotIndex i) src ingress s.adin).2 }
      else { s with fdb := Function.update s.fdb i e }
    | none =>
      -- pass 2: a free slot, else an aged-out one, else the least recently used
      let slot := chooseSlot s.fdb now (List.finRange netFdbMaxEntries) 0 0
      { fdb := Function.update s.fdb slot ⟨src, ingress, true, now⟩
        adin := (adin2111FdbSet hal dev (fdbSlotIndex slot) src ingress s.adin).2 }

/-- Entry `i` is valid and older than the age limit at tick `now`. -/
def stale (now : Word) (fdb : Fdb) (i : Fin netFdbMaxEntries) : Bool :=
  (fdb i).valid && decide (agel < now - (fdb i).stamp)

/-- One round of the aging loop of `link_task`. -/
def linkTaskAge (now : Word) (s : Bridge σ) (i : Fin netFdbMaxEntries) : Bridge σ :=
  if stale now s.fdb i then
    { fdb := Function.update s.fdb i { s.fdb i with valid := false }
      adin := (adin2111FdbClear hal dev (fdbSlotIndex i) s.adin).2 }
  else s

/-- The aging loop of `link_task`, at tick `now`. -/
def linkTaskSweep (now : Word) (s : Bridge σ) : Bridge σ :=
  (List.finRange netFdbMaxEntries).foldl (linkTaskAge hal dev now) s

/-! ### What a learn does -/

/-- `src` is neither a group address nor our own. -/
def Eligible (src : Mac) : Prop := ¬ (macIsGroup src = true ∨ src = sOwnMac)

instance (src : Mac) : Decidable (Eligible sOwnMac src) := inferInstanceAs (Decidable (¬ _))

/-- The index an eligible station ends up at: its own, or the one chosen for it. -/
def learnSlot (fdb : Fdb) (now : Word) (src : Mac) : Fin netFdbMaxEntries :=
  (fdbTable.find fdb src).getD (chooseSlot fdb now (List.finRange netFdbMaxEntries) 0 0)

/-- The station is in the table, on the port it was sighted on. -/
def Settled (fdb : Fdb) (src : Mac) (ingress : Port) : Prop :=
  ∃ i, fdbTable.find fdb src = some i ∧ (fdb i).port = ingress

variable {sOwnMac}

theorem netBridgeLearn_of_not_eligible {now : Word} {src : Mac} (h : ¬ Eligible sOwnMac src)
    (ingress : Port) (s : Bridge σ) : netBridgeLearn hal dev sOwnMac now src ingress s = s := by
  rw [netBridgeLearn, if_pos (not_not.mp h)]

/-- **The table after a learn**: the station is stored, with its port and the
current tick, at its index. -/
theorem netBridgeLearn_fdb {now : Word} {src : Mac} (h : Eligible sOwnMac src) (ingress : Port)
    (s : Bridge σ) :
    (netBridgeLearn hal dev sOwnMac now src ingress s).fdb =
      Function.update s.fdb (learnSlot s.fdb now src) ⟨src, ingress, true, now⟩ := by
  rw [netBridgeLearn, if_neg h, learnSlot]
  cases hf : fdbTable.find s.fdb src with
  | none => rfl
  | some i =>
    obtain ⟨hvalid, hmac⟩ := Table.find_spec hf
    have hvalid : (s.fdb i).valid = true := hvalid
    have hmac : (s.fdb i).mac = src := hmac
    simp only [Option.getD_some]
    split_ifs with hport
    · rw [hvalid, hmac]
    · rw [hvalid, hmac, not_not.mp hport]

/-- A settled station is not reprogrammed: only its stamp changes. -/
theorem netBridgeLearn_of_settled {now : Word} {src : Mac} {ingress : Port} {s : Bridge σ}
    (h : Eligible sOwnMac src) (hset : Settled s.fdb src ingress) :
    ∃ i, fdbTable.find s.fdb src = some i ∧ netBridgeLearn hal dev sOwnMac now src ingress s =
      { s with fdb := Function.update s.fdb i { s.fdb i with stamp := now } } := by
  obtain ⟨i, hf, hport⟩ := hset
  refine ⟨i, hf, ?_⟩
  rw [netBridgeLearn, if_neg h, hf]
  simp only [hport, ne_eq, not_true_eq_false, if_false]

/-- Any other station is programmed into the filter slot of its index. -/
theorem netBridgeLearn_of_not_settled {now : Word} {src : Mac} {ingress : Port} {s : Bridge σ}
    (h : Eligible sOwnMac src) (hset : ¬ Settled s.fdb src ingress) :
    netBridgeLearn hal dev sOwnMac now src ingress s =
      { fdb := Function.update s.fdb (learnSlot s.fdb now src) ⟨src, ingress, true, now⟩
        adin := (adin2111FdbSet hal dev (fdbSlotIndex (learnSlot s.fdb now src)) src ingress
          s.adin).2 } := by
  rw [← netBridgeLearn_fdb hal dev h ingress s, netBridgeLearn, if_neg h, learnSlot]
  cases hf : fdbTable.find s.fdb src with
  | none => rfl
  | some i =>
    have hport : (s.fdb i).port ≠ ingress := fun hp => hset ⟨i, hf, hp⟩
    simp only [Option.getD_some, hport, ne_eq, not_false_eq_true, if_true]

/-- No other valid entry has the address a learn stores. -/
theorem learnSlot_fresh {fdb : Fdb} (hd : fdbTable.Distinct fdb) {now : Word} {src : Mac} :
    ∀ j, j ≠ learnSlot fdb now src → (fdb j).valid = true → (fdb j).mac ≠ src := by
  intro j hj hvalid hmac
  have hf : fdbTable.find fdb src = some j := (Table.find_eq_some_iff hd).mpr ⟨hvalid, hmac⟩
  rw [learnSlot, hf] at hj
  exact hj rfl

/-- A valid entry after a learn is the one just stored, or was there before, with another
address. -/
theorem netBridgeLearn_valid {now : Word} {src : Mac} (h : Eligible sOwnMac src) (ingress : Port)
    {s : Bridge σ} (hd : fdbTable.Distinct s.fdb) {i : Fin netFdbMaxEntries}
    (hi : ((netBridgeLearn hal dev sOwnMac now src ingress s).fdb i).valid = true) :
    (netBridgeLearn hal dev sOwnMac now src ingress s).fdb i = ⟨src, ingress, true, now⟩ ∨
      (netBridgeLearn hal dev sOwnMac now src ingress s).fdb i = s.fdb i ∧
        (s.fdb i).valid = true ∧ (s.fdb i).mac ≠ src := by
  rw [netBridgeLearn_fdb hal dev h ingress s] at hi ⊢
  rcases eq_or_ne i (learnSlot s.fdb now src) with rfl | hne
  · exact Or.inl (Function.update_self _ _ _)
  · rw [Function.update_of_ne hne] at hi ⊢
    exact Or.inr ⟨rfl, hi, learnSlot_fresh hd i hne hi⟩

/-- Entry `i` is where `src` belongs: it holds `src`, or no valid entry does and it
is the one chosen for a new station. -/
def Home (fdb : Fdb) (now : Word) (src : Mac) (i : Fin netFdbMaxEntries) : Prop :=
  ((fdb i).valid = true ∧ (fdb i).mac = src) ∨
    (∀ j, (fdb j).valid = true → (fdb j).mac ≠ src) ∧ Chosen fdb now i

/-- **The index a station ends up at** is where it belongs. -/
theorem learnSlot_eq_iff {fdb : Fdb} (hd : fdbTable.Distinct fdb) {now : Word} {src : Mac}
    {i : Fin netFdbMaxEntries} : learnSlot fdb now src = i ↔ Home fdb now src i := by
  rw [learnSlot]
  cases hf : fdbTable.find fdb src with
  | none =>
    have hnone := Table.find_eq_none_iff.mp hf
    constructor
    · rintro rfl
      exact Or.inr ⟨hnone, chosen_chooseSlot fdb now⟩
    · rintro (⟨hv, hm⟩ | ⟨-, hi⟩)
      · exact absurd hm (hnone i hv)
      · exact (chosen_chooseSlot fdb now).unique hi
  | some k =>
    have hk := Table.find_spec hf
    constructor
    · rintro rfl
      exact Or.inl hk
    · rintro (⟨hv, hm⟩ | ⟨hnone, -⟩)
      · exact hd k i hk.1 hv (hk.2.trans hm.symm)
      · exact absurd hk.2 (hnone k hk.1)

/-- Storing a station keeps the valid entries' addresses distinct. -/
theorem distinct_learn {fdb : Fdb} (hd : fdbTable.Distinct fdb) (now : Word) (src : Mac)
    (ingress : Port) : fdbTable.Distinct
      (Function.update fdb (learnSlot fdb now src) ⟨src, ingress, true, now⟩) :=
  hd.update (learnSlot_fresh hd)

/-! ### What the aging scan does -/

variable {hal dev}

theorem linkTaskAge_fdb_of_ne {now : Word} {s : Bridge σ} {i j : Fin netFdbMaxEntries}
    (h : j ≠ i) : (linkTaskAge hal dev now s i).fdb j = s.fdb j := by
  rw [linkTaskAge]
  split
  · exact Function.update_of_ne h _ _
  · rfl

theorem linkTaskAge_fdb_self {now : Word} {s : Bridge σ} {i : Fin netFdbMaxEntries} :
    (linkTaskAge hal dev now s i).fdb i =
      if stale now s.fdb i then { s.fdb i with valid := false } else s.fdb i := by
  rw [linkTaskAge]
  split
  · exact Function.update_self _ _ _
  · rfl

/-- What is valid after a round was so before, unchanged. -/
theorem linkTaskAge_fdb_of_valid {now : Word} {s : Bridge σ} {i : Fin netFdbMaxEntries}
    (j : Fin netFdbMaxEntries) (h : ((linkTaskAge hal dev now s i).fdb j).valid = true) :
    (linkTaskAge hal dev now s i).fdb j = s.fdb j := by
  rcases eq_or_ne j i with rfl | hji
  · rw [linkTaskAge_fdb_self] at h ⊢
    split_ifs with hs
    · rw [if_pos hs] at h
      exact absurd h Bool.false_ne_true
    · rfl
  · exact linkTaskAge_fdb_of_ne hji

theorem stale_congr {now : Word} {fdb fdb' : Fdb} {i : Fin netFdbMaxEntries}
    (h : fdb' i = fdb i) : stale now fdb' i = stale now fdb i := by
  rw [stale, stale, h]

/-- The scan over a list of different indices: each entry is judged as it was
before the scan, since no round touches another index. -/
theorem foldl_linkTaskAge (now : Word) : ∀ (l : List (Fin netFdbMaxEntries)) (s : Bridge σ),
    l.Nodup →
      (∀ i, (l.foldl (linkTaskAge hal dev now) s).fdb i =
        if i ∈ l ∧ stale now s.fdb i then { s.fdb i with valid := false } else s.fdb i) ∧
      (l.foldl (linkTaskAge hal dev now) s).adin = (l.filter (stale now s.fdb)).foldl
        (fun a i => (adin2111FdbClear hal dev (fdbSlotIndex i) a).2) s.adin := by
  intro l
  induction l with
  | nil => intro s _; exact ⟨fun i => by simp, rfl⟩
  | cons k l ih =>
    intro s hnd
    obtain ⟨hk, hl⟩ := List.nodup_cons.mp hnd
    obtain ⟨hfdb, hadin⟩ := ih (linkTaskAge hal dev now s k) hl
    have hsame : ∀ i, i ∈ l → (linkTaskAge hal dev now s k).fdb i = s.fdb i := fun i hi =>
      linkTaskAge_fdb_of_ne fun h => hk (h ▸ hi)
    refine ⟨fun i => ?_, ?_⟩
    · rw [List.foldl_cons, hfdb]
      rcases eq_or_ne i k with rfl | hik
      · rw [if_neg fun h => hk h.1, linkTaskAge_fdb_self]
        simp only [List.mem_cons, true_or, true_and]
      · rw [linkTaskAge_fdb_of_ne hik, stale_congr (linkTaskAge_fdb_of_ne hik)]
        simp only [List.mem_cons, hik, false_or]
    · have hfilter : l.filter (stale now (linkTaskAge hal dev now s k).fdb) =
          l.filter (stale now s.fdb) :=
        List.filter_congr fun i hi => stale_congr (hsame i hi)
      rw [List.foldl_cons, hadin, hfilter, List.filter_cons, linkTaskAge]
      split <;> rfl

/-- **The table after a sweep**: exactly the stale entries are invalid. -/
theorem linkTaskSweep_fdb (now : Word) (s : Bridge σ) (i : Fin netFdbMaxEntries) :
    (linkTaskSweep hal dev now s).fdb i =
      if stale now s.fdb i then { s.fdb i with valid := false } else s.fdb i := by
  rw [linkTaskSweep, (foldl_linkTaskAge now _ s (List.nodup_finRange _)).1 i]
  simp only [List.mem_finRange, true_and]

/-- **The device after a sweep**: the filter slots of the stale entries have been
cleared, one after the other. -/
theorem linkTaskSweep_adin (now : Word) (s : Bridge σ) :
    (linkTaskSweep hal dev now s).adin =
      ((List.finRange netFdbMaxEntries).filter (stale now s.fdb)).foldl
        (fun a i => (adin2111FdbClear hal dev (fdbSlotIndex i) a).2) s.adin :=
  (foldl_linkTaskAge now _ s (List.nodup_finRange _)).2

/-- What is valid after a sweep was so before, unchanged. -/
theorem linkTaskSweep_fdb_of_valid {now : Word} {s : Bridge σ} (i : Fin netFdbMaxEntries)
    (h : ((linkTaskSweep hal dev now s).fdb i).valid = true) :
    (linkTaskSweep hal dev now s).fdb i = s.fdb i := by
  rw [linkTaskSweep_fdb] at h ⊢
  split_ifs with hs
  · rw [if_pos hs] at h
    exact absurd h (by simp)
  · rfl

end Operations

/-! ### Runs -/

/-- The table as the C start-up code leaves it. -/
def emptyFdb : Fdb := fun _ => ⟨fun _ => 0, .port1, false, 0⟩

/-- An operation on the table, with the tick it reads. -/
inductive BridgeOp
  /-- `net_bridge_learn`, called by `net_rx_task`. -/
  | learn (now : Word) (src : Mac) (ingress : Port)
  /-- The aging scan of `link_task`. -/
  | sweep (now : Word)

section Runs

variable {σ : Type} (hal : Hal σ) (dev : Adin2111) (sOwnMac : Mac)

/-- Executing an operation. -/
def BridgeOp.exec (s : Bridge σ) : BridgeOp → Bridge σ
  | .learn now src ingress => netBridgeLearn hal dev sOwnMac now src ingress s
  | .sweep now => linkTaskSweep hal dev now s

/-- Executing operations one after the other. -/
def bridgeRun (s : Bridge σ) (ops : List BridgeOp) : Bridge σ :=
  ops.foldl (BridgeOp.exec hal dev sOwnMac) s

variable {hal dev sOwnMac}

/-- **The rule of invariance** for the operations on the table. -/
theorem bridgeRun_invariant {I : Bridge σ → Prop}
    (hkeep : ∀ s (op : BridgeOp), I s → I (op.exec hal dev sOwnMac s)) :
    ∀ (ops : List BridgeOp) {s : Bridge σ}, I s → I (bridgeRun hal dev sOwnMac s ops) := by
  intro ops
  induction ops with
  | nil => intro s h; exact h
  | cons op ops ih => intro s h; exact ih (hkeep s op h)

/-- Every operation keeps the valid entries' addresses distinct. -/
theorem BridgeOp.distinct_exec (s : Bridge σ) (op : BridgeOp) (hd : fdbTable.Distinct s.fdb) :
    fdbTable.Distinct (op.exec hal dev sOwnMac s).fdb := by
  cases op with
  | learn now src ingress =>
    by_cases hel : Eligible sOwnMac src
    · rw [exec, netBridgeLearn_fdb hal dev hel]
      exact distinct_learn hd now src ingress
    · rw [exec, netBridgeLearn_of_not_eligible hal dev hel]
      exact hd
  | sweep now => exact hd.retire fun i hi => linkTaskSweep_fdb_of_valid i hi

theorem distinct_of_all_invalid {fdb : Fdb} (h : ∀ i, (fdb i).valid = false) :
    fdbTable.Distinct fdb := by
  intro i _ hi
  have hi : (fdb i).valid = true := hi
  rw [h i] at hi
  exact absurd hi (by decide)

end Runs

end Usb2T1L
