import Usb2T1L.Adin2111.Filter

/-!
# Rewriting a filter slot under traffic

The device switches frames while `adin_write_filter` is at work, so it sees every
mixture of the old and the new contents of the slot; and a mixture stays when a
write fails.  `FILT_UPR` goes last, with the `APPLY2PORT` bits, so that a slot
that was inactive shows nothing until it is complete.  A slot that is active
already has no such protection.

## Main definitions

* `NoForeignMatch` — no mixture relays what neither entry relays.
* `SafeRewrite` — the rewrites for which that holds.

## Main results

* `fdb_rewrite_foreign_iff` — **exactly the safe rewrites are free of foreign
  matches.**
-/

namespace Usb2T1L

open RegFile

/-- What the bridge can have programmed into a slot: nothing active, or the entry
of some station. -/
def HoldsEntry (f : FilterSlot) : Option (Mac × Port) → Prop
  | none => f.active = false
  | some (mac, p) => f = fdbSlot mac p

/-- After every prefix of the writes that `op` performs — whichever of them fail —
the slot relays nothing but what its old contents relayed or `op` requests. -/
def NoForeignMatch (dev : Adin2111) (slot : ℕ) (op : FdbOp) (regs : ℕ → Word) : Prop :=
  ∀ (works : ℕ → Bool) (ws : List (ℕ × Word)), ws <+: (op.exec dev slot ⟨regs, works, []⟩).writes →
    ∀ da ingress, (slotAt (writes regs ws) slot).Relays da ingress →
      (slotAt regs slot).Relays da ingress ∨ op.Requests da ingress

/-- The rewrites during which no mixture of old and new contents is a third
entry: those of an inactive slot, and those from a station to one with the same
lower four octets, or with the same upper two octets on the same port. -/
def SafeRewrite : Option (Mac × Port) → FdbOp → Prop
  | none, _ => True
  | some (old, p), .set new q => addrLwr old = addrLwr new ∨ (addrUpr old = addrUpr new ∧ p = q)
  | some _, .clear => False

/-- Until its last write a rewrite leaves the control bits as they were. -/
theorem mixedSlot_filtUpr (old new : FilterSlot) {n : ℕ} (hn : n < 4) :
    (mixedSlot old new n).filtUpr = old.filtUpr := by
  have hcases : n = 0 ∨ n = 1 ∨ n = 2 ∨ n = 3 := by omega
  rcases hcases with rfl | rfl | rfl | rfl <;> rfl

/-- Every state between two writes of a safe rewrite is harmless. -/
theorem FdbOp.relays_of_mixed {op : FdbOp} {f : FilterSlot} {old : Option (Mac × Port)}
    (hold : HoldsEntry f old) (hsafe : SafeRewrite old op) {n : ℕ} (hn : n ≤ 4) {da : Mac}
    {ingress : Port} (h : (mixedSlot f op.slot n).Relays da ingress) :
    f.Relays da ingress ∨ op.Requests da ingress := by
  rcases Nat.lt_or_ge n 4 with hlt | hge
  · match old, op with
    | none, op =>
      -- nothing is active before the last write
      have hinact : (mixedSlot f op.slot n).active = false :=
        (FilterSlot.active_congr (mixedSlot_filtUpr f op.slot hlt)).trans hold
      exact absurd h.1 (FilterSlot.not_matches_of_inactive hinact da ingress)
    | some (a, p), .set b q =>
      obtain rfl : f = fdbSlot a p := hold
      have hcases : n = 0 ∨ n = 1 ∨ n = 2 ∨ n = 3 := by omega
      rcases hcases with rfl | rfl | rfl | rfl
      · exact Or.inl h
      · exact Or.inl h
      · exact Or.inl h
      · -- the new `FILT_LWR` under the old `FILT_UPR`
        rcases hsafe with hlwr | ⟨hupr, rfl⟩
        · have heq : mixedSlot (fdbSlot a p) (fdbSlot b q) 3 = fdbSlot a p := by
            simp only [mixedSlot, fdbSlot, hlwr]
          exact Or.inl (heq ▸ h)
        · have heq : mixedSlot (fdbSlot a p) (fdbSlot b p) 3 = fdbSlot b p := by
            simp only [mixedSlot, fdbSlot, hupr]
          exact Or.inr (fdbSlot_relays.mp (heq ▸ h))
    | some _, .clear => exact hsafe.elim
  · obtain rfl : n = 4 := by omega
    exact Or.inr (FdbOp.slot_relays h)

/-- The station with the upper two octets of `a` and the lower four of `b`. -/
def spliceMac (a b : Mac) : Mac := fun i => if (i : ℕ) < 2 then a i else b i

@[simp] theorem addrUpr_spliceMac (a b : Mac) : addrUpr (spliceMac a b) = addrUpr a := rfl

@[simp] theorem addrLwr_spliceMac (a b : Mac) : addrLwr (spliceMac a b) = addrLwr b := rfl

/-- A station's slot in the middle of a rewrite still forwards from the port
opposite to where the old station lives. -/
theorem mixedSlot_fdbSlot_ctl (a : Mac) (p : Port) (new : FilterSlot) {n : ℕ} (hn : n < 4) :
    (mixedSlot (fdbSlot a p) new n).appliesTo p.opposite = true ∧
      (mixedSlot (fdbSlot a p) new n).toOtherPort = true := by
  have h := mixedSlot_filtUpr (fdbSlot a p) new hn
  rw [FilterSlot.appliesTo_congr h, FilterSlot.toOtherPort_congr h]
  simp

/-- With the new lower address word in place, a station's slot relays the splice
of the two addresses. -/
theorem mixedSlot_three_relays (a b : Mac) (p q : Port) :
    (mixedSlot (fdbSlot a p) (fdbSlot b q) 3).Relays (spliceMac a b) p.opposite := by
  obtain ⟨happ, hoth⟩ := mixedSlot_fdbSlot_ctl a p (fdbSlot b q) (show 3 < 4 by decide)
  refine ⟨⟨happ, ?_, ?_⟩, hoth⟩
  · simp only [mixedSlot, fdbSlot, setWidth_fdbCtl_or, addrUpr_spliceMac]
    rw [xor_and_allOnes (by decide)]
  · simp only [mixedSlot, fdbSlot, addrLwr_spliceMac]
    rw [xor_and_allOnes (by decide)]

/-- With the upper mask word gone, a station's slot relays every address with its
lower four octets. -/
theorem mixedSlot_one_relays (a b : Mac) (p : Port) :
    (mixedSlot (fdbSlot a p) (FdbOp.slot .clear) 1).Relays (spliceMac b a) p.opposite := by
  obtain ⟨happ, hoth⟩ := mixedSlot_fdbSlot_ctl a p (FdbOp.slot .clear) (show 1 < 4 by decide)
  refine ⟨⟨happ, BitVec.and_zero, ?_⟩, hoth⟩
  simp only [mixedSlot, fdbSlot, addrLwr_spliceMac]
  rw [xor_and_allOnes (by decide)]

/-- A mixture that relays a foreign destination is seen when nothing fails. -/
theorem not_noForeignMatch_of_mixed {dev : Adin2111} (hdev : dev.mode = .switch)
    (i : Fin netFdbMaxEntries) (op : FdbOp) {regs : ℕ → Word} {n : ℕ} (hn : n ≤ 4) {da : Mac}
    {ingress : Port} (h : (mixedSlot (slotAt regs (fdbSlotIndex i)) op.slot n).Relays da ingress)
    (hold : ¬ (slotAt regs (fdbSlotIndex i)).Relays da ingress) (hreq : ¬ op.Requests da ingress) :
    ¬ NoForeignMatch dev (fdbSlotIndex i) op regs := by
  intro hno
  have hlen : ((op.intended (fdbSlotIndex i)).take n).length = n := by
    rw [List.length_take, op.intended_length]; omega
  have hall : (op.exec dev (fdbSlotIndex i) ⟨regs, fun _ => true, []⟩).writes =
      op.intended (fdbSlotIndex i) := by
    rw [FdbOp.exec_eq_perform hdev, Bus.perform_writes, cut_of_works _ fun _ => rfl]
    rfl
  have hseen : (slotAt (writes regs ((op.intended (fdbSlotIndex i)).take n))
      (fdbSlotIndex i)).Relays da ingress := by
    rw [op.slotAt_writes regs _ (List.take_prefix _ _), hlen]
    exact h
  rcases hno (fun _ => true) _ (by rw [hall]; exact List.take_prefix _ _) da ingress hseen
    with h' | h'
  · exact hold h'
  · exact hreq h'

/-- **Exactly the safe rewrites are free of foreign matches**: for every previous
contents the bridge can have programmed and both operations, no register write
exposes a destination and ingress port that neither the old nor the requested
entry relays, if and only if the rewrite is safe. -/
theorem fdb_rewrite_foreign_iff (dev : Adin2111) (hdev : dev.mode = .switch)
    (i : Fin netFdbMaxEntries) (regs : ℕ → Word) (old : Option (Mac × Port)) (op : FdbOp)
    (hold : HoldsEntry (slotAt regs (fdbSlotIndex i)) old) :
    NoForeignMatch dev (fdbSlotIndex i) op regs ↔ SafeRewrite old op := by
  constructor
  · intro hno
    match old, op with
    | none, _ => trivial
    | some (a, p), .set b q =>
      have hold : slotAt regs (fdbSlotIndex i) = fdbSlot a p := hold
      by_contra hunsafe
      rw [SafeRewrite, not_or] at hunsafe
      refine not_noForeignMatch_of_mixed hdev i (.set b q) (show 3 ≤ 4 by decide)
        (by rw [hold]; exact mixedSlot_three_relays a b p q) ?_ ?_ hno
      · rw [hold, fdbSlot_relays]
        rintro ⟨heq, -⟩
        exact hunsafe.1 (by rw [← addrLwr_spliceMac a b, heq])
      · rintro ⟨heq, hport⟩
        refine hunsafe.2 ⟨?_, Port.opposite_injective hport⟩
        rw [← addrUpr_spliceMac a b, heq]
    | some (a, p), .clear =>
      have hold : slotAt regs (fdbSlotIndex i) = fdbSlot a p := hold
      refine not_noForeignMatch_of_mixed hdev i .clear (show 1 ≤ 4 by decide)
        (by rw [hold]; exact mixedSlot_one_relays a (fun j => ~~~ a j) p) ?_ (fun h => h) hno
      rw [hold, fdbSlot_relays]
      rintro ⟨heq, -⟩
      have h0 : ~~~ a 0 = a 0 := congrFun heq 0
      have hbit := congrArg (fun v => v.getLsbD 0) h0
      simp at hbit
  · intro hsafe works ws hws da ingress h
    rw [FdbOp.exec_eq_perform hdev, Bus.perform_writes] at hws
    have hpre : ws <+: op.intended (fdbSlotIndex i) := hws.trans (cut_isPrefix _ _)
    rw [op.slotAt_writes regs _ hpre] at h
    have hlen : ws.length ≤ 4 := op.intended_length (fdbSlotIndex i) ▸ hpre.length_le
    exact FdbOp.relays_of_mixed hold hsafe hlen h

/-- Registers in which slot 2 holds the entry of one station on port 1. -/
def oneStationRegs : ℕ → Word :=
  writes (fun _ => 0) (fdbSetWrites 2 ![0x02, 0x11, 0x22, 0x33, 0x44, 0x55] .port1)

/-- Clearing that entry: its first write leaves a slot that relays frames to
`06:66:22:33:44:55`, which nobody ever asked for. -/
theorem fdb_clear_exposes_foreign :
    HoldsEntry (slotAt oneStationRegs (fdbSlotIndex 0))
        (some (![0x02, 0x11, 0x22, 0x33, 0x44, 0x55], .port1)) ∧
      ¬ NoForeignMatch boardAdin (fdbSlotIndex 0) .clear oneStationRegs := by
  refine ⟨by unfold HoldsEntry; decide, fun hno => ?_⟩
  have hws : (fdbClearWrites 2).take 1 <+: (FdbOp.exec boardAdin (fdbSlotIndex 0)
      ⟨oneStationRegs, fun _ => true, []⟩ .clear).writes := by
    rw [FdbOp.exec_eq_perform rfl, Bus.perform_writes, cut_of_works _ fun _ => rfl]
    exact List.take_prefix _ _
  rcases hno _ _ hws ![0x06, 0x66, 0x22, 0x33, 0x44, 0x55] .port2 (by decide) with h | h
  · exact absurd h (by decide)
  · exact h

theorem fdb_rewrite_foreign_iff_board :
    NoForeignMatch boardAdin (fdbSlotIndex 0) .clear oneStationRegs ↔
      SafeRewrite (some (![0x02, 0x11, 0x22, 0x33, 0x44, 0x55], .port1)) .clear :=
  fdb_rewrite_foreign_iff boardAdin rfl 0 oneStationRegs _ .clear (by unfold HoldsEntry; decide)

end Usb2T1L
