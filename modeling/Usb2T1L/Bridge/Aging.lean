import Usb2T1L.Bridge.Fdb
import Usb2T1L.Lib.Lts
import Usb2T1L.Lib.SerialClock

/-!
# Aging while stations are being learnt

`link_task` reads the tick counter, takes `s_adin_lock` and only then scans the
table; `net_rx_task` learns under the same lock and reads the tick counter itself.
The two are interleaved here step by step, the counter running in between.  A
station learnt between the tick read and the lock has a stamp from the future of
the scan, and its age comes out as almost a whole turn of the counter.

The time since start-up and the log of what was learnt when are not in the
program: they say what the table is about.

## Main definitions

* `agingSys` — the interleaving of the tasks and the counter.
* `RetiresOnlyOld` — what the aging scan is to do.
* `NoLateStamp` — the condition on the steps of `net_rx_task`.

## Main results

* `AgingInv.step` — what every step keeps.
* `aging_retires_only_old` — **without late stamps only old entries are retired**.
-/

namespace Usb2T1L

/-- The tasks that take `s_adin_lock`. -/
inductive BridgeTask
  | netRx
  | netTx
  | link
  deriving DecidableEq

/-- Where `link_task` is in the aging part of its loop. -/
inductive LinkPc
  /-- Before the tick counter is read. -/
  | idle
  /-- The counter has been read, the lock not yet taken. -/
  | read (now : Word)
  /-- In the loop, with the lock, before index `i`. -/
  | scan (now : Word) (i : ℕ)
  deriving DecidableEq

/-- The bridge with the lock, the time, and the place of `link_task`. -/
structure AgingState (σ : Type) where
  bridge : Bridge σ
  lock : Option BridgeTask
  link : LinkPc
  /-- Ticks since start-up. -/
  ticks : ℕ
  /-- Every station learnt or refreshed so far, and when. -/
  learnt : List (Mac × ℕ)

/-- `xTaskGetTickCount`. -/
def AgingState.tickCount {σ : Type} (s : AgingState σ) : Word := clock 32 s.ticks

/-- One step of a task, or of the tick interrupt. -/
inductive AgingAct
  | tick
  | rxLock
  /-- `net_rx_task`, with a frame in hand, calls `net_bridge_learn`. -/
  | rxLearn (src : Mac) (ingress : Port)
  | rxUnlock
  | txLock
  | txUnlock
  | linkRead
  | linkLock
  /-- One round of the aging loop. -/
  | linkAge
  | linkUnlock

section System

variable {σ : Type} (hal : Hal σ) (dev : Adin2111) (sOwnMac : Mac)

/-- `ADIN_LOCK` in a task other than `link_task`. -/
def AgingState.take (t : BridgeTask) (s : AgingState σ) : Option (AgingState σ) :=
  if s.lock = none then some { s with lock := some t } else none

/-- `ADIN_UNLOCK` in a task other than `link_task`. -/
def AgingState.give (t : BridgeTask) (s : AgingState σ) : Option (AgingState σ) :=
  if s.lock = some t then some { s with lock := none } else none

/-- What one step does; the learning and aging code is there in switch mode only. -/
def agingStep (s : AgingState σ) : AgingAct → Option (AgingState σ)
  | .tick => some { s with ticks := s.ticks + 1 }
  | .rxLock => s.take .netRx
  | .rxLearn src ingress =>
    if s.lock = some .netRx ∧ dev.mode = .switch then
      some { s with
        bridge := netBridgeLearn hal dev sOwnMac s.tickCount src ingress s.bridge
        learnt := if Eligible sOwnMac src then (src, s.ticks) :: s.learnt else s.learnt }
    else none
  | .rxUnlock => s.give .netRx
  | .txLock => s.take .netTx
  | .txUnlock => s.give .netTx
  | .linkRead =>
    if s.link = .idle ∧ dev.mode = .switch then some { s with link := .read s.tickCount } else none
  | .linkLock =>
    match s.link with
    | .read now => if s.lock = none then some { s with lock := some .link, link := .scan now 0 }
      else none
    | _ => none
  | .linkAge =>
    match s.link with
    | .scan now i =>
      if h : i < netFdbMaxEntries then
        some { s with
          bridge := linkTaskAge hal dev now s.bridge ⟨i, h⟩
          link := .scan now (i + 1) }
      else none
    | _ => none
  | .linkUnlock =>
    match s.link with
    | .scan _ i => if i < netFdbMaxEntries then none
      else some { s with lock := none, link := .idle }
    | _ => none

theorem AgingState.take_eq_some {t : BridgeTask} {s s' : AgingState σ} :
    s.take t = some s' ↔ s.lock = none ∧ { s with lock := some t } = s' := by
  unfold take
  split <;> simp [*]

theorem AgingState.give_eq_some {t : BridgeTask} {s s' : AgingState σ} :
    s.give t = some s' ↔ s.lock = some t ∧ { s with lock := none } = s' := by
  unfold give
  split <;> simp [*]

/-- A step that leaves table and log alone: what becomes of the lock and of the
place of `link_task`. -/
def QuietMove (s s' : AgingState σ) : Prop :=
  s'.link = .idle ∨ s'.link = .read s.tickCount ∨
    (s'.link = s.link ∧ (s'.lock = s.lock ∨ s.lock ≠ some .link)) ∨
    ∃ now, s.link = .read now ∧ s'.link = .scan now 0 ∧ s'.lock = some .link

/-- **Everything a step can do**: learn an eligible station under the lock, age one
entry, or leave table and log alone. -/
theorem agingStep_cases {s s' : AgingState σ} {a : AgingAct}
    (h : agingStep hal dev sOwnMac s a = some s') :
    (∃ src ingress, a = .rxLearn src ingress ∧ Eligible sOwnMac src ∧ s.lock = some .netRx ∧
      s' = { s with
        bridge := netBridgeLearn hal dev sOwnMac s.tickCount src ingress s.bridge
        learnt := (src, s.ticks) :: s.learnt }) ∨
    (∃ now i, ∃ h : i < netFdbMaxEntries, s.link = .scan now i ∧
      s' = { s with
        bridge := linkTaskAge hal dev now s.bridge ⟨i, h⟩
        link := .scan now (i + 1) }) ∨
    (s'.bridge = s.bridge ∧ s'.learnt = s.learnt ∧ s.ticks ≤ s'.ticks ∧ QuietMove s s') := by
  cases a with
  | tick =>
    obtain rfl := Option.some.inj h
    exact Or.inr (Or.inr ⟨rfl, rfl, Nat.le_succ _, Or.inr (Or.inr (Or.inl ⟨rfl, Or.inl rfl⟩))⟩)
  | rxLock | txLock =>
    obtain ⟨hlock, rfl⟩ := AgingState.take_eq_some.mp h
    have hlock : s.lock ≠ some .link := by simp [hlock]
    exact Or.inr (Or.inr ⟨rfl, rfl, le_rfl, Or.inr (Or.inr (Or.inl ⟨rfl, Or.inr hlock⟩))⟩)
  | rxUnlock | txUnlock =>
    obtain ⟨hlock, rfl⟩ := AgingState.give_eq_some.mp h
    have hlock : s.lock ≠ some .link := by simp [hlock]
    exact Or.inr (Or.inr ⟨rfl, rfl, le_rfl, Or.inr (Or.inr (Or.inl ⟨rfl, Or.inr hlock⟩))⟩)
  | rxLearn src ingress =>
    rw [agingStep] at h
    split_ifs at h with hc hel
    · exact Or.inl ⟨src, ingress, rfl, hel, hc.1, (Option.some.inj h).symm⟩
    · obtain rfl := Option.some.inj h
      rw [netBridgeLearn_of_not_eligible hal dev hel]
      exact Or.inr (Or.inr ⟨rfl, rfl, le_rfl, Or.inr (Or.inr (Or.inl ⟨rfl, Or.inl rfl⟩))⟩)
  | linkRead =>
    rw [agingStep] at h
    split_ifs at h with hc
    obtain rfl := Option.some.inj h
    exact Or.inr (Or.inr ⟨rfl, rfl, le_rfl, Or.inr (Or.inl rfl)⟩)
  | linkLock =>
    rw [agingStep] at h
    split at h
    · next now hread =>
      split_ifs at h with hc
      obtain rfl := Option.some.inj h
      exact Or.inr (Or.inr ⟨rfl, rfl, le_rfl, Or.inr (Or.inr (Or.inr ⟨now, hread, rfl, rfl⟩))⟩)
    · exact absurd h (by simp)
  | linkAge =>
    rw [agingStep] at h
    split at h
    · next now i hscan =>
      split_ifs at h with hi
      exact Or.inr (Or.inl ⟨now, i, hi, hscan, (Option.some.inj h).symm⟩)
    · exact absurd h (by simp)
  | linkUnlock =>
    rw [agingStep] at h
    split at h
    · split_ifs at h
      obtain rfl := Option.some.inj h
      exact Or.inr (Or.inr ⟨rfl, rfl, le_rfl, Or.inl rfl⟩)
    · exact absurd h (by simp)

/-- The bridge as a transition system. -/
def agingSys : Lts (AgingState σ) AgingAct := ⟨agingStep hal dev sOwnMac⟩

/-- The tasks have not run yet. -/
def agingInit (adin : σ) : AgingState σ := ⟨⟨emptyFdb, adin⟩, none, .idle, 0, []⟩

/-- An entry that a step makes invalid has not been learnt or refreshed during the
last `NET_FDB_AGE_MS`. -/
def RetiresOnlyOld (s : AgingState σ) (_ : AgingAct) (s' : AgingState σ) : Prop :=
  ∀ i, (s.bridge.fdb i).valid = true → (s'.bridge.fdb i).valid = false →
    ∀ t, ((s.bridge.fdb i).mac, t) ∈ s.learnt → agel.toNat < s.ticks - t

/-- No station is learnt at a tick that is late for the coming scan: from the tick
`link_task` has read, the current one is at most the age limit back, modulo a turn
of the counter. -/
def NoLateStamp (s : AgingState σ) (a : AgingAct) (_ : AgingState σ) : Prop :=
  ∀ src ingress now, a = .rxLearn src ingress → Eligible sOwnMac src → s.link = .read now →
    (now - s.tickCount).toNat ≤ agel.toNat

end System

/-! ### What every step keeps -/

variable {σ : Type}

/-- The stamp of entry `i` is of time `t`, and its station was not learnt after. -/
structure Stamped (s : AgingState σ) (i : Fin netFdbMaxEntries) (t : ℕ) : Prop where
  stamp : (s.bridge.fdb i).stamp = clock 32 t
  past : t ≤ s.ticks
  last : ∀ t', ((s.bridge.fdb i).mac, t') ∈ s.learnt → t' ≤ t

/-- `link_task` has read tick `now`, at time `τ`, and every entry's stamp is of
that time or before, unless it is one that comes out young all the same. -/
def ReadAt (s : AgingState σ) (now : Word) (τ : ℕ) : Prop :=
  now = clock 32 τ ∧ τ ≤ s.ticks ∧ ∀ i, (s.bridge.fdb i).valid = true →
    ∃ t, Stamped s i t ∧ (t ≤ τ ∨ (now - (s.bridge.fdb i).stamp).toNat ≤ agel.toNat)

/-- The invariant. -/
structure AgingInv (s : AgingState σ) : Prop where
  distinct : fdbTable.Distinct s.bridge.fdb
  stamped : ∀ i, (s.bridge.fdb i).valid = true → ∃ t, Stamped s i t
  locked : ∀ now i, s.link = .scan now i → s.lock = some .link
  read : ∀ now, (s.link = .read now ∨ ∃ i, s.link = .scan now i) → ∃ τ, ReadAt s now τ
  past : ∀ x ∈ s.learnt, x.2 ≤ s.ticks

theorem Stamped.congr {s s' : AgingState σ} {i : Fin netFdbMaxEntries} {t : ℕ}
    (h : Stamped s i t) (hfdb : s'.bridge.fdb i = s.bridge.fdb i)
    (hlearnt : ∀ t', ((s.bridge.fdb i).mac, t') ∈ s'.learnt → ((s.bridge.fdb i).mac, t') ∈ s.learnt)
    (hticks : s.ticks ≤ s'.ticks) : Stamped s' i t where
  stamp := by rw [hfdb]; exact h.stamp
  past := h.past.trans hticks
  last := by
    intro t' ht'
    rw [hfdb] at ht'
    exact h.last t' (hlearnt t' ht')

/-- Steps that leave table and log alone: a reading of the counter is of the present. -/
theorem AgingInv.quiet {s s' : AgingState σ} (hI : AgingInv s) (hbridge : s'.bridge = s.bridge)
    (hlearnt : s'.learnt = s.learnt) (hticks : s.ticks ≤ s'.ticks) (hmove : QuietMove s s') :
    AgingInv s' := by
  have hkeep : ∀ i t, Stamped s i t → Stamped s' i t := fun i t h =>
    h.congr (by rw [hbridge]) (fun t' ht' => hlearnt ▸ ht') hticks
  -- a reading `link_task` holds after the step is the one it had, or a new one
  have hread : ∀ now, (s'.link = .read now ∨ ∃ i, s'.link = .scan now i) →
      (s.link = .read now ∨ ∃ i, s.link = .scan now i) ∨ now = s.tickCount := by
    intro now hnow
    rcases hmove with h | h | ⟨h, -⟩ | ⟨now', hr, h, -⟩
    · rw [h] at hnow
      simp at hnow
    · rw [h] at hnow
      rcases hnow with hr | ⟨i, hs⟩
      · exact Or.inr (LinkPc.read.inj hr).symm
      · exact absurd hs (by simp)
    · rw [h] at hnow
      exact Or.inl hnow
    · rw [h] at hnow
      rcases hnow with hr' | ⟨i, hs⟩
      · exact absurd hr' (by simp)
      · exact Or.inl (Or.inl ((LinkPc.scan.inj hs).1 ▸ hr))
  refine ⟨hbridge ▸ hI.distinct, fun i hi => ?_, fun now i hscan => ?_, fun now hnow => ?_, ?_⟩
  · rw [hbridge] at hi
    obtain ⟨t, ht⟩ := hI.stamped i hi
    exact ⟨t, hkeep i t ht⟩
  · rcases hmove with h | h | ⟨h, hl⟩ | ⟨_, _, _, hl⟩
    · rw [h] at hscan
      exact absurd hscan (by simp)
    · rw [h] at hscan
      exact absurd hscan (by simp)
    · have hlock : s.lock = some .link := hI.locked now i (h ▸ hscan)
      rcases hl with hl | hl
      · exact hl.trans hlock
      · exact absurd hlock hl
    · exact hl
  · unfold ReadAt
    rw [hbridge]
    rcases hread now hnow with h | h
    · obtain ⟨τ, hclock, hτ, hall⟩ := hI.read now h
      refine ⟨τ, hclock, hτ.trans hticks, fun i hi => ?_⟩
      obtain ⟨t, ht, hor⟩ := hall i hi
      exact ⟨t, hkeep i t ht, hor⟩
    · refine ⟨s.ticks, h, hticks, fun i hi => ?_⟩
      obtain ⟨t, ht⟩ := hI.stamped i hi
      exact ⟨t, hkeep i t ht, Or.inl ht.past⟩
  · exact fun x hx => (hI.past x (hlearnt ▸ hx)).trans hticks

variable {hal : Hal σ} {dev : Adin2111} {sOwnMac : Mac}

/-- A learn, while `link_task` does not hold the lock. -/
theorem AgingInv.rxLearn {s : AgingState σ} (hI : AgingInv s) {src : Mac} {ingress : Port}
    (hel : Eligible sOwnMac src) (hlock : s.lock ≠ some .link)
    (hlate : ∀ now, s.link = .read now → (now - s.tickCount).toNat ≤ agel.toNat) :
    AgingInv { s with
      bridge := netBridgeLearn hal dev sOwnMac s.tickCount src ingress s.bridge
      learnt := (src, s.ticks) :: s.learnt } := by
  let s' : AgingState σ := { s with
    bridge := netBridgeLearn hal dev sOwnMac s.tickCount src ingress s.bridge
    learnt := (src, s.ticks) :: s.learnt }
  -- an entry just stored is stamped with the present, the others keep their stamps
  have hself : ∀ i, s'.bridge.fdb i = ⟨src, ingress, true, s.tickCount⟩ →
      Stamped s' i s.ticks := by
    intro i hnew
    refine ⟨congrArg FdbEntry.stamp hnew, le_rfl, fun t' ht' => ?_⟩
    rw [hnew] at ht'
    rcases List.mem_cons.mp ht' with h | h
    · exact (Prod.mk.inj h).2.le
    · exact hI.past _ h
  have hkept : ∀ i, s'.bridge.fdb i = s.bridge.fdb i → (s.bridge.fdb i).mac ≠ src → ∀ t,
      Stamped s i t → Stamped s' i t := fun i hsame hother t ht =>
    ht.congr hsame (fun _ => List.mem_of_ne_of_mem fun h => hother (Prod.mk.inj h).1) le_rfl
  refine ⟨?_, fun i hi => ?_, hI.locked, fun now hnow => ?_, fun x hx => ?_⟩
  · exact netBridgeLearn_fdb hal dev hel ingress s.bridge ▸ distinct_learn hI.distinct _ _ _
  · rcases netBridgeLearn_valid hal dev hel ingress hI.distinct hi with
      hnew | ⟨hsame, hvalid, hother⟩
    · exact ⟨_, hself i hnew⟩
    · obtain ⟨t, ht⟩ := hI.stamped i hvalid
      exact ⟨t, hkept i hsame hother t ht⟩
  · have hread : s.link = .read now := by
      rcases hnow with h | ⟨i, h⟩
      · exact h
      · exact absurd (hI.locked now i h) hlock
    obtain ⟨τ, hclock, hτ, hall⟩ := hI.read now (Or.inl hread)
    refine ⟨τ, hclock, hτ, fun i hi => ?_⟩
    rcases netBridgeLearn_valid hal dev hel ingress hI.distinct hi with
      hnew | ⟨hsame, hvalid, hother⟩
    · refine ⟨_, hself i hnew, Or.inr ?_⟩
      rw [hnew]
      exact hlate now hread
    · obtain ⟨t, ht, hor⟩ := hall i hvalid
      exact ⟨t, hkept i hsame hother t ht, hsame.symm ▸ hor⟩
  · rcases List.mem_cons.mp hx with rfl | h
    · exact le_rfl
    · exact hI.past x h

/-- One round of the aging loop. -/
theorem AgingInv.linkAge {s : AgingState σ} (hI : AgingInv s) {now : Word} {i : ℕ}
    (hscan : s.link = .scan now i) (h : i < netFdbMaxEntries) :
    AgingInv { s with
      bridge := linkTaskAge hal dev now s.bridge ⟨i, h⟩
      link := .scan now (i + 1) } := by
  have hkeep : ∀ j, ((linkTaskAge hal dev now s.bridge ⟨i, h⟩).fdb j).valid = true →
      (linkTaskAge hal dev now s.bridge ⟨i, h⟩).fdb j = s.bridge.fdb j :=
    fun j hj => linkTaskAge_fdb_of_valid j hj
  refine ⟨hI.distinct.retire hkeep, fun j hj => ?_, fun _ _ _ => hI.locked now i hscan, ?_, hI.past⟩
  · have hsame := hkeep j hj
    have hj : (s.bridge.fdb j).valid = true := hsame ▸ hj
    obtain ⟨t, ht⟩ := hI.stamped j hj
    exact ⟨t, ht.congr hsame (fun _ h => h) le_rfl⟩
  · intro now' hnow'
    obtain rfl : now = now' := by
      rcases hnow' with h | ⟨j, h⟩
      · exact absurd h (by simp)
      · exact (LinkPc.scan.inj h).1
    obtain ⟨τ, hclock, hτ, hall⟩ := hI.read now (Or.inr ⟨i, hscan⟩)
    refine ⟨τ, hclock, hτ, fun j hj => ?_⟩
    have hsame := hkeep j hj
    have hj : (s.bridge.fdb j).valid = true := hsame ▸ hj
    obtain ⟨t, ht, hor⟩ := hall j hj
    exact ⟨t, ht.congr hsame (fun _ h => h) le_rfl, hsame.symm ▸ hor⟩

/-- **Every step keeps the invariant**, if no stamp is late. -/
theorem AgingInv.step {s s' : AgingState σ} {a : AgingAct} (hI : AgingInv s)
    (hlate : NoLateStamp sOwnMac s a s') (h : (agingSys hal dev sOwnMac).step s a = some s') :
    AgingInv s' := by
  rcases agingStep_cases hal dev sOwnMac h with
    ⟨src, ingress, rfl, hel, hlock, rfl⟩ | ⟨now, i, hi, hscan, rfl⟩ |
    ⟨hbridge, hlearnt, hticks, hmove⟩
  · exact hI.rxLearn hel (by simp [hlock]) fun now hread => hlate src ingress now rfl hel hread
  · exact hI.linkAge hscan hi
  · exact hI.quiet hbridge hlearnt hticks hmove

/-- Nothing but a round of the aging loop makes an entry invalid, and only if it
finds it stale. -/
theorem stale_of_retired {s s' : AgingState σ} {a : AgingAct} {i : Fin netFdbMaxEntries}
    (h : (agingSys hal dev sOwnMac).step s a = some s') (hvalid : (s.bridge.fdb i).valid = true)
    (hinvalid : (s'.bridge.fdb i).valid = false) :
    ∃ now, s.link = .scan now i ∧ stale now s.bridge.fdb i = true := by
  have hkept : s'.bridge.fdb i ≠ s.bridge.fdb i := fun heq =>
    Bool.false_ne_true (hinvalid.symm.trans (heq ▸ hvalid))
  rcases agingStep_cases hal dev sOwnMac h with
    ⟨src, ingress, -, hel, -, rfl⟩ | ⟨now, k, hk, hscan, rfl⟩ | ⟨hbridge, -, -, -⟩
  · have hfdb : (netBridgeLearn hal dev sOwnMac s.tickCount src ingress s.bridge).fdb = _ :=
      netBridgeLearn_fdb hal dev hel ingress s.bridge
    rw [hfdb] at hinvalid hkept
    rcases eq_or_ne i (learnSlot s.bridge.fdb s.tickCount src) with rfl | hik
    · rw [Function.update_self] at hinvalid
      exact absurd hinvalid.symm Bool.false_ne_true
    · exact absurd (Function.update_of_ne hik _ _) hkept
  · rcases eq_or_ne i ⟨k, hk⟩ with rfl | hik
    · refine ⟨now, hscan, ?_⟩
      by_contra hst
      exact hkept (linkTaskAge_fdb_self.trans (if_neg hst))
    · exact absurd (linkTaskAge_fdb_of_ne hik) hkept
  · exact absurd (congrArg (fun b => b.fdb i) hbridge) hkept

/-- A round of the aging loop retires an old entry only. -/
theorem AgingInv.retires_old {s : AgingState σ} (hI : AgingInv s) {now : Word} {k : ℕ}
    (hscan : s.link = .scan now k) {i : Fin netFdbMaxEntries}
    (hst : stale now s.bridge.fdb i = true) {t : ℕ}
    (ht : ((s.bridge.fdb i).mac, t) ∈ s.learnt) : agel.toNat < s.ticks - t := by
  obtain ⟨hvalid, hage⟩ := (Bool.and_eq_true _ _).mp hst
  have hage : agel.toNat < (now - (s.bridge.fdb i).stamp).toNat := of_decide_eq_true hage
  obtain ⟨τ, hclock, hτ, hall⟩ := hI.read now (Or.inr ⟨k, hscan⟩)
  obtain ⟨u, hu, hor⟩ := hall i hvalid
  have huτ : u ≤ τ := hor.resolve_right (not_le.mpr hage)
  -- the stamp is from the past of the reading, so its age is not more than the time passed
  have hpassed : (now - (s.bridge.fdb i).stamp).toNat ≤ τ - u := by
    rw [hclock, hu.stamp]
    exact toNat_clock_sub_le huτ
  have hlast : t ≤ u := hu.last t ht
  omega

theorem agingInv_init (adin : σ) : AgingInv (agingInit adin) where
  distinct := distinct_of_all_invalid fun _ => rfl
  stamped := fun _ h => absurd h Bool.false_ne_true
  locked := fun _ _ h => absurd h (by simp [agingInit])
  read := fun _ h => absurd h (by simp [agingInit])
  past := fun _ h => absurd h List.not_mem_nil

/-- **Without late stamps only old entries are retired**: in every run in which no
station is learnt at a tick that is late for the coming scan, an entry the aging
scan makes invalid has not been learnt or refreshed during the last
`NET_FDB_AGE_MS`. -/
theorem aging_retires_only_old (hal : Hal σ) (dev : Adin2111) (sOwnMac : Mac) (adin : σ)
    (as : List AgingAct)
    (hlate : (agingSys hal dev sOwnMac).Along (NoLateStamp sOwnMac) (agingInit adin) as) :
    (agingSys hal dev sOwnMac).Along RetiresOnlyOld (agingInit adin) as := by
  have hkeep : ∀ (s : AgingState σ) (a : AgingAct) (s' : AgingState σ), AgingInv s →
      NoLateStamp sOwnMac s a s' → (agingSys hal dev sOwnMac).step s a = some s' → AgingInv s' :=
    fun _ _ _ hI hl h => hI.step hl h
  refine Lts.along_invariant hkeep ?_ (agingInv_init adin) hlate
  intro s a s' hI _ h i hvalid hinvalid t ht
  obtain ⟨now, hscan, hst⟩ := stale_of_retired h hvalid hinvalid
  exact hI.retires_old hscan hst ht

/-- `link_task` reads the counter; a tick later `net_rx_task`, which has preempted
it, learns a station; then the scan goes on. -/
def lateLearn : List AgingAct :=
  [.linkRead, .tick, .rxLock, .rxLearn ![0x02, 0x11, 0x22, 0x33, 0x44, 0x55] .port1, .rxUnlock,
    .linkLock, .linkAge]

/-- In that run the scan retires a station learnt at the very tick of the scan. -/
theorem lateLearn_retires_fresh :
    ¬ (agingSys (busHal boardAdin) boardAdin (fun _ => 0)).Along RetiresOnlyOld
      (agingInit ⟨fun _ => 0, fun _ => true, []⟩) lateLearn := by
  intro h
  obtain ⟨-, h⟩ := h _ rfl
  obtain ⟨-, h⟩ := h _ rfl
  obtain ⟨-, h⟩ := h _ rfl
  obtain ⟨-, h⟩ := h _ rfl
  obtain ⟨-, h⟩ := h _ rfl
  obtain ⟨-, h⟩ := h _ rfl
  obtain ⟨h, -⟩ := h _ rfl
  have hold : agel.toNat < 1 - 1 := h 0 (by decide) (by decide) 1 (by decide)
  exact absurd hold (by decide)

theorem aging_retires_only_old_board :
    (agingSys (busHal boardAdin) boardAdin (fun _ => 0)).Along RetiresOnlyOld
      (agingInit ⟨fun _ => 0, fun _ => true, []⟩)
      [.rxLock, .rxLearn ![0x02, 0x11, 0x22, 0x33, 0x44, 0x55] .port1, .rxUnlock, .linkRead,
        .linkLock, .linkAge] := by
  refine aging_retires_only_old (busHal boardAdin) boardAdin (fun _ => 0) _ _ ?_
  intro s₁ h₁
  obtain rfl : _ = s₁ := Option.some.inj h₁
  refine ⟨fun _ _ _ h => absurd h (by simp), fun s₂ _ => ⟨fun _ _ _ _ _ h => ?_, ?_⟩⟩
  · exact LinkPc.noConfusion (h : LinkPc.idle = .read _)
  exact fun _ _ => ⟨fun _ _ _ h => absurd h (by simp), fun _ _ =>
    ⟨fun _ _ _ h => absurd h (by simp), fun _ _ => ⟨fun _ _ _ h => absurd h (by simp),
      fun _ _ => ⟨fun _ _ _ h => absurd h (by simp), trivial⟩⟩⟩⟩

end Usb2T1L
