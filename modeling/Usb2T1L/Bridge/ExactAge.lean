import Usb2T1L.Bridge.Aging

/-!
# Ages across a wrap of the counter

Stamps are of 32 bits, and an age is a difference of two of them.  It is the time that has
passed as long as less than a turn of the counter has, and the sweeps see to that: an entry that
a sweep leaves valid was sighted at most the age limit before it, and the next sweep is not far.

The system here is coarser than `agingSys`: a sweep is one step, at the time at which
`link_task` reads the counter.  That is what a sweep comes to when nothing is learnt between
that reading and the scan.

## Main definitions

* `timedSys` — the counter, `net_bridge_learn` and the sweeps of `link_task`.
* `Paced` — sweeps are at most so far apart.
* `ExactAges`, `SweepsExactly` — what the ages and the sweeps are to be.

## Main results

* `TimedInv.step` — what every step keeps.
* `ages_exact` — **ages are exact, and sweeps retire exactly the old entries**, however often
  the counter has wrapped.
-/

namespace Usb2T1L

/-- The bridge, the time, and what has happened so far. -/
structure TimedState (σ : Type) where
  bridge : Bridge σ
  /-- Ticks since start-up. -/
  ticks : ℕ
  /-- When the table was last swept, or start-up: the table is empty then. -/
  swept : ℕ
  /-- Every station learnt or refreshed so far, and when. -/
  learnt : List (Mac × ℕ)

/-- `xTaskGetTickCount`. -/
def TimedState.tickCount {σ : Type} (s : TimedState σ) : Word := clock 32 s.ticks

/-- What can happen. -/
inductive TimedAct
  | tick
  | learn (src : Mac) (ingress : Port)
  | sweep
  deriving DecidableEq

section System

variable {σ : Type} (hal : Hal σ) (dev : Adin2111) (sOwnMac : Mac)

/-- What one step does. -/
def timedStep (s : TimedState σ) : TimedAct → Option (TimedState σ)
  | .tick => some { s with ticks := s.ticks + 1 }
  | .learn src ingress =>
    some { s with
      bridge := netBridgeLearn hal dev sOwnMac s.tickCount src ingress s.bridge
      learnt := if Eligible sOwnMac src then (src, s.ticks) :: s.learnt else s.learnt }
  | .sweep =>
    some { s with
      bridge := linkTaskSweep hal dev s.tickCount s.bridge
      swept := s.ticks }

/-- The bridge, its clock and its sweeps as a transition system. -/
def timedSys : Lts (TimedState σ) TimedAct := ⟨timedStep hal dev sOwnMac⟩

/-- Start-up, at whatever tick the counter begins with. -/
def timedInit (adin : σ) (t₀ : ℕ) : TimedState σ := ⟨⟨emptyFdb, adin⟩, t₀, t₀, []⟩

end System

variable {σ : Type}

/-- The last sweep is never more than `G` ticks ago. -/
def Paced (G : ℕ) (_ : TimedState σ) (_ : TimedAct) (s' : TimedState σ) : Prop :=
  s'.ticks ≤ s'.swept + G

instance (G : ℕ) (s : TimedState σ) (a : TimedAct) (s' : TimedState σ) :
    Decidable (Paced G s a s') := inferInstanceAs (Decidable (_ ≤ _))

/-- The station was last learnt or refreshed at time `t`. -/
def LastLearnt (s : TimedState σ) (mac : Mac) (t : ℕ) : Prop :=
  (mac, t) ∈ s.learnt ∧ ∀ t', (mac, t') ∈ s.learnt → t' ≤ t

/-- **The age computed for each valid entry is the true one.** -/
def ExactAges (s : TimedState σ) : Prop :=
  ∀ i, (s.bridge.fdb i).valid = true → ∃ t, LastLearnt s (s.bridge.fdb i).mac t ∧ t ≤ s.ticks ∧
    age s.bridge.fdb s.tickCount i = s.ticks - t

/-- **A sweep leaves valid exactly the entries** last learnt or refreshed at or after the present
less the age limit. -/
def SweepsExactly (s s' : TimedState σ) : Prop :=
  ∀ i, (s'.bridge.fdb i).valid = true ↔ (s.bridge.fdb i).valid = true ∧
    ∃ t, LastLearnt s (s.bridge.fdb i).mac t ∧ s.ticks ≤ t + agel.toNat

/-- What every step is to do. -/
def AgesExactly (s : TimedState σ) (a : TimedAct) (s' : TimedState σ) : Prop :=
  ExactAges s ∧ (a = .sweep → SweepsExactly s s')

/-! ### What every step keeps -/

theorem LastLearnt.unique {s : TimedState σ} {mac : Mac} {t t' : ℕ} (h : LastLearnt s mac t)
    (h' : LastLearnt s mac t') : t = t' :=
  le_antisymm (h'.2 t h.1) (h.2 t' h'.1)

/-- Entry `i` was last learnt or refreshed at time `t`, and the last sweep left it valid or came
before. -/
structure SightedAt (s : TimedState σ) (i : Fin netFdbMaxEntries) (t : ℕ) : Prop where
  stamp : (s.bridge.fdb i).stamp = clock 32 t
  last : LastLearnt s (s.bridge.fdb i).mac t
  past : t ≤ s.ticks
  swept : s.swept ≤ t + agel.toNat

/-- The invariant: every valid entry has been sighted since the last sweep, or less than the age
limit before it. -/
structure TimedInv (G : ℕ) (s : TimedState σ) : Prop where
  distinct : fdbTable.Distinct s.bridge.fdb
  sighted : ∀ i, (s.bridge.fdb i).valid = true → ∃ t, SightedAt s i t
  paced : s.swept ≤ s.ticks ∧ s.ticks ≤ s.swept + G
  past : ∀ x ∈ s.learnt, x.2 ≤ s.ticks

variable {G : ℕ}

/-- **Ages are exact**: no entry has been there for a whole turn of the counter. -/
theorem TimedInv.age_eq {s : TimedState σ} (hI : TimedInv G s) (hG : G + agel.toNat < 2 ^ 32)
    {i : Fin netFdbMaxEntries} {t : ℕ} (h : SightedAt s i t) :
    age s.bridge.fdb s.tickCount i = s.ticks - t := by
  have hturn : s.ticks - t < 2 ^ 32 := by
    have hpaced := hI.paced.2
    have hswept := h.swept
    omega
  rw [age, TimedState.tickCount, h.stamp, toNat_clock_sub h.past, Nat.mod_eq_of_lt hturn]

theorem TimedInv.exactAges {s : TimedState σ} (hI : TimedInv G s)
    (hG : G + agel.toNat < 2 ^ 32) : ExactAges s := by
  intro i hi
  obtain ⟨t, ht⟩ := hI.sighted i hi
  exact ⟨t, ht.last, ht.past, hI.age_eq hG ht⟩

theorem timedInv_init (adin : σ) (t₀ : ℕ) : TimedInv G (timedInit adin t₀) where
  distinct := distinct_of_all_invalid fun _ => rfl
  sighted := fun _ h => absurd h Bool.false_ne_true
  paced := ⟨le_rfl, Nat.le_add_right _ _⟩
  past := fun _ h => absurd h List.not_mem_nil

/-- Time passes. -/
theorem TimedInv.tick {s : TimedState σ} (hI : TimedInv G s) (hpaced : s.ticks + 1 ≤ s.swept + G) :
    TimedInv G { s with ticks := s.ticks + 1 } where
  distinct := hI.distinct
  sighted := by
    intro i hi
    obtain ⟨t, ht⟩ := hI.sighted i hi
    exact ⟨t, ht.stamp, ht.last, ht.past.trans (Nat.le_succ _), ht.swept⟩
  paced := ⟨hI.paced.1.trans (Nat.le_succ _), hpaced⟩
  past := fun x hx => (hI.past x hx).trans (Nat.le_succ _)

variable {hal : Hal σ} {dev : Adin2111} {sOwnMac : Mac}

/-- A station is learnt: its entry is of the present, and the others are as they were. -/
theorem TimedInv.learn {s : TimedState σ} (hI : TimedInv G s) {src : Mac} {ingress : Port}
    (hel : Eligible sOwnMac src) :
    TimedInv G { s with
      bridge := netBridgeLearn hal dev sOwnMac s.tickCount src ingress s.bridge
      learnt := (src, s.ticks) :: s.learnt } := by
  refine ⟨netBridgeLearn_fdb hal dev hel ingress s.bridge ▸ distinct_learn hI.distinct _ _ _,
    fun i hi => ?_, hI.paced, fun x hx => ?_⟩
  · rcases netBridgeLearn_valid hal dev hel ingress hI.distinct hi with
      hnew | ⟨hsame, hvalid, hother⟩
    · refine ⟨s.ticks, congrArg FdbEntry.stamp hnew, ?_, le_rfl,
        hI.paced.1.trans (Nat.le_add_right _ _)⟩
      rw [hnew]
      refine ⟨List.mem_cons_self, fun t' ht' => ?_⟩
      rcases List.mem_cons.mp ht' with h | h
      · exact (Prod.mk.inj h).2.le
      · exact hI.past _ h
    · obtain ⟨t, ht⟩ := hI.sighted i hvalid
      refine ⟨t, (congrArg FdbEntry.stamp hsame).trans ht.stamp, ?_, ht.past, ht.swept⟩
      rw [hsame]
      refine ⟨List.mem_cons_of_mem _ ht.last.1, fun t' ht' => ht.last.2 t' ?_⟩
      exact List.mem_of_ne_of_mem (fun h => hother (Prod.mk.inj h).1) ht'
  · rcases List.mem_cons.mp hx with rfl | h
    · exact le_rfl
    · exact hI.past x h

/-- An entry is stale at a sweep exactly if it has not been sighted for longer than the limit. -/
theorem TimedInv.stale_iff {s : TimedState σ} (hI : TimedInv G s) (hG : G + agel.toNat < 2 ^ 32)
    {i : Fin netFdbMaxEntries} (hi : (s.bridge.fdb i).valid = true) {t : ℕ} (h : SightedAt s i t) :
    stale s.tickCount s.bridge.fdb i = true ↔ t + agel.toNat < s.ticks := by
  have hage := hI.age_eq hG h
  rw [age] at hage
  rw [stale, hi, Bool.true_and, decide_eq_true_iff, BitVec.lt_def, hage]
  have hpast := h.past
  omega

/-- **A sweep retires exactly the old entries.** -/
theorem TimedInv.sweepsExactly {s s' : TimedState σ} (hI : TimedInv G s)
    (hG : G + agel.toNat < 2 ^ 32)
    (h : s'.bridge = linkTaskSweep hal dev s.tickCount s.bridge) : SweepsExactly s s' := by
  intro i
  rw [h, linkTaskSweep_fdb]
  by_cases hi : (s.bridge.fdb i).valid = true
  · obtain ⟨t, ht⟩ := hI.sighted i hi
    have hst := hI.stale_iff hG hi ht
    constructor
    · intro hvalid
      refine ⟨hi, t, ht.last, not_lt.mp fun hlt => ?_⟩
      rw [if_pos (hst.mpr hlt)] at hvalid
      exact absurd hvalid Bool.false_ne_true
    · rintro ⟨-, t', ht', hle⟩
      obtain rfl := ht.last.unique ht'
      rw [if_neg fun hs => absurd (hst.mp hs) (not_lt.mpr hle)]
      exact hi
  · have hinvalid : stale s.tickCount s.bridge.fdb i = false := by
      rw [stale, Bool.not_eq_true _ |>.mp hi, Bool.false_and]
    rw [if_neg (by rw [hinvalid]; exact Bool.false_ne_true)]
    exact ⟨fun hvalid => absurd hvalid hi, fun hvalid => hvalid.1⟩

/-- The table is swept. -/
theorem TimedInv.sweep {s : TimedState σ} (hI : TimedInv G s) (hG : G + agel.toNat < 2 ^ 32) :
    TimedInv G { s with
      bridge := linkTaskSweep hal dev s.tickCount s.bridge
      swept := s.ticks } where
  distinct := hI.distinct.retire fun i hi => linkTaskSweep_fdb_of_valid i hi
  sighted := by
    intro i hi
    have hsame : (linkTaskSweep hal dev s.tickCount s.bridge).fdb i = s.bridge.fdb i :=
      linkTaskSweep_fdb_of_valid i hi
    have hvalid : (s.bridge.fdb i).valid = true := hsame ▸ hi
    obtain ⟨t, ht⟩ := hI.sighted i hvalid
    have hexact : SweepsExactly s ⟨linkTaskSweep hal dev s.tickCount s.bridge, 0, 0, []⟩ :=
      hI.sweepsExactly hG rfl
    obtain ⟨-, t', ht', hle⟩ := (hexact i).mp hi
    obtain rfl := ht.last.unique ht'
    refine ⟨t, (congrArg FdbEntry.stamp hsame).trans ht.stamp, ?_, ht.past, hle⟩
    show LastLearnt s ((linkTaskSweep hal dev s.tickCount s.bridge).fdb i).mac t
    rw [hsame]
    exact ht.last
  paced := ⟨le_rfl, Nat.le_add_right _ _⟩
  past := hI.past

/-- **Every step keeps the invariant**, if sweeps come in time. -/
theorem TimedInv.step {s s' : TimedState σ} {a : TimedAct} (hI : TimedInv G s)
    (hG : G + agel.toNat < 2 ^ 32) (hpaced : Paced G s a s')
    (h : (timedSys hal dev sOwnMac).step s a = some s') : TimedInv G s' := by
  cases a with
  | tick =>
    obtain rfl := Option.some.inj h
    exact hI.tick hpaced
  | learn src ingress =>
    obtain rfl := Option.some.inj h
    by_cases hel : Eligible sOwnMac src
    · rw [if_pos hel]
      exact hI.learn hel
    · rw [if_neg hel, netBridgeLearn_of_not_eligible hal dev hel]
      exact hI
  | sweep =>
    obtain rfl := Option.some.inj h
    exact hI.sweep hG

/-- **Aging is exact**, however often the counter has wrapped.  In every run in which at most
`G` ticks pass without a sweep, where `G` and the age limit together are less than a turn of the
counter: the age of every valid entry, at a sweep and at the choice of an entry for a new
station, is the time since its station was last sighted; and a sweep leaves valid exactly the
entries that were valid and whose station was last sighted at or after the present less the age
limit. -/
theorem ages_exact (hal : Hal σ) (dev : Adin2111) (sOwnMac : Mac) (adin : σ) (t₀ G : ℕ)
    (hG : G + agel.toNat < 2 ^ 32) (as : List TimedAct)
    (hpaced : (timedSys hal dev sOwnMac).Along (Paced G) (timedInit adin t₀) as) :
    (timedSys hal dev sOwnMac).Along AgesExactly (timedInit adin t₀) as := by
  have hkeep : ∀ (s : TimedState σ) (a : TimedAct) (s' : TimedState σ), TimedInv G s →
      Paced G s a s' → (timedSys hal dev sOwnMac).step s a = some s' → TimedInv G s' :=
    fun _ _ _ hI hp h => hI.step hG hp h
  refine Lts.along_invariant hkeep ?_ (timedInv_init adin t₀) hpaced
  intro s a s' hI _ h
  refine ⟨hI.exactAges hG, ?_⟩
  rintro rfl
  obtain rfl := Option.some.inj h
  exact hI.sweepsExactly hG rfl

/-- The counter is about to wrap when a station is learnt, and has wrapped at the sweep. -/
theorem ages_exact_wrap :
    (timedSys (busHal boardAdin) boardAdin (fun _ => 0)).Along AgesExactly
      (timedInit ⟨fun _ => 0, fun _ => true, []⟩ (2 ^ 32 - 1))
      [.learn ![0x02, 0x11, 0x22, 0x33, 0x44, 0x55] .port1, .tick, .sweep, .tick,
        .learn ![0x02, 0, 0, 0, 0, 1] .port2] :=
  ages_exact (busHal boardAdin) boardAdin (fun _ => 0) _ _ 250 (by decide) _ (by decide)

end Usb2T1L
