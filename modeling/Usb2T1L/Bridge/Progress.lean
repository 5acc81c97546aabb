import Usb2T1L.Bridge.Drain

/-!
# Progress of the drain

Every round of the inner loop of `net_rx_task` is meant to take a frame off the device or to
leave the loop.  Where `adin2111_rx_ready` has seen a frame and reading it fails, the loop goes on
with the frame still in its FIFO: a failure that lasts keeps the task there for good.

## Main definitions

* `RxTask.Progress` — a round takes a frame, or leaves the loop.
* `RxTask.Clear` — the condition: the read will not fail.

## Main results

* `progress_iff` — **when a round makes progress**.
* `drain_progress` — and, where every round does, the inner loop ends.
-/

namespace Usb2T1L

variable {n : ℕ}

/-- A round takes at least one frame off the device, or leaves the loop. -/
def RxTask.Progress (crc : Bool) (mode : Mode) (sOwnMac : Mac) (now : Word) (s : RxTask n Chip) :
    Prop :=
  let s' := netRxDrain (chipHal (twoPorts crc mode)) (twoPorts crc mode) sOwnMac now s
  s'.draining = false ∨ s'.bridge.adin.queued < s.bridge.adin.queued

/-- If a frame is seen and there is a buffer, then reading the frame does not fail. -/
def RxTask.Clear (crc : Bool) (s : RxTask n Chip) : Prop :=
  s.Ready crc → s.pool.freeQ.items ≠ [] → ∀ p, s.nextPort = some p → ¬ s.polled.ReadFails crc p

theorem Chip.queued_eq_of_rx {c c' : Chip} (h : c'.rx = c.rx) : c'.queued = c.queued := by
  rw [queued, queued, h]

/-- **Everything a round can do.** -/
inductive DrainMove (crc : Bool) (s s' : RxTask n Chip) : Prop
  /-- No frame is seen, or there is no buffer. -/
  | leave (hnone : ¬ s.Ready crc ∨ s.pool.freeQ.items = []) (hleft : s'.draining = false)
      (hgrows : s.bridge.adin.Grows s'.bridge.adin)
  /-- Reading a frame fails. -/
  | fault {p : Port} (hready : s.Ready crc) (hbuf : s.pool.freeQ.items ≠ [])
      (hp : s.nextPort = some p) (hf : s.polled.ReadFails crc p)
      (hstay : s'.draining = s.draining) (hpool : s'.pool.freeQ.items ≠ [])
      (hgrows : s.bridge.adin.Grows s'.bridge.adin)
  /-- A frame is read. -/
  | frame {p : Port} {c : Chip} {fr : RxFrame} {rest : List RxFrame} (hp : s.nextPort = some p)
      (hf : ¬ s.polled.ReadFails crc p) (hgrows : s.bridge.adin.Grows c)
      (hrx : c.rx p = fr :: rest) (hpop : (c.pop p).Grows s'.bridge.adin)

theorem netRxDrain_move (crc : Bool) (mode : Mode) (sOwnMac : Mac) (now : Word)
    (s : RxTask n Chip) :
    DrainMove crc s
      (netRxDrain (chipHal (twoPorts crc mode)) (twoPorts crc mode) sOwnMac now s) := by
  have hpolled := Chip.grows_next (false, adinRegStatus1) s.bridge.adin
  by_cases hready : s.Ready crc
  swap
  · rw [netRxDrain_of_not_ready sOwnMac now hready]
    exact .leave (Or.inl hready) rfl hpolled
  by_cases hbuf : s.pool.freeQ.items = []
  · rw [netRxDrain_of_no_buffer sOwnMac now hbuf]
    exact .leave (Or.inr hbuf) rfl hpolled
  obtain ⟨p, hp⟩ := hready.nextPort
  obtain ⟨⟨f, q⟩, halloc⟩ := Option.ne_none_iff_exists'.mp (mt Queue.receive_eq_none_iff.mp hbuf)
  by_cases hf : s.polled.ReadFails crc p
  · obtain ⟨hstay, hfree, hgrows⟩ := netRxDrain_fault sOwnMac now mode hready halloc hp hf
    have hroom : q.items.length < n := by
      have hbound := s.pool.freeQ.bounded
      rw [Queue.receive_eq_some_iff.mp halloc, List.length_cons] at hbound
      omega
    refine .fault hready hbuf hp hf hstay ?_ hgrows
    rw [hfree, framePoolFree_items hroom]
    simp
  · obtain ⟨c, fr, rest, hgrows, hrx, heq⟩ := netRxDrain_frame sOwnMac now hready halloc hp hf
    rw [heq]
    exact .frame hp hf hgrows hrx
      (netRxFrame_spec sOwnMac now (twoPorts crc mode) f q fr.eth p (s.withAdin (c.pop p))).2.2

section

variable {crc : Bool} {mode : Mode} {sOwnMac : Mac} {now : Word} {s s' : RxTask n Chip}

/-- Without arrivals a round that reads a frame leaves one fewer. -/
theorem queued_of_frame (hquiet : ∀ k, s.bridge.adin.arrivals k = []) {p : Port} {c : Chip}
    {fr : RxFrame} {rest : List RxFrame} (hgrows : s.bridge.adin.Grows c)
    (hrx : c.rx p = fr :: rest) (hpop : (c.pop p).Grows s'.bridge.adin) :
    s'.bridge.adin.queued + 1 = s.bridge.adin.queued := by
  obtain ⟨hcrx, hcquiet⟩ := hgrows.quiet hquiet
  rw [Chip.queued_eq_of_rx (hpop.quiet hcquiet).1, Chip.queued_pop hrx, Chip.queued_eq_of_rx hcrx]

/-- Nothing arrives later where nothing is to arrive. -/
theorem DrainMove.quiet (h : DrainMove crc s s') (hquiet : ∀ k, s.bridge.adin.arrivals k = []) :
    ∀ k, s'.bridge.adin.arrivals k = [] := by
  cases h with
  | leave _ _ hgrows => exact (hgrows.quiet hquiet).2
  | fault _ _ _ _ _ _ hgrows => exact (hgrows.quiet hquiet).2
  | frame _ _ hgrows _ hpop => exact (hpop.quiet (hgrows.quiet hquiet).2).2

/-- **A round makes progress exactly if reading a frame will not fail.** -/
theorem progress_iff (hd : s.draining = true) (hquiet : ∀ k, s.bridge.adin.arrivals k = []) :
    s.Progress crc mode sOwnMac now ↔ s.Clear crc := by
  unfold RxTask.Progress
  cases netRxDrain_move crc mode sOwnMac now s with
  | leave hnone hleft =>
    refine iff_of_true (Or.inl hleft) fun hready hbuf => ?_
    exact absurd hnone (not_or.mpr ⟨not_not.mpr hready, hbuf⟩)
  | fault hready hbuf hp hf hstay _ hgrows =>
    have hsame := Chip.queued_eq_of_rx (hgrows.quiet hquiet).1
    refine iff_of_false ?_ fun hclear => hclear hready hbuf _ hp hf
    rintro (hleft | hfewer)
    · rw [hstay, hd] at hleft
      exact absurd hleft (by decide)
    · omega
  | frame hp hf hgrows hrx hpop =>
    have hfewer := queued_of_frame hquiet hgrows hrx hpop
    refine iff_of_true (Or.inr (by omega)) fun _ _ p' hp' => ?_
    obtain rfl := Option.some.inj (hp.symm.trans hp')
    exact hf

end

/-- Every state the inner loop comes to meets the condition. -/
def ClearAlong (crc : Bool) (mode : Mode) (sOwnMac : Mac) (s : RxTask n Chip) (now : ℕ → Word) :
    Prop :=
  ∀ m s', (netRxTask (chipHal (twoPorts crc mode)) (twoPorts crc mode) sOwnMac).run s
      ((List.range m).map fun i => .drain (now i)) = some s' → s'.draining = true → s'.Clear crc

/-- **The drain makes progress.**  When no more frames arrive, and whatever fails: a round takes a
frame off the device or leaves the inner loop exactly if the condition holds; and where it holds in
every round, the inner loop ends. -/
theorem drain_progress (crc : Bool) (mode : Mode) (sOwnMac : Mac) {s : RxTask n Chip}
    (hd : s.draining = true) (hquiet : ∀ k, s.bridge.adin.arrivals k = []) :
    (∀ now, s.Progress crc mode sOwnMac now ↔ s.Clear crc) ∧
      ∀ now : ℕ → Word, ClearAlong crc mode sOwnMac s now →
        ∃ m s', (netRxTask (chipHal (twoPorts crc mode)) (twoPorts crc mode) sOwnMac).run s
            ((List.range m).map fun i => .drain (now i)) = some s' ∧ s'.draining = false := by
  refine ⟨fun now => progress_iff hd hquiet, fun now hclear => ?_⟩
  -- the bound is the number of frames on the device
  have hround : ∀ k (s : RxTask n Chip) (now : ℕ → Word),
      (s.draining = true ∧ (∀ j, s.bridge.adin.arrivals j = []) ∧ s.bridge.adin.queued ≤ k ∧
        ClearAlong crc mode sOwnMac s now) →
      ∃ s', (netRxTask (chipHal (twoPorts crc mode)) (twoPorts crc mode) sOwnMac).step s
          (.drain (now 0)) = some s' ∧ (s'.draining = false ∨
        ∃ j < k, s'.draining = true ∧ (∀ j, s'.bridge.adin.arrivals j = []) ∧
          s'.bridge.adin.queued ≤ j ∧ ClearAlong crc mode sOwnMac s' fun i => now (i + 1)) := by
    rintro k s now ⟨hd, hquiet, hk, hclear⟩
    have hmove := netRxDrain_move crc mode sOwnMac (now 0) s
    have hprogress : s.Progress crc mode sOwnMac (now 0) :=
      (progress_iff hd hquiet).mpr (hclear 0 s rfl hd)
    have hstep : (netRxTask (chipHal (twoPorts crc mode)) (twoPorts crc mode) sOwnMac).step s
        (.drain (now 0)) = some _ := if_pos hd
    unfold RxTask.Progress at hprogress
    dsimp only at hprogress
    generalize netRxDrain _ _ sOwnMac (now 0) s = s1 at hmove hprogress hstep
    refine ⟨s1, hstep, ?_⟩
    cases hd1 : s1.draining with
    | false => exact Or.inl rfl
    | true =>
      rw [hd1] at hprogress
      have hfewer := hprogress.resolve_left (by decide)
      refine Or.inr ⟨s1.bridge.adin.queued, by omega, rfl, hmove.quiet hquiet, le_rfl, ?_⟩
      intro m s' hrun
      refine hclear (m + 1) s' ?_
      rw [Lts.run_choices_succ]
      exact Lts.run_cons_eq_some _ |>.mpr ⟨s1, hstep, hrun⟩
  exact Lts.leads_to RxAct.drain hround _ s now ⟨hd, hquiet, le_rfl, hclear⟩

/-- On a bus that works the condition holds all along. -/
theorem RxTask.Lossless.clearAlong {s : RxTask n Chip} (h : s.Lossless) (hn : 0 < n) (crc : Bool)
    (mode : Mode) (sOwnMac : Mac) (now : ℕ → Word) : ClearAlong crc mode sOwnMac s now := by
  intro m s' hrun _ _ _ p _
  have hs' : s'.Lossless := Lts.run_invariant (fun _ _ _ h _ hs => h.step sOwnMac hn hs) h
    (Lts.along_true _ s) hrun
  exact hs'.not_readFails crc p

/-- The task in its inner loop, with a frame waiting on port 2. -/
def oneToDrain : RxTask netRxPoolCount Chip :=
  ⟨true, freshPool netRxPoolCount, ⟨emptyFdb, oneWaiting⟩, []⟩

theorem lossless_oneToDrain : oneToDrain.Lossless :=
  ⟨fun _ _ => rfl, List.Perm.refl _, fun _ => rfl⟩

theorem drain_progress_oneToDrain :
    (∀ now, oneToDrain.Progress true .switch (fun _ => 0) now ↔ oneToDrain.Clear true) ∧
      ∀ now : ℕ → Word, ∃ m s',
        (netRxTask (chipHal (twoPorts true .switch)) (twoPorts true .switch) (fun _ => 0)).run
          oneToDrain ((List.range m).map fun i => .drain (now i)) = some s' ∧
            s'.draining = false := by
  obtain ⟨hiff, hends⟩ := drain_progress true .switch (fun _ => 0)
    (rfl : oneToDrain.draining = true) fun _ => rfl
  exact ⟨hiff, fun now =>
    hends now (lossless_oneToDrain.clearAlong (by decide) true .switch (fun _ => 0) now)⟩

/-! ### Where it does not -/

/-- A frame waits on port 2, `STATUS1` can always be read, and `RX_P2_FSIZE` never. -/
structure RxTask.Jammed (s : RxTask n Chip) : Prop where
  draining : s.draining = true
  quiet : ∀ k, s.bridge.adin.arrivals k = []
  buffer : s.pool.freeQ.items ≠ []
  port1 : s.bridge.adin.rx .port1 = []
  port2 : s.bridge.adin.rx .port2 ≠ []
  status1 : ∀ k, s.bridge.adin.faults (false, adinRegStatus1) k = .none
  fsize : ∀ k, s.bridge.adin.faults (false, rxFsizeReg .port2) k = .spi

namespace RxTask.Jammed

variable {s : RxTask n Chip}

theorem firstReady (h : s.Jammed) {c : Chip} (hc : c.rx = s.bridge.adin.rx) :
    c.firstReady = some .port2 := by
  rw [Chip.firstReady, hc, if_neg (not_not.mpr h.port1), if_pos h.port2]

/-- Reading the frame fails. -/
theorem stuck (h : s.Jammed) (crc : Bool) :
    s.Ready crc ∧ s.nextPort = some .port2 ∧ s.polled.ReadFails crc .port2 := by
  obtain ⟨hrx, hquiet⟩ := (Chip.grows_next (false, adinRegStatus1) s.bridge.adin).quiet h.quiet
  obtain ⟨hrx', -⟩ := (Chip.grows_next (false, adinRegStatus1) s.polled).quiet hquiet
  have hfsize : s.polled.fault crc (false, rxFsizeReg .port2) =
      s.bridge.adin.fault crc (false, rxFsizeReg .port2) :=
    Chip.fault_next_of_ne crc (by decide)
  refine ⟨⟨?_, ?_⟩, h.firstReady (hrx'.trans hrx), Or.inr (Or.inl ?_)⟩
  · rw [Chip.fault, h.status1 0]
    rfl
  · rw [RxTask.polled, h.firstReady hrx]
    simp
  · rw [hfsize, Chip.fault, h.fsize 0]
    simp

/-- A round changes nothing that matters. -/
theorem drain (h : s.Jammed) (crc : Bool) (mode : Mode) (sOwnMac : Mac) (now : Word) :
    (netRxDrain (chipHal (twoPorts crc mode)) (twoPorts crc mode) sOwnMac now s).Jammed := by
  obtain ⟨hready, hp, hf⟩ := h.stuck crc
  cases netRxDrain_move crc mode sOwnMac now s with
  | leave hnone => exact absurd hnone (not_or.mpr ⟨not_not.mpr hready, h.buffer⟩)
  | fault _ _ _ _ hstay hpool hgrows =>
    obtain ⟨hrx, hquiet⟩ := hgrows.quiet h.quiet
    obtain ⟨m, hm⟩ := hgrows.faults (false, adinRegStatus1)
    obtain ⟨m', hm'⟩ := hgrows.faults (false, rxFsizeReg .port2)
    exact
      { draining := hstay.trans h.draining
        quiet := hquiet
        buffer := hpool
        port1 := by rw [hrx, h.port1]
        port2 := by rw [hrx]; exact h.port2
        status1 := fun k => (hm k).trans (h.status1 _)
        fsize := fun k => (hm' k).trans (h.fsize _) }
  | frame hp' hf' =>
    obtain rfl := Option.some.inj (hp.symm.trans hp')
    exact absurd hf hf'

/-- **The inner loop never ends.** -/
theorem run (crc : Bool) (mode : Mode) (sOwnMac : Mac) : ∀ (m : ℕ) {s : RxTask n Chip}
    (now : ℕ → Word), s.Jammed →
      ∃ s', (netRxTask (chipHal (twoPorts crc mode)) (twoPorts crc mode) sOwnMac).run s
        ((List.range m).map fun i => .drain (now i)) = some s' ∧ s'.Jammed := by
  intro m
  induction m with
  | zero => intro s _ h; exact ⟨s, rfl, h⟩
  | succ m ih =>
    intro s now h
    obtain ⟨s', hrun, hs'⟩ := ih (fun i => now (i + 1)) (h.drain crc mode sOwnMac (now 0))
    refine ⟨s', ?_, hs'⟩
    rw [Lts.run_choices_succ]
    exact Lts.run_cons_eq_some _ |>.mpr ⟨_, if_pos h.draining, hrun⟩

end RxTask.Jammed

/-- The task in its inner loop on a device whose `RX_P2_FSIZE` cannot be read. -/
def sizeFails : RxTask netRxPoolCount Chip :=
  { oneToDrain with
    bridge := ⟨emptyFdb, { oneWaiting with
      faults := fun a _ => if a = (false, rxFsizeReg .port2) then .spi else .none }⟩ }

theorem jammed_sizeFails : sizeFails.Jammed where
  draining := rfl
  quiet := fun _ => rfl
  buffer := by decide
  port1 := rfl
  port2 := List.cons_ne_nil _ _
  status1 := fun _ => rfl
  fsize := fun _ => rfl

/-- **The loop goes round and round**: no frame is taken, and the loop is not left. -/
theorem drain_spins :
    (∀ now, ¬ sizeFails.Progress true .switch (fun _ => 0) now) ∧
      ∀ (now : ℕ → Word) (m : ℕ), ∃ s',
        (netRxTask (chipHal (twoPorts true .switch)) (twoPorts true .switch) (fun _ => 0)).run
          sizeFails ((List.range m).map fun i => .drain (now i)) = some s' ∧
            s'.draining = true := by
  obtain ⟨hready, hp, hf⟩ := jammed_sizeFails.stuck true
  refine ⟨fun now hprogress => ?_, fun now m => ?_⟩
  · exact (progress_iff rfl fun _ => rfl).mp hprogress hready jammed_sizeFails.buffer _ hp hf
  · obtain ⟨s', hrun, hs'⟩ := RxTask.Jammed.run true .switch (fun _ => 0) m now jammed_sizeFails
    exact ⟨s', hrun, hs'.draining⟩

end Usb2T1L
