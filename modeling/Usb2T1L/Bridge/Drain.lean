import Usb2T1L.Bridge.RxTask

/-!
# The uplink drain

On a bus that works no frame is lost on the way from the two receive FIFOs to
`usbd_ecm_if_send`, whenever frames arrive: what has arrived on a port is what has been sent
from it, followed by what is still queued.

## Main definitions

* `RxTask.delivered` — the frames sent with a port's tag.
* `RxTask.Lossless` — the invariant.

## Main results

* `Lossless.wake`, `Lossless.drain` — what a step keeps.
* `drain_lossless` — **no run loses, reorders or repeats a frame**, the pool gets every buffer
  back, and once arrivals stop the inner loop ends with empty FIFOs.
-/

namespace Usb2T1L

variable {n : ℕ} {crc : Bool} {mode : Mode} (sOwnMac : Mac) (now : Word)

/-- The frames handed to `usbd_ecm_if_send` with the tag of a port. -/
def RxTask.delivered {σ : Type} (s : RxTask n σ) (p : Port) : List (List Byte) :=
  (s.sent.filter fun f => f.port = p.val.setWidth 8).map NetFrame.bytes

/-- The invariant between two steps. -/
structure RxTask.Lossless (s : RxTask n Chip) : Prop where
  works : ∀ a k, s.bridge.adin.faults a k = .none
  /-- Every buffer is free. -/
  pool : s.pool.freeQ.items.Perm (List.finRange n)
  frames : ∀ p, (s.bridge.adin.arrived p).map RxFrame.eth =
    s.delivered p ++ (s.bridge.adin.rx p).map RxFrame.eth

/-- A frame read from port `p` is delivered there, and is the one sent. -/
theorem delivered_netRxFrame (dev : Adin2111) (f : Fin n) (q : Queue (Fin n) n) (fr : RxFrame)
    (p r : Port) (s : RxTask n Chip) :
    (netRxFrame (chipHal dev) dev sOwnMac now f q fr.eth p s).delivered r =
      s.delivered r ++ if r = p then [fr.eth] else [] := by
  have hlen : fr.eth.length ≤ 1520 := fr.eth_le
  have htag : p.val.setWidth 8 = r.val.setWidth 8 ↔ r = p := by cases p <;> cases r <;> decide
  rw [netRxFrame, if_neg fr.eth_pos.ne', RxTask.delivered, RxTask.delivered, List.filter_append,
    List.map_append]
  congr 1
  by_cases hr : r = p
  · have hbytes : (List.ofFn (overlay fr.eth (s.pool.storage f).data)).take
        (BitVec.ofNat 16 fr.eth.length).toNat = fr.eth := by
      rw [BitVec.toNat_ofNat, Nat.mod_eq_of_lt (by omega)]
      exact take_ofFn_overlay (hlen.trans (by decide)) _
    rw [if_pos hr, List.filter_cons, if_pos (decide_eq_true (htag.mpr hr))]
    exact congrArg (fun b => [b]) hbytes
  · rw [if_neg hr, List.filter_cons, if_neg (by simpa using mt htag.mp hr)]
    rfl

theorem Chip.queued_pop {c : Chip} {p : Port} {fr : RxFrame} {rest : List RxFrame}
    (h : c.rx p = fr :: rest) : (c.pop p).queued + 1 = c.queued := by
  cases p <;> simp [queued, pop, h] <;> omega

/-- Popping a frame lowers the number of frames to come. -/
theorem Chip.atMost_pop {c : Chip} {p : Port} {fr : RxFrame} {rest : List RxFrame}
    (h : c.rx p = fr :: rest) {k : ℕ} (hk : c.AtMost k) : ∃ j < k, (c.pop p).AtMost j := by
  have hpop := Chip.queued_pop h
  have hk0 := hk 0
  refine ⟨k - 1, by omega, fun m => ?_⟩
  have hkm := hk m
  have hcome : (c.pop p).toCome m = c.toCome m := rfl
  rw [hcome]
  omega

namespace RxTask.Lossless

variable {s : RxTask n Chip}

/-- While the device is used but no frame taken, everything stays. -/
theorem withAdin (h : s.Lossless) {c : Chip} (hc : s.bridge.adin.Grows c) :
    (s.withAdin c).Lossless where
  works := hc.works h.works
  pool := h.pool
  frames := fun p => by
    obtain ⟨new, hrx, harr⟩ := hc.rx p
    show (c.arrived p).map RxFrame.eth = s.delivered p ++ (c.rx p).map RxFrame.eth
    rw [hrx, harr, List.map_append, List.map_append, h.frames p, List.append_assoc]

theorem wake (h : s.Lossless) {s' : RxTask n Chip}
    (hs : (netRxTask (chipHal (twoPorts crc mode)) (twoPorts crc mode) sOwnMac).step s .wake =
      some s') : s'.Lossless := by
  have hs : (if s.draining = true then none else some { s.withAdin (adin2111IrqAck
    (chipHal (twoPorts crc mode)) (twoPorts crc mode) s.bridge.adin).2 with draining := true }) =
      some s' := hs
  split at hs
  · exact absurd hs (by simp)
  · have hw := h.withAdin (adin2111IrqAck_grows (twoPorts crc mode) s.bridge.adin)
    rw [← Option.some.inj hs]
    exact ⟨hw.works, hw.pool, hw.frames⟩

theorem not_readFails (h : s.Lossless) (crc : Bool) (p : Port) : ¬ s.polled.ReadFails crc p := by
  have hgrows := Chip.grows_next (false, adinRegStatus1) s.bridge.adin
  have hfault := Chip.fault_of_works (hgrows.works h.works) crc
  rintro (hf | hf | hf) <;> exact hf (hfault _)

/-- The frame at the head of a FIFO is handed on. -/
theorem frame (h : s.Lossless) {c : Chip} (hc : s.bridge.adin.Grows c) {p : Port} {fr : RxFrame}
    {rest : List RxFrame} (hrx : c.rx p = fr :: rest) {f : Fin n} {q : Queue (Fin n) n}
    (halloc : framePoolAlloc s.pool.freeQ = some (f, q)) (dev : Adin2111) :
    (netRxFrame (chipHal dev) dev sOwnMac now f q fr.eth p (s.withAdin (c.pop p))).Lossless := by
  obtain ⟨-, hfree, hgrows⟩ := netRxFrame_spec sOwnMac now dev f q fr.eth p
    (s.withAdin (c.pop p))
  have hdelivered := delivered_netRxFrame sOwnMac now dev f q fr p
  have hitems := Queue.receive_eq_some_iff.mp halloc
  have hroom : q.items.length < n := by
    have hbound := s.pool.freeQ.bounded
    rw [hitems, List.length_cons] at hbound
    omega
  refine ⟨hgrows.works (hc.works h.works), ?_, fun r => ?_⟩
  · rw [hfree, framePoolFree_items hroom]
    have hpool := h.pool
    rw [hitems] at hpool
    exact (List.perm_append_singleton f q.items).trans hpool
  · obtain ⟨new, hnew, harr⟩ := hgrows.rx r
    have hframes : (c.arrived r).map RxFrame.eth = s.delivered r ++ (c.rx r).map RxFrame.eth :=
      (h.withAdin hc).frames r
    rw [hnew, harr, List.map_append, List.map_append, hdelivered, ← List.append_assoc]
    congr 1
    show (c.arrived r).map RxFrame.eth =
      s.delivered r ++ (if r = p then [fr.eth] else []) ++ ((c.pop p).rx r).map RxFrame.eth
    by_cases hr : r = p
    · subst hr
      have hpop : (c.pop r).rx r = rest := by
        rw [Chip.pop]
        exact (Function.update_self r _ _).trans (by rw [hrx, List.tail_cons])
      rw [if_pos rfl, hpop, hframes, hrx, List.map_cons, List.append_assoc, List.singleton_append]
    · have hpop : (c.pop p).rx r = c.rx r := Function.update_of_ne hr _ _
      rw [if_neg hr, hpop, hframes, List.append_nil]

/-- **A round of the inner loop** leaves it with empty FIFOs, or takes one frame. -/
theorem drain (crc : Bool) (mode : Mode) (h : s.Lossless) (hn : 0 < n) (hd : s.draining = true) :
    let s' := netRxDrain (chipHal (twoPorts crc mode)) (twoPorts crc mode) sOwnMac now s
    s'.Lossless ∧ ((s'.draining = false ∧ ∀ p, s'.bridge.adin.rx p = []) ∨
      s'.draining = true ∧
        ∀ k, s.bridge.adin.AtMost k → ∃ j < k, s'.bridge.adin.AtMost j) := by
  have hnext := Chip.grows_next (false, adinRegStatus1) s.bridge.adin
  have hfault := Chip.fault_of_works h.works crc
  by_cases hready : s.Ready crc
  swap
  · -- the loop ends: `STATUS1` could be read, so no frame is queued
    have hnone : s.polled.firstReady = none := by
      by_contra hsome
      exact hready ⟨hfault _, hsome⟩
    obtain ⟨h1, h2⟩ := Chip.firstReady_eq_none_iff.mp hnone
    have hw := h.withAdin hnext
    dsimp only
    rw [netRxDrain_of_not_ready sOwnMac now hready]
    exact ⟨⟨hw.works, hw.pool, hw.frames⟩, Or.inl ⟨rfl, fun p => by cases p; exacts [h1, h2]⟩⟩
  obtain ⟨p, hp⟩ := hready.nextPort
  have hreads : ¬ s.polled.ReadFails crc p := h.not_readFails crc p
  -- every buffer is free, so there is one
  obtain ⟨⟨f, q⟩, halloc⟩ : ∃ r, framePoolAlloc s.pool.freeQ = some r := by
    refine Option.ne_none_iff_exists'.mp fun hnone => ?_
    have hlen := h.pool.length_eq
    rw [Queue.receive_eq_none_iff.mp hnone, List.length_finRange, List.length_nil] at hlen
    omega
  obtain ⟨c, fr, rest, hgrows, hrx, heq⟩ := netRxDrain_frame sOwnMac now hready
    halloc hp hreads
  dsimp only
  rw [heq]
  obtain ⟨hdrain, -, hframe⟩ := netRxFrame_spec sOwnMac now
    (twoPorts crc mode) f q fr.eth p (s.withAdin (c.pop p))
  refine ⟨h.frame sOwnMac now hgrows hrx halloc _, Or.inr ⟨hdrain.trans hd, fun k hk => ?_⟩⟩
  obtain ⟨j, hj, hpop⟩ := Chip.atMost_pop hrx (hgrows.atMost k hk)
  exact ⟨j, hj, hframe.atMost j hpop⟩

theorem step (h : s.Lossless) (hn : 0 < n) {a : RxAct} {s' : RxTask n Chip}
    (hs : (netRxTask (chipHal (twoPorts crc mode)) (twoPorts crc mode) sOwnMac).step s a =
      some s') : s'.Lossless := by
  cases a with
  | wake => exact h.wake sOwnMac hs
  | drain now =>
    have hs : (if s.draining = true then some (netRxDrain (chipHal (twoPorts crc mode))
      (twoPorts crc mode) sOwnMac now s) else none) = some s' := hs
    split at hs
    · next hd =>
      rw [← Option.some.inj hs]
      exact (drain sOwnMac now crc mode h hn hd).1
    · exact absurd hs (by simp)

theorem delivered_prefix (h : s.Lossless) (p : Port) :
    s.delivered p <+: (s.bridge.adin.arrived p).map RxFrame.eth :=
  ⟨_, (h.frames p).symm⟩

end RxTask.Lossless

/-! ### When arrivals stop -/

/-- Where arrivals stop the number of frames is bounded. -/
theorem Chip.atMost_of_stop {c : Chip} {N : ℕ} (h : ∀ k, N ≤ k → c.arrivals k = []) :
    ∃ k, c.AtMost k := by
  have hsucc : ∀ m, c.toCome (m + 1) = c.toCome m + (c.arrivals m).length := fun m => by
    rw [toCome, toCome, List.range_succ, List.map_append, List.sum_append, List.map_singleton,
      List.sum_singleton]
  have hle : ∀ m, c.toCome m ≤ c.toCome N := by
    intro m
    induction m with
    | zero => exact Nat.zero_le _
    | succ m ih =>
      rw [hsucc]
      by_cases hm : N ≤ m
      · rw [h m hm, List.length_nil, Nat.add_zero]
        exact ih
      · have hmono : Monotone c.toCome := monotone_nat_of_le_succ fun k => by
          rw [hsucc]
          exact Nat.le_add_right _ _
        rw [← hsucc]
        exact hmono (by omega)
  exact ⟨c.queued + c.toCome N, fun m => Nat.add_le_add_left (hle m) _⟩

/-- **The drain loses nothing.**  From start-up on, whenever frames arrive: on each port the
frames handed to `usbd_ecm_if_send` are the first of those that have arrived, in order and byte
for byte; every buffer of the pool is free between two rounds, exactly once; and if arrivals
stop, the inner loop ends, with both FIFOs empty. -/
theorem drain_lossless (crc : Bool) (mode : Mode) (sOwnMac : Mac) (fdb : Fdb)
    {storage : Fin netRxPoolCount → NetFrame} {pool : FramePool netRxPoolCount}
    (hpool : framePoolInit storage = some pool) {c : Chip}
    (hworks : ∀ a k, c.faults a k = .none) (harrived : c.arrived = c.rx)
    {as : List RxAct} {s : RxTask netRxPoolCount Chip}
    (hrun : (netRxTask (chipHal (twoPorts crc mode)) (twoPorts crc mode) sOwnMac).run
      ⟨false, pool, ⟨fdb, c⟩, []⟩ as = some s) :
    (∀ p, s.delivered p <+: (s.bridge.adin.arrived p).map RxFrame.eth) ∧
      s.pool.freeQ.items.Perm (List.finRange netRxPoolCount) ∧
      (s.draining = true → (∃ N, ∀ k, N ≤ k → s.bridge.adin.arrivals k = []) →
        ∀ now : ℕ → Word, ∃ m s',
          (netRxTask (chipHal (twoPorts crc mode)) (twoPorts crc mode) sOwnMac).run s
            ((List.range m).map fun i => .drain (now i)) = some s' ∧
          s'.draining = false ∧ ∀ p, s'.bridge.adin.rx p = []) := by
  have hn : 0 < netRxPoolCount := by decide
  have hstart : (⟨false, pool, ⟨fdb, c⟩, []⟩ : RxTask netRxPoolCount Chip).Lossless :=
    ⟨hworks, by rw [framePoolInit_items hpool], fun p => by rw [harrived]; rfl⟩
  have hs : s.Lossless := Lts.run_invariant (fun _ _ _ h _ hs => h.step sOwnMac hn hs) hstart
    (Lts.along_true as _) hrun
  refine ⟨hs.delivered_prefix, hs.pool, fun hd hstop now => ?_⟩
  obtain ⟨k, hk⟩ := Chip.atMost_of_stop hstop.choose_spec
  -- the bound is the number of frames still to be taken
  have hround : ∀ k (s : RxTask netRxPoolCount Chip) (now : ℕ → Word),
      (s.Lossless ∧ s.draining = true ∧ s.bridge.adin.AtMost k) →
        ∃ s', (netRxTask (chipHal (twoPorts crc mode)) (twoPorts crc mode) sOwnMac).step s
            (.drain (now 0)) = some s' ∧
          ((s'.draining = false ∧ ∀ p, s'.bridge.adin.rx p = []) ∨
            ∃ j < k, s'.Lossless ∧ s'.draining = true ∧ s'.bridge.adin.AtMost j) := by
    rintro k s now ⟨hs, hd, hk⟩
    obtain ⟨hs', hleave | ⟨hd', hlower⟩⟩ := hs.drain sOwnMac (now 0) crc mode hn hd
    · exact ⟨_, if_pos hd, Or.inl hleave⟩
    · obtain ⟨j, hj, hbound⟩ := hlower k hk
      exact ⟨_, if_pos hd, Or.inr ⟨j, hj, hs', hd', hbound⟩⟩
  exact Lts.leads_to RxAct.drain hround k s now ⟨hs, hd, hk⟩

/-- A frame of one byte waits on port 2. -/
def oneWaiting : Chip :=
  { workingChip with
    rx := fun p => if p = .port2 then [⟨(0, 1), [0x2A], 0, by decide, by decide⟩] else []
    arrived := fun p => if p = .port2 then [⟨(0, 1), [0x2A], 0, by decide, by decide⟩] else [] }

/-- Two frames wait on port 2: one of two USB packets, and one of a single byte. -/
def twoWaiting : Chip :=
  let queue : Port → List RxFrame := fun p => if p = .port2 then
    [⟨(0, 1), List.replicate 100 7, 0, by decide, by decide⟩, ⟨(0, 1), [0x2A], 0, by decide,
      by decide⟩] else []
  { workingChip with rx := queue, arrived := queue }

theorem drain_lossless_twoWaiting : ∃ s t,
    (netRxTask (chipHal (twoPorts true .switch)) (twoPorts true .switch) (fun _ => 0)).run
      ⟨false, freshPool netRxPoolCount, ⟨emptyFdb, twoWaiting⟩, []⟩ [.wake] = some s ∧
    (netRxTask (chipHal (twoPorts true .switch)) (twoPorts true .switch) (fun _ => 0)).run s
      [.drain 0, .drain 1] = some t ∧ t.delivered .port2 = [List.replicate 100 7, [0x2A]] ∧
        (∀ p, t.delivered p <+: (t.bridge.adin.arrived p).map RxFrame.eth) ∧
          ∀ now : ℕ → Word, ∃ m s', (netRxTask (chipHal (twoPorts true .switch))
            (twoPorts true .switch) (fun _ => 0)).run s
              ((List.range m).map fun i => .drain (now i)) = some s' ∧
            s'.draining = false ∧ ∀ p, s'.bridge.adin.rx p = [] := by
  obtain ⟨s, hrun, hd, hgrows⟩ := netRxTask_wake (fun _ => 0) (twoPorts true .switch)
    (rfl : (⟨false, freshPool netRxPoolCount, ⟨emptyFdb, twoWaiting⟩, []⟩ :
      RxTask netRxPoolCount Chip).draining = false)
  have hsummary : ((netRxTask (chipHal (twoPorts true .switch)) (twoPorts true .switch)
      (fun _ => 0)).run ⟨false, freshPool netRxPoolCount, ⟨emptyFdb, twoWaiting⟩, []⟩
        ([.wake] ++ [.drain 0, .drain 1])).map (fun s => s.delivered .port2) =
          some [List.replicate 100 7, [0x2A]] := by decide +kernel
  obtain ⟨t, hboth, hdelivered⟩ := Option.map_eq_some_iff.mp hsummary
  obtain ⟨s', hrun', hrest⟩ := (Lts.run_append_iff _).mp hboth
  obtain rfl : s' = s := Option.some.inj (hrun'.symm.trans hrun)
  obtain ⟨-, -, hends⟩ := drain_lossless true .switch (fun _ => 0) emptyFdb
    (framePoolInit_freshPool (by decide)) (fun _ _ => rfl) rfl hrun
  exact ⟨s', t, hrun, hrest, hdelivered, (drain_lossless true .switch (fun _ => 0) emptyFdb
    (framePoolInit_freshPool (by decide)) (fun _ _ => rfl) rfl hboth).1,
      hends hd ⟨0, fun k _ => (hgrows.quiet fun _ => rfl).2 k⟩⟩

end Usb2T1L
