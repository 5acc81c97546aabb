import Usb2T1L.Bridge.FramePool
import Usb2T1L.Ecm.Class

/-!
# Downlink buffers

The way of a frame from the host: received into the buffer armed on the bulk OUT
endpoint, submitted by `ECM_DataOut`, queued on `s_to_adin_q`, taken by
`net_tx_task` and given back to the pool.  `ECM_DataOut` is cut in two at the point
where it holds a buffer, `next`, that nothing else points to.

## Main definitions

* `Downlink` — the buffers and the pointers to them.
* `Downlink.ecmOpenDataEps`, `ecmCloseDataEps`, `ecmDataOut`, `submit`, `netTxTask` — what
  moves them.
* `Downlink.Owned` — **every buffer is in exactly one place**, and there is always one to
  spare for the endpoint.

## Main results

* `Owned.ecmOpenDataEps`, `Owned.ecmCloseDataEps`, `Kept.ecmDataOut`, `Owned.submit`,
  `Owned.netTxTask` — each operation keeps the buffers owned, and finds room in the queue it
  sends to.
-/

namespace Usb2T1L

/-- Where `net_tx_task` is. -/
inductive TxPc (n : ℕ)
  | receive
  /-- It has taken a frame and is transmitting it. -/
  | transmit (f : Fin n)
  /-- It is about to free the frame. -/
  | free (f : Fin n)

/-- The `n` buffers of `s_tx_pool` and all that points to them. -/
structure Downlink (n : ℕ) where
  pool : FramePool n
  toAdinQ : Queue (Fin n) n
  sOutFrame : Option (Fin n)
  /-- The buffer the bulk OUT endpoint receives into. -/
  outArmed : Option (Fin n)
  /-- Inside `ECM_DataOut`: `next`, and the received `len`. -/
  dataOutNext : Option (Fin n × ℕ)
  tx : TxPc n
  /-- How many sends to either queue have found it full. -/
  refused : ℕ

namespace Downlink

variable {n : ℕ}

/-- The buffers as `net_bridge_init` leaves them. -/
def start (pool : FramePool n) : Downlink n := ⟨pool, Queue.empty, none, none, none, .receive, 0⟩

/-! ### The operations -/

/-- `frame_pool_free` on `s_tx_pool`. -/
def free (d : Downlink n) (f : Fin n) : Downlink n :=
  { d with
    pool := { d.pool with freeQ := framePoolFree d.pool.freeQ f }
    refused := d.refused + if d.pool.freeQ.send f = none then 1 else 0 }

/-- `ecm_open_data_eps`: arm the first reception. -/
def ecmOpenDataEps (d : Downlink n) : Downlink n :=
  match framePoolAlloc d.pool.freeQ with
  | some (f, q) =>
    { d with pool := { d.pool with freeQ := q }, sOutFrame := some f, outArmed := some f }
  | none => { d with sOutFrame := none, outArmed := none }

/-- `ecm_close_data_eps`: closing the endpoint cancels the reception. -/
def ecmCloseDataEps (d : Downlink n) : Downlink n :=
  match d.sOutFrame with
  | some f => { d.free f with sOutFrame := none, outArmed := none }
  | none => { d with outArmed := none }

/-- Storing into a frame. -/
def store (d : Downlink n) (f : Fin n) (frame : NetFrame) : Downlink n :=
  { d with pool := { d.pool with storage := Function.update d.pool.storage f frame } }

/-- The endpoint completes the reception of `rx`. -/
def received (d : Downlink n) (rx : List Byte) : Downlink n :=
  match d.outArmed with
  | some f =>
    let frame := d.pool.storage f
    { d.store f { frame with data := overlay rx frame.data } with outArmed := none }
  | none => d

/-- `ECM_DataOut` after the reception of `rx`, up to where it has a fresh buffer, or
else the whole of it. -/
def ecmDataOut (rx : List Byte) (d : Downlink n) : Downlink n :=
  match d.sOutFrame with
  | none => d
  | some f =>
    -- a zero-length terminator or oversize: re-arm the same buffer
    if rx.length = 0 ∨ netMaxFrameLen < rx.length then { d with outArmed := some f }
    else
      match framePoolAlloc d.pool.freeQ with
      | none => { d with outArmed := some f }
      | some (next, q) =>
        { d with pool := { d.pool with freeQ := q }, dataOutNext := some (next, rx.length) }

/-- `net_bridge_downlink_submit_isr`: a frame that the queue refuses is recycled. -/
def netBridgeDownlinkSubmitIsr (d : Downlink n) (f : Fin n) : Downlink n :=
  match d.toAdinQ.send f with
  | some q => { d with toAdinQ := q }
  | none => { d.free f with refused := (d.free f).refused + 1 }

/-- The rest of `ECM_DataOut`: submit the filled buffer and arm the fresh one. -/
def submit (d : Downlink n) : Option (Downlink n) :=
  match d.dataOutNext, d.sOutFrame with
  | some (next, len), some f =>
    let d := d.store f { d.pool.storage f with len := BitVec.ofNat 16 len }
    some { d.netBridgeDownlinkSubmitIsr f with
      sOutFrame := some next
      outArmed := some next
      dataOutNext := none }
  | _, _ => none

/-- The next step of `net_tx_task`. -/
def netTxTask (d : Downlink n) : Option (Downlink n) :=
  match d.tx with
  | .receive => (d.toAdinQ.receive).map fun (f, q) => { d with toAdinQ := q, tx := .transmit f }
  | .transmit f => some { d with tx := .free f }
  | .free f => some { d.free f with tx := .receive }

/-! ### Ownership -/

/-- The buffer `net_tx_task` holds. -/
def held (d : Downlink n) : List (Fin n) :=
  match d.tx with
  | .receive => []
  | .transmit f | .free f => [f]

/-- The buffer `ECM_DataOut` holds as `next`. -/
def next (d : Downlink n) : List (Fin n) := (d.dataOutNext.map Prod.fst).toList

/-- Every place a buffer can be in. -/
def places (d : Downlink n) : List (Fin n) :=
  d.pool.freeQ.items ++ (d.toAdinQ.items ++ (d.held ++ (d.sOutFrame.toList ++ d.next)))

/-- Every buffer is accounted for. -/
structure Kept (d : Downlink n) : Prop where
  /-- Every buffer is in exactly one place. -/
  places : d.places.Perm (List.finRange n)
  /-- One buffer is neither queued nor held: there is one for the endpoint. -/
  spare : d.toAdinQ.items.length + d.held.length < n
  /-- No send has found its queue full. -/
  refused : d.refused = 0
  /-- Inside `ECM_DataOut` there is a filled buffer. -/
  filled : d.dataOutNext ≠ none → d.sOutFrame ≠ none

/-- The invariant of the buffers: outside `ECM_DataOut` the reception is armed into
`s_out_frame`. -/
structure Owned (d : Downlink n) : Prop extends Kept d where
  armed : d.dataOutNext = none → d.outArmed = d.sOutFrame

/-- The places hold as many buffers as there are. -/
theorem Kept.length {d : Downlink n} (h : d.Kept) :
    d.pool.freeQ.items.length + (d.toAdinQ.items.length + (d.held.length +
      (d.sOutFrame.toList.length + d.next.length))) = n := by
  have hlen := h.places.length_eq
  rw [List.length_finRange, Downlink.places] at hlen
  simpa only [List.length_append] using hlen

/-- A freed buffer finds room, and is in the pool then. -/
theorem free_of_room {d : Downlink n} {f : Fin n} (h : d.pool.freeQ.items.length < n) :
    (d.free f).pool.freeQ.items = d.pool.freeQ.items ++ [f] ∧ (d.free f).refused = d.refused := by
  have hsend : d.pool.freeQ.send f ≠ none := fun hn =>
    absurd h (not_lt.mpr (Queue.send_eq_none_iff.mp hn))
  refine ⟨framePoolFree_items h f, ?_⟩
  show d.refused + (if d.pool.freeQ.send f = none then 1 else 0) = d.refused
  rw [if_neg hsend, Nat.add_zero]

/-- How often a buffer is in each place. -/
theorem count_places (d : Downlink n) (a : Fin n) :
    d.places.count a = d.pool.freeQ.items.count a + (d.toAdinQ.items.count a + (d.held.count a +
      (d.sOutFrame.toList.count a + d.next.count a))) := by
  rw [places]
  simp only [List.count_append]

/-- Moving buffers between places keeps them all there. -/
theorem Kept.perm_of_count {d d' : Downlink n} (h : d.Kept)
    (hcount : ∀ a, d'.places.count a = d.places.count a) : d'.places.Perm (List.finRange n) :=
  (List.perm_iff_count.mpr hcount).trans h.places

/-- **Opening the endpoint finds a buffer** and arms it. -/
theorem Owned.ecmOpenDataEps {d : Downlink n} (h : d.Owned) (hisr : d.dataOutNext = none)
    (hout : d.sOutFrame = none) : d.ecmOpenDataEps.Owned ∧ d.ecmOpenDataEps.sOutFrame ≠ none := by
  have hlen := h.length
  have hspare := h.spare
  have hnext : d.next = [] := by rw [next, hisr]; rfl
  rw [hout, hnext, Option.toList_none, List.length_nil] at hlen
  unfold Downlink.ecmOpenDataEps
  cases halloc : framePoolAlloc d.pool.freeQ with
  | none =>
    have hnil := Queue.receive_eq_none_iff.mp halloc
    rw [hnil, List.length_nil] at hlen
    omega
  | some r =>
    obtain ⟨f, q⟩ := r
    have hitems := Queue.receive_eq_some_iff.mp halloc
    refine ⟨⟨⟨h.perm_of_count fun a => ?_, h.spare, h.refused, fun _ => by simp⟩, fun _ => rfl⟩,
      by simp⟩
    rw [count_places, count_places, hitems, hout]
    simp only [Downlink.held, Downlink.next, Option.toList_some, Option.toList_none,
      List.count_cons, List.count_nil]
    omega

/-- Closing the endpoint gives the armed buffer back. -/
theorem Owned.ecmCloseDataEps {d : Downlink n} (h : d.Owned) (hisr : d.dataOutNext = none) :
    d.ecmCloseDataEps.Owned ∧ d.ecmCloseDataEps.sOutFrame = none := by
  cases hout : d.sOutFrame with
  | none =>
    have hclose : d.ecmCloseDataEps = { d with outArmed := none } := by
      rw [Downlink.ecmCloseDataEps, hout]
    rw [hclose]
    exact ⟨⟨⟨h.places, h.spare, h.refused, fun hn => absurd hisr hn⟩, fun _ => hout.symm⟩, hout⟩
  | some f =>
    have hclose : d.ecmCloseDataEps = { d.free f with sOutFrame := none, outArmed := none } := by
      rw [Downlink.ecmCloseDataEps, hout]
    have hlen := h.length
    rw [hout, Option.toList_some, List.length_singleton] at hlen
    obtain ⟨hitems, href⟩ : (d.free f).pool.freeQ.items = d.pool.freeQ.items ++ [f] ∧ _ :=
      free_of_room (by omega)
    rw [hclose]
    refine ⟨⟨⟨h.perm_of_count fun a => ?_, h.spare, href.trans h.refused,
      fun hn => absurd hisr hn⟩, fun _ => rfl⟩, rfl⟩
    rw [count_places, count_places, hitems, hout]
    simp only [Downlink.held, Downlink.next, Downlink.free, Option.toList_some, Option.toList_none,
      List.count_append, List.count_nil]
    omega

/-- The completion of a reception moves no buffer. -/
theorem Owned.received {d : Downlink n} (h : d.Owned) (rx : List Byte) :
    (d.received rx).Kept ∧ (d.received rx).outArmed = none ∧
      (d.received rx).sOutFrame = d.sOutFrame ∧ (d.received rx).dataOutNext = d.dataOutNext := by
  unfold Downlink.received
  split
  · exact ⟨⟨h.places, h.spare, h.refused, h.filled⟩, rfl, rfl, rfl⟩
  · next hnone => exact ⟨h.toKept, hnone, rfl, rfl⟩

/-- **`ECM_DataOut`, up to where it has a fresh buffer**, for any received length. -/
theorem Kept.ecmDataOut {d : Downlink n} (h : d.Kept) (harmed : d.outArmed = none)
    (hisr : d.dataOutNext = none) (rx : List Byte) :
    (d.ecmDataOut rx).Owned ∧ (d.ecmDataOut rx).sOutFrame = d.sOutFrame := by
  unfold Downlink.ecmDataOut
  split
  · next hout => exact ⟨⟨h, fun _ => harmed.trans hout.symm⟩, rfl⟩
  · next f hout =>
    -- the two ways that re-arm the same buffer
    have hrearm : ({ d with outArmed := some f } : Downlink n).Owned :=
      ⟨⟨h.places, h.spare, h.refused, h.filled⟩, fun _ => hout.symm⟩
    split
    · exact ⟨hrearm, rfl⟩
    · split
      · exact ⟨hrearm, rfl⟩
      · next nx q halloc =>
        have hitems := Queue.receive_eq_some_iff.mp halloc
        refine ⟨⟨⟨h.perm_of_count fun a => ?_, h.spare, h.refused, fun _ => ?_⟩,
          fun hn => absurd hn (by simp)⟩, rfl⟩
        · rw [count_places, count_places, hitems]
          simp only [Downlink.held, Downlink.next, hisr, Option.map_some, Option.map_none,
            Option.toList_some, Option.toList_none, List.count_cons, List.count_nil]
          omega
        · show d.sOutFrame ≠ none
          rw [hout]
          simp

/-- A frame the queue has room for is queued. -/
theorem netBridgeDownlinkSubmitIsr_of_room {d : Downlink n} {f : Fin n}
    (h : d.toAdinQ.items.length < n) :
    ∃ q : Queue (Fin n) n, q.items = d.toAdinQ.items ++ [f] ∧
      d.netBridgeDownlinkSubmitIsr f = { d with toAdinQ := q } := by
  unfold netBridgeDownlinkSubmitIsr
  cases hsend : d.toAdinQ.send f with
  | none => exact absurd h (not_lt.mpr (Queue.send_eq_none_iff.mp hsend))
  | some q => exact ⟨q, (Queue.send_eq_some_iff.mp hsend).2, rfl⟩

/-- What the rest of `ECM_DataOut` does: there is room in the queue. -/
theorem Owned.submit_eq {d d' : Downlink n} (h : d.Owned) (hs : d.submit = some d') :
    ∃ (nx : Fin n) (len : ℕ) (f : Fin n) (q : Queue (Fin n) n),
      d.dataOutNext = some (nx, len) ∧ d.sOutFrame = some f ∧ q.items = d.toAdinQ.items ++ [f] ∧
      d' = { d.store f { d.pool.storage f with len := BitVec.ofNat 16 len } with
        toAdinQ := q
        sOutFrame := some nx
        outArmed := some nx
        dataOutNext := none } := by
  unfold Downlink.submit at hs
  split at hs
  · next nx len f hnext hout =>
    have hlen := h.length
    rw [hout, Downlink.next, hnext] at hlen
    simp only [Option.map_some, Option.toList_some, List.length_singleton] at hlen
    have hroom : (d.store f
        { d.pool.storage f with len := BitVec.ofNat 16 len }).toAdinQ.items.length < n := by
      show d.toAdinQ.items.length < n
      omega
    obtain ⟨q, hq, hsubmit⟩ : ∃ q : Queue (Fin n) n, _ ∧
        Downlink.netBridgeDownlinkSubmitIsr _ f = _ := netBridgeDownlinkSubmitIsr_of_room hroom
    simp only [hsubmit, Option.some.injEq] at hs
    exact ⟨nx, len, f, q, hnext, hout, hq, hs.symm⟩
  · exact absurd hs (by simp)

/-- **The rest of `ECM_DataOut`** finds room in the queue and leaves the fresh buffer
armed. -/
theorem Owned.submit {d d' : Downlink n} (h : d.Owned) (hs : d.submit = some d') :
    d'.Owned ∧ d'.dataOutNext = none ∧ d'.sOutFrame ≠ none ∧ d.sOutFrame ≠ none := by
  obtain ⟨nx, len, f, q, hnext, hout, hq, rfl⟩ := h.submit_eq hs
  have hlen := h.length
  rw [hout, Downlink.next, hnext] at hlen
  simp only [Option.map_some, Option.toList_some, List.length_singleton] at hlen
  refine ⟨⟨⟨h.perm_of_count fun a => ?_, ?_, h.refused, fun hn => absurd rfl hn⟩, fun _ => rfl⟩,
    rfl, by simp, by simp [hout]⟩
  · rw [count_places, count_places, hq, hout]
    simp only [Downlink.store, Downlink.held, Downlink.next, hnext, Option.map_some,
      Option.map_none, Option.toList_some, Option.toList_none, List.count_append, List.count_nil]
    omega
  · show q.items.length + d.held.length < n
    rw [hq, List.length_append, List.length_singleton]
    omega

/-- **Every step of `net_tx_task`** keeps the buffers owned; a freed one finds room. -/
theorem Owned.netTxTask {d d' : Downlink n} (h : d.Owned) (hs : d.netTxTask = some d') :
    d'.Owned ∧ d'.dataOutNext = d.dataOutNext ∧ d'.sOutFrame = d.sOutFrame := by
  have hlen := h.length
  have hspare := h.spare
  unfold Downlink.netTxTask at hs
  split at hs
  · next htx =>
    obtain ⟨⟨f, q⟩, hreceive, rfl⟩ := Option.map_eq_some_iff.mp hs
    have hitems := Queue.receive_eq_some_iff.mp hreceive
    have hheld : d.held = [] := by rw [Downlink.held, htx]
    refine ⟨⟨⟨h.perm_of_count fun a => ?_, ?_, h.refused, h.filled⟩, h.armed⟩, rfl, rfl⟩
    · rw [count_places, count_places, hitems, hheld]
      simp only [Downlink.held, Downlink.next, List.count_cons, List.count_nil]
      omega
    · rw [hitems, hheld, List.length_cons] at hspare
      show q.items.length + 1 < n
      exact hspare
  · next f htx =>
    obtain rfl := Option.some.inj hs
    have hheld : d.held = [f] := by rw [Downlink.held, htx]
    refine ⟨⟨⟨h.perm_of_count fun a => ?_, ?_, h.refused, h.filled⟩, h.armed⟩, rfl, rfl⟩
    · rw [count_places, count_places, hheld]
      rfl
    · rw [hheld] at hspare
      exact hspare
  · next f htx =>
    obtain rfl := Option.some.inj hs
    have hheld : d.held = [f] := by rw [Downlink.held, htx]
    rw [hheld, List.length_singleton] at hlen hspare
    obtain ⟨hitems, href⟩ : (d.free f).pool.freeQ.items = d.pool.freeQ.items ++ [f] ∧ _ :=
      free_of_room (by omega)
    refine ⟨⟨⟨h.perm_of_count fun a => ?_, ?_, href.trans h.refused, h.filled⟩, h.armed⟩, rfl, rfl⟩
    · rw [count_places, count_places, hitems, hheld]
      simp only [Downlink.held, Downlink.next, Downlink.free, List.count_append, List.count_nil]
      omega
    · show d.toAdinQ.items.length + 0 < n
      omega

end Downlink

end Usb2T1L
