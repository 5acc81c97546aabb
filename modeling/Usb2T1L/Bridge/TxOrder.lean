import Usb2T1L.Adin2111.Init
import Usb2T1L.Adin2111.SpiDma
import Usb2T1L.Bridge.TxWire
import Usb2T1L.Ecm.Contents

/-!
# Order and integrity of the downlink

`net_tx_task`, transaction by transaction, while the USB interrupt submits frames and opens and
closes the endpoints, and other tasks use the SPI bus.  The bus may answer anything.

The records of what has been submitted, taken and shifted out are not in the program: they say
what the downlink is about.

## Main definitions

* `TxRun`, `txSys` — the state, and the system.
* `TxRun.Ordered` — the invariant.

## Main results

* `TxRun.Ordered.step` — what every step keeps.
* `run_txFramePort` — left alone, the steps are `tx_frame_port`.
* `downlink_in_order` — **frames are taken in order, as they were submitted, and each is shifted
  out at most once on each port**.
-/

namespace Usb2T1L

/-- Where `net_tx_task` is with the frame in its hands. -/
inductive TxPhase
  /-- The egress ports are not chosen, or there is no frame. -/
  | idle
  /-- In `tx_frame_port` for the first of these ports, with so many attempts left. -/
  | serve (ports : List Port) (attempts : ℕ)
  /-- In `adin2111_write_frame`, before the burst. -/
  | burst (port : Port) (ports : List Port) (attempts : ℕ)

/-- The downlink, the bus, and what has happened. -/
structure TxRun (n : ℕ) (σ : Type) where
  ecm : Ecm n
  /-- The bus, with what `net_tx_task` has shifted out. -/
  adin : σ × List (List Byte)
  phase : TxPhase
  /-- The frames handed to `net_bridge_downlink_submit_isr`. -/
  submitted : List NetFrame
  /-- The frames `net_tx_task` has taken. -/
  taken : List NetFrame

/-- A step. -/
inductive TxAct (σ : Type)
  /-- A step of the USB core, the host or another task. -/
  | ecm (a : EcmAct)
  /-- Another task uses the bus. -/
  | bus (s : σ)
  /-- `net_tx_task` takes a frame from the queue. -/
  | take
  /-- It chooses the egress ports, by the table as it is then. -/
  | choose (fdb : Fdb)
  /-- `adin2111_write_frame` up to its burst. -/
  | reserve
  /-- The burst. -/
  | burst
  /-- `frame_pool_free`. -/
  | free

section System

variable {n : ℕ} {σ : Type} (hal : Hal σ) (dev : Adin2111)

/-- The loop of `tx_frame_port` after an attempt with this result. -/
def nextAttempt (rc : Status) (port : Port) (ports : List Port) (attempts : ℕ) : TxPhase :=
  if rc = .errNospace then .serve (port :: ports) attempts else .serve ports txAttempts

/-- The attempt of `tx_frame_port` on the first port, for frame `f`. -/
def TxRun.attempt (s : TxRun n σ) (f : NetFrame) (port : Port) (ports : List Port)
    (attempts : ℕ) : TxRun n σ :=
  let r := adinTxReserve (logged hal) dev f.len.toNat s.adin
  { s with
    adin := r.2
    phase := if r.1 = .ok then .burst port ports attempts
      else nextAttempt r.1 port ports attempts }

/-- The burst of frame `f`. -/
def TxRun.write (s : TxRun n σ) (f : NetFrame) (port : Port) (ports : List Port)
    (attempts : ℕ) : TxRun n σ :=
  let r := adinFifoWrite (logged hal) dev adinRegTx (frameBody port f) s.adin
  { s with adin := r.2, phase := nextAttempt r.1 port ports attempts }

/-- What a step does. -/
def txRunStep (s : TxRun n σ) : TxAct σ → Option (TxRun n σ)
  | .ecm a =>
    if a = .tx then none
    else (ecmStep s.ecm a).map fun e =>
      { s with ecm := e, submitted := s.submitted ++ handed s.ecm e a }
  | .bus b => some { s with adin := (b, s.adin.2) }
  | .take =>
    match s.ecm.down.tx with
    | .receive => (ecmStep s.ecm .tx).map fun e =>
      { s with ecm := e, taken := s.taken ++ e.down.held.map e.down.pool.storage }
    | _ => none
  | .choose fdb =>
    match s.ecm.down.tx, s.phase with
    | .transmit f, .idle =>
      some { s with
        phase := .serve (netTxPorts dev.mode fdb (s.ecm.down.pool.storage f)) txAttempts }
    | _, _ => none
  | .reserve =>
    match s.ecm.down.tx, s.phase with
    | .transmit _, .serve (_ :: ports) 0 => some { s with phase := .serve ports txAttempts }
    | .transmit f, .serve (port :: ports) (attempts + 1) =>
      some (s.attempt hal dev (s.ecm.down.pool.storage f) port ports attempts)
    | _, _ => none
  | .burst =>
    match s.ecm.down.tx, s.phase with
    | .transmit f, .burst port ports attempts =>
      some (s.write hal dev (s.ecm.down.pool.storage f) port ports attempts)
    | _, _ => none
  | .free =>
    match s.ecm.down.tx, s.phase with
    | .transmit _, .serve [] _ =>
      (ecmStep s.ecm .tx).map fun e => { s with ecm := e, phase := .idle }
    | .free _, _ => (ecmStep s.ecm .tx).map fun e => { s with ecm := e }
    | _, _ => none

/-- The system. -/
def txSys : Lts (TxRun n σ) (TxAct σ) := ⟨txRunStep hal dev⟩

end System

namespace TxRun

variable {n : ℕ} {σ : Type} {hal : Hal σ} {dev : Adin2111} {s s' : TxRun n σ}

/-- After `net_bridge_init`. -/
def start (pool : FramePool n) (sInDone : Option Bool) (b : σ) : TxRun n σ :=
  ⟨Ecm.start pool sInDone, (b, []), .idle, [], []⟩

/-- The ports on which the frame in the hands of `net_tx_task` may still be written. -/
def pending (s : TxRun n σ) : List Port :=
  match s.ecm.down.tx, s.phase with
  | .transmit _, .idle => [.port1, .port2]
  | .transmit _, .serve ports _ => ports
  | .transmit _, .burst port ports _ => port :: ports
  | _, _ => []

theorem pending_idle {f : Fin n} (htx : s.ecm.down.tx = .transmit f) (hphase : s.phase = .idle) :
    s.pending = [.port1, .port2] := by
  rw [pending, htx, hphase]

theorem pending_serve {f : Fin n} (htx : s.ecm.down.tx = .transmit f) {ports : List Port} {left : ℕ}
    (hphase : s.phase = .serve ports left) : s.pending = ports := by
  rw [pending, htx, hphase]

theorem pending_burst {f : Fin n} (htx : s.ecm.down.tx = .transmit f) {port : Port}
    {ports : List Port} {left : ℕ} (hphase : s.phase = .burst port ports left) :
    s.pending = port :: ports := by
  rw [pending, htx, hphase]

/-- The loop of `tx_frame_port` goes on with the same ports, or with the others. -/
theorem pending_nextAttempt {f : Fin n} (htx : s.ecm.down.tx = .transmit f) {rc : Status}
    {port : Port} {ports : List Port} {attempts : ℕ}
    (hphase : s.phase = nextAttempt rc port ports attempts) :
    s.pending = if rc = .errNospace then port :: ports else ports := by
  unfold nextAttempt at hphase
  by_cases hrc : rc = .errNospace
  · rw [if_pos hrc] at hphase ⊢
    exact pending_serve htx hphase
  · rw [if_neg hrc] at hphase ⊢
    exact pending_serve htx hphase

/-- The frames whose turn on a port has come. -/
def turned (s : TxRun n σ) (p : Port) : List NetFrame :=
  if p ∈ s.pending then s.taken.dropLast else s.taken

/-- The invariant. -/
structure Ordered (dev : Adin2111) (s : TxRun n σ) : Prop where
  owned : s.ecm.Owned
  armed : s.ecm.down.Armed
  /-- What has been submitted has been taken, or is in the queue as it was. -/
  order : s.submitted = s.taken ++ s.ecm.down.toAdinQ.items.map s.ecm.down.pool.storage
  /-- The frame in the hands of `net_tx_task` is as it was. -/
  inHand : ∀ f ∈ s.ecm.down.held, s.taken.getLast? = some (s.ecm.down.pool.storage f)
  /-- Between two frames no ports are chosen. -/
  idle : (∀ f, s.ecm.down.tx ≠ .transmit f) → s.phase = .idle
  nodup : s.pending.Nodup
  /-- On each port there is at most one burst of each frame, in order. -/
  wire : ∀ p, (burstsOn dev p s.adin.2).Sublist ((s.turned p).map (frameBody p))

/-- Where no port is taken up again, the frames whose turn has come only grow. -/
theorem turned_sublist (htaken : s'.taken = s.taken) (hsub : s'.pending.Sublist s.pending)
    (p : Port) : (s.turned p).Sublist (s'.turned p) := by
  rw [turned, turned, htaken]
  by_cases hp : p ∈ s'.pending
  · rw [if_pos hp, if_pos (hsub.subset hp)]
  · rw [if_neg hp]
    split
    · exact List.dropLast_sublist _
    · exact List.Sublist.refl _

/-- A step that shifts out no burst. -/
theorem Ordered.wire_of_quiet (h : s.Ordered dev) {more : List (List Byte)}
    (hlog : s'.adin.2 = s.adin.2 ++ more) (hmore : ∀ p, burstsOn dev p more = [])
    (htaken : s'.taken = s.taken) (hsub : s'.pending.Sublist s.pending) (p : Port) :
    (burstsOn dev p s'.adin.2).Sublist ((s'.turned p).map (frameBody p)) := by
  rw [hlog, burstsOn_append, hmore, List.append_nil]
  exact (h.wire p).trans ((turned_sublist htaken hsub p).map _)

/-- The contents of the buffers in the queue, after a step that leaves them alone. -/
theorem Ordered.map_storage (h : s.Ordered dev) {storage : Fin n → NetFrame}
    (hst : ∀ f, s.ecm.down.sOutFrame ≠ some f → storage f = s.ecm.down.pool.storage f) :
    s.ecm.down.toAdinQ.items.map storage =
      s.ecm.down.toAdinQ.items.map s.ecm.down.pool.storage :=
  List.map_congr_left fun f hf =>
    hst f (h.owned.down.not_armed (List.mem_append_left _ hf))

/-- **A step of the USB core, the host or another task.** -/
theorem Ordered.ecm (h : s.Ordered dev) {a : EcmAct} (htx : a ≠ .tx) {e : Ecm n}
    (hs : ecmSys.step s.ecm a = some e) :
    ({ s with ecm := e, submitted := s.submitted ++ handed s.ecm e a } :
      TxRun n σ).Ordered dev := by
  have howned := h.owned.step hs
  -- in both cases the queue, `net_tx_task` and the frames they hold stay
  obtain ⟨hqueue, ht, hst⟩ : e.down.toAdinQ.items.map e.down.pool.storage =
      s.ecm.down.toAdinQ.items.map s.ecm.down.pool.storage ++ handed s.ecm e a ∧
        e.down.tx = s.ecm.down.tx ∧
        ∀ f, s.ecm.down.sOutFrame ≠ some f → e.down.pool.storage f = s.ecm.down.pool.storage f := by
    by_cases hsubmit : a = .submit
    · subst hsubmit
      obtain ⟨f, hout, hq, ht, hst⟩ := h.owned.submitted hs
      have hst : ∀ g, s.ecm.down.sOutFrame ≠ some g →
          e.down.pool.storage g = s.ecm.down.pool.storage g :=
        fun g hg => hst g fun hgf => hg (by rw [hout, hgf])
      refine ⟨?_, ht, hst⟩
      rw [hq, List.map_append, h.map_storage hst, handed, if_pos rfl, hout]
      rfl
    · obtain ⟨hq, ht, hst⟩ := h.owned.calm hs hsubmit htx
      refine ⟨?_, ht, hst⟩
      rw [hq, h.map_storage hst, handed, if_neg hsubmit, List.append_nil]
  have hpending : ({ s with ecm := e, submitted := s.submitted ++ handed s.ecm e a } :
      TxRun n σ).pending = s.pending := by
    simp only [pending, ht]
  have hheld : e.down.held = s.ecm.down.held := by
    simp only [Downlink.held, ht]
  exact
    { owned := howned
      armed := h.owned.armed_step h.armed hs
      order := by
        show s.submitted ++ handed s.ecm e a =
          s.taken ++ e.down.toAdinQ.items.map e.down.pool.storage
        rw [hqueue, h.order, List.append_assoc]
      inHand := by
        intro f hf
        have hf : f ∈ s.ecm.down.held := hheld ▸ hf
        show s.taken.getLast? = some (e.down.pool.storage f)
        rw [hst f (h.owned.down.not_armed (List.mem_append_right _ hf))]
        exact h.inHand f hf
      idle := fun hn => h.idle fun f hf => hn f (ht.trans hf)
      nodup := hpending ▸ h.nodup
      wire := h.wire_of_quiet (List.append_nil _).symm (fun _ => rfl) rfl
        (hpending ▸ List.Sublist.refl _) }

/-- **A frame is taken.** -/
theorem Ordered.take (h : s.Ordered dev) (htx : s.ecm.down.tx = .receive) {e : Ecm n}
    (hs : ecmSys.step s.ecm .tx = some e) :
    ({ s with ecm := e, taken := s.taken ++ e.down.held.map e.down.pool.storage } :
      TxRun n σ).Ordered dev := by
  have howned := h.owned.step hs
  obtain ⟨f, q, hitems, hd⟩ := Downlink.netTxTask_receive htx (Ecm.storage_tx hs).1
  have hidle : s.phase = .idle := h.idle fun f hf => absurd (htx.symm.trans hf) (by simp)
  have hheld : e.down.held = [f] := by rw [hd]; rfl
  have hst : e.down.pool.storage = s.ecm.down.pool.storage := by rw [hd]
  have hpending : ({ s with ecm := e, taken := s.taken ++ e.down.held.map e.down.pool.storage } :
      TxRun n σ).pending = [.port1, .port2] := by
    simp only [pending, hd, hidle]
  have hnone : s.pending = [] := by
    rw [pending, htx]
  rw [hheld, hst] at hpending ⊢
  exact
    { owned := howned
      armed := h.owned.armed_step h.armed hs
      order := by
        show s.submitted = s.taken ++ [_] ++ e.down.toAdinQ.items.map e.down.pool.storage
        rw [hst, hd, h.order, hitems, List.append_assoc]
        rfl
      inHand := by
        intro g hg
        have hg : g ∈ e.down.held := hg
        rw [hheld, List.mem_singleton] at hg
        show (s.taken ++ [_]).getLast? = some (e.down.pool.storage g)
        rw [List.getLast?_concat, hg, hst]
      idle := fun hn => absurd (by rw [hd]) (hn f)
      nodup := by rw [hpending]; decide
      wire := by
        intro p
        have hp : p ∈ [Port.port1, Port.port2] := by cases p <;> decide
        rw [turned, hpending, if_pos hp]
        show List.Sublist _ ((s.taken ++ [_]).dropLast.map _)
        rw [List.dropLast_concat]
        have hwire := h.wire p
        rwa [turned, hnone, if_neg (List.not_mem_nil)] at hwire }

/-- A step of `net_tx_task`, or of another task on the bus, in which the buffers stay where they
are. -/
theorem Ordered.serve (h : s.Ordered dev)
    (hkeep : s'.ecm = s.ecm ∧ s'.submitted = s.submitted ∧ s'.taken = s.taken)
    (hidle : (∀ f, s.ecm.down.tx ≠ .transmit f) → s'.phase = .idle)
    (hsub : s'.pending.Sublist s.pending)
    (hwire : ∀ p, (burstsOn dev p s'.adin.2).Sublist ((s'.turned p).map (frameBody p))) :
    s'.Ordered dev := by
  obtain ⟨hecm, hsubmitted, htaken⟩ := hkeep
  refine ⟨hecm ▸ h.owned, hecm ▸ h.armed, ?_, ?_, ?_, h.nodup.sublist hsub, hwire⟩
  · rw [hsubmitted, htaken, hecm]
    exact h.order
  · rw [htaken, hecm]
    exact h.inHand
  · rw [hecm]
    exact hidle

/-- Such a step that shifts out no burst. -/
theorem Ordered.quiet (h : s.Ordered dev) {more : List (List Byte)}
    (hkeep : s'.ecm = s.ecm ∧ s'.submitted = s.submitted ∧ s'.taken = s.taken)
    (hidle : (∀ f, s.ecm.down.tx ≠ .transmit f) → s'.phase = .idle)
    (hsub : s'.pending.Sublist s.pending) (hlog : s'.adin.2 = s.adin.2 ++ more)
    (hmore : ∀ p, burstsOn dev p more = []) : s'.Ordered dev :=
  h.serve hkeep hidle hsub (h.wire_of_quiet hlog hmore hkeep.2.2 hsub)

theorem netTxPorts_sublist (mode : Mode) (fdb : Fdb) (f : NetFrame) :
    (netTxPorts mode fdb f).Sublist [.port1, .port2] := by
  have hone : ∀ p : Port, [p].Sublist [.port1, .port2] := by
    intro p
    cases p <;> decide
  cases mode with
  | endpoint => exact hone _
  | switch =>
    rw [netTxPorts]
    split
    · exact List.Sublist.refl _
    · exact hone _

/-- **The egress ports are chosen.** -/
theorem Ordered.choose (h : s.Ordered dev) {f : Fin n} (htx : s.ecm.down.tx = .transmit f)
    (hphase : s.phase = .idle) (fdb : Fdb) (g : NetFrame) :
    ({ s with phase := .serve (netTxPorts dev.mode fdb g) txAttempts } :
      TxRun n σ).Ordered dev := by
  refine h.quiet ⟨rfl, rfl, rfl⟩ (fun hn => absurd htx (hn f)) ?_ (List.append_nil _).symm
    fun p => rfl
  rw [pending_idle htx hphase, pending_serve (s := { s with phase := .serve _ _ }) htx rfl]
  exact netTxPorts_sublist _ _ _

/-- The last of its attempts on a port has failed. -/
theorem Ordered.giveUp (h : s.Ordered dev) {f : Fin n} (htx : s.ecm.down.tx = .transmit f)
    {port : Port} {ports : List Port} {left : ℕ}
    (hphase : s.phase = .serve (port :: ports) left) :
    ({ s with phase := .serve ports txAttempts } : TxRun n σ).Ordered dev := by
  refine h.quiet ⟨rfl, rfl, rfl⟩ (fun hn => absurd htx (hn f)) ?_ (List.append_nil _).symm
    fun p => rfl
  rw [pending_serve htx hphase, pending_serve (s := { s with phase := .serve _ _ }) htx rfl]
  exact List.sublist_cons_self _ _

/-- **An attempt up to the burst** shifts out no burst. -/
theorem Ordered.attempt (h : s.Ordered dev) {f : Fin n} (htx : s.ecm.down.tx = .transmit f)
    {port : Port} {ports : List Port} {attempts left : ℕ}
    (hphase : s.phase = .serve (port :: ports) left) (g : NetFrame) :
    (s.attempt hal dev g port ports attempts).Ordered dev := by
  obtain ⟨more, hlog, hmore, -⟩ := adinTxReserve_logged hal dev g.len.toNat s.adin
  refine h.quiet ⟨rfl, rfl, rfl⟩ (fun hn => absurd htx (hn f)) ?_ hlog hmore
  rw [pending_serve htx hphase]
  by_cases hok : (adinTxReserve (logged hal) dev g.len.toNat s.adin).1 = .ok
  · rw [pending_burst (s := s.attempt hal dev g port ports attempts) htx (if_pos hok)]
  · rw [pending_nextAttempt (s := s.attempt hal dev g port ports attempts) htx (if_neg hok)]
    split
    · exact List.Sublist.refl _
    · exact List.sublist_cons_self _ _

/-- **The burst** is the only one of the frame on this port. -/
theorem Ordered.write (h : s.Ordered dev) {f : Fin n} (htx : s.ecm.down.tx = .transmit f)
    {port : Port} {ports : List Port} {attempts : ℕ}
    (hphase : s.phase = .burst port ports attempts) :
    (s.write hal dev (s.ecm.down.pool.storage f) port ports attempts).Ordered dev := by
  obtain ⟨hlog, hrc⟩ :=
    adinFifoWrite_logged hal dev (frameBody port (s.ecm.down.pool.storage f)) s.adin
  have hpending := pending_burst htx hphase
  have hpending' : (s.write hal dev (s.ecm.down.pool.storage f) port ports attempts).pending =
      ports := by
    rw [pending_nextAttempt (s := s.write hal dev _ port ports attempts) htx rfl, if_neg hrc]
  have htaken : (s.write hal dev (s.ecm.down.pool.storage f) port ports attempts).taken =
      s.taken := rfl
  have hsub : (s.write hal dev (s.ecm.down.pool.storage f) port ports attempts).pending.Sublist
      s.pending := by
    rw [hpending, hpending']
    exact List.sublist_cons_self _ _
  rcases hlog with hlog | hlog
  · exact h.quiet ⟨rfl, rfl, rfl⟩ (fun hn => absurd htx (hn f)) hsub
      (hlog.trans (List.append_nil _).symm) fun _ => rfl
  refine h.serve ⟨rfl, rfl, rfl⟩ (fun hn => absurd htx (hn f)) hsub fun p => ?_
  show List.Sublist (burstsOn dev p (adinFifoWrite _ dev _ _ s.adin).2.2) _
  rw [hlog, burstsOn_append, burstsOn_burst]
  by_cases hp : p = port
  · subst hp
    -- the frame is the last one taken, and its turn on this port has just come
    have hlast : s.taken.getLast? = some (s.ecm.down.pool.storage f) :=
      h.inHand f (by rw [Downlink.held, htx]; exact List.mem_singleton_self f)
    have hnodup := h.nodup
    rw [hpending, List.nodup_cons] at hnodup
    have hwire := h.wire p
    rw [turned, hpending, if_pos List.mem_cons_self] at hwire
    rw [if_pos rfl, turned, hpending', if_neg hnodup.1, htaken,
      ← List.dropLast_append_getLast? _ hlast, List.map_append]
    exact hwire.append_right _
  · rw [if_neg hp, List.append_nil]
    exact (h.wire p).trans ((turned_sublist htaken hsub p).map _)

/-- **The frame is given back**, or is about to be. -/
theorem Ordered.free (h : s.Ordered dev) (htx : s.ecm.down.tx ≠ .receive) {e : Ecm n}
    (hs : ecmSys.step s.ecm .tx = some e) :
    ({ s with ecm := e, phase := .idle } : TxRun n σ).Ordered dev := by
  have howned := h.owned.step hs
  obtain ⟨hd, hst⟩ := Ecm.storage_tx hs
  obtain ⟨hqueue, hheld, hnext⟩ := Downlink.netTxTask_of_held htx hd
  have hpending' : ({ s with ecm := e, phase := .idle } : TxRun n σ).pending = [] := by
    rw [pending]
    split
    · next f hf _ => exact absurd hf (hnext f)
    · next hf => exact absurd hf (by simp)
    · next hf => exact absurd hf (by simp)
    · rfl
  exact
    { owned := howned
      armed := h.owned.armed_step h.armed hs
      order := by
        show s.submitted = s.taken ++ e.down.toAdinQ.items.map e.down.pool.storage
        rw [hqueue, hst]
        exact h.order
      inHand := by
        intro f hf
        show s.taken.getLast? = some (e.down.pool.storage f)
        rw [hst]
        exact h.inHand f (hheld hf)
      idle := fun _ => rfl
      nodup := by
        rw [hpending']
        exact List.nodup_nil
      wire := h.wire_of_quiet (List.append_nil _).symm (fun _ => rfl) rfl
        (hpending' ▸ List.nil_sublist _) }

/-- **Every step.** -/
theorem Ordered.step (h : s.Ordered dev) {a : TxAct σ} (hs : (txSys hal dev).step s a = some s') :
    s'.Ordered dev := by
  have hs : txRunStep hal dev s a = some s' := hs
  cases a with
  | ecm a =>
    rw [txRunStep] at hs
    split at hs
    · exact absurd hs (by simp)
    · next htx =>
      obtain ⟨e, he, rfl⟩ := Option.map_eq_some_iff.mp hs
      exact h.ecm htx he
  | bus b =>
    obtain rfl := Option.some.inj hs
    exact h.quiet ⟨rfl, rfl, rfl⟩ h.idle (List.Sublist.refl _) (List.append_nil _).symm fun _ => rfl
  | take =>
    rw [txRunStep] at hs
    split at hs
    · next htx =>
      obtain ⟨e, he, rfl⟩ := Option.map_eq_some_iff.mp hs
      exact h.take htx he
    · exact absurd hs (by simp)
  | choose fdb =>
    rw [txRunStep] at hs
    split at hs
    · next f htx hphase =>
      obtain rfl := Option.some.inj hs
      exact h.choose htx hphase fdb _
    · exact absurd hs (by simp)
  | reserve =>
    rw [txRunStep] at hs
    split at hs
    · next f port ports htx hphase =>
      obtain rfl := Option.some.inj hs
      exact h.giveUp htx hphase
    · next f port ports attempts htx hphase =>
      obtain rfl := Option.some.inj hs
      exact h.attempt htx hphase _
    · exact absurd hs (by simp)
  | burst =>
    rw [txRunStep] at hs
    split at hs
    · next f port ports attempts htx hphase =>
      obtain rfl := Option.some.inj hs
      exact h.write htx hphase
    · exact absurd hs (by simp)
  | free =>
    rw [txRunStep] at hs
    split at hs
    · next f left htx hphase =>
      obtain ⟨e, he, rfl⟩ := Option.map_eq_some_iff.mp hs
      exact h.free (by rw [htx]; simp) he
    · next f htx =>
      obtain ⟨e, he, rfl⟩ := Option.map_eq_some_iff.mp hs
      have hphase : s.phase = .idle := h.idle fun g hg => absurd (htx.symm.trans hg) (by simp)
      have hfree := h.free (by rw [htx]; simp) he
      rw [← hphase] at hfree
      exact hfree
    · exact absurd hs (by simp)

/-! ### Order and ownership on the downlink -/

/-- What the downlink is to be like between any two steps. -/
structure InOrder (dev : Adin2111) (s : TxRun n σ) : Prop where
  /-- Frames are taken once each, in the order and as they were submitted; the others are in the
  queue. -/
  order : s.submitted = s.taken ++ s.ecm.down.toAdinQ.items.map s.ecm.down.pool.storage
  /-- The frame in the hands of `net_tx_task` is the last one taken, as it was. -/
  inHand : ∀ f ∈ s.ecm.down.held, s.taken.getLast? = some (s.ecm.down.pool.storage f)
  /-- The endpoint does not receive into a buffer that is queued or in hand. -/
  notArmed : ∀ f ∈ s.ecm.down.toAdinQ.items ++ s.ecm.down.held, s.ecm.down.outArmed ≠ some f
  /-- On each port there is at most one burst of each frame, in order. -/
  wire : ∀ p, (burstsOn dev p s.adin.2).Sublist (s.submitted.map (frameBody p))

theorem Ordered.inOrder (h : s.Ordered dev) : s.InOrder dev where
  order := h.order
  inHand := h.inHand
  notArmed := fun f hf harmed => h.owned.down.not_armed hf (h.armed f harmed)
  wire := by
    intro p
    have hturned : (s.turned p).Sublist s.taken := by
      rw [turned]
      split
      · exact List.dropLast_sublist _
      · exact List.Sublist.refl _
    have htaken : s.taken.Sublist s.submitted := by
      rw [h.order]
      exact List.sublist_append_left _ _
    exact (h.wire p).trans ((hturned.trans htaken).map _)

theorem ordered_start {storage : Fin n → NetFrame} {pool : FramePool n}
    (hpool : framePoolInit storage = some pool) (hn : 0 < n) (sInDone : Option Bool) (b : σ) :
    (start pool sInDone b).Ordered dev where
  owned := Ecm.owned_start hpool hn sInDone
  armed := Downlink.armed_of_none rfl
  order := rfl
  inHand := fun _ hf => absurd hf List.not_mem_nil
  idle := fun _ => rfl
  nodup := List.nodup_nil
  wire := fun _ => List.nil_sublist _

end TxRun

section Alone

variable {n : ℕ} {σ : Type} {hal : Hal σ} {dev : Adin2111} {f : Fin n} {port : Port}
  {ports : List Port}

theorem step_reserve {s : TxRun n σ} {attempts : ℕ} (htx : s.ecm.down.tx = .transmit f)
    (hphase : s.phase = .serve (port :: ports) (attempts + 1)) : (txSys hal dev).step s .reserve =
      some (s.attempt hal dev (s.ecm.down.pool.storage f) port ports attempts) := by
  show txRunStep hal dev s .reserve = _
  rw [txRunStep, htx, hphase]

theorem step_burst {s : TxRun n σ} {attempts : ℕ} (htx : s.ecm.down.tx = .transmit f)
    (hphase : s.phase = .burst port ports attempts) : (txSys hal dev).step s .burst =
      some (s.write hal dev (s.ecm.down.pool.storage f) port ports attempts) := by
  show txRunStep hal dev s .burst = _
  rw [txRunStep, htx, hphase]

/-- Left alone, the steps for a port are `tx_frame_port`. -/
theorem run_txFramePort : ∀ (attempts : ℕ) (s : TxRun n σ), s.ecm.down.tx = .transmit f →
    s.phase = .serve (port :: ports) attempts → ∃ as, (txSys hal dev).run s as = some { s with
      adin := txFramePort (logged hal) dev (s.ecm.down.pool.storage f) port attempts s.adin
      phase := .serve ports txAttempts } := by
  intro attempts
  induction attempts with
  | zero =>
    intro s htx hphase
    refine ⟨[.reserve], Lts.run_cons_eq_some _ |>.mpr ⟨_, ?_, rfl⟩⟩
    show txRunStep hal dev s .reserve = _
    rw [txRunStep, htx, hphase]
    rfl
  | succ attempts ih =>
    intro s htx hphase
    have hreserve : (txSys hal dev).step s .reserve = _ := step_reserve htx hphase
    rw [txFramePort, adin2111WriteFrame]
    by_cases hok : (adinTxReserve (logged hal) dev (s.ecm.down.pool.storage f).len.toNat s.adin).1 =
        .ok
    · -- the burst follows, and no other attempt
      obtain ⟨-, hrc⟩ := adinFifoWrite_logged hal dev
        (txBody port (List.ofFn (s.ecm.down.pool.storage f).data)
          (s.ecm.down.pool.storage f).len.toNat)
        (adinTxReserve (logged hal) dev (s.ecm.down.pool.storage f).len.toNat s.adin).2
      have hnext : nextAttempt _ port ports attempts = .serve ports txAttempts := if_neg hrc
      have hburst : (txSys hal dev).step
          (s.attempt hal dev (s.ecm.down.pool.storage f) port ports attempts) .burst = _ :=
        step_burst htx (if_pos hok)
      refine ⟨[.reserve, .burst], Lts.run_cons_eq_some _ |>.mpr ⟨_, hreserve,
        Lts.run_cons_eq_some _ |>.mpr ⟨_, hburst, ?_⟩⟩⟩
      rw [thenOk, if_pos hok, if_neg hrc, ← hnext]
      rfl
    · rw [thenOk, if_neg hok]
      by_cases hrc : (adinTxReserve (logged hal) dev
          (s.ecm.down.pool.storage f).len.toNat s.adin).1 = .errNospace
      · have hphase : (s.attempt hal dev (s.ecm.down.pool.storage f) port ports attempts).phase =
            .serve (port :: ports) attempts := by
          rw [TxRun.attempt, if_neg hok, nextAttempt, if_pos hrc]
        obtain ⟨as, has⟩ :=
          ih (s.attempt hal dev (s.ecm.down.pool.storage f) port ports attempts) htx hphase
        refine ⟨.reserve :: as, Lts.run_cons_eq_some _ |>.mpr ⟨_, hreserve, has.trans ?_⟩⟩
        rw [if_pos hrc]
        rfl
      · refine ⟨[.reserve], Lts.run_cons_eq_some _ |>.mpr ⟨_, hreserve, ?_⟩⟩
        rw [if_neg hrc, Lts.run_nil, TxRun.attempt, if_neg hok, nextAttempt, if_neg hrc]

end Alone

/-- An attempt that finds no space has read `TX_SPACE` and written nothing. -/
theorem adin2111WriteFrame_of_noSpace {σ : Type} {hal : Hal σ} {dev : Adin2111} {port : Port}
    {frame : List Byte} {len : ℕ} {b : σ × List (List Byte)}
    (h : (adin2111WriteFrame (logged hal) dev port frame len b).1 = .errNospace) :
    (adin2111WriteFrame (logged hal) dev port frame len b).2.2 =
      b.2 ++ [readRegTx dev adinRegTxSpace] := by
  obtain ⟨more, hlog, -, hmore⟩ := adinTxReserve_logged hal dev len b
  rw [adin2111WriteFrame] at h ⊢
  cases hr : adinTxReserve (logged hal) dev len b with
  | mk rc b' =>
    rw [hr] at hlog hmore h
    by_cases hok : rc = .ok
    · subst hok
      exact absurd h (adinFifoWrite_logged hal dev (txBody port frame len) b').2
    · rw [thenOk, if_neg hok] at h ⊢
      rw [← hmore h]
      exact hlog

/-- **Frames are taken in order, as they were submitted, and each is shifted out at most once on
each port**, whatever the bus answers.  Only an attempt that found no space, and so wrote nothing,
is repeated. -/
theorem downlink_in_order {n : ℕ} {σ : Type} (hal : Hal σ) (dev : Adin2111) (hn : 0 < n)
    (storage : Fin n → NetFrame) (sInDone : Option Bool) (b : σ) :
    ∃ pool, framePoolInit storage = some pool ∧
      (∀ as s, (txSys hal dev).run (TxRun.start pool sInDone b) as = some s → s.InOrder dev) ∧
      ∀ port frame len l, (adin2111WriteFrame (logged hal) dev port frame len l).1 = .errNospace →
        (adin2111WriteFrame (logged hal) dev port frame len l).2.2 =
          l.2 ++ [readRegTx dev adinRegTxSpace] := by
  obtain ⟨pool, hpool⟩ := exists_framePoolInit hn storage
  refine ⟨pool, hpool, fun as s hrun => ?_, fun port frame len l => adin2111WriteFrame_of_noSpace⟩
  have hordered : s.Ordered dev := Lts.run_invariant
    (fun s a s' h _ hs => h.step hs) (TxRun.ordered_start hpool hn sInDone b)
    (Lts.along_true as _) hrun
  exact hordered.inOrder

/-- Two frames on their way to port 1; the second is submitted while the first is in hand. -/
def twoTaken : List (TxAct Unit) :=
  [.ecm .init, .ecm (.setInterface 1 1), .ecm (.dataOut [1]), .ecm .submit, .take,
    .choose emptyFdb, .ecm (.dataOut [2, 3]), .ecm .submit, .reserve, .burst, .free, .free, .take,
    .choose emptyFdb, .reserve, .burst, .free, .free]

theorem downlink_in_order_twoTaken : ∃ s : TxRun netTxPoolCount Unit,
    (txSys idleBus (twoPorts false .endpoint)).run
      (TxRun.start (freshPool netTxPoolCount) (some false) ()) twoTaken = some s ∧
      s.taken.map NetFrame.len = [1, 2] ∧
      (burstsOn (twoPorts false .endpoint) .port1 s.adin.2).length = 2 ∧
        s.InOrder (twoPorts false .endpoint) := by
  obtain ⟨pool, hpool, hall, -⟩ := downlink_in_order idleBus (twoPorts false .endpoint)
    (by decide : 0 < netTxPoolCount) (freshPool netTxPoolCount).storage (some false) ()
  obtain rfl : pool = freshPool netTxPoolCount :=
    Option.some.inj (hpool.symm.trans (framePoolInit_freshPool (by decide)))
  have hsummary : ((txSys idleBus (twoPorts false .endpoint)).run
      (TxRun.start (freshPool netTxPoolCount) (some false) ()) twoTaken).map
        (fun s => (s.taken.map NetFrame.len,
          (burstsOn (twoPorts false .endpoint) .port1 s.adin.2).length)) = some ([1, 2], 2) := by
    decide +kernel
  obtain ⟨s, hrun, hs⟩ := Option.map_eq_some_iff.mp hsummary
  obtain ⟨hlens, hbursts⟩ := Prod.mk.inj hs
  exact ⟨s, hrun, hlens, hbursts, hall twoTaken s hrun⟩

end Usb2T1L
