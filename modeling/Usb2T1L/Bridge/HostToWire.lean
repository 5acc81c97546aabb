import Usb2T1L.Bridge.TxOrder
import Usb2T1L.Ecm.Reassembly

/-!
# From the host to the wire

The whole downlink: the host's packets, `ECM_DataOut`, the queue and `net_tx_task`, step by step and
in any order, on a bus that may answer anything.

## Main definitions

* `DownPath`, `downSys` — the two halves with the class between them.
* `DownPath.patient` — no attempt on a port is given up.

## Main results

* `DownPath.tx_step`, `DownPath.out_step` — **a step of the whole is a step of each half**, or none.
* `host_to_wire` — **each transfer is shifted out at most once on each port**, in order and as the
  host has sent it, and nothing else is.
* `host_to_wire_exact` — **none is missing** on a port chosen for it, if none is given up.
-/

namespace Usb2T1L

/-- The downlink as a whole. -/
structure DownPath (n : ℕ) (σ : Type) where
  /-- The class, behind the endpoint and the host. -/
  out : OutRun n
  /-- The bus, with what `net_tx_task` has shifted out. -/
  adin : σ × List (List Byte)
  phase : TxPhase
  /-- The frames `net_tx_task` has taken. -/
  taken : List NetFrame
  /-- The frames for which `net_tx_task` has chosen ports, and the ports. -/
  routes : List (NetFrame × List Port)

/-- A step. -/
inductive DownAct (σ : Type)
  /-- A step of the host, the USB core or a task other than `net_tx_task`. -/
  | usb (a : OutAct)
  /-- A step of `net_tx_task`, or of another task on the bus. -/
  | task (a : TxAct σ)

namespace DownPath

variable {n : ℕ} {σ : Type}

/-- The half of `net_tx_task`. -/
def tx (s : DownPath n σ) : TxRun n σ :=
  ⟨s.out.ecm, s.adin, s.phase, s.out.submitted, s.taken⟩

/-- After a step of that half. -/
def withTx (s : DownPath n σ) (t : TxRun n σ) : DownPath n σ :=
  { s with
    out := { s.out with ecm := t.ecm }
    adin := t.adin
    phase := t.phase
    taken := t.taken }

/-- The frame in the hands of `net_tx_task`, if it has one to transmit. -/
def inHand (s : DownPath n σ) : List NetFrame :=
  match s.out.ecm.down.tx with
  | .transmit f => [s.out.ecm.down.pool.storage f]
  | _ => []

/-- The frame and its ports, if they are chosen in this step. -/
def chosen (dev : Adin2111) (s : DownPath n σ) (a : TxAct σ) : List (NetFrame × List Port) :=
  match a with
  | .choose fdb => s.inHand.map fun f => (f, netTxPorts dev.mode fdb f)
  | _ => []

/-- The frames for which port `p` has been chosen. -/
def due (s : DownPath n σ) (p : Port) : List NetFrame :=
  (s.routes.filter fun r => p ∈ r.2).map Prod.fst

end DownPath

section System

variable {n : ℕ} {σ : Type} (hal : Hal σ) (dev : Adin2111)

/-- What a step does. -/
def downStep (s : DownPath n σ) : DownAct σ → Option (DownPath n σ)
  | .usb (.ecm .tx) => none
  | .usb a => (outStep s.out a).map fun o => { s with out := o }
  | .task (.ecm _) => none
  | .task a =>
    (txRunStep hal dev s.tx a).map fun t =>
      { s.withTx t with routes := s.routes ++ s.chosen dev a }

/-- The system. -/
def downSys : Lts (DownPath n σ) (DownAct σ) := ⟨downStep hal dev⟩

end System

namespace DownPath

variable {n : ℕ} {σ : Type} {hal : Hal σ} {dev : Adin2111} {s s' : DownPath n σ}

/-- The data interface is active, and the host has sent nothing yet. -/
def start (e : Ecm n) (b : σ) : DownPath n σ := ⟨OutRun.start e, (b, []), .idle, [], []⟩

/-! ### The two halves -/

/-- `net_tx_task` submits nothing, and steps the class as its own task or not at all. -/
theorem task_txRunStep {t t' : TxRun n σ} {a : TxAct σ} (ha : ∀ b, a ≠ .ecm b)
    (h : txRunStep hal dev t a = some t') :
    t'.submitted = t.submitted ∧ (t'.ecm = t.ecm ∨ ecmStep t.ecm .tx = some t'.ecm) := by
  cases a with
  | ecm b => exact absurd rfl (ha b)
  | bus b => exact Option.some.inj h ▸ ⟨rfl, Or.inl rfl⟩
  | take =>
    rw [txRunStep] at h
    split at h
    · obtain ⟨e, he, rfl⟩ := Option.map_eq_some_iff.mp h
      exact ⟨rfl, Or.inr he⟩
    · exact absurd h (by simp)
  | choose fdb =>
    rw [txRunStep] at h
    split at h
    · exact Option.some.inj h ▸ ⟨rfl, Or.inl rfl⟩
    · exact absurd h (by simp)
  | reserve =>
    rw [txRunStep] at h
    split at h
    · exact Option.some.inj h ▸ ⟨rfl, Or.inl rfl⟩
    · exact Option.some.inj h ▸ ⟨rfl, Or.inl rfl⟩
    · exact absurd h (by simp)
  | burst =>
    rw [txRunStep] at h
    split at h
    · exact Option.some.inj h ▸ ⟨rfl, Or.inl rfl⟩
    · exact absurd h (by simp)
  | free =>
    rw [txRunStep] at h
    split at h
    · obtain ⟨e, he, rfl⟩ := Option.map_eq_some_iff.mp h
      exact ⟨rfl, Or.inr he⟩
    · obtain ⟨e, he, rfl⟩ := Option.map_eq_some_iff.mp h
      exact ⟨rfl, Or.inr he⟩
    · exact absurd h (by simp)

/-- **Everything a step can do**: one of the host and the USB core, or one of `net_tx_task` and the
bus. -/
theorem downStep_cases {a : DownAct σ} (h : downStep hal dev s a = some s') :
    (∃ b o, a = .usb b ∧ b ≠ .ecm .tx ∧ outStep s.out b = some o ∧ s' = { s with out := o }) ∨
      ∃ b t, a = .task b ∧ (∀ e, b ≠ .ecm e) ∧ txRunStep hal dev s.tx b = some t ∧
        s' = { s.withTx t with routes := s.routes ++ s.chosen dev b } := by
  unfold downStep at h
  split at h
  · exact absurd h (by simp)
  · next b hb =>
    obtain ⟨o, ho, rfl⟩ := Option.map_eq_some_iff.mp h
    exact Or.inl ⟨b, o, rfl, hb, ho, rfl⟩
  · exact absurd h (by simp)
  · next b hb =>
    obtain ⟨t, ht, rfl⟩ := Option.map_eq_some_iff.mp h
    exact Or.inr ⟨b, t, rfl, hb, ht, rfl⟩

/-- **A step of the whole is one of `net_tx_task` and the bus**, or none. -/
theorem tx_step {a : DownAct σ} (h : downStep hal dev s a = some s') :
    s'.tx = s.tx ∨ ∃ b, (txSys hal dev).step s.tx b = some s'.tx := by
  rcases downStep_cases h with ⟨b, o, rfl, hb, ho, rfl⟩ | ⟨b, t, rfl, hb, ht, rfl⟩
  · -- a step of the class, but for the packets that complete no reception
    have hecm : ∀ c e, c ≠ .tx → ecmStep s.out.ecm c = some e →
        txRunStep hal dev s.tx (.ecm c) = some { s.tx with
          ecm := e
          submitted := s.out.submitted ++ handed s.out.ecm e c } := by
      intro c e hc he
      show (if c = .tx then none else (ecmStep s.out.ecm c).map _) = _
      rw [if_neg hc, he]
      rfl
    cases b with
    | ecm c =>
      rw [outStep] at ho
      split at ho
      · exact absurd ho (by simp)
      · obtain ⟨e, hfilter, rfl⟩ := Option.map_eq_some_iff.mp ho
        obtain ⟨he, -⟩ := Option.filter_eq_some_iff.mp hfilter
        exact Or.inr ⟨.ecm c, hecm c e (fun hc => hb (by rw [hc])) he⟩
    | transfer data =>
      rw [outStep] at ho
      split at ho
      · rw [← Option.some.inj ho]
        exact Or.inl rfl
      · exact absurd ho (by simp)
    | packet =>
      rw [outStep] at ho
      split at ho
      · exact absurd ho (by simp)
      · next p ps htoCome =>
        split_ifs at ho with _ hc
        · obtain ⟨e, he, rfl⟩ := Option.map_eq_some_iff.mp ho
          have hstep := hecm (.dataOut (s.out.acc ++ p)) e (by simp) he
          rw [handed, if_neg (by simp), List.append_nil] at hstep
          exact Or.inr ⟨.ecm (.dataOut (s.out.acc ++ p)), hstep⟩
        · rw [← Option.some.inj ho]
          exact Or.inl rfl
  · refine Or.inr ⟨b, ht.trans (congrArg some ?_)⟩
    have hsubmitted := (task_txRunStep hb ht).1
    show t = TxRun.mk t.ecm t.adin t.phase s.out.submitted t.taken
    rw [show s.out.submitted = t.submitted from hsubmitted.symm]

/-- **A step of the whole is one of the host and the USB core**, or none. -/
theorem out_step (hready : s.out.ecm.cls.sReady = true) {a : DownAct σ}
    (h : downStep hal dev s a = some s') :
    s'.out = s.out ∨ ∃ b, outSys.step s.out b = some s'.out := by
  rcases downStep_cases h with ⟨b, o, rfl, hb, ho, rfl⟩ | ⟨b, t, rfl, hb, ht, rfl⟩
  · exact Or.inr ⟨b, ho⟩
  · rcases (task_txRunStep hb ht).2 with hsame | he
    · refine Or.inl ?_
      show { s.out with ecm := t.ecm } = s.out
      rw [hsame]
      rfl
    · have he : ecmSys.step s.out.ecm .tx = some t.ecm := he
      have hcls : t.ecm.cls.sReady = true := by
        generalize t.ecm = e at he
        cases (ecmStep_move he).2 with
        | tx hd => exact hready
      have he : ecmStep s.out.ecm .tx = some t.ecm := he
      refine Or.inr ⟨.ecm .tx, ?_⟩
      show ((ecmStep s.out.ecm .tx).filter fun e => e.cls.sReady).map _ = _
      rw [he, Option.filter_some, if_pos hcls, Option.map_some, handed, if_neg (by simp),
        List.append_nil]
      rfl

/-! ### What is shifted out -/

/-- The invariants of the two halves. -/
structure Linked (dev : Adin2111) (s : DownPath n σ) : Prop where
  tx : s.tx.Ordered dev
  out : s.out.Followed

theorem Linked.step (h : s.Linked dev) {a : DownAct σ} (hs : (downSys hal dev).step s a = some s') :
    s'.Linked dev where
  tx := by
    rcases tx_step hs with heq | ⟨b, hb⟩
    · exact heq ▸ h.tx
    · exact h.tx.step hb
  out := by
    rcases out_step h.out.ready hs with heq | ⟨b, hb⟩
    · exact heq ▸ h.out
    · exact h.out.step hb

/-- What the wire is to get for the bytes of a frame. -/
def wireBody (p : Port) (bs : List Byte) : List Byte := txBody p bs bs.length

theorem map_frameBody_of_holds (p : Port) {fs : List NetFrame} {bss : List (List Byte)}
    (h : List.Forall₂ NetFrame.Holds fs bss) : fs.map (frameBody p) = bss.map (wireBody p) := by
  induction h with
  | nil => rfl
  | cons hf _ ih => rw [List.map_cons, List.map_cons, ih, frameBody, txBody_of_holds hf, wireBody]

/-- Of a transfer that fits nothing but the whole is accepted. -/
theorem accepted_sublist {t : HostTransfer} {more : List (List Byte)}
    (h : t.got.map Prod.fst ++ more = Packets.withData (Packets.frame netMaxFrameLen t.data))
    (hfit : t.data.length ≤ netMaxFrameLen) : t.accepted.Sublist [t.data] := by
  have hframe : (Packets.withData (Packets.frame netMaxFrameLen t.data)).Sublist [t.data] := by
    rw [Packets.withData_frame (by decide) hfit]
    split
    · exact List.nil_sublist _
    · exact List.Sublist.refl _
  have hgot : (t.got.map Prod.fst).Sublist [t.data] := by
    refine List.Sublist.trans ?_ hframe
    rw [← h]
    exact List.sublist_append_left _ _
  exact (List.filter_sublist.map Prod.fst).trans hgot

theorem flatMap_accepted_sublist : ∀ {ts : List HostTransfer},
    (∀ t ∈ ts, t.accepted.Sublist [t.data]) →
      (ts.flatMap HostTransfer.accepted).Sublist (ts.map HostTransfer.data) := by
  intro ts
  induction ts with
  | nil => intro _; exact List.Sublist.slnil
  | cons t ts ih =>
    intro h
    obtain ⟨ht, hts⟩ := List.forall_mem_cons.mp h
    rw [List.flatMap_cons, List.map_cons]
    exact ht.append (ih hts)

/-- What has been submitted are transfers that fit, in order. -/
theorem Linked.submitted_sublist (h : s.Linked dev)
    (hfit : ∀ t ∈ s.out.transfers, t.data.length ≤ netMaxFrameLen) :
    ∃ bss, List.Forall₂ NetFrame.Holds s.out.submitted bss ∧
      bss.Sublist (s.out.transfers.map HostTransfer.data) := by
  have hall : s.out.accepted.Sublist (s.out.transfers.map HostTransfer.data) := by
    refine flatMap_accepted_sublist fun t ht => ?_
    rcases List.mem_append.mp ht with hmem | hmem
    · exact accepted_sublist ((List.append_nil _).trans (h.out.earlier t hmem)) (hfit t ht)
    · exact accepted_sublist (h.out.current t (Option.mem_toList.mp hmem)) (hfit t ht)
  cases hnext : s.out.ecm.down.dataOutNext with
  | none => exact ⟨_, h.out.outside hnext, hall⟩
  | some next =>
    obtain ⟨f, before, rx, -, haccepted, hbefore, -⟩ := h.out.inside next.1 next.2 hnext
    refine ⟨before, hbefore, List.Sublist.trans ?_ hall⟩
    rw [haccepted]
    exact List.sublist_append_left _ _

/-! ### From the opening of the data interface on -/

/-- The class, with the data interface opened after `net_bridge_init`. -/
def opened (pool : FramePool n) (sInDone : Option Bool) : Ecm n :=
  (Ecm.start pool sInDone).init.setInterface 1 1

theorem run_openData (pool : FramePool n) (sInDone : Option Bool) :
    ecmSys.run (Ecm.start pool sInDone) openData = some (opened pool sInDone) := rfl

theorem opened_ready (pool : FramePool n) (sInDone : Option Bool) :
    (opened pool sInDone).cls.sReady = true ∧ (opened pool sInDone).down.dataOutNext = none := by
  refine ⟨rfl, ?_⟩
  show (Downlink.ecmOpenDataEps _).dataOutNext = none
  unfold Downlink.ecmOpenDataEps
  split <;> rfl

theorem linked_start {storage : Fin n → NetFrame} {pool : FramePool n}
    (hpool : framePoolInit storage = some pool) (hn : 0 < n) (sInDone : Option Bool) (b : σ) :
    (start (opened pool sInDone) b).Linked dev := by
  obtain ⟨e, he, hset⟩ := Lts.run_cons_eq_some _ |>.mp (run_openData pool sInDone)
  obtain ⟨e', hset, hnil⟩ := Lts.run_cons_eq_some _ |>.mp hset
  rw [Lts.run_nil, Option.some.injEq] at hnil
  subst hnil
  have hstart : TxRun.Ordered dev _ := TxRun.ordered_start hpool hn sInDone b
  have hopened := (hstart.ecm (by simp) he).ecm (by simp) hset
  obtain ⟨hready, hisr⟩ := opened_ready pool sInDone
  exact ⟨hopened, OutRun.followed_start hopened.owned hready hisr⟩

end DownPath

/-- **From the host to the wire.**  In every run of the downlink from the opening of the data
interface on, whatever the bus answers and in whatever order host, USB core and tasks take their
steps: if the host's transfers fit a buffer, what has been shifted out on a port are frames of the
host, in order, each at most once and with the bytes the host has sent, padded to the length the
device requires. -/
theorem host_to_wire {n : ℕ} {σ : Type} (hal : Hal σ) (dev : Adin2111) (hn : 0 < n)
    {storage : Fin n → NetFrame} {pool : FramePool n} (hpool : framePoolInit storage = some pool)
    (sInDone : Option Bool) (b : σ) {as : List (DownAct σ)} {s : DownPath n σ}
    (hrun : (downSys hal dev).run (DownPath.start (DownPath.opened pool sInDone) b) as = some s)
    (hfit : ∀ t ∈ s.out.transfers, t.data.length ≤ netMaxFrameLen) (p : Port) :
    (burstsOn dev p s.adin.2).Sublist
      ((s.out.transfers.map HostTransfer.data).map (DownPath.wireBody p)) := by
  have hlinked : s.Linked dev := Lts.run_invariant (fun s a s' h _ hs => h.step hs)
    (DownPath.linked_start hpool hn sInDone b) (Lts.along_true as _) hrun
  obtain ⟨bss, hholds, hsub⟩ := hlinked.submitted_sublist hfit
  refine (hlinked.tx.inOrder.wire p).trans ?_
  show ((s.out.submitted).map (frameBody p)).Sublist _
  rw [DownPath.map_frameBody_of_holds p hholds]
  exact hsub.map _

/-- A frame on its way to both ports. -/
def frameOut : List (DownAct Unit) :=
  [.task .take, .task (.choose emptyFdb), .task .reserve, .task .burst, .task .reserve,
    .task .burst, .task .free, .task .free]

/-- The second transfer comes while the first is on its way. -/
def twoOut : List (DownAct Unit) :=
  (twoTransfers.take 4).map .usb ++ frameOut.take 3 ++ (twoTransfers.drop 4).map .usb ++
    frameOut.drop 3 ++ frameOut

theorem host_to_wire_twoTransfers : ∃ s : DownPath netTxPoolCount Unit,
    (downSys idleBus (twoPorts false .switch)).run
      (DownPath.start (DownPath.opened (freshPool netTxPoolCount) (some false)) ()) twoOut =
        some s ∧ (burstsOn (twoPorts false .switch) .port2 s.adin.2).length = 2 ∧
      (burstsOn (twoPorts false .switch) .port2 s.adin.2).Sublist
        ((s.out.transfers.map HostTransfer.data).map (DownPath.wireBody .port2)) := by
  have hsummary : ((downSys idleBus (twoPorts false .switch)).run
      (DownPath.start (DownPath.opened (freshPool netTxPoolCount) (some false)) ()) twoOut).map
        (fun s => ((burstsOn (twoPorts false .switch) .port2 s.adin.2).length,
          s.out.transfers.map HostTransfer.data)) =
            some (2, [List.replicate 100 7, [1, 2, 3]]) := by decide +kernel
  obtain ⟨s, hrun, hs⟩ := Option.map_eq_some_iff.mp hsummary
  obtain ⟨htwo, hdata⟩ := Prod.mk.inj hs
  exact ⟨s, hrun, htwo, host_to_wire idleBus _ (by decide) (framePoolInit_freshPool (by decide))
    (some false) () hrun (length_of_twoTransfers hdata) .port2⟩

/-! ### Nothing is missing -/

namespace DownPath

variable {n : ℕ} {σ : Type} {hal : Hal σ} {dev : Adin2111} {s s' : DownPath n σ}

/-- The step gives up no attempt: there is one left, and it finds space, or none yet. -/
def patient (hal : Hal σ) (dev : Adin2111) (s : DownPath n σ) : DownAct σ → Bool
  | .task .reserve =>
    match s.out.ecm.down.tx, s.phase with
    | .transmit _, .serve (_ :: _) 0 => false
    | .transmit f, .serve (_ :: _) (_ + 1) =>
      let rc := (adinTxReserve (logged hal) dev (s.out.ecm.down.pool.storage f).len.toNat s.adin).1
      decide (rc = .ok) || decide (rc = .errNospace)
    | _, _ => true
  | _ => true

/-- The frames for which ports have been chosen. -/
def served (s : DownPath n σ) : List NetFrame :=
  match s.out.ecm.down.tx, s.phase with
  | .transmit _, .idle => s.taken.dropLast
  | _, _ => s.taken

/-- The frame still to be written on port `p`. -/
def owed (s : DownPath n σ) (p : Port) : List NetFrame :=
  match s.phase with
  | .idle => []
  | .serve ports _ => if p ∈ ports then s.inHand else []
  | .burst port ports _ => if p ∈ port :: ports then s.inHand else []

/-- The invariant. -/
structure Complete (dev : Adin2111) (s : DownPath n σ) : Prop where
  wire : ∀ p, burstsOn dev p s.adin.2 ++ (s.owed p).map (frameBody p) =
    (s.due p).map (frameBody p)
  /-- Ports have been chosen for each frame once, by the table as it was then. -/
  routed : s.routes.map Prod.fst = s.served ∧
    ∀ r ∈ s.routes, ∃ fdb, r.2 = netTxPorts dev.mode fdb r.1
  fits : ∀ port ports k, s.phase = .burst port ports k →
    ∀ f ∈ s.inHand, f.len.toNat ≤ adinMaxEthFrame

theorem owed_idle (hphase : s.phase = .idle) (p : Port) : s.owed p = [] := by
  rw [owed, hphase]

theorem owed_serve {ports : List Port} {k : ℕ} (hphase : s.phase = .serve ports k) (p : Port) :
    s.owed p = if p ∈ ports then s.inHand else [] := by
  rw [owed, hphase]

theorem owed_burst {port : Port} {ports : List Port} {k : ℕ}
    (hphase : s.phase = .burst port ports k) (p : Port) :
    s.owed p = if p ∈ port :: ports then s.inHand else [] := by
  rw [owed, hphase]

theorem inHand_of_transmit {f : Fin n} (htx : s.out.ecm.down.tx = .transmit f) :
    s.inHand = [s.out.ecm.down.pool.storage f] := by
  rw [inHand, htx]

/-- The frame in hand is the last one taken. -/
theorem Linked.inHand_of_transmit (h : s.Linked dev) {f : Fin n}
    (htx : s.out.ecm.down.tx = .transmit f) : s.inHand = s.taken.getLast?.toList := by
  have hheld : f ∈ s.out.ecm.down.held := by
    rw [Downlink.held, htx]
    exact List.mem_singleton_self f
  have hlast : s.taken.getLast? = some (s.out.ecm.down.pool.storage f) := h.tx.inHand f hheld
  rw [DownPath.inHand_of_transmit htx, hlast]
  rfl

/-- A step of the host and the USB core leaves the frame in hand alone. -/
theorem Linked.inHand_eq (h : s.Linked dev) (h' : s'.Linked dev)
    (htx : s'.out.ecm.down.tx = s.out.ecm.down.tx) (htaken : s'.taken = s.taken) :
    s'.inHand = s.inHand := by
  cases hf : s.out.ecm.down.tx with
  | transmit f =>
    rw [h.inHand_of_transmit hf, h'.inHand_of_transmit (htx.trans hf), htaken]
  | receive => rw [inHand, inHand, htx, hf]
  | free f => rw [inHand, inHand, htx, hf]

/-- The burst of a frame that `adin2111_write_frame` does not refuse fits the driver's buffer. -/
theorem frameBody_fits (p : Port) {f : NetFrame} (hlen : f.len.toNat ≤ adinMaxEthFrame) :
    (adinBuildHeader dev adinRegTx true).length + (frameBody p f).length ≤ adinSpiMaxburst := by
  have hhead : (adinBuildHeader dev adinRegTx true).length ≤ 3 := by
    rw [length_adinBuildHeader]
    split <;> omega
  have hbody : (frameBody p f).length ≤ 2 + f.len.toNat +
      (adinRound4 (paddedLen f.len.toNat + adinFrameHeaderLen) - adinFrameHeaderLen -
        f.len.toNat) := by
    rw [frameBody, txBody, List.length_append, List.length_append, List.length_replicate,
      List.length_take]
    simp only [List.length_cons, List.length_nil]
    omega
  unfold adinMaxEthFrame at hlen
  unfold adinRound4 paddedLen adinFrameHeaderLen at hbody
  unfold adinSpiMaxburst
  split at hbody <;> omega

/-- The burst of such a frame is shifted out. -/
theorem adinFifoWrite_shifted (p : Port) {f : NetFrame} (hlen : f.len.toNat ≤ adinMaxEthFrame)
    (b : σ × List (List Byte)) :
    (adinFifoWrite (logged hal) dev adinRegTx (frameBody p f) b).2.2 =
      b.2 ++ [adinBuildHeader dev adinRegTx true ++ frameBody p f] := by
  rw [adinFifoWrite, if_neg (not_lt.mpr (frameBody_fits p hlen))]
  cases hx : (logged hal).spiXfer (adinBuildHeader dev adinRegTx true ++ frameBody p f) b with
  | mk r b' =>
    have hlog := logged_log hx
    cases r with
    | none => exact hlog
    | some rx => exact hlog

/-- A refused length is not written. -/
theorem le_of_adinTxReserve {hal : Hal σ} {len : ℕ} {b : σ}
    (h : (adinTxReserve hal dev len b).1 = .ok) : len ≤ adinMaxEthFrame := by
  by_contra hlt
  rw [adinTxReserve, if_pos (Or.inr (not_le.mp hlt))] at h
  exact absurd h (by simp)

/-- The host and the USB core do not move `net_tx_task`. -/
theorem Linked.tx_eq (h : s.Linked dev) {b : OutAct} (hb : b ≠ .ecm .tx) {o : OutRun n}
    (ho : outStep s.out b = some o) : o.ecm.down.tx = s.out.ecm.down.tx := by
  have hecm : ∀ c e, c ≠ .tx → ecmSys.step s.out.ecm c = some e →
      e.down.tx = s.out.ecm.down.tx := by
    intro c e hc he
    by_cases hsubmit : c = .submit
    · subst hsubmit
      obtain ⟨f, -, -, htx, -⟩ := h.tx.owned.submitted he
      exact htx
    · exact (h.tx.owned.calm he hsubmit hc).tx
  cases b with
  | ecm c =>
    rw [outStep] at ho
    split at ho
    · exact absurd ho (by simp)
    · obtain ⟨e, hfilter, rfl⟩ := Option.map_eq_some_iff.mp ho
      obtain ⟨he, -⟩ := Option.filter_eq_some_iff.mp hfilter
      exact hecm c e (fun hc => hb (by rw [hc])) he
  | transfer data =>
    rw [outStep] at ho
    split at ho
    · rw [← Option.some.inj ho]
      rfl
    · exact absurd ho (by simp)
  | packet =>
    rw [outStep] at ho
    split at ho
    · exact absurd ho (by simp)
    · next p ps htoCome =>
      split_ifs at ho with _ hc
      · obtain ⟨e, he, rfl⟩ := Option.map_eq_some_iff.mp ho
        exact hecm (.dataOut (s.out.acc ++ p)) e (by simp) he
      · rw [← Option.some.inj ho]

/-- A step in which nothing changes for `net_tx_task`. -/
theorem Complete.congr (h : s.Complete dev) (hhand : s'.inHand = s.inHand)
    (htx : s'.out.ecm.down.tx = s.out.ecm.down.tx) (hlog : s'.adin.2 = s.adin.2)
    (hphase : s'.phase = s.phase) (htaken : s'.taken = s.taken) (hroutes : s'.routes = s.routes) :
    s'.Complete dev where
  wire := by
    intro p
    have howed : s'.owed p = s.owed p := by rw [owed, owed, hphase, hhand]
    rw [hlog, howed, due, hroutes]
    exact h.wire p
  routed := by
    have hserved : s'.served = s.served := by rw [served, served, htx, hphase, htaken]
    rw [hroutes, hserved]
    exact h.routed
  fits := by
    intro port ports k hburst
    rw [hhand]
    exact h.fits port ports k (hphase.symm.trans hburst)

/-- **A frame is taken**: no port is chosen for it yet. -/
theorem Complete.take (h : s.Complete dev) (hl : s.Linked dev)
    (hs : txRunStep hal dev s.tx .take = some s'.tx) (hroutes : s'.routes = s.routes) :
    s'.Complete dev := by
  rw [txRunStep] at hs
  split at hs
  · next htx =>
    obtain ⟨e, he, heq⟩ := Option.map_eq_some_iff.mp hs
    obtain ⟨f, q, -, hd⟩ := Downlink.netTxTask_receive htx (Ecm.storage_tx he).1
    have hphase : s.phase = .idle := hl.tx.idle fun g hg => absurd (htx.symm.trans hg) (by simp)
    have hphase' : s'.phase = .idle := (congrArg TxRun.phase heq).symm.trans hphase
    have hecm : s'.out.ecm = e := (congrArg TxRun.ecm heq).symm
    have htaken : s'.taken = s.taken ++ [e.down.pool.storage f] := by
      refine (congrArg TxRun.taken heq).symm.trans ?_
      show s.taken ++ e.down.held.map e.down.pool.storage = _
      rw [Downlink.held, hd]
      rfl
    have hserved : s'.served = s.served := by
      have htx : s.out.ecm.down.tx = .receive := htx
      have htx' : s'.out.ecm.down.tx = .transmit f := by rw [hecm, hd]
      rw [served, served, htx', hphase', htx]
      show s'.taken.dropLast = s.taken
      rw [htaken, List.dropLast_concat]
    refine ⟨fun p => ?_, ?_, fun port ports k hburst => ?_⟩
    · have hlog : s'.adin = s.adin := (congrArg TxRun.adin heq).symm
      rw [owed_idle hphase', hlog, due, hroutes, ← owed_idle hphase p]
      exact h.wire p
    · rw [hroutes, hserved]
      exact h.routed
    · exact absurd (hphase'.symm.trans hburst) (by simp)
  · exact absurd hs (by simp)

/-- **The ports are chosen.** -/
theorem Complete.choose (h : s.Complete dev) (hl : s.Linked dev) {fdb : Fdb}
    (hs : txRunStep hal dev s.tx (.choose fdb) = some s'.tx)
    (hroutes : s'.routes = s.routes ++ s.chosen dev (.choose fdb)) : s'.Complete dev := by
  rw [txRunStep] at hs
  split at hs
  · next f htx hphase =>
    have htx : s.out.ecm.down.tx = .transmit f := htx
    have hphase : s.phase = .idle := hphase
    have heq := Option.some.inj hs
    let g := s.out.ecm.down.pool.storage f
    have hecm : s'.out.ecm = s.out.ecm := (congrArg TxRun.ecm heq).symm
    have hphase' : s'.phase = .serve (netTxPorts dev.mode fdb g) txAttempts :=
      (congrArg TxRun.phase heq).symm
    have htaken : s'.taken = s.taken := (congrArg TxRun.taken heq).symm
    have hhand : s.inHand = [g] := inHand_of_transmit htx
    have hhand' : s'.inHand = [g] := by
      rw [inHand, hecm, htx]
    have hroutes : s'.routes = s.routes ++ [(g, netTxPorts dev.mode fdb g)] := by
      rw [hroutes, chosen, hhand]
      rfl
    have hdue : ∀ p, s'.due p =
        s.due p ++ if p ∈ netTxPorts dev.mode fdb g then [g] else [] := by
      intro p
      rw [due, hroutes, List.filter_append, List.map_append, List.filter_singleton]
      by_cases hp : p ∈ netTxPorts dev.mode fdb g
      · simp [hp, due]
      · simp [hp, due]
    refine ⟨fun p => ?_, ?_, fun port ports k hburst => ?_⟩
    · have hwire := h.wire p
      have hlog : s'.adin = s.adin := (congrArg TxRun.adin heq).symm
      rw [owed_idle hphase, List.map_nil, List.append_nil] at hwire
      rw [owed_serve hphase', hlog, hdue, hhand', List.map_append, hwire]
    · have hlast := hl.inHand_of_transmit htx
      rw [hhand] at hlast
      have hserved : s'.served = s.served ++ [g] := by
        rw [served, served, hecm, htx, hphase', hphase, hlast]
        show s'.taken = s.taken.dropLast ++ _
        cases hg : s.taken.getLast? with
        | none =>
          rw [hg] at hlast
          exact absurd hlast (by simp)
        | some k => rw [htaken, Option.toList_some, List.dropLast_append_getLast? k hg]
      refine ⟨?_, ?_⟩
      · rw [hroutes, List.map_append, h.routed.1, hserved]
        rfl
      · rw [hroutes]
        intro r hr
        rcases List.mem_append.mp hr with hr | hr
        · exact h.routed.2 r hr
        · rw [List.mem_singleton] at hr
          exact ⟨fdb, by rw [hr]⟩
    · exact absurd (hphase'.symm.trans hburst) (by simp)
  · exact absurd hs (by simp)

/-- **An attempt up to the burst**, not the last one. -/
theorem Complete.reserve (h : s.Complete dev) (hpatient : s.patient hal dev (.task .reserve) = true)
    (hs : txRunStep hal dev s.tx .reserve = some s'.tx) (hroutes : s'.routes = s.routes) :
    s'.Complete dev := by
  rw [txRunStep] at hs
  split at hs
  · next f port ports htx hphase =>
    have htx : s.out.ecm.down.tx = .transmit f := htx
    have hphase : s.phase = .serve (port :: ports) 0 := hphase
    rw [patient, htx, hphase] at hpatient
    exact absurd hpatient Bool.false_ne_true
  · next f port ports attempts htx hphase =>
    have htx : s.out.ecm.down.tx = .transmit f := htx
    have hphase : s.phase = .serve (port :: ports) (attempts + 1) := hphase
    have heq := Option.some.inj hs
    rw [patient, htx, hphase] at hpatient
    have hpatient := (Bool.or_eq_true _ _).mp hpatient
    rw [decide_eq_true_iff, decide_eq_true_iff] at hpatient
    obtain ⟨more, hlog, hmore, -⟩ := adinTxReserve_logged hal dev
      (s.out.ecm.down.pool.storage f).len.toNat s.adin
    have hadin : s'.adin.2 = s.adin.2 ++ more :=
      (congrArg (fun t => (TxRun.adin t).2) heq).symm.trans hlog
    have hphase' : s'.phase =
        if (adinTxReserve (logged hal) dev (s.out.ecm.down.pool.storage f).len.toNat s.adin).1 = .ok
        then .burst port ports attempts
        else nextAttempt (adinTxReserve (logged hal) dev
          (s.out.ecm.down.pool.storage f).len.toNat s.adin).1 port ports attempts :=
      (congrArg TxRun.phase heq).symm
    have hecm : s'.out.ecm = s.out.ecm := (congrArg TxRun.ecm heq).symm
    have htaken : s'.taken = s.taken := (congrArg TxRun.taken heq).symm
    have hhand : s'.inHand = s.inHand := by rw [inHand, inHand, hecm]
    -- the same ports are still to be written
    have howed : (∀ p, s'.owed p = s.owed p) ∧ s'.served = s.served ∧
        ∀ port ports k, s'.phase = .burst port ports k →
          ∀ g ∈ s'.inHand, g.len.toNat ≤ adinMaxEthFrame := by
      rcases hpatient with hok | hspace
      · rw [if_pos hok] at hphase'
        refine ⟨fun p => by rw [owed_burst hphase', owed_serve hphase, hhand], ?_, ?_⟩
        · rw [served, served, hecm, htx, hphase, hphase', htaken]
        · intro port ports k _ g hg
          rw [hhand, inHand_of_transmit htx, List.mem_singleton] at hg
          rw [hg]
          exact le_of_adinTxReserve hok
      · rw [hspace, if_neg (by simp), nextAttempt, if_pos rfl] at hphase'
        refine ⟨fun p => by rw [owed_serve hphase', owed_serve hphase, hhand], ?_, ?_⟩
        · rw [served, served, hecm, htx, hphase, hphase', htaken]
        · intro port ports k hburst
          exact absurd (hphase'.symm.trans hburst) (by simp)
    refine ⟨fun p => ?_, ?_, howed.2.2⟩
    · rw [hadin, burstsOn_append, hmore, List.append_nil, howed.1, due, hroutes]
      exact h.wire p
    · rw [hroutes, howed.2.1]
      exact h.routed
  · exact absurd hs (by simp)

/-- **The burst.** -/
theorem Complete.burst (h : s.Complete dev) (hl : s.Linked dev)
    (hs : txRunStep hal dev s.tx .burst = some s'.tx) (hroutes : s'.routes = s.routes) :
    s'.Complete dev := by
  rw [txRunStep] at hs
  split at hs
  · next f port ports attempts htx hphase =>
    have htx : s.out.ecm.down.tx = .transmit f := htx
    have hphase : s.phase = .burst port ports attempts := hphase
    have heq := Option.some.inj hs
    let g := s.out.ecm.down.pool.storage f
    have hhand : s.inHand = [g] := inHand_of_transmit htx
    have hlen : g.len.toNat ≤ adinMaxEthFrame :=
      h.fits port ports attempts hphase g (by rw [hhand]; exact List.mem_singleton_self g)
    have hadin : s'.adin.2 = s.adin.2 ++ [adinBuildHeader dev adinRegTx true ++ frameBody port g] :=
      (congrArg (fun t => (TxRun.adin t).2) heq).symm.trans (adinFifoWrite_shifted port hlen s.adin)
    have hrc := (adinFifoWrite_logged hal dev (frameBody port g) s.adin).2
    have hphase' : s'.phase = .serve ports txAttempts :=
      (congrArg TxRun.phase heq).symm.trans (if_neg hrc)
    have hecm : s'.out.ecm = s.out.ecm := (congrArg TxRun.ecm heq).symm
    have htaken : s'.taken = s.taken := (congrArg TxRun.taken heq).symm
    have hhand' : s'.inHand = [g] := by rw [inHand, hecm, htx]
    have hnodup := hl.tx.nodup
    rw [TxRun.pending_burst htx hphase, List.nodup_cons] at hnodup
    refine ⟨fun p => ?_, ?_, fun port ports k hburst => ?_⟩
    · have hwire : _ = (s'.due p).map _ := (h.wire p).trans (by rw [due, due, hroutes])
      rw [owed_burst hphase, hhand] at hwire
      rw [hadin, burstsOn_append, burstsOn_burst, owed_serve hphase', hhand', ← hwire]
      by_cases hp : p = port
      · subst hp
        rw [if_pos rfl, if_neg hnodup.1, if_pos List.mem_cons_self, List.map_nil, List.append_nil]
        rfl
      · have hmem : p ∈ port :: ports ↔ p ∈ ports := by simp [hp]
        rw [if_neg hp, List.append_nil]
        simp only [hmem]
    · have hserved : s'.served = s.served := by
        rw [served, served, hecm, htx, hphase, hphase', htaken]
      rw [hroutes, hserved]
      exact h.routed
    · exact absurd (hphase'.symm.trans hburst) (by simp)
  · exact absurd hs (by simp)

theorem served_of_not_transmit (htx : ∀ f, s.out.ecm.down.tx ≠ .transmit f) :
    s.served = s.taken := by
  unfold served
  cases hf : s.out.ecm.down.tx with
  | transmit f => exact absurd hf (htx f)
  | receive => rfl
  | free f => rfl

/-- After a frame has been given back no port is chosen. -/
theorem Complete.settle (h : s.Complete dev) (htx : s.out.ecm.down.tx ≠ .receive) {e : Ecm n}
    (he : ecmStep s.out.ecm .tx = some e) (howed : ∀ p, s.owed p = [])
    (hserved : s.served = s.taken) (heq : { s.tx with ecm := e, phase := .idle } = s'.tx)
    (hroutes : s'.routes = s.routes) : s'.Complete dev := by
  obtain ⟨-, -, hnext⟩ := Downlink.netTxTask_of_held htx (Ecm.storage_tx he).1
  have hphase' : s'.phase = .idle := (congrArg TxRun.phase heq).symm
  have hecm : s'.out.ecm = e := (congrArg TxRun.ecm heq).symm
  have htaken : s'.taken = s.taken := (congrArg TxRun.taken heq).symm
  have hlog : s'.adin = s.adin := (congrArg TxRun.adin heq).symm
  refine ⟨fun p => ?_, ?_, fun port ports k hburst => ?_⟩
  · rw [owed_idle hphase', hlog, due, hroutes, ← howed p]
    exact h.wire p
  · rw [hroutes, served_of_not_transmit (fun f => hecm ▸ hnext f), htaken, ← hserved]
    exact h.routed
  · exact absurd (hphase'.symm.trans hburst) (by simp)

/-- **The frame is given back.** -/
theorem Complete.free (h : s.Complete dev) (hl : s.Linked dev)
    (hs : txRunStep hal dev s.tx .free = some s'.tx) (hroutes : s'.routes = s.routes) :
    s'.Complete dev := by
  rw [txRunStep] at hs
  split at hs
  · next f left htx hphase =>
    have htx : s.out.ecm.down.tx = .transmit f := htx
    have hphase : s.phase = .serve [] left := hphase
    obtain ⟨e, he, heq⟩ := Option.map_eq_some_iff.mp hs
    refine h.settle (by rw [htx]; simp) he (fun p => ?_) ?_ heq hroutes
    · rw [owed_serve hphase, if_neg List.not_mem_nil]
    · rw [served, htx, hphase]
  · next f htx =>
    have htx : s.out.ecm.down.tx = .free f := htx
    obtain ⟨e, he, heq⟩ := Option.map_eq_some_iff.mp hs
    have hphase : s.phase = .idle := hl.tx.idle fun g hg => absurd (htx.symm.trans hg) (by simp)
    refine h.settle (by rw [htx]; simp) he (owed_idle hphase)
      (served_of_not_transmit fun g => by rw [htx]; simp) ?_ hroutes
    rw [← heq, show s.tx.phase = .idle from hphase]
  · exact absurd hs (by simp)

/-- **Every step that gives up no attempt.** -/
theorem Complete.step (h : s.Complete dev) (hl : s.Linked dev) {a : DownAct σ}
    (hpatient : s.patient hal dev a = true) (hs : (downSys hal dev).step s a = some s') :
    s'.Complete dev := by
  have hl' := hl.step hs
  rcases downStep_cases hs with ⟨b, o, rfl, hb, ho, rfl⟩ | ⟨b, t, rfl, hb, ht, rfl⟩
  · have htx := hl.tx_eq hb ho
    exact h.congr (hl.inHand_eq hl' htx rfl) htx rfl rfl rfl rfl
  · have ht : txRunStep hal dev s.tx b =
        some (DownPath.tx { s.withTx t with routes := s.routes ++ s.chosen dev b }) := by
      refine ht.trans (congrArg some ?_)
      show t = TxRun.mk t.ecm t.adin t.phase s.out.submitted t.taken
      rw [show s.out.submitted = t.submitted from (task_txRunStep hb ht).1.symm]
    have hnone : (∀ fdb, b ≠ .choose fdb) → s.routes ++ s.chosen dev b = s.routes := by
      intro hchoose
      cases b with
      | choose fdb => exact absurd rfl (hchoose fdb)
      | ecm | bus | take | reserve | burst | free => exact List.append_nil _
    cases b with
    | ecm e => exact absurd rfl (hb e)
    | bus b =>
      have heq := Option.some.inj ht
      have hecm : t.ecm = s.out.ecm := (congrArg TxRun.ecm heq).symm
      refine h.congr ?_ (congrArg (fun e => e.down.tx) hecm) ?_ ?_ ?_ (hnone fun _ => by simp)
      · show (match t.ecm.down.tx with
          | .transmit f => [t.ecm.down.pool.storage f]
          | _ => []) = s.inHand
        rw [hecm]
        rfl
      · exact (congrArg (fun t => (TxRun.adin t).2) heq).symm
      · exact (congrArg TxRun.phase heq).symm
      · exact (congrArg TxRun.taken heq).symm
    | take => exact h.take hl ht (hnone fun _ => by simp)
    | choose fdb => exact h.choose hl ht rfl
    | reserve => exact h.reserve hpatient ht (hnone fun _ => by simp)
    | burst => exact h.burst hl ht (hnone fun _ => by simp)
    | free => exact h.free hl ht (hnone fun _ => by simp)

/-- Of transfers that fit those are accepted that are wanted. -/
theorem Linked.accepted_eq (h : s.Linked dev) (hsettled : s.out.Settled)
    (hfit : ∀ t ∈ s.out.transfers, t.data.length ≤ netMaxFrameLen) :
    s.out.accepted = (s.out.transfers.filter HostTransfer.wanted).map HostTransfer.data := by
  rcases HostTransfer.accepted_cases (h.out.received hsettled.1) with ⟨-, heq⟩ | ⟨hnot, -⟩
  · exact heq
  · exact absurd (fun t ht hlt => absurd (hfit t ht) (not_le.mpr hlt)) hnot

end DownPath

end Usb2T1L
