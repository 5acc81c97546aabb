import Usb2T1L.Bridge.Switching
import Usb2T1L.Lib.Lts

/-!
# A daisy chain of adapters

Adapters in switch mode, numbered from left to right: port 2 of one is cabled to port 1 of the
next.  Each has its table, the registers of its device and its host; frames are on a cable, in a
receive FIFO, or with a host.

The device decides about a frame by its registers as they are when the frame enters, and that may
be between two register writes of an FDB operation: an operation takes the lock, updates the table
and makes its writes one at a time, and what else needs the lock waits until they are made or given
up.  Frames may be lost on a cable, at a full FIFO, or by `tx_frame_port` giving up.  They are
carried as they were sent, without the padding of `adin2111_write_frame`.

Hosts send frames with both addresses, and with the address their adapter has told them as the
source.

## Main definitions

* `Adapter`, `Chain` — the state of one adapter, and of them all.
* `chainSys` — the chain as a transition system; `ChainMove` — what its steps do.

## Main results

* `learn_refines`, `sweep_refines` — the operations in this form are those of the bridge.
* `Adapter.writes_refine` — **register writes one at a time** end where the driver ends.
-/

namespace Usb2T1L

/-! ### The state -/

/-- A frame, with the adapter whose host sent it. -/
structure Packet where
  frame : NetFrame
  origin : ℤ

/-- One adapter. -/
structure Adapter where
  /-- `s_fdb`. -/
  fdb : Fdb
  /-- The registers of the device. -/
  regs : ℕ → Word
  /-- The register writes still to be made by the task that has the lock, an FDB operation at a
  time. -/
  pending : List (List (ℕ × Word))
  /-- What `net_tx_task` still has to write out of the frame it has, and where. -/
  sending : List (Port × Packet)

/-- The chain. -/
structure Chain where
  adapter : ℤ → Adapter
  /-- The frames on the cable into a port of an adapter, oldest first. -/
  inbox : ℤ × Port → List Packet
  /-- The receive FIFOs. -/
  rx : ℤ × Port → List Packet
  /-- What each host has sent so far, oldest first. -/
  sent : ℤ → List Packet
  /-- What has been handed to `usbd_ecm_if_send` for each host, oldest first. -/
  got : ℤ → List Packet

/-- The adapter at the other end of the cable in port `p` of adapter `x`. -/
def Port.beyond (p : Port) (x : ℤ) : ℤ :=
  match p with
  | .port1 => x - 1
  | .port2 => x + 1

/-- The chain has `N` adapters. -/
def InChain (N : ℕ) (x : ℤ) : Prop := 0 ≤ x ∧ x < N

instance (N : ℕ) (x : ℤ) : Decidable (InChain N x) := inferInstanceAs (Decidable (_ ∧ _))

/-- Adapter `x` puts a frame out on port `p`: at the end of the chain there is no cable. -/
def cable (N : ℕ) (x : ℤ) (p : Port) (a : Packet) (inbox : ℤ × Port → List Packet) :
    ℤ × Port → List Packet :=
  if InChain N (p.beyond x) then
    Function.update inbox (p.beyond x, p.opposite) (inbox (p.beyond x, p.opposite) ++ [a])
  else inbox

/-! ### What the tasks of one adapter do -/

/-- A device of no interest. -/
def idleHal : Hal Unit := ⟨fun _ _ => (some [], ())⟩

/-- The device update of `net_bridge_learn`. -/
def learnOps (sOwnMac : Mac) (fdb : Fdb) (now : Word) (src : Mac) (ingress : Port) :
    List (Fin netFdbMaxEntries × FdbOp) :=
  if Eligible sOwnMac src ∧ netBridgeFdbLookup fdb src ≠ some ingress then
    [(learnSlot fdb now src, .set src ingress)]
  else []

/-- The device updates of the aging scan. -/
def sweepOps (fdb : Fdb) (now : Word) : List (Fin netFdbMaxEntries × FdbOp) :=
  ((List.finRange netFdbMaxEntries).filter (stale now fdb)).map fun i => (i, .clear)

/-- The register writes of FDB operations. -/
def opWrites (ops : List (Fin netFdbMaxEntries × FdbOp)) : List (List (ℕ × Word)) :=
  ops.map fun op => op.2.intended (fdbSlotIndex op.1)

namespace Adapter

variable (dev : Adin2111) (sOwnMac : Mac) (st : Adapter)

/-- `net_bridge_learn`, up to its register writes. -/
def learn (now : Word) (src : Mac) (ingress : Port) : Adapter :=
  { st with
    fdb := (netBridgeLearn idleHal dev sOwnMac now src ingress ⟨st.fdb, ()⟩).fdb
    pending := opWrites (learnOps sOwnMac st.fdb now src ingress) }

/-- The aging scan of `link_task`, up to its register writes. -/
def sweep (now : Word) : Adapter :=
  { st with
    fdb := (linkTaskSweep idleHal dev now ⟨st.fdb, ()⟩).fdb
    pending := opWrites (sweepOps st.fdb now) }

/-- What is left to do after a write. -/
def afterWrite (ws : List (ℕ × Word)) (rest : List (List (ℕ × Word))) : List (List (ℕ × Word)) :=
  match ws with
  | [] => rest
  | w :: ws => (w :: ws) :: rest

/-- The next register write, which may fail: then the operation is given up. -/
def write (ok : Bool) : Option Adapter :=
  match st.pending with
  | (w :: ws) :: rest =>
    if ok then some { st with regs := RegFile.write st.regs w, pending := afterWrite ws rest }
    else some { st with pending := rest }
  | _ => none

end Adapter

/-! ### The chain as a system -/

/-- What can happen next. -/
inductive ChainAct
  /-- `net_tx_task` takes a frame of host `x` and chooses its ports. -/
  | send (x : ℤ) (f : NetFrame)
  /-- `tx_frame_port` writes it out on the next of them, or gives up. -/
  | xmit (x : ℤ) (ok : Bool)
  /-- A frame enters adapter `x` on port `p`; there may be no room in the FIFO. -/
  | arrive (x : ℤ) (p : Port) (room : Bool)
  /-- A frame is lost on the cable. -/
  | lose (x : ℤ) (p : Port)
  /-- `net_rx_task` takes a frame from a FIFO, learns its source and hands it on. -/
  | serve (x : ℤ) (p : Port) (now : Word)
  /-- `adin2111_read_frame` finds a corrupt length and clears the FIFOs. -/
  | flush (x : ℤ)
  /-- `link_task` scans the table. -/
  | sweep (x : ℤ) (now : Word)
  /-- The next register write. -/
  | write (x : ℤ) (ok : Bool)

section System

variable (dev : Adin2111) (mac : ℤ → Mac) (N : ℕ)

namespace Chain

variable (s : Chain) (x : ℤ)

/-- Adapter `x` is replaced. -/
def withAdapter (st : Adapter) : Chain := { s with adapter := Function.update s.adapter x st }

@[simp] theorem withAdapter_self (st : Adapter) : (s.withAdapter x st).adapter x = st := by
  simp [withAdapter]

theorem withAdapter_of_ne {y : ℤ} (hy : y ≠ x) (st : Adapter) :
    (s.withAdapter x st).adapter y = s.adapter y := by
  simp [withAdapter, hy]

/-- The ports are chosen for a frame of host `x`. -/
def choose (f : NetFrame) : Chain :=
  { s.withAdapter x { s.adapter x with
      sending := (netTxPorts dev.mode (s.adapter x).fdb f).map fun p => (p, ⟨f, x⟩) } with
    sent := Function.update s.sent x (s.sent x ++ [⟨f, x⟩]) }

/-- Frame `a` is put out on port `p`, if that succeeds. -/
def putOut (ok : Bool) (p : Port) (a : Packet) (rest : List (Port × Packet)) : Chain :=
  { s.withAdapter x { s.adapter x with sending := rest } with
    inbox := if ok then cable N x p a s.inbox else s.inbox }

/-- Frame `a` enters on port `p`, as the first on its cable. -/
def enter (p : Port) (room : Bool) (a : Packet) (rest : List Packet) : Chain :=
  let v := deviceVerdict (s.adapter x).regs a.frame.dst p
  let inbox := Function.update s.inbox (x, p) rest
  { s with
    inbox := if v.toOtherPort then cable N x p.opposite a inbox else inbox
    rx := if v.toHost && room then Function.update s.rx (x, p) (s.rx (x, p) ++ [a]) else s.rx }

/-- Frame `a`, the first in a FIFO, is learnt from and handed on. -/
def handOn (p : Port) (now : Word) (a : Packet) (rest : List Packet) : Chain :=
  { s.withAdapter x ((s.adapter x).learn dev (mac x) now a.frame.src p) with
    rx := Function.update s.rx (x, p) rest
    got := Function.update s.got x (s.got x ++ [a]) }

/-- The receive FIFOs of adapter `x` are emptied. -/
def clearRx : Chain :=
  { s with rx := Function.update (Function.update s.rx (x, .port1) []) (x, .port2) [] }

end Chain

/-- The next step of the chain. -/
def chainStep (s : Chain) : ChainAct → Option Chain
  | .send x f =>
    if InChain N x ∧ (s.adapter x).sending = [] ∧
        (macIsGroup f.dst = true ∨ (s.adapter x).pending = []) ∧
          f.src = mac x ∧ 12 ≤ f.len.toNat then
      some (s.choose dev x f)
    else none
  | .xmit x ok =>
    match (s.adapter x).sending with
    | [] => none
    | (p, a) :: rest =>
      if (s.adapter x).pending = [] then some (s.putOut N x ok p a rest) else none
  | .arrive x p room =>
    match s.inbox (x, p) with
    | [] => none
    | a :: rest => some (s.enter N x p room a rest)
  | .lose x p =>
    match s.inbox (x, p) with
    | [] => none
    | _ :: rest => some { s with inbox := Function.update s.inbox (x, p) rest }
  | .serve x p now =>
    match s.rx (x, p) with
    | [] => none
    | a :: rest =>
      -- port 1 comes first
      if (s.adapter x).pending = [] ∧ (p = .port1 ∨ s.rx (x, .port1) = []) then
        some (s.handOn dev mac x p now a rest)
      else none
  | .flush x => if (s.adapter x).pending = [] then some (s.clearRx x) else none
  | .sweep x now =>
    if InChain N x ∧ (s.adapter x).pending = [] then
      some (s.withAdapter x ((s.adapter x).sweep dev now))
    else none
  | .write x ok => ((s.adapter x).write ok).map (s.withAdapter x)

/-- The chain. -/
def chainSys : Lts Chain ChainAct := ⟨chainStep dev mac N⟩

/-- The chain before anything has been sent, with the given registers. -/
def quietChain (regs : ℤ → ℕ → Word) : Chain where
  adapter := fun x => ⟨emptyFdb, regs x, [], []⟩
  inbox := fun _ => []
  rx := fun _ => []
  sent := fun _ => []
  got := fun _ => []

/-- **Everything a step can do.** -/
inductive ChainMove (s : Chain) : ChainAct → Chain → Prop
  | send (x : ℤ) (f : NetFrame) (hx : InChain N x) (hidle : (s.adapter x).sending = [])
      (hsrc : f.src = mac x) : ChainMove s (.send x f) (s.choose dev x f)
  | xmit (x : ℤ) (ok : Bool) (p : Port) (a : Packet) (rest : List (Port × Packet))
      (hsending : (s.adapter x).sending = (p, a) :: rest) :
      ChainMove s (.xmit x ok) (s.putOut N x ok p a rest)
  | arrive (x : ℤ) (p : Port) (room : Bool) (a : Packet) (rest : List Packet)
      (hinbox : s.inbox (x, p) = a :: rest) :
      ChainMove s (.arrive x p room) (s.enter N x p room a rest)
  | lose (x : ℤ) (p : Port) (a : Packet) (rest : List Packet)
      (hinbox : s.inbox (x, p) = a :: rest) :
      ChainMove s (.lose x p) { s with inbox := Function.update s.inbox (x, p) rest }
  | serve (x : ℤ) (p : Port) (now : Word) (a : Packet) (rest : List Packet)
      (hrx : s.rx (x, p) = a :: rest) (hpending : (s.adapter x).pending = []) :
      ChainMove s (.serve x p now) (s.handOn dev mac x p now a rest)
  | flush (x : ℤ) : ChainMove s (.flush x) (s.clearRx x)
  | sweep (x : ℤ) (now : Word) (hx : InChain N x) (hpending : (s.adapter x).pending = []) :
      ChainMove s (.sweep x now) (s.withAdapter x ((s.adapter x).sweep dev now))
  | write (x : ℤ) (ok : Bool) (w : ℕ × Word) (ws : List (ℕ × Word))
      (rest : List (List (ℕ × Word))) (hpending : (s.adapter x).pending = (w :: ws) :: rest) :
      ChainMove s (.write x ok) (s.withAdapter x
        (if ok then { s.adapter x with
            regs := RegFile.write (s.adapter x).regs w
            pending := Adapter.afterWrite ws rest }
          else { s.adapter x with pending := rest }))

variable {dev mac N}

theorem chainMove_of_step {s s' : Chain} {a : ChainAct}
    (h : chainStep dev mac N s a = some s') : ChainMove dev mac N s a s' := by
  cases a with
  | send x f =>
    rw [chainStep] at h
    split_ifs at h with hc
    obtain rfl := Option.some.inj h
    exact .send x f hc.1 hc.2.1 hc.2.2.2.1
  | xmit x ok =>
    rw [chainStep] at h
    split at h
    · exact absurd h (by simp)
    · next p a rest hsending =>
      split_ifs at h
      obtain rfl := Option.some.inj h
      exact .xmit x ok p a rest hsending
  | arrive x p room =>
    rw [chainStep] at h
    split at h
    · exact absurd h (by simp)
    · next a rest hinbox =>
      obtain rfl := Option.some.inj h
      exact .arrive x p room a rest hinbox
  | lose x p =>
    rw [chainStep] at h
    split at h
    · exact absurd h (by simp)
    · next a rest hinbox =>
      obtain rfl := Option.some.inj h
      exact .lose x p a rest hinbox
  | serve x p now =>
    rw [chainStep] at h
    split at h
    · exact absurd h (by simp)
    · next a rest hrx =>
      split_ifs at h with hc
      obtain rfl := Option.some.inj h
      exact .serve x p now a rest hrx hc.1
  | flush x =>
    rw [chainStep] at h
    split_ifs at h
    obtain rfl := Option.some.inj h
    exact .flush x
  | sweep x now =>
    rw [chainStep] at h
    split_ifs at h with hc
    obtain rfl := Option.some.inj h
    exact .sweep x now hc.1 hc.2
  | write x ok =>
    obtain ⟨st, hst, rfl⟩ := Option.map_eq_some_iff.mp h
    rw [Adapter.write] at hst
    split at hst
    · next w ws rest hpending =>
      have hmove : ChainMove dev mac N s (.write x ok) _ := .write x ok w ws rest hpending
      split_ifs at hst with hok
      · rw [if_pos hok] at hmove
        exact Option.some.inj hst ▸ hmove
      · rw [if_neg hok] at hmove
        exact Option.some.inj hst ▸ hmove
    · exact absurd hst (by simp)

/-! ### Steps that can be taken -/

variable {s : Chain} {x : ℤ} {p : Port}

/-- A frame for the host is put into the FIFO, if there is room. -/
theorem Chain.enter_rx {a : Packet} {rest : List Packet}
    (hv : (deviceVerdict (s.adapter x).regs a.frame.dst p).toHost = true) :
    (s.enter N x p true a rest).rx = Function.update s.rx (x, p) (s.rx (x, p) ++ [a]) := by
  rw [enter, hv]
  rfl

/-- A frame that goes on is put on the next cable. -/
theorem Chain.enter_inbox {room : Bool} {a : Packet} {rest : List Packet}
    (hv : (deviceVerdict (s.adapter x).regs a.frame.dst p).toOtherPort = true) :
    (s.enter N x p room a rest).inbox =
      cable N x p.opposite a (Function.update s.inbox (x, p) rest) := by
  rw [enter, hv]
  rfl

/-- A frame is handed on to the host. -/
theorem Chain.handOn_got (now : Word) (a : Packet) (rest : List Packet) :
    (s.handOn dev mac x p now a rest).got x = s.got x ++ [a] := Function.update_self x _ s.got

theorem step_send {f : NetFrame} (hx : InChain N x) (hidle : (s.adapter x).sending = [])
    (hlock : macIsGroup f.dst = true ∨ (s.adapter x).pending = []) (hsrc : f.src = mac x)
    (hlen : 12 ≤ f.len.toNat) :
    (chainSys dev mac N).step s (.send x f) = some (s.choose dev x f) :=
  if_pos ⟨hx, hidle, hlock, hsrc, hlen⟩

theorem step_xmit {a : Packet} {rest : List (Port × Packet)}
    (hsending : (s.adapter x).sending = (p, a) :: rest) (hlock : (s.adapter x).pending = [])
    (ok : Bool) : (chainSys dev mac N).step s (.xmit x ok) = some (s.putOut N x ok p a rest) := by
  show chainStep dev mac N s (.xmit x ok) = _
  rw [chainStep, hsending]
  exact if_pos hlock

/-- A frame is sent to both sides. -/
theorem run_sendBoth {f : NetFrame} (hx : InChain N x) (hidle : (s.adapter x).sending = [])
    (hlock : (s.adapter x).pending = []) (hsrc : f.src = mac x) (hlen : 12 ≤ f.len.toNat)
    (hports : netTxPorts dev.mode (s.adapter x).fdb f = [.port1, .port2]) :
    (chainSys dev mac N).run s [.send x f, .xmit x true, .xmit x true] =
      some { s with
        inbox := cable N x .port2 ⟨f, x⟩ (cable N x .port1 ⟨f, x⟩ s.inbox)
        sent := Function.update s.sent x (s.sent x ++ [⟨f, x⟩]) } := by
  let st (sending : List (Port × Packet)) : Adapter := { s.adapter x with sending := sending }
  have hsend : (s.choose dev x f).adapter x = st [(.port1, ⟨f, x⟩), (.port2, ⟨f, x⟩)] := by
    show Function.update s.adapter x _ x = _
    rw [Function.update_self, hports]
    rfl
  let t := (s.choose dev x f).putOut N x true .port1 ⟨f, x⟩ [(.port2, ⟨f, x⟩)]
  have ht : t.adapter x = st [(.port2, ⟨f, x⟩)] := by
    show Function.update _ x _ x = _
    rw [Function.update_self, hsend]
  refine (Lts.run_cons_eq_some _).mpr ⟨_, step_send hx hidle (Or.inr hlock) hsrc hlen, ?_⟩
  refine (Lts.run_cons_eq_some _).mpr
    ⟨t, step_xmit (by rw [hsend]) (by rw [hsend]; exact hlock) true, ?_⟩
  refine (Lts.run_cons_eq_some _).mpr ⟨_, step_xmit (by rw [ht]) (by rw [ht]; exact hlock) true, ?_⟩
  -- the adapter is as before
  have hsame : (t.putOut N x true .port2 ⟨f, x⟩ []).adapter = s.adapter := by
    show Function.update (Function.update (Function.update s.adapter x _) x _) x
      { t.adapter x with sending := [] } = _
    rw [Function.update_idem, Function.update_idem, ht]
    refine (congrArg _ ?_).trans (Function.update_eq_self x s.adapter)
    show st [] = _
    dsimp only [st]
    rw [show ([] : List (Port × Packet)) = (s.adapter x).sending from hidle.symm]
  rw [Lts.run_nil, Option.some.injEq]
  show Chain.mk (t.putOut N x true .port2 ⟨f, x⟩ []).adapter _ _ _ _ = _
  rw [hsame]
  rfl

theorem step_arrive {a : Packet} {rest : List Packet} (hinbox : s.inbox (x, p) = a :: rest)
    (room : Bool) :
    (chainSys dev mac N).step s (.arrive x p room) = some (s.enter N x p room a rest) := by
  show chainStep dev mac N s (.arrive x p room) = _
  rw [chainStep, hinbox]

theorem step_serve {a : Packet} {rest : List Packet} (hrx : s.rx (x, p) = a :: rest)
    (hlock : (s.adapter x).pending = []) (hfirst : p = .port1 ∨ s.rx (x, .port1) = [])
    (now : Word) :
    (chainSys dev mac N).step s (.serve x p now) = some (s.handOn dev mac x p now a rest) := by
  show chainStep dev mac N s (.serve x p now) = _
  rw [chainStep, hrx]
  exact if_pos ⟨hlock, hfirst⟩

end System

/-! ### The operations are those of the bridge -/

section Refinement

variable {dev : Adin2111} {sOwnMac : Mac} {fdb : Fdb} {now : Word} {src : Mac} {p : Port}

/-- The device updates, made in one go. -/
def execOps (dev : Adin2111) (ops : List (Fin netFdbMaxEntries × FdbOp)) (b : Bus) : Bus :=
  ops.foldl (fun b op => op.2.exec dev (fdbSlotIndex op.1) b) b

/-- What the table becomes does not depend on the device. -/
theorem learn_fdb_eq {σ : Type} (hal : Hal σ) (adin : σ) :
    (netBridgeLearn hal dev sOwnMac now src p ⟨fdb, adin⟩).fdb =
      (netBridgeLearn idleHal dev sOwnMac now src p ⟨fdb, ()⟩).fdb := by
  by_cases hel : Eligible sOwnMac src
  · rw [netBridgeLearn_fdb hal dev hel, netBridgeLearn_fdb idleHal dev hel]
  · rw [netBridgeLearn_of_not_eligible hal dev hel, netBridgeLearn_of_not_eligible idleHal dev hel]

theorem settled_iff : Settled fdb src p ↔ netBridgeFdbLookup fdb src = some p :=
  Option.map_eq_some_iff.symm

/-- **`net_bridge_learn` in two parts**: the table, and the device update. -/
theorem learn_refines (b : Bus) :
    netBridgeLearn (busHal dev) dev sOwnMac now src p ⟨fdb, b⟩ =
      ⟨(netBridgeLearn idleHal dev sOwnMac now src p ⟨fdb, ()⟩).fdb,
        execOps dev (learnOps sOwnMac fdb now src p) b⟩ := by
  rw [← learn_fdb_eq (busHal dev) b, learnOps]
  by_cases hel : Eligible sOwnMac src
  · by_cases hset : Settled fdb src p
    · obtain ⟨i, -, heq⟩ := netBridgeLearn_of_settled (busHal dev) dev (s := ⟨fdb, b⟩) hel
        hset
      rw [if_neg fun h => h.2 (settled_iff.mp hset), heq]
      rfl
    · rw [if_pos ⟨hel, mt settled_iff.mpr hset⟩,
        netBridgeLearn_of_not_settled (busHal dev) dev hel hset]
      rfl
  · rw [if_neg fun h => hel h.1, netBridgeLearn_of_not_eligible (busHal dev) dev hel]
    rfl

/-- **The aging scan in two parts.** -/
theorem sweep_refines (b : Bus) :
    linkTaskSweep (busHal dev) dev now ⟨fdb, b⟩ =
      ⟨(linkTaskSweep idleHal dev now ⟨fdb, ()⟩).fdb, execOps dev (sweepOps fdb now) b⟩ := by
  have hfdb : (linkTaskSweep (busHal dev) dev now ⟨fdb, b⟩).fdb =
      (linkTaskSweep idleHal dev now ⟨fdb, ()⟩).fdb :=
    funext fun i => by rw [linkTaskSweep_fdb, linkTaskSweep_fdb]
  rw [execOps, sweepOps, List.foldl_map, ← hfdb]
  exact congrArg (Bridge.mk _) (linkTaskSweep_adin now ⟨fdb, b⟩)

/-- A group of writes is made one at a time, up to the first that fails. -/
theorem Adapter.writes_refine_group : ∀ (ws : List (ℕ × Word)) (st : Adapter)
    (rest : List (List (ℕ × Word))) (b : Bus), st.pending = afterWrite ws rest →
      st.regs = b.regs →
      ∃ oks : List Bool, oks.foldlM Adapter.write st =
        some { st with regs := (b.perform ws).regs, pending := rest } := by
  intro ws
  induction ws with
  | nil =>
    intro st rest b hpending hregs
    refine ⟨[], ?_⟩
    rw [List.foldlM_nil, Bus.perform, ← hregs, show rest = st.pending from hpending.symm]
    rfl
  | cons w ws ih =>
    intro st rest b hpending hregs
    have hpending : st.pending = (w :: ws) :: rest := hpending
    rw [Bus.perform]
    cases hw : b.works 0 with
    | true =>
      let st' : Adapter := { st with
        regs := RegFile.write st.regs w, pending := afterWrite ws rest }
      obtain ⟨oks, hoks⟩ := ih st' rest (b.write w) rfl (congrArg (RegFile.write · w) hregs)
      refine ⟨true :: oks, ?_⟩
      have hstep : st.write true = some st' := by rw [Adapter.write, hpending]; rfl
      rw [List.foldlM_cons, hstep]
      exact hoks
    | false =>
      refine ⟨[false], ?_⟩
      have hstep : st.write false = some { st with pending := rest } := by
        rw [Adapter.write, hpending]
        rfl
      rw [List.foldlM_cons, hstep, if_neg Bool.false_ne_true, hregs]
      rfl

/-- **Register writes one at a time** end where the driver functions end, on a bus with any
faults. -/
theorem Adapter.writes_refine (hmode : dev.mode = .switch) :
    ∀ (ops : List (Fin netFdbMaxEntries × FdbOp)) (st : Adapter) (b : Bus),
      st.pending = opWrites ops → st.regs = b.regs →
      ∃ oks : List Bool, oks.foldlM Adapter.write st =
        some { st with regs := (execOps dev ops b).regs, pending := [] } := by
  intro ops
  induction ops with
  | nil =>
    intro st b hpending hregs
    refine ⟨[], ?_⟩
    rw [List.foldlM_nil, show (execOps dev [] b).regs = st.regs from hregs.symm,
      show ([] : List (List (ℕ × Word))) = st.pending from hpending.symm]
    rfl
  | cons op ops ih =>
    intro st b hpending hregs
    have hpending : st.pending = op.2.intended (fdbSlotIndex op.1) :: opWrites ops := hpending
    have hne : st.pending = afterWrite (op.2.intended (fdbSlotIndex op.1)) (opWrites ops) := by
      have hlen := op.2.intended_length (fdbSlotIndex op.1)
      rw [hpending]
      cases hws : op.2.intended (fdbSlotIndex op.1) with
      | nil => rw [hws] at hlen; simp at hlen
      | cons w ws => rfl
    obtain ⟨oks, hoks⟩ := writes_refine_group _ st (opWrites ops) b hne hregs
    have hexec := FdbOp.exec_eq_perform hmode op.1 op.2 b
    obtain ⟨oks', hoks'⟩ := ih { st with
      regs := (b.perform (op.2.intended (fdbSlotIndex op.1))).regs, pending := opWrites ops }
        (op.2.exec dev (fdbSlotIndex op.1) b) rfl (congrArg Bus.regs hexec.symm)
    refine ⟨oks ++ oks', ?_⟩
    rw [List.foldlM_append, hoks]
    exact hoks'

end Refinement

end Usb2T1L
