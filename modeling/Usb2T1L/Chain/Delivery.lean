import Usb2T1L.Chain.Path

/-!
# Delivery along the chain

What a host is handed from another, over whole runs: under any losses and SPI faults, where no
frame for groups is lost, and where the adapters between the two hold the entry of the destination.

## Main definitions

* `Adapter.Tracks` — the registers hold the table, once the pending writes have been made.
* `Adapter.Knows` — the adapter knows a station, and its slot is not being rewritten.
* `Adapter.Holds` — the adapter knows a station, and its slot holds the entry.

## Main results

* `chain_in_order` — **no frame is delivered twice, and none overtakes another**, whatever is lost.
* `groups_reach_everybody` — **frames for groups reach every host exactly once**, whatever the
  tables say and whichever register writes fail.
* `known_station_reached` — **frames for a known station reach it exactly once**, where the slots
  on the way hold the entry; and when they do.
-/

namespace Usb2T1L

open RegFile

/-! ### Along a run -/

section Runs

variable {dev : Adin2111} {mac : ℤ → Mac} {N : ℕ} {P : Packet → Bool} {p : Port} {i : ℤ} {n : ℕ}

/-- Nothing is under way. -/
structure Chain.Idle (s : Chain) : Prop where
  cables : ∀ k, s.inbox k = []
  fifos : ∀ k, s.rx k = []
  sending : ∀ x, (s.adapter x).sending = []

/-- Nothing under way, nothing on the path but what has been handed on. -/
theorem Chain.Idle.path {s : Chain} (h : s.Idle) :
    s.path P p i n = (s.got (cell p i n)).filter P := by
  have hline : onCables P p i n s.inbox = [] :=
    Row.line_of_nil fun d _ => by rw [h.cables]; rfl
  rw [Chain.path, h.fifos, h.sending, hline, List.filter_nil, List.append_nil, List.append_nil]
  exact List.append_nil _

/-- **In every run** the path holds a part of what has been sent, in the same order. -/
theorem path_run_sublist (hmode : dev.mode = .switch) (hP : ∀ a, P a = true → a.origin = i)
    (hi : InChain N i) (hj : InChain N (cell p i n)) {regs : ℤ → ℕ → Word}
    (hregs : ∀ x, Isolating dev (mac x) (regs x)) {as : List ChainAct} {s : Chain}
    (hrun : (chainSys dev mac N).run (quietChain regs) as = some s) :
    (s.path P p i n).Sublist ((s.sent i).filter P) := by
  have hkeep : ∀ (s : Chain) (a : ChainAct) (s' : Chain),
      s.Sound dev mac N ∧ (s.path P p i n).Sublist ((s.sent i).filter P) → True →
        (chainSys dev mac N).step s a = some s' →
          s'.Sound dev mac N ∧ (s'.path P p i n).Sublist ((s'.sent i).filter P) := by
    intro s a s' ⟨hs, hsub⟩ _ hstep
    have hmove := chainMove_of_step hstep
    refine ⟨hs.move hmode hmove, (path_move hs hP hi hj hmove).1.trans ?_⟩
    rw [sent_move hP hmove]
    exact hsub.append_right _
  refine (Lts.run_invariant hkeep ⟨quietChain_sound hregs, ?_⟩ (Lts.along_true as _) hrun).2
  rw [Chain.Idle.path ⟨fun _ => rfl, fun _ => rfl, fun _ => rfl⟩]
  exact List.nil_sublist _

/-- **In a run that loses nothing and sends everything the right way** the path holds what has been
sent. -/
theorem path_run_eq (hmode : dev.mode = .switch) (hP : ∀ a, P a = true → a.origin = i)
    (hi : InChain N i) (hj : InChain N (cell p i n)) (Inv : Chain → Prop)
    {G : Chain → ChainAct → Chain → Prop}
    (hkeep : ∀ s a s', Inv s → s.Sound dev mac N → G s a s' → ChainMove dev mac N s a s' → Inv s')
    (hgood : ∀ s a s', Inv s → s.Sound dev mac N → G s a s' → ChainMove dev mac N s a s' →
      Spares P s a ∧ Routed dev P p i n s a)
    {regs : ℤ → ℕ → Word} (hregs : ∀ x, Isolating dev (mac x) (regs x)) (h0 : Inv (quietChain regs))
    {as : List ChainAct} {s : Chain} (hG : (chainSys dev mac N).Along G (quietChain regs) as)
    (hrun : (chainSys dev mac N).run (quietChain regs) as = some s) :
    s.path P p i n = (s.sent i).filter P := by
  have hstep : ∀ (s : Chain) (a : ChainAct) (s' : Chain),
      (Inv s ∧ s.Sound dev mac N) ∧ s.path P p i n = (s.sent i).filter P → G s a s' →
        (chainSys dev mac N).step s a = some s' →
          (Inv s' ∧ s'.Sound dev mac N) ∧ s'.path P p i n = (s'.sent i).filter P := by
    intro s a s' ⟨⟨hI, hs⟩, heq⟩ hg hstep
    have hmove := chainMove_of_step hstep
    refine ⟨⟨hkeep s a s' hI hs hg hmove, hs.move hmode hmove⟩, ?_⟩
    rw [(path_move hs hP hi hj hmove).2 (hgood s a s' hI hs hg hmove), heq, sent_move hP hmove]
  refine (Lts.run_invariant hstep ⟨⟨h0, quietChain_sound hregs⟩, ?_⟩ hG hrun).2
  rw [Chain.Idle.path ⟨fun _ => rfl, fun _ => rfl, fun _ => rfl⟩]
  rfl

/-- The frames of host `i`. -/
def ofHost (i : ℤ) (a : Packet) : Bool := decide (a.origin = i)

/-- The frames of host `i` for groups. -/
def groupsOf (i : ℤ) (a : Packet) : Bool := decide (a.origin = i) && macIsGroup a.frame.dst

/-- The frames of host `i` for host `j`. -/
def framesFor (mac : ℤ → Mac) (i j : ℤ) (a : Packet) : Bool :=
  decide (a.origin = i) && (macIsGroup a.frame.dst || decide (a.frame.dst = mac j))

theorem framesFor_iff {j : ℤ} {a : Packet} :
    framesFor mac i j a = true ↔ a.origin = i ∧ a.IsFor mac j := by
  simp [framesFor, Packet.IsFor]

theorem origin_of_framesFor {j : ℤ} : ∀ a, framesFor mac i j a = true → a.origin = i :=
  fun _ ha => (framesFor_iff.mp ha).1

/-- A host is handed only what is for it. -/
theorem Chain.Sound.got_filter {s : Chain} (hs : s.Sound dev mac N) (j : ℤ) :
    (s.got j).filter (framesFor mac i j) = (s.got j).filter (ofHost i) := by
  refine List.filter_congr fun a ha => ?_
  rw [Bool.eq_iff_iff, framesFor_iff, ofHost, decide_eq_true_iff]
  exact and_iff_left (hs.host j a ha).2.2

/-- **Frames arrive in order and at most once.**  In every run of the chain, whatever is lost,
whichever register writes fail and whatever the tables say: what a host is handed from another is a
part of what that one has sent for it, in the same order. -/
theorem chain_in_order (hmode : dev.mode = .switch) {regs : ℤ → ℕ → Word}
    (hregs : ∀ x, Isolating dev (mac x) (regs x)) {i j : ℤ} (hi : InChain N i) (hj : InChain N j)
    (hij : i ≠ j) {as : List ChainAct} {s : Chain}
    (hrun : (chainSys dev mac N).run (quietChain regs) as = some s) :
    ((s.got j).filter (ofHost i)).Sublist ((s.sent i).filter (framesFor mac i j)) := by
  obtain ⟨p, n, rfl⟩ := exists_enters hij
  have hpath : (s.path (framesFor mac i (cell p i n)) p i n).Sublist _ :=
    path_run_sublist hmode origin_of_framesFor hi hj hregs hrun
  rw [← ((quietChain_sound hregs).run hmode hrun).got_filter]
  refine List.Sublist.trans ?_ hpath
  rw [Chain.path, List.append_assoc, List.append_assoc]
  exact List.sublist_append_left _ _

/-- The second adapter has been handed the frame of the first, and nothing else of it. -/
theorem chain_in_order_hello : ∃ s, (chainSys (twoPorts true .switch) rowMac 3).run
    (quietChain fun x => startRegs (rowMac x)) (helloSent ++ helloServed) = some s ∧
      s.sent 0 = [hello] ∧ ((s.got 1).filter (ofHost 0)).Sublist [hello] := by
  obtain ⟨s, hrun, -, hsent⟩ := helloRun_got
  refine ⟨s, hrun, hsent, ?_⟩
  have hsub := chain_in_order (j := 1) rfl (fun x => startRegs_isolating (rowMac x)) (by decide)
    (by decide) (by decide : (0 : ℤ) ≠ 1) hrun
  rw [hsent] at hsub
  exact hsub.trans List.filter_sublist

/-- What has been handed on, if the path holds what has been sent. -/
theorem Chain.delivered {s : Chain} (h : s.path P p i n = (s.sent i).filter P) :
    (s.got (cell p i n)).filter P <+: (s.sent i).filter P ∧
      (s.Idle → (s.got (cell p i n)).filter P = (s.sent i).filter P) := by
  refine ⟨?_, fun hidle => hidle.path.symm.trans h⟩
  rw [← h, Chain.path, List.append_assoc, List.append_assoc]
  exact List.prefix_append _ _

/-- Groups are sent the right way by every adapter. -/
theorem routed_of_group (hmode : dev.mode = .switch) {s : Chain} (hs : s.Sound dev mac N)
    (hP : ∀ a, P a = true → macIsGroup a.frame.dst = true) (act : ChainAct) :
    Routed dev P p i n s act := by
  cases act with
  | send x f =>
    intro ha
    have hgroup : macIsGroup f.dst = true := hP _ ha
    rw [hmode, netTxPorts, hgroup, if_pos rfl]
    cases p <;> simp [Port.opposite]
  | arrive x q room =>
    intro a _ ha d _ _
    obtain ⟨hhost, hother⟩ := (hs.adapter x).regs.verdict hmode a.frame.dst q
    exact ⟨fun _ => hother (hP a ha), fun _ => hhost.mpr (Or.inl (hP a ha))⟩
  | xmit | lose | serve | flush | sweep | write => trivial

/-- **Frames for groups reach everybody.**  In every run that loses none of a host's frames for
groups, whatever else is lost, whatever the tables say and whichever register writes fail: every
other host has been handed those frames in order, each exactly once, up to those still under
way. -/
theorem groups_reach_everybody (hmode : dev.mode = .switch) {regs : ℤ → ℕ → Word}
    (hregs : ∀ x, Isolating dev (mac x) (regs x)) {i j : ℤ} (hi : InChain N i) (hj : InChain N j)
    (hij : i ≠ j) {as : List ChainAct} {s : Chain}
    (hspares : (chainSys dev mac N).Along (fun s a _ => Spares (groupsOf i) s a) (quietChain regs)
      as)
    (hrun : (chainSys dev mac N).run (quietChain regs) as = some s) :
    (s.got j).filter (groupsOf i) <+: (s.sent i).filter (groupsOf i) ∧
      (s.Idle → (s.got j).filter (groupsOf i) = (s.sent i).filter (groupsOf i)) := by
  obtain ⟨p, n, rfl⟩ := exists_enters hij
  have hP : ∀ a, groupsOf i a = true → a.origin = i ∧ macIsGroup a.frame.dst = true := by
    intro a ha
    rw [groupsOf, Bool.and_eq_true, decide_eq_true_iff] at ha
    exact ha
  refine Chain.delivered (path_run_eq hmode (fun a ha => (hP a ha).1) hi hj (fun _ => True)
    (fun _ _ _ _ _ _ _ => trivial) (fun s a s' _ hs hg _ => ⟨hg, ?_⟩) hregs trivial hspares hrun)
  exact routed_of_group hmode hs (fun a ha => (hP a ha).2) a

/-- A step that loses nothing. -/
def Careful : ChainAct → Prop
  | .xmit _ ok => ok = true
  | .arrive _ _ room => room = true
  | .lose _ _ => False
  | .flush _ => False
  | _ => True

theorem Careful.spares {s : Chain} {act : ChainAct} (h : Careful act) : Spares P s act := by
  cases act with
  | xmit x ok => exact fun _ _ => Or.inl h
  | arrive x q room => exact fun _ _ => Or.inl h
  | lose => exact h.elim
  | flush => exact h.elim
  | send | serve | sweep | write => trivial

/-- What the second adapter has been handed is what the first has sent. -/
theorem groups_reach_everybody_hello : ∃ s, (chainSys (twoPorts true .switch) rowMac 3).run
    (quietChain fun x => startRegs (rowMac x)) (helloSent ++ helloServed) = some s ∧
      s.got 1 = [hello] ∧ (s.got 1).filter (groupsOf 0) <+: (s.sent 0).filter (groupsOf 0) := by
  obtain ⟨s, hrun, hgot, -⟩ := helloRun_got
  have hcareful : ∀ act ∈ helloSent ++ helloServed, Careful act := by
    simp [helloSent, helloServed, Careful]
  exact ⟨s, hrun, hgot, (groups_reach_everybody rfl (fun x => startRegs_isolating (rowMac x))
    (by decide) (by decide) (by decide) (Lts.along_mono (fun _ _ _ h => h.spares)
      (Lts.along_of_forall_mem hcareful _)) hrun).1⟩

end Runs

/-! ### Known stations -/

section Known

variable {dev : Adin2111} {mac : ℤ → Mac} {N : ℕ}

/-- Once the pending writes have been made, the registers hold the table. -/
def Adapter.Tracks (base : ℕ → Word) (st : Adapter) : Prop :=
  ∃ b : Bus, b.regs = writes st.regs st.pending.flatten ∧ Synced base ⟨st.fdb, b⟩

/-- The adapter knows a station, and is not rewriting the slot of it. -/
def Adapter.Knows (st : Adapter) (m : Mac) : Prop :=
  ∃ k, (st.fdb k).valid = true ∧ (st.fdb k).mac = m ∧
    ∀ ws ∈ st.pending, ∀ w ∈ ws, w.1 ∉ slotRegs (fdbSlotIndex k)

/-- The adapter has an entry for a station, and the slot of it holds what `adin2111_fdb_set`
writes. -/
def Adapter.Holds (st : Adapter) (m : Mac) : Prop :=
  ∃ k, (st.fdb k).valid = true ∧ (st.fdb k).mac = m ∧
    slotAt st.regs (fdbSlotIndex k) = fdbSlot m (st.fdb k).port

/-- On a bus that works, device updates made in one go are all their writes. -/
theorem execOps_regs (hmode : dev.mode = .switch) :
    ∀ (ops : List (Fin netFdbMaxEntries × FdbOp)) {b : Bus}, b.Works →
      (execOps dev ops b).regs = writes b.regs (opWrites ops).flatten := by
  intro ops
  induction ops with
  | nil => intro b _; rfl
  | cons op ops ih =>
    intro b hb
    have hop : (op.2.exec dev (fdbSlotIndex op.1) b).regs =
        writes b.regs (op.2.intended (fdbSlotIndex op.1)) := by
      rw [FdbOp.exec_eq_perform hmode, hb.perform_regs]
    have hwrites : (opWrites (op :: ops)).flatten =
        op.2.intended (fdbSlotIndex op.1) ++ (opWrites ops).flatten := rfl
    rw [hwrites, writes_append, ← hop]
    exact ih (FdbOp.works_exec hmode op.2 hb)

namespace Adapter.Tracks

variable {base : ℕ → Word} {st : Adapter} {sOwnMac : Mac}

theorem learn (hmode : dev.mode = .switch) (h : st.Tracks base) (hidle : st.pending = [])
    (now : Word) (src : Mac) (p : Port) : (st.learn dev sOwnMac now src p).Tracks base := by
  obtain ⟨b, hregs, hs⟩ := h
  rw [hidle] at hregs
  have hs' : Synced base (netBridgeLearn (busHal dev) dev sOwnMac now src p ⟨st.fdb, b⟩) :=
    hs.learn hmode now src p
  rw [learn_refines] at hs'
  refine ⟨_, ?_, hs'⟩
  rw [execOps_regs hmode _ hs.works, hregs]
  rfl

theorem sweep (hmode : dev.mode = .switch) (h : st.Tracks base) (hidle : st.pending = [])
    (now : Word) : (st.sweep dev now).Tracks base := by
  obtain ⟨b, hregs, hs⟩ := h
  rw [hidle] at hregs
  have hs' : Synced base (linkTaskSweep (busHal dev) dev now ⟨st.fdb, b⟩) :=
    show Synced base ((BridgeOp.sweep now).exec (busHal dev) dev (fun _ => 0) ⟨st.fdb, b⟩) from
      hs.exec hmode (.sweep now)
  rw [sweep_refines] at hs'
  refine ⟨_, ?_, hs'⟩
  rw [execOps_regs hmode _ hs.works, hregs]
  rfl

/-- A register write that is made. -/
theorem write (h : st.Tracks base) {w : ℕ × Word} {ws : List (ℕ × Word)}
    {rest : List (List (ℕ × Word))} (hpending : st.pending = (w :: ws) :: rest) :
    ({ st with
      regs := RegFile.write st.regs w
      pending := Adapter.afterWrite ws rest } : Adapter).Tracks base := by
  obtain ⟨b, hregs, hs⟩ := h
  refine ⟨b, ?_, hs⟩
  have hrest : (Adapter.afterWrite ws rest).flatten = ws ++ rest.flatten := by
    cases ws <;> rfl
  rw [hregs, hpending]
  show writes st.regs (w :: (ws ++ rest.flatten)) =
    writes (RegFile.write st.regs w) (Adapter.afterWrite ws rest).flatten
  rw [hrest, writes_cons]

end Adapter.Tracks

/-- **Where no write has failed, the slot of a known station holds its entry**, unless it is being
rewritten. -/
theorem Adapter.Knows.holds {st : Adapter} {base : ℕ → Word} (ht : st.Tracks base) {m : Mac}
    (hk : st.Knows m) : st.Holds m := by
  obtain ⟨k, hv, hm, hquiet⟩ := hk
  obtain ⟨b, hregs, hsync⟩ := ht
  have hslot : slotAt b.regs (fdbSlotIndex k) = fdbSlot m (st.fdb k).port := by
    have hcoherent := (hsync.coherent k).1 hv
    rwa [hm] at hcoherent
  -- the writes still to be made are not to that slot
  have hsame : slotAt b.regs (fdbSlotIndex k) = slotAt st.regs (fdbSlotIndex k) := by
    refine slotAt_congr fun r hr => ?_
    rw [hregs]
    refine writes_of_notMem _ fun hmem => ?_
    obtain ⟨w, hw, rfl⟩ := List.mem_map.mp hmem
    obtain ⟨ws, hws, hw⟩ := List.mem_flatten.mp hw
    exact hquiet ws hws w hw hr
  exact ⟨k, hv, hm, hsame.symm.trans hslot⟩

/-- **An adapter that holds the entry of a station passes its frames on**, from the side away from
it, whatever is in the other slots. -/
theorem Adapter.Holds.relays (hmode : dev.mode = .switch) (hmac : DistinctMacs mac N) {x j : ℤ}
    {st : Adapter} (hs : st.Sound dev mac N x) (hj : InChain N j) (hh : st.Holds (mac j)) {p : Port}
    (henters : Enters p.opposite j x) : (deviceVerdict st.regs (mac j) p).toOtherPort = true := by
  obtain ⟨k, hv, hm, hslot⟩ := hh
  -- the entry has the port that leads to the station
  have hport : (st.fdb k).port = p.opposite := by
    obtain ⟨i, hi, hmi, hi'⟩ := hs.table k hv
    rw [hmac i j hi hj (hmi.trans hm)] at hi'
    exact hi'.port_eq henters
  refine (hs.regs.toForwards.toOtherPort_iff hmode).mpr (Or.inr ⟨k, ?_⟩)
  rw [hslot, hport, fdbSlot_relays, Port.opposite_opposite]
  exact ⟨rfl, rfl⟩

/-- Adapter `x` is between the other two. -/
def Between (i x j : ℤ) : Prop := i < x ∧ x < j ∨ j < x ∧ x < i

instance (i x j : ℤ) : Decidable (Between i x j) := inferInstanceAs (Decidable (_ ∨ _))

/-- A frame of host `i` that host `j` alone is to get finds, at an adapter on the way, the entry of
`j` in its slot. -/
def Guided (mac : ℤ → Mac) (i j : ℤ) (s : Chain) : ChainAct → Prop
  | .arrive x q _ => ∀ a ∈ (s.inbox (x, q)).head?, a.origin = i → a.frame.dst = mac j →
      Between i x j → (s.adapter x).Holds (mac j)
  | _ => True

/-- The register writes of adapter `x` succeed. -/
def WritesMade (x : ℤ) : ChainAct → Prop
  | .write y ok => y = x → ok = true
  | _ => True

theorem between_cell {p : Port} {i : ℤ} {d n : ℕ} (hd : d < n) :
    Between i (cell p i d) (cell p i n) := by
  unfold Between
  cases p <;> simp only [cell] <;> omega

/-- The two hosts are on different sides of an adapter between them. -/
theorem enters_back {p : Port} {i : ℤ} {d n : ℕ} (hd : d < n) :
    Enters p.opposite (cell p i n) (cell p i d) := by
  refine ⟨n - d - 1, ?_⟩
  cases p <;> simp only [cell, Port.opposite] <;> omega

theorem enters_origin (p : Port) (i : ℤ) (n : ℕ) : Enters p.opposite (cell p i n) i := by
  refine ⟨n, ?_⟩
  cases p <;> simp only [cell, Port.opposite] <;> omega

/-- Where the writes are made, the registers follow the table. -/
theorem tracks_move (hmode : dev.mode = .switch) {y : ℤ} {base : ℕ → Word} {s s' : Chain}
    {act : ChainAct} (ht : (s.adapter y).Tracks base) (hw : WritesMade y act)
    (hmove : ChainMove dev mac N s act s') : (s'.adapter y).Tracks base := by
  have hwith : ∀ (x : ℤ) (st : Adapter), (x = y → st.Tracks base) →
      (Function.update s.adapter x st y).Tracks base := by
    intro x st hst
    rcases eq_or_ne y x with rfl | hne
    · rw [Function.update_self]
      exact hst rfl
    · rw [Function.update_of_ne hne]
      exact ht
  cases hmove with
  | send x f hx hidle hsrc => exact hwith x _ fun hxy => hxy ▸ ht
  | xmit x ok p a rest hsending => exact hwith x _ fun hxy => hxy ▸ ht
  | arrive x p room a rest hinbox => exact ht
  | lose x p a rest hinbox => exact ht
  | serve x p now a rest hrx hpending =>
    refine hwith x _ ?_
    rintro rfl
    exact ht.learn hmode hpending now a.frame.src p
  | flush x => exact ht
  | sweep x now hx hpending =>
    refine hwith x _ ?_
    rintro rfl
    exact ht.sweep hmode hpending now
  | write x ok w ws rest hpending =>
    refine hwith x _ ?_
    rintro rfl
    rw [hw rfl, if_pos rfl]
    exact ht.write hpending

theorem tracks_run (hmode : dev.mode = .switch) {x : ℤ} {regs : ℤ → ℕ → Word}
    (hinactive : ∀ i, (slotAt (regs x) (fdbSlotIndex i)).active = false) {as : List ChainAct}
    {s : Chain} (hw : ∀ a ∈ as, WritesMade x a)
    (hrun : (chainSys dev mac N).run (quietChain regs) as = some s) :
    (s.adapter x).Tracks (regs x) := by
  have hkeep : ∀ (s : Chain) (a : ChainAct) (s' : Chain), (s.adapter x).Tracks (regs x) →
      WritesMade x a → (chainSys dev mac N).step s a = some s' →
        (s'.adapter x).Tracks (regs x) :=
    fun _ _ _ ht hw hs => tracks_move hmode ht hw (chainMove_of_step hs)
  have h0 : ((quietChain regs).adapter x).Tracks (regs x) :=
    ⟨⟨regs x, fun _ => true, []⟩, rfl, synced_empty hinactive fun _ => rfl⟩
  exact Lts.run_invariant hkeep h0 (Lts.along_of_forall_mem hw _) hrun

/-- Frames for a station that the adapters on the way hold are sent the right way. -/
theorem routed_of_guided (hmode : dev.mode = .switch) (hmac : DistinctMacs mac N) {p : Port} {i : ℤ}
    {n : ℕ} (hj : InChain N (cell p i n)) {s : Chain} (hs : s.Sound dev mac N) {act : ChainAct}
    (hg : Guided mac i (cell p i n) s act) :
    Routed dev (framesFor mac i (cell p i n)) p i n s act := by
  cases act with
  | send x f =>
    intro ha
    obtain ⟨rfl, hfor⟩ := framesFor_iff.mp ha
    exact (hs.adapter x).mem_ports hmac hmode hj hfor (enters_origin p x n)
  | arrive x q room =>
    rintro a hhead ha d rfl rfl
    obtain ⟨horigin, hfor⟩ := framesFor_iff.mp ha
    obtain ⟨hhost, hother⟩ := (hs.adapter (cell q i d)).regs.verdict hmode a.frame.dst q
    refine ⟨fun hd => ?_, fun hd => hhost.mpr (hd ▸ hfor)⟩
    rcases hfor with hgroup | hdst
    · exact hother hgroup
    · rw [hdst]
      exact (hg a hhead horigin hdst (between_cell hd)).relays hmode hmac (hs.adapter _) hj
        (enters_back hd)
  | xmit | lose | serve | flush | sweep | write => trivial

end Known

/-! ### A station makes itself known -/

section Learning

variable {dev : Adin2111} {mac : ℤ → Mac} {N : ℕ} {x : ℤ}

/-- A task that has the lock makes its register writes. -/
theorem run_writes : ∀ (ws : List (ℕ × Word)) (s : Chain),
    (s.adapter x).pending = Adapter.afterWrite ws [] →
      (chainSys dev mac N).run s (List.replicate ws.length (.write x true)) =
        some (s.withAdapter x { s.adapter x with
          regs := writes (s.adapter x).regs ws
          pending := [] }) := by
  intro ws
  induction ws with
  | nil =>
    intro s hpending
    have hsame : s.withAdapter x { s.adapter x with
        regs := writes (s.adapter x).regs []
        pending := [] } = s := by
      have hst : ({ s.adapter x with
          regs := writes (s.adapter x).regs []
          pending := [] } : Adapter) = s.adapter x := by
        rw [show ([] : List (List (ℕ × Word))) = (s.adapter x).pending from hpending.symm]
        rfl
      rw [hst, Chain.withAdapter, Function.update_eq_self]
    rw [hsame]
    rfl
  | cons w ws ih =>
    intro s hpending
    have hpending : (s.adapter x).pending = (w :: ws) :: [] := hpending
    let s' := s.withAdapter x { s.adapter x with
      regs := RegFile.write (s.adapter x).regs w
      pending := Adapter.afterWrite ws [] }
    have hstep : (chainSys dev mac N).step s (.write x true) = some s' := by
      show ((s.adapter x).write true).map (s.withAdapter x) = _
      rw [Adapter.write, hpending]
      rfl
    have hself : s'.adapter x = { s.adapter x with
      regs := RegFile.write (s.adapter x).regs w
      pending := Adapter.afterWrite ws [] } := Function.update_self x _ _
    have hrest := ih s' (by rw [hself])
    rw [List.length_cons, List.replicate_succ]
    refine (Lts.run_cons_eq_some _).mpr ⟨s', hstep, hrest.trans ?_⟩
    rw [hself]
    show some { s' with adapter := Function.update (Function.update s.adapter x _) x _ } = _
    rw [Function.update_idem]
    rfl

/-- What learning a new station does. -/
theorem Adapter.learn_of_new {st : Adapter} {sOwnMac : Mac} {now : Word} {src : Mac} {p : Port}
    (hel : Eligible sOwnMac src) (hnew : netBridgeFdbLookup st.fdb src ≠ some p) :
    st.learn dev sOwnMac now src p =
      { st with
        fdb := Function.update st.fdb (learnSlot st.fdb now src) ⟨src, p, true, now⟩
        pending := [(FdbOp.set src p).intended (fdbSlotIndex (learnSlot st.fdb now src))] } := by
  rw [Adapter.learn, learnOps, if_pos ⟨hel, hnew⟩, netBridgeLearn_fdb idleHal dev hel]
  rfl

/-- **A frame that is served makes its sender known**, if it is a new one, once the writes have been
made. -/
theorem serve_makes_known {s : Chain} {p : Port} {a : Packet} {rest : List Packet}
    (hrx : s.rx (x, p) = a :: rest) (hlock : (s.adapter x).pending = [])
    (hfirst : p = .port1 ∨ s.rx (x, .port1) = []) (hel : Eligible (mac x) a.frame.src)
    (hnew : netBridgeFdbLookup (s.adapter x).fdb a.frame.src ≠ some p) (now : Word) :
    ∃ s', (chainSys dev mac N).run s (.serve x p now :: List.replicate 4 (.write x true)) =
        some s' ∧
      ((s'.adapter x).Knows a.frame.src ∧ (s'.adapter x).pending = []) ∧
      (∀ y, y ≠ x → s'.adapter y = s.adapter y) ∧ s'.inbox = s.inbox ∧
      s'.rx = Function.update s.rx (x, p) rest ∧ s'.got = Function.update s.got x (s.got x ++ [a]) ∧
      s'.sent = s.sent := by
  let u := s.handOn dev mac x p now a rest
  let k := learnSlot (s.adapter x).fdb now a.frame.src
  have hu : u.adapter x =
      { s.adapter x with
        fdb := Function.update (s.adapter x).fdb k ⟨a.frame.src, p, true, now⟩
        pending := [(FdbOp.set a.frame.src p).intended (fdbSlotIndex k)] } :=
    (Function.update_self x _ _).trans (Adapter.learn_of_new hel hnew)
  have hwrites : (chainSys dev mac N).run u (List.replicate 4 (.write x true)) = some _ :=
    run_writes ((FdbOp.set a.frame.src p).intended (fdbSlotIndex k)) u (by rw [hu]; rfl)
  refine ⟨_, (Lts.run_cons_eq_some _).mpr ⟨u, step_serve hrx hlock hfirst now, hwrites⟩, ?_, ?_⟩
  · rw [Chain.withAdapter, hu]
    dsimp only
    rw [Function.update_self]
    refine ⟨⟨k, ?_⟩, rfl⟩
    dsimp only
    rw [Function.update_self]
    exact ⟨rfl, rfl, fun _ h => absurd h List.not_mem_nil⟩
  · refine ⟨fun y hy => ?_, rfl, rfl, rfl, rfl⟩
    exact (Function.update_of_ne hy _ _).trans (Function.update_of_ne hy _ _)

/-- A step that loses nothing and is not the arrival of a frame between the two adapters. -/
def Plain (i j : ℤ) : ChainAct → Prop
  | .arrive x _ room => room = true ∧ ¬Between i x j
  | act => Careful act

theorem Plain.good {P : Packet → Bool} {i j : ℤ} {s : Chain} {act : ChainAct} (h : Plain i j act) :
    Spares P s act ∧ Guided mac i j s act := by
  cases act with
  | arrive x q room => exact ⟨Careful.spares h.1, fun _ _ _ _ hb => absurd hb h.2⟩
  | send | xmit | lose | serve | flush | sweep | write => exact ⟨Careful.spares h, trivial⟩

/-- The third adapter makes itself known, -/
def answer : Packet := ⟨frameOf 0xFF 6, 2⟩

/-- by a frame for everybody, -/
def answerSent : List ChainAct := [.send 2 answer.frame, .xmit 2 true, .xmit 2 true]

/-- to the second, which makes its entry. -/
def answerServed : List ChainAct := .serve 1 .port2 7 :: List.replicate 4 (.write 1 true)

/-- Then a frame of the first is for it, -/
def request : Packet := ⟨frameOf 6 2, 0⟩

/-- goes out on both sides, -/
def requestSent : List ChainAct := [.send 0 request.frame, .xmit 0 true, .xmit 0 true]

/-- passes the second, and is handed on. -/
def requestServed : List ChainAct := [.arrive 2 .port1 true, .serve 2 .port1 8]

/-- All of it. -/
def transit : List ChainAct :=
  (answerSent ++ .arrive 1 .port2 true :: answerServed) ++
    (requestSent ++ .arrive 1 .port1 true :: requestServed)

/-- The steps that are not arrivals on the way. -/
theorem plain_transit : ∀ act ∈ answerSent ++ answerServed ++ requestSent ++ requestServed,
    Plain 0 2 act := by
  simp [answerSent, answerServed, requestSent, requestServed, Plain, Careful, Between]

/-- The steps of the run meet the conditions. -/
def Good (s : Chain) (a : ChainAct) (_ : Chain) : Prop :=
  Spares (framesFor rowMac 0 2) s a ∧ Guided rowMac 0 2 s a

theorem along_plain {as : List ChainAct} (h : ∀ a ∈ as, Plain 0 2 a) (s : Chain) :
    (chainSys dev mac N).Along Good s as :=
  Lts.along_mono (fun _ _ _ ha => Plain.good ha) (Lts.along_of_forall_mem h s)

theorem answerRun : ∃ s, (chainSys (twoPorts true .switch) rowMac 3).run
    (quietChain fun x => startRegs (rowMac x)) (answerSent ++ .arrive 1 .port2 true ::
      answerServed) = some s ∧
    (chainSys (twoPorts true .switch) rowMac 3).Along Good
      (quietChain fun x => startRegs (rowMac x)) (answerSent ++ .arrive 1 .port2 true ::
        answerServed) ∧
      (s.adapter 1).Knows (rowMac 2) ∧
      s.adapter 0 = (quietChain fun x => startRegs (rowMac x)).adapter 0 ∧
      (s.adapter 2).pending = [] ∧
      s.inbox (1, .port1) = [] ∧ s.inbox (2, .port1) = [] ∧ s.rx (2, .port1) = [] ∧
      s.got 2 = [] ∧ s.sent 0 = [] := by
  have hsrc : answer.frame.src = rowMac 2 := by decide
  have hgroup : macIsGroup answer.frame.dst = true := by decide
  have hsound : (quietChain fun x => startRegs (rowMac x)).Sound (twoPorts true .switch) rowMac 3 :=
    quietChain_sound fun x => startRegs_isolating (rowMac x)
  generalize (fun x => startRegs (rowMac x)) = regs at hsound ⊢
  -- the frame is on its way,
  obtain ⟨s, hrun, hin2, hin1, hin, hrx2, hrx1, hrx, h1, hlock, h0, h2, hgot, hsent⟩ :
      ∃ s, (chainSys (twoPorts true .switch) rowMac 3).run (quietChain regs) answerSent = some s ∧
        s.inbox (1, .port2) = [answer] ∧ s.inbox (1, .port1) = [] ∧ s.inbox (2, .port1) = [] ∧
        s.rx (1, .port2) = [] ∧ s.rx (1, .port1) = [] ∧ s.rx (2, .port1) = [] ∧
        (s.adapter 1).fdb = emptyFdb ∧ (s.adapter 1).pending = [] ∧
        s.adapter 0 = (quietChain regs).adapter 0 ∧ (s.adapter 2).pending = [] ∧ s.got 2 = [] ∧
        s.sent 0 = [] :=
    ⟨_, run_sendBoth (by decide) rfl rfl hsrc (by decide) rfl, rfl, rfl, rfl, rfl, rfl, rfl, rfl,
      rfl, rfl, rfl, rfl, rfl⟩
  have hhost : (deviceVerdict (s.adapter 1).regs answer.frame.dst .port2).toHost = true :=
    ((((hsound.run rfl hrun).adapter 1).regs.verdict rfl _ _).1).mpr (Or.inl hgroup)
  -- enters,
  let t := s.enter 3 1 .port2 true answer []
  have ht2 : t.rx (1, .port2) = [answer] := by
    rw [Chain.enter_rx hhost, Function.update_self, hrx2]
    rfl
  have htrx : ∀ x, t.rx (x, .port1) = s.rx (x, .port1) := fun x => by
    rw [Chain.enter_rx hhost]
    exact Function.update_of_ne (by simp) _ _
  have htin : ∀ x, t.inbox (x, .port1) = s.inbox (x, .port1) :=
    fun x => takeFirst_of_port_ne (by decide) _ x
  have hnew : netBridgeFdbLookup (t.adapter 1).fdb answer.frame.src ≠ some .port2 := by
    show netBridgeFdbLookup (s.adapter 1).fdb answer.frame.src ≠ _
    rw [h1]
    decide
  -- and is served
  have harrive : (chainSys (twoPorts true .switch) rowMac 3).step s (.arrive 1 .port2 true) =
      some t := step_arrive hin2 true
  obtain ⟨r, hserve, ⟨hknows, -⟩, hother, hinbox, hrx', hgot', hsent'⟩ :
      ∃ r, (chainSys (twoPorts true .switch) rowMac 3).run t answerServed = some r ∧ _ :=
    serve_makes_known ht2 hlock (Or.inr ((htrx 1).trans hrx1)) (by decide) hnew 7
  refine ⟨r, Lts.run_append_eq_some _ hrun ((Lts.run_cons_eq_some _).mpr ⟨t, harrive, hserve⟩),
    Lts.along_append (along_plain (fun a ha => plain_transit a (by simp [ha])) _) ?_,
    hsrc ▸ hknows, ?_, ?_, ?_, ?_, ?_, ?_, ?_⟩
  · intro s' hs' t' ht'
    obtain rfl := Option.some.inj (hrun.symm.trans hs')
    refine ⟨⟨Careful.spares rfl, fun a ha horigin _ _ => ?_⟩,
      along_plain (fun a ha => plain_transit a (by simp [ha])) _⟩
    -- the frame is not one of the first host
    rw [hin2, List.head?_cons, Option.mem_some_iff] at ha
    exact absurd (ha ▸ horigin) (by decide)
  · rw [hother 0 (by decide)]
    exact h0
  · rw [hother 2 (by decide)]
    exact h2
  · rw [hinbox, htin, hin1]
  · rw [hinbox, htin, hin]
  · rw [hrx', Function.update_of_ne (by simp), htrx, hrx]
  · rw [hgot', Function.update_of_ne (by decide)]
    exact hgot
  · rw [hsent']
    exact hsent

theorem transitRun : ∃ s, (chainSys (twoPorts true .switch) rowMac 3).run
    (quietChain fun x => startRegs (rowMac x)) transit = some s ∧
    (chainSys (twoPorts true .switch) rowMac 3).Along Good
      (quietChain fun x => startRegs (rowMac x)) transit ∧
      s.got 2 = [request] ∧ s.sent 0 = [request] := by
  obtain ⟨s, hrun, hgood, hknows, h0, h2, hin1, hin2, hrx, hgot, hsent⟩ := answerRun
  have hsrc : request.frame.src = rowMac 0 := by decide
  have hsound : (quietChain fun x => startRegs (rowMac x)).Sound (twoPorts true .switch) rowMac 3 :=
    quietChain_sound fun x => startRegs_isolating (rowMac x)
  have hmade : ∀ a ∈ answerSent ++ .arrive 1 .port2 true :: answerServed, WritesMade 1 a := by
    simp [answerSent, answerServed, WritesMade]
  have hholds : (s.adapter 1).Holds (rowMac 2) := by
    refine hknows.holds (tracks_run rfl ?_ hmade hrun)
    exact startRegs_inactive (rowMac 1)
  generalize (fun x => startRegs (rowMac x)) = regs at hsound hrun hgood h0 ⊢
  -- the frame is sent to both sides,
  obtain ⟨t, hsend, hin1', hin2', hrx', hadapter, hgot', hsent'⟩ :
      ∃ t, (chainSys (twoPorts true .switch) rowMac 3).run s requestSent = some t ∧
        t.inbox (1, .port1) = s.inbox (1, .port1) ++ [request] ∧
        t.inbox (2, .port1) = s.inbox (2, .port1) ∧ t.rx = s.rx ∧
        t.adapter = s.adapter ∧ t.got = s.got ∧
        t.sent 0 = s.sent 0 ++ [request] := by
    have hports : netTxPorts (twoPorts true .switch).mode (s.adapter 0).fdb request.frame =
        [.port1, .port2] := by
      rw [h0]
      rfl
    exact ⟨_, run_sendBoth (by decide) (by rw [h0]; rfl) (by rw [h0]; rfl) hsrc (by decide) hports,
      rfl, rfl, rfl, rfl, rfl, rfl⟩
  -- enters the second adapter, and goes on,
  rw [hin1] at hin1'
  have hon : (deviceVerdict (t.adapter 1).regs request.frame.dst .port1).toOtherPort = true := by
    rw [hadapter]
    exact hholds.relays rfl distinctMacs_rowMac ((hsound.run rfl hrun).adapter 1) (by decide)
      ⟨0, rfl⟩
  let u := t.enter 3 1 .port1 true request []
  have hin3 : u.inbox (2, .port1) = [request] := by
    rw [Chain.enter_inbox hon]
    show t.inbox (2, .port1) ++ [request] = _
    rw [hin2', hin2]
    rfl
  have harrive : (chainSys (twoPorts true .switch) rowMac 3).step t (.arrive 1 .port1 true) =
      some u := step_arrive hin1' true
  have hmove : ChainMove (twoPorts true .switch) rowMac 3 t (.arrive 1 .port1 true) u :=
    chainMove_of_step harrive
  have hsound' : u.Sound (twoPorts true .switch) rowMac 3 :=
    ((hsound.run rfl hrun).run rfl hsend).move rfl hmove
  have hhost : (deviceVerdict (u.adapter 2).regs request.frame.dst .port1).toHost = true :=
    (((hsound'.adapter 2).regs.verdict rfl _ _).1).mpr (Or.inr (by decide))
  -- and enters the third
  have hrx3 : (u.enter 3 2 .port1 true request []).rx (2, .port1) = [request] := by
    have hurx : u.rx (2, .port1) = s.rx (2, .port1) := by
      show (if _ && true then Function.update t.rx (1, .port1) _ else t.rx) (2, .port1) = _
      rw [← hrx']
      split
      · exact Function.update_of_ne (by decide) _ _
      · rfl
    rw [Chain.enter_rx hhost, Function.update_self, hurx, hrx]
    rfl
  have hlock : ((u.enter 3 2 .port1 true request []).adapter 2).pending = [] := by
    show (t.adapter 2).pending = []
    rw [hadapter, h2]
  refine ⟨_, Lts.run_append_eq_some _ hrun (Lts.run_append_eq_some _ hsend
    ((Lts.run_cons_eq_some _).mpr ⟨u, harrive, (Lts.run_cons_eq_some _).mpr ⟨_,
      step_arrive hin3 true, (Lts.run_cons_eq_some _).mpr ⟨_, step_serve hrx3 hlock (Or.inl rfl) 8,
        rfl⟩⟩⟩)), ?_, ?_, ?_⟩
  · refine Lts.along_append hgood fun s' hs' => ?_
    obtain rfl := Option.some.inj (hrun.symm.trans hs')
    refine Lts.along_append (along_plain (fun a ha => plain_transit a (by simp [ha])) _) ?_
    intro t' ht' u' _
    obtain rfl := Option.some.inj (hsend.symm.trans ht')
    refine ⟨⟨Careful.spares rfl, fun a _ _ _ _ => ?_⟩,
      along_plain (fun a ha => plain_transit a (by simp [ha])) _⟩
    rw [hadapter]
    exact hholds
  · rw [Chain.handOn_got]
    show t.got 2 ++ [request] = _
    rw [hgot', hgot]
    rfl
  · show t.sent 0 = _
    rw [hsent', hsent]
    rfl

/-- **Frames for a known station reach it.**  In every run that loses none of the frames of a host
for another, and where the adapters on the way hold the entry of the other one when its frames come
by: it has been handed all of them in order, each exactly once, up to those still under way.  An
adapter holds the entry of every station it knows if the reset leaves its slots inactive and its
register writes have all succeeded, but for a slot that is being rewritten. -/
theorem known_station_reached (hmode : dev.mode = .switch) (hmac : DistinctMacs mac N)
    {regs : ℤ → ℕ → Word} (hregs : ∀ x, Isolating dev (mac x) (regs x)) {i j : ℤ}
    (hi : InChain N i) (hj : InChain N j) (hij : i ≠ j) {as : List ChainAct} {s : Chain}
    (hrun : (chainSys dev mac N).run (quietChain regs) as = some s) :
    ((chainSys dev mac N).Along
        (fun s a _ => Spares (framesFor mac i j) s a ∧ Guided mac i j s a) (quietChain regs) as →
      (s.got j).filter (ofHost i) <+: (s.sent i).filter (framesFor mac i j) ∧
        (s.Idle → (s.got j).filter (ofHost i) = (s.sent i).filter (framesFor mac i j))) ∧
    ∀ x, (∀ k, (slotAt (regs x) (fdbSlotIndex k)).active = false) → (∀ a ∈ as, WritesMade x a) →
      ∀ m, (s.adapter x).Knows m → (s.adapter x).Holds m := by
  refine ⟨fun hgood => ?_, fun x hinactive hmade m hk =>
    hk.holds (tracks_run hmode hinactive hmade hrun)⟩
  rw [← ((quietChain_sound hregs).run hmode hrun).got_filter]
  obtain ⟨p, n, rfl⟩ := exists_enters hij
  exact Chain.delivered (path_run_eq hmode origin_of_framesFor hi hj (fun _ => True)
    (fun _ _ _ _ _ _ _ => trivial)
    (fun s a s' _ hs hg _ => ⟨hg.1, routed_of_guided hmode hmac hj hs hg.2⟩) hregs trivial hgood
    hrun)

/-- The third adapter is handed the frame of the first, and the second holds the entry of it. -/
theorem known_station_reached_transit : ∃ s, (chainSys (twoPorts true .switch) rowMac 3).run
    (quietChain fun x => startRegs (rowMac x)) transit = some s ∧ s.got 2 = [request] ∧
      (s.got 2).filter (ofHost 0) <+: (s.sent 0).filter (framesFor rowMac 0 2) ∧
        ((s.adapter 1).Knows (rowMac 2) → (s.adapter 1).Holds (rowMac 2)) := by
  obtain ⟨s, hrun, hgood, hgot, -⟩ := transitRun
  have hmade : ∀ a ∈ transit, WritesMade 1 a := by
    simp [transit, answerSent, answerServed, requestSent, requestServed, WritesMade]
  obtain ⟨hreached, hholds⟩ := known_station_reached rfl distinctMacs_rowMac
    (fun x => startRegs_isolating (rowMac x)) (by decide : InChain 3 0) (by decide : InChain 3 2)
    (by decide) hrun
  exact ⟨s, hrun, hgot, (hreached hgood).1,
    hholds 1 (startRegs_inactive (rowMac 1)) hmade (rowMac 2)⟩

end Learning

end Usb2T1L
