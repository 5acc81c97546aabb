import Usb2T1L.Chain.Delivery

/-!
# The chain comes to rest

A frame that goes on gets closer to the end of the chain, a frame that is handed on costs at most
four register writes, and nothing waits for ever: once no more frames are sent, every order of steps
ends with nothing under way.

## Main definitions

* `Chain.load` — how many steps can still be taken.
* `Chain.AtRest` — nothing is under way and no register write is pending.

## Main results

* `load_move` — **every step lowers the load**.
* `exists_step` — **nothing waits for ever**.
* `chain_comes_to_rest` — **no broadcast storms, and no deadlock**.
-/

namespace Usb2T1L

/-! ### The load -/

/-- One term of a sum is replaced. -/
theorem sum_update_add {K β : Type*} [DecidableEq K] {F : Finset K} {k : K} (hk : k ∈ F)
    (m : K → β → ℕ) (f : K → β) (v : β) :
    ∑ k' ∈ F, m k' (Function.update f k v k') + m k (f k) = ∑ k' ∈ F, m k' (f k') + m k v := by
  rw [← Finset.add_sum_erase F _ hk, ← Finset.add_sum_erase F (fun k' => m k' (f k')) hk,
    Function.update_self]
  have hrest : ∑ k' ∈ F.erase k, m k' (Function.update f k v k') =
      ∑ k' ∈ F.erase k, m k' (f k') :=
    Finset.sum_congr rfl fun k' hk' => by rw [Function.update_of_ne (Finset.ne_of_mem_erase hk')]
  rw [hrest]
  ring

section Load

variable (N : ℕ)

/-- How many adapters a frame entering there can still enter. -/
def hops : ℤ × Port → ℕ
  | (x, .port1) => (N - x).toNat
  | (x, .port2) => (x + 1).toNat

/-- The ports of the adapters of the chain. -/
noncomputable def portsOf : Finset (ℤ × Port) := Finset.Ico 0 (N : ℤ) ×ˢ {Port.port1, Port.port2}

/-- What is still to be done by an adapter. -/
def Adapter.load (st : Adapter) : ℕ := (6 * N + 1) * st.sending.length + st.pending.flatten.length

/-- How many steps can still be taken: a frame on a cable can enter as many adapters as there are to
the end, and in each be handed on, which takes up to four register writes. -/
noncomputable def Chain.load (s : Chain) : ℕ :=
  ∑ k ∈ portsOf N, 6 * hops N k * (s.inbox k).length + ∑ k ∈ portsOf N, 5 * (s.rx k).length +
    ∑ x ∈ Finset.Ico 0 (N : ℤ), (s.adapter x).load N

/-- A step of the chain itself: nothing is sent, no table is scanned and no FIFO cleared. -/
def Draining : ChainAct → Prop
  | .send _ _ | .sweep _ _ | .flush _ => False
  | _ => True

variable {N} {x : ℤ} {p : Port}

theorem mem_portsOf : (x, p) ∈ portsOf N ↔ InChain N x := by
  rw [portsOf, Finset.mem_product, Finset.mem_Ico]
  cases p <;> simp [InChain]

theorem hops_le (hx : InChain N x) : hops N (x, p) ≤ N := by
  unfold InChain at hx
  cases p <;> simp only [hops] <;> omega

/-- A frame that goes on has one adapter less before it. -/
theorem hops_beyond (hx : InChain N x) :
    hops N (p.opposite.beyond x, p) + 1 = hops N (x, p) := by
  unfold InChain at hx
  cases p <;> simp only [hops, Port.opposite, Port.beyond] <;> omega

/-- A frame put out on a cable, if there is one. -/
theorem load_cable (a : Packet) (inbox : ℤ × Port → List Packet) {h : ℕ}
    (hh : InChain N (p.beyond x) → hops N (p.beyond x, p.opposite) ≤ h) :
    ∑ k ∈ portsOf N, 6 * hops N k * (cable N x p a inbox k).length ≤
      ∑ k ∈ portsOf N, 6 * hops N k * (inbox k).length + 6 * h := by
  unfold cable
  split
  · next hin =>
    have hmem : (p.beyond x, p.opposite) ∈ portsOf N := mem_portsOf.mpr hin
    have hsum := sum_update_add hmem (fun k (l : List Packet) => 6 * hops N k * l.length) inbox
      (inbox (p.beyond x, p.opposite) ++ [a])
    have hle := hh hin
    rw [List.length_append, List.length_singleton, Nat.mul_succ] at hsum
    omega
  · omega

/-- What is at the end of a queue, or taken from its start. -/
theorem load_rx_snoc {rx : ℤ × Port → List Packet} (hx : InChain N x) (a : Packet) :
    ∑ k ∈ portsOf N, 5 * (Function.update rx (x, p) (rx (x, p) ++ [a]) k).length =
      ∑ k ∈ portsOf N, 5 * (rx k).length + 5 := by
  have hmem : (x, p) ∈ portsOf N := mem_portsOf.mpr hx
  have hsum := sum_update_add hmem (fun _ (l : List Packet) => 5 * l.length) rx (rx (x, p) ++ [a])
  rw [List.length_append, List.length_singleton, Nat.mul_succ] at hsum
  omega

theorem load_tail {q : ℤ × Port → List Packet} (hx : InChain N x) (w : ℤ × Port → ℕ) {a : Packet}
    {rest : List Packet} (hq : q (x, p) = a :: rest) :
    ∑ k ∈ portsOf N, w k * (Function.update q (x, p) rest k).length + w (x, p) =
      ∑ k ∈ portsOf N, w k * (q k).length := by
  have hmem : (x, p) ∈ portsOf N := mem_portsOf.mpr hx
  have hsum := sum_update_add hmem (fun k (l : List Packet) => w k * l.length) q rest
  rw [hq, List.length_cons, Nat.mul_succ] at hsum
  omega

/-- A frame that enters has one adapter less before it. -/
theorem load_takeFirst {inbox : ℤ × Port → List Packet} (hx : InChain N x) (on : Bool) {a : Packet}
    {rest : List Packet} (hinbox : inbox (x, p) = a :: rest) :
    ∑ k ∈ portsOf N, 6 * hops N k * (takeFirst N x p on a rest inbox k).length + 6 ≤
      ∑ k ∈ portsOf N, 6 * hops N k * (inbox k).length := by
  have htail := load_tail hx (fun k => 6 * hops N k) hinbox
  have hbeyond := hops_beyond (p := p) hx
  unfold takeFirst
  split
  · have hnext : InChain N (p.opposite.beyond x) →
        hops N (p.opposite.beyond x, p.opposite.opposite) ≤ hops N (p.opposite.beyond x, p) :=
      fun _ => by rw [Port.opposite_opposite]
    have hcable := load_cable a (Function.update inbox (x, p) rest) hnext
    omega
  · omega

theorem load_adapter {s : Chain} (hx : InChain N x) (st : Adapter) :
    ∑ y ∈ Finset.Ico 0 (N : ℤ), (Function.update s.adapter x st y).load N +
        (s.adapter x).load N =
      ∑ y ∈ Finset.Ico 0 (N : ℤ), (s.adapter y).load N + st.load N :=
  sum_update_add (Finset.mem_Ico.mpr hx) (fun _ (st : Adapter) => st.load N) s.adapter st

end Load

/-! ### Inside the chain -/

/-- Only adapters of the chain have something to do. -/
structure Chain.Within (N : ℕ) (s : Chain) : Prop where
  fifo : ∀ x p, s.rx (x, p) ≠ [] → InChain N x
  pending : ∀ x, (s.adapter x).pending ≠ [] → InChain N x
  writes : ∀ x, ∀ ws ∈ (s.adapter x).pending, ws ≠ []

section Rest

variable {dev : Adin2111} {mac : ℤ → Mac} {N : ℕ} {s s' : Chain} {act : ChainAct}

theorem opWrites_ne_nil (ops : List (Fin netFdbMaxEntries × FdbOp)) :
    ∀ ws ∈ opWrites ops, ws ≠ [] := by
  intro ws hws hnil
  obtain ⟨op, -, rfl⟩ := List.mem_map.mp hws
  have hlen := op.2.intended_length (fdbSlotIndex op.1)
  rw [hnil] at hlen
  simp at hlen

/-- A learn takes at most one device update, of four writes. -/
theorem length_learnOps (sOwnMac : Mac) (fdb : Fdb) (now : Word) (src : Mac) (p : Port) :
    (opWrites (learnOps sOwnMac fdb now src p)).flatten.length ≤ 4 := by
  rw [learnOps]
  split
  · rw [opWrites, List.map_singleton, List.flatten_singleton, FdbOp.intended_length]
  · exact Nat.zero_le 4

/-- An adapter of the chain does something. -/
theorem Chain.Within.withAdapter (h : s.Within N) {x : ℤ} (hx : InChain N x) {st : Adapter}
    (hst : ∀ ws ∈ st.pending, ws ≠ []) : (s.withAdapter x st).Within N where
  fifo := h.fifo
  pending := by
    intro y hy
    rcases eq_or_ne y x with rfl | hne
    · exact hx
    · refine h.pending y ?_
      rwa [Chain.withAdapter_of_ne s x hne] at hy
  writes := by
    intro y ws hws
    rcases eq_or_ne y x with rfl | hne
    · rw [Chain.withAdapter_self] at hws
      exact hst ws hws
    · rw [Chain.withAdapter_of_ne s x hne] at hws
      exact h.writes y ws hws

/-- Frames are sent by adapters of the chain only. -/
theorem Chain.Sound.inChain_of_sending (hs : s.Sound dev mac N) {x : ℤ} {e : Port × Packet}
    (he : e ∈ (s.adapter x).sending) : InChain N x := by
  obtain ⟨⟨hin, -⟩, horigin⟩ := (hs.adapter x).sending e he
  exact horigin ▸ hin

theorem within_move (hs : s.Sound dev mac N) (h : s.Within N)
    (hmove : ChainMove dev mac N s act s') : s'.Within N := by
  cases hmove with
  | send x f hx hidle hsrc =>
    have hw : (s.withAdapter x { s.adapter x with
        sending := (netTxPorts dev.mode (s.adapter x).fdb f).map fun p => (p, ⟨f, x⟩) }).Within N :=
      h.withAdapter hx (h.writes x)
    exact ⟨hw.fifo, hw.pending, hw.writes⟩
  | xmit x ok p a rest hsending =>
    have hx : InChain N x :=
      hs.inChain_of_sending (by rw [hsending]; exact List.mem_cons_self)
    have hw : (s.withAdapter x { s.adapter x with sending := rest }).Within N :=
      h.withAdapter hx (h.writes x)
    exact ⟨hw.fifo, hw.pending, hw.writes⟩
  | arrive x p room a rest hinbox =>
    obtain ⟨-, hx, -⟩ := hs.cable x p a (by rw [hinbox]; exact List.mem_cons_self)
    refine ⟨fun y q hy => ?_, h.pending, h.writes⟩
    rcases eq_or_ne (y, q) (x, p) with heq | hne
    · obtain ⟨rfl, rfl⟩ := Prod.mk.inj heq
      exact hx
    · refine h.fifo y q fun hnil => hy ?_
      show (if _ then Function.update s.rx (x, p) _ else s.rx) (y, q) = []
      split
      · rw [Function.update_of_ne hne, hnil]
      · exact hnil
  | lose x p a rest hinbox => exact ⟨h.fifo, h.pending, h.writes⟩
  | serve x p now a rest hrx hpending =>
    have hx := h.fifo x p (by rw [hrx]; exact List.cons_ne_nil a rest)
    have hw : (s.withAdapter x ((s.adapter x).learn dev (mac x) now a.frame.src p)).Within N :=
      h.withAdapter hx (opWrites_ne_nil _)
    refine ⟨fun y q hy => ?_, hw.pending, hw.writes⟩
    rcases eq_or_ne (y, q) (x, p) with heq | hne
    · obtain ⟨rfl, rfl⟩ := Prod.mk.inj heq
      exact hx
    · refine h.fifo y q fun hnil => hy ?_
      show Function.update s.rx (x, p) rest (y, q) = []
      rw [Function.update_of_ne hne, hnil]
  | flush x =>
    refine ⟨fun y q hy => h.fifo y q fun hnil => hy ?_, h.pending, h.writes⟩
    show Function.update (Function.update s.rx (x, .port1) []) (x, .port2) [] (y, q) = []
    simp only [Function.update_apply]
    split_ifs
    · rfl
    · rfl
    · exact hnil
  | sweep x now hx hpending => exact h.withAdapter hx (opWrites_ne_nil _)
  | write x ok w ws rest hpending =>
    have hx := h.pending x (by rw [hpending]; exact List.cons_ne_nil _ rest)
    have hgroups := h.writes x
    rw [hpending, List.forall_mem_cons] at hgroups
    refine h.withAdapter hx ?_
    cases ok with
    | true =>
      show ∀ ws' ∈ Adapter.afterWrite ws rest, ws' ≠ []
      cases ws with
      | nil => exact hgroups.2
      | cons v ws => exact List.forall_mem_cons.mpr ⟨List.cons_ne_nil v ws, hgroups.2⟩
    | false => exact hgroups.2

/-- **Every step of the chain itself lowers the load.** -/
theorem load_move (hs : s.Sound dev mac N) (hw : s.Within N) (hdrain : Draining act)
    (hmove : ChainMove dev mac N s act s') : s'.load N + 1 ≤ s.load N := by
  cases hmove with
  | send => exact hdrain.elim
  | flush => exact hdrain.elim
  | sweep => exact hdrain.elim
  | xmit x ok p a rest hsending =>
    have hx : InChain N x :=
      hs.inChain_of_sending (by rw [hsending]; exact List.mem_cons_self)
    have hadapter := load_adapter (s := s) hx { s.adapter x with sending := rest }
    have hcable : ∑ k ∈ portsOf N, 6 * hops N k * ((s.putOut N x ok p a rest).inbox k).length ≤
        ∑ k ∈ portsOf N, 6 * hops N k * (s.inbox k).length + 6 * N := by
      show ∑ k ∈ portsOf N,
        6 * hops N k * ((if ok then cable N x p a s.inbox else s.inbox) k).length ≤ _
      split
      · exact load_cable a s.inbox fun hin => hops_le hin
      · omega
    have hst : (s.adapter x).load N =
        ({ s.adapter x with sending := rest } : Adapter).load N + (6 * N + 1) := by
      rw [Adapter.load, Adapter.load, hsending, List.length_cons]
      ring
    simp only [Chain.load]
    show _ + ∑ k ∈ portsOf N, 5 * (s.rx k).length + ∑ y ∈ Finset.Ico 0 (N : ℤ),
      (Function.update s.adapter x _ y).load N + 1 ≤ _
    omega
  | arrive x p room a rest hinbox =>
    obtain ⟨-, hx, -⟩ := hs.cable x p a (by rw [hinbox]; exact List.mem_cons_self)
    have hcables := load_takeFirst hx
      (deviceVerdict (s.adapter x).regs a.frame.dst p).toOtherPort hinbox
    have hfifo : ∑ k ∈ portsOf N, 5 * ((s.enter N x p room a rest).rx k).length ≤
        ∑ k ∈ portsOf N, 5 * (s.rx k).length + 5 := by
      have hrx : (s.enter N x p room a rest).rx =
          if (deviceVerdict (s.adapter x).regs a.frame.dst p).toHost && room then
            Function.update s.rx (x, p) (s.rx (x, p) ++ [a])
          else s.rx := rfl
      rw [hrx]
      split
      · exact (load_rx_snoc hx a).le
      · omega
    have hload : (s.enter N x p room a rest).load N = ∑ k ∈ portsOf N, 6 * hops N k *
        (takeFirst N x p (deviceVerdict (s.adapter x).regs a.frame.dst p).toOtherPort a rest
          s.inbox k).length + ∑ k ∈ portsOf N, 5 * ((s.enter N x p room a rest).rx k).length +
            ∑ y ∈ Finset.Ico 0 (N : ℤ), (s.adapter y).load N := rfl
    rw [hload, Chain.load]
    omega
  | lose x p a rest hinbox =>
    obtain ⟨-, hx, -⟩ := hs.cable x p a (by rw [hinbox]; exact List.mem_cons_self)
    have hcables := load_takeFirst hx false hinbox
    rw [takeFirst, if_neg Bool.false_ne_true] at hcables
    simp only [Chain.load]
    omega
  | serve x p now a rest hrx hpending =>
    have hx := hw.fifo x p (by rw [hrx]; exact List.cons_ne_nil a rest)
    have htail := load_tail hx (fun _ => 5) hrx
    have hadapter := load_adapter (s := s) hx ((s.adapter x).learn dev (mac x) now a.frame.src p)
    have hst : ((s.adapter x).learn dev (mac x) now a.frame.src p).load N ≤
        (s.adapter x).load N + 4 := by
      have hlen := length_learnOps (mac x) (s.adapter x).fdb now a.frame.src p
      rw [Adapter.load, Adapter.load, hpending]
      exact Nat.add_le_add (Nat.le_refl _) hlen
    have hload : (s.handOn dev mac x p now a rest).load N =
        ∑ k ∈ portsOf N, 6 * hops N k * (s.inbox k).length +
          ∑ k ∈ portsOf N, 5 * (Function.update s.rx (x, p) rest k).length +
            ∑ y ∈ Finset.Ico 0 (N : ℤ), (Function.update s.adapter x
              ((s.adapter x).learn dev (mac x) now a.frame.src p) y).load N := rfl
    rw [hload, Chain.load]
    omega
  | write x ok w ws rest hpending =>
    have hx := hw.pending x (by rw [hpending]; exact List.cons_ne_nil _ rest)
    let st : Adapter := if ok then { s.adapter x with
        regs := RegFile.write (s.adapter x).regs w
        pending := Adapter.afterWrite ws rest }
      else { s.adapter x with pending := rest }
    have hadapter := load_adapter (s := s) hx st
    have hst : st.load N + 1 ≤ (s.adapter x).load N := by
      have hrest : (Adapter.afterWrite ws rest).flatten.length =
          ws.length + rest.flatten.length := by
        cases ws with
        | nil => exact (Nat.zero_add _).symm
        | cons v ws => rw [Adapter.afterWrite, List.flatten_cons, List.length_append]
      rw [Adapter.load, Adapter.load, hpending, List.flatten_cons, List.length_append,
        List.length_cons]
      cases ok with
      | true =>
        show _ * (s.adapter x).sending.length + (Adapter.afterWrite ws rest).flatten.length + 1 ≤ _
        omega
      | false =>
        show _ * (s.adapter x).sending.length + rest.flatten.length + 1 ≤ _
        omega
    have hload : (s.withAdapter x st).load N =
        ∑ k ∈ portsOf N, 6 * hops N k * (s.inbox k).length +
          ∑ k ∈ portsOf N, 5 * (s.rx k).length +
            ∑ y ∈ Finset.Ico 0 (N : ℤ), (Function.update s.adapter x st y).load N := rfl
    rw [hload, Chain.load]
    omega

/-- Nothing is under way, and no register write is pending. -/
structure Chain.AtRest (s : Chain) : Prop extends s.Idle where
  pending : ∀ x, (s.adapter x).pending = []

/-- **Nothing waits for ever**: unless the chain is at rest, a step of its own is possible, and one
that loses nothing. -/
theorem exists_step (hw : s.Within N) (hrest : ¬s.AtRest) :
    ∃ act s', Draining act ∧ Careful act ∧ (chainSys dev mac N).step s act = some s' := by
  by_cases hpending : ∀ x, (s.adapter x).pending = []
  · by_cases hsending : ∀ x, (s.adapter x).sending = []
    · by_cases hinbox : ∀ k, s.inbox k = []
      · -- a FIFO has a frame, and port 1 comes first
        obtain ⟨⟨x, p⟩, hrx⟩ : ∃ k, s.rx k ≠ [] := by
          by_contra hnone
          rw [not_exists] at hnone
          exact hrest ⟨⟨hinbox, fun k => not_not.mp (hnone k), hsending⟩, hpending⟩
        obtain ⟨q, hq, hfirst⟩ : ∃ q, s.rx (x, q) ≠ [] ∧
            (q = .port1 ∨ s.rx (x, .port1) = []) := by
          by_cases h1 : s.rx (x, .port1) = []
          · exact ⟨p, hrx, Or.inr h1⟩
          · exact ⟨.port1, h1, Or.inl rfl⟩
        obtain ⟨a, rest, hcons⟩ := List.exists_cons_of_ne_nil hq
        exact ⟨.serve x q 0, _, trivial, trivial, step_serve hcons (hpending x) hfirst 0⟩
      · obtain ⟨⟨x, p⟩, hne⟩ := not_forall.mp hinbox
        obtain ⟨a, rest, hcons⟩ := List.exists_cons_of_ne_nil hne
        exact ⟨.arrive x p true, _, trivial, rfl, step_arrive hcons true⟩
    · obtain ⟨x, hne⟩ := not_forall.mp hsending
      obtain ⟨⟨p, a⟩, rest, hcons⟩ := List.exists_cons_of_ne_nil hne
      exact ⟨.xmit x true, _, trivial, rfl, step_xmit hcons (hpending x) true⟩
  · obtain ⟨x, hne⟩ := not_forall.mp hpending
    obtain ⟨ws, rest, hcons⟩ := List.exists_cons_of_ne_nil hne
    have hws := hw.writes x ws (by rw [hcons]; exact List.mem_cons_self)
    obtain ⟨w, ws, rfl⟩ := List.exists_cons_of_ne_nil hws
    have hwrite : ∃ st, (s.adapter x).write true = some st := by
      rw [Adapter.write, hcons]
      exact ⟨_, rfl⟩
    obtain ⟨st, hst⟩ := hwrite
    exact ⟨.write x true, s.withAdapter x st, trivial, trivial,
      congrArg (Option.map (s.withAdapter x)) hst⟩

theorem quietChain_within (regs : ℤ → ℕ → Word) : (quietChain regs).Within N where
  fifo := fun _ _ h => absurd rfl h
  pending := fun _ h => absurd rfl h
  writes := fun _ _ h => absurd h List.not_mem_nil

/-- Every step keeps the two invariants. -/
theorem sound_within_step (hmode : dev.mode = .switch)
    (h : s.Sound dev mac N ∧ s.Within N) (hstep : (chainSys dev mac N).step s act = some s') :
    s'.Sound dev mac N ∧ s'.Within N := by
  have hmove := chainMove_of_step hstep
  exact ⟨h.1.move hmode hmove, within_move h.1 h.2 hmove⟩

theorem sound_within_run (hmode : dev.mode = .switch) {regs : ℤ → ℕ → Word}
    (hregs : ∀ x, Isolating dev (mac x) (regs x)) {as : List ChainAct}
    (hrun : (chainSys dev mac N).run (quietChain regs) as = some s) :
    s.Sound dev mac N ∧ s.Within N :=
  Lts.run_invariant (fun _ _ _ h _ hstep => sound_within_step hmode h hstep)
    ⟨quietChain_sound hregs, quietChain_within regs⟩ (Lts.along_true as _) hrun

/-- **The chain comes to rest.**  From every state a run leads to, whatever has been lost in it:
steps of the chain itself, in any order, are at most as many as the load of that state says, so
that no frame goes round for ever; and as long as the chain is not at rest a further one is
possible. -/
theorem chain_comes_to_rest (hmode : dev.mode = .switch) {regs : ℤ → ℕ → Word}
    (hregs : ∀ x, Isolating dev (mac x) (regs x)) {as bs : List ChainAct} {t : Chain}
    (hrun : (chainSys dev mac N).run (quietChain regs) as = some s)
    (hbs : ∀ b ∈ bs, Draining b) (hrun' : (chainSys dev mac N).run s bs = some t) :
    bs.length + t.load N ≤ s.load N ∧
      (t.AtRest ∨ ∃ b t', Draining b ∧ Careful b ∧ (chainSys dev mac N).step t b = some t') := by
  have hlower : ∀ (s : Chain) (a : ChainAct) (s' : Chain), s.Sound dev mac N ∧ s.Within N →
      Draining a → (chainSys dev mac N).step s a = some s' → s'.load N + 1 ≤ s.load N :=
    fun s a s' h ha hstep => load_move h.1 h.2 ha (chainMove_of_step hstep)
  have ht := sound_within_run hmode hregs (Lts.run_append_eq_some _ hrun hrun')
  refine ⟨Lts.length_le_potential (fun _ _ _ h _ hstep => sound_within_step hmode h hstep) hlower
    (sound_within_run hmode hregs hrun) hbs hrun', ?_⟩
  by_cases hrest : t.AtRest
  · exact Or.inl hrest
  · exact Or.inr (exists_step ht.2 hrest)

/-- When the first has sent its frame, the second can be handed it. -/
theorem chain_comes_to_rest_hello : ∃ s t, (chainSys (twoPorts true .switch) rowMac 3).run
    (quietChain fun x => startRegs (rowMac x)) helloSent = some s ∧
      (chainSys (twoPorts true .switch) rowMac 3).run s helloServed = some t ∧
        t.got 1 = [hello] ∧ 2 + t.load 3 ≤ s.load 3 := by
  obtain ⟨t, hrun, hgot, -⟩ := helloRun_got
  obtain ⟨s, hrun, hrun'⟩ := (Lts.run_append_iff _).mp hrun
  exact ⟨s, t, hrun, hrun', hgot, (chain_comes_to_rest rfl (fun x => startRegs_isolating (rowMac x))
    hrun (by simp [helloServed, Draining]) hrun').1⟩

end Rest

end Usb2T1L
