import Usb2T1L.Chain.Model

/-!
# Where frames come from

Whatever is lost and whichever register writes fail, a frame goes away from the adapter it was sent
by, one cable after the other, and so the port on which an adapter sees a station is the port that
leads to it.

## Main definitions

* `cell`, `Enters` — the adapters on one side of another, by distance.
* `Sound` — the invariant.

## Main results

* `Sound.move` — what every step keeps.
* `chain_sound` — **every table points to where its stations are**, no host gets a frame back that
  it has sent, or one that is for another.
-/

namespace Usb2T1L

/-! ### Sides -/

/-- The adapter at distance `d + 1` from adapter `i`, on the side where the frames of `i` enter on
port `p`. -/
def cell (p : Port) (i : ℤ) (d : ℕ) : ℤ :=
  match p with
  | .port1 => i + (d + 1)
  | .port2 => i - (d + 1)

/-- Frames of adapter `i` enter adapter `x` on port `p`. -/
def Enters (p : Port) (i x : ℤ) : Prop := ∃ d, x = cell p i d

theorem beyond_cell (p : Port) (i : ℤ) (d : ℕ) :
    p.opposite.beyond (cell p i d) = cell p i (d + 1) := by
  cases p <;> simp only [Port.opposite, Port.beyond, cell] <;> push_cast <;> ring

theorem beyond_origin (p : Port) (i : ℤ) : p.opposite.beyond i = cell p i 0 := by
  cases p <;> simp only [Port.opposite, Port.beyond, cell] <;> push_cast <;> ring

theorem cell_injective {p : Port} {i : ℤ} {d e : ℕ} (h : cell p i d = cell p i e) : d = e := by
  cases p <;> simp only [cell] at h <;> omega

theorem Enters.ne {p : Port} {i x : ℤ} (h : Enters p i x) : i ≠ x := by
  obtain ⟨d, rfl⟩ := h
  cases p <;> simp only [cell] <;> omega

/-- The two sides are apart. -/
theorem Enters.port_eq {p q : Port} {i x : ℤ} (hp : Enters p i x) (hq : Enters q i x) : p = q := by
  obtain ⟨d, rfl⟩ := hp
  obtain ⟨e, he⟩ := hq
  cases p <;> cases q <;> simp only [cell] at he ⊢ <;> omega

/-- Every other adapter is on one side. -/
theorem exists_enters {i x : ℤ} (h : i ≠ x) : ∃ p, Enters p i x := by
  rcases lt_or_gt_of_ne h with hlt | hgt
  · refine ⟨.port1, (x - i - 1).toNat, ?_⟩
    simp only [cell]
    omega
  · refine ⟨.port2, (i - x - 1).toNat, ?_⟩
    simp only [cell]
    omega

/-- What enters on one port leaves through the other. -/
theorem Enters.beyond {p : Port} {i x : ℤ} (h : Enters p i x) :
    Enters p i (p.opposite.beyond x) := by
  obtain ⟨d, rfl⟩ := h
  exact ⟨d + 1, beyond_cell p i d⟩

/-! ### The cables -/

theorem mem_cable {N : ℕ} {x : ℤ} {p : Port} {a b : Packet} {inbox : ℤ × Port → List Packet}
    {y : ℤ} {q : Port} (h : b ∈ cable N x p a inbox (y, q)) :
    b ∈ inbox (y, q) ∨ b = a ∧ InChain N y ∧ y = p.beyond x ∧ q = p.opposite := by
  unfold cable at h
  split at h
  · next hin =>
    rcases eq_or_ne (y, q) (p.beyond x, p.opposite) with heq | hne
    · obtain ⟨rfl, rfl⟩ := Prod.mk.inj heq
      rw [Function.update_self, List.mem_append, List.mem_singleton] at h
      exact h.imp_right fun hb => ⟨hb, hin, rfl, rfl⟩
    · rw [Function.update_of_ne hne] at h
      exact Or.inl h
  · exact Or.inl h

/-- What is left of a queue was there before. -/
theorem mem_update_tail {K : Type*} [DecidableEq K] {q : K → List Packet} {k k' : K} {a b : Packet}
    {rest : List Packet} (hq : q k = a :: rest) (h : b ∈ Function.update q k rest k') :
    b ∈ q k' := by
  rcases eq_or_ne k' k with rfl | hne
  · rw [Function.update_self] at h
    rw [hq]
    exact List.mem_cons_of_mem a h
  · rwa [Function.update_of_ne hne] at h

/-- What is in a queue after an item has been added. -/
theorem mem_update_snoc {K : Type*} [DecidableEq K] {q : K → List Packet} {k k' : K} {a b : Packet}
    (h : b ∈ Function.update q k (q k ++ [a]) k') : b ∈ q k' ∨ b = a ∧ k' = k := by
  rcases eq_or_ne k' k with rfl | hne
  · rw [Function.update_self, List.mem_append, List.mem_singleton] at h
    exact h.imp_right fun hb => ⟨hb, rfl⟩
  · rw [Function.update_of_ne hne] at h
    exact Or.inl h

/-! ### The invariant -/

section Soundness

variable (dev : Adin2111) (mac : ℤ → Mac) (N : ℕ)

/-- The frame is of a host of the chain, by its source address. -/
def Packet.Honest (a : Packet) : Prop := InChain N a.origin ∧ a.frame.src = mac a.origin

/-- The frame is for the host of adapter `x`. -/
def Packet.IsFor (a : Packet) (x : ℤ) : Prop :=
  macIsGroup a.frame.dst = true ∨ a.frame.dst = mac x

/-- The invariant of adapter `x`: its table points to where its stations are. -/
structure Adapter.Sound (x : ℤ) (st : Adapter) : Prop where
  sending : ∀ e ∈ st.sending, e.2.Honest mac N ∧ e.2.origin = x
  table : ∀ i, (st.fdb i).valid = true →
    ∃ j, InChain N j ∧ mac j = (st.fdb i).mac ∧ Enters (st.fdb i).port j x
  distinct : fdbTable.Distinct st.fdb
  regs : Isolating dev (mac x) st.regs
  pending : ∀ ws ∈ st.pending, ∀ w ∈ ws, FdbWrite w

/-- The invariant of the chain. -/
structure Chain.Sound (s : Chain) : Prop where
  adapter : ∀ x, (s.adapter x).Sound dev mac N x
  cable : ∀ x p, ∀ a ∈ s.inbox (x, p), a.Honest mac N ∧ InChain N x ∧ Enters p a.origin x
  fifo : ∀ x p, ∀ a ∈ s.rx (x, p), a.Honest mac N ∧ Enters p a.origin x ∧ a.IsFor mac x
  host : ∀ x, ∀ a ∈ s.got x, a.Honest mac N ∧ a.origin ≠ x ∧ a.IsFor mac x

variable {dev mac N}

/-! ### One adapter -/

namespace Adapter.Sound

variable {x : ℤ} {st : Adapter}

theorem opWrites_fdbWrite (ops : List (Fin netFdbMaxEntries × FdbOp)) :
    ∀ ws ∈ opWrites ops, ∀ w ∈ ws, FdbWrite w := by
  intro ws hws w hw
  obtain ⟨op, -, rfl⟩ := List.mem_map.mp hws
  exact fdbWrite_of_mem_intended hw

/-- Learning from a frame of adapter `j`, on the port it enters on. -/
theorem learn (h : st.Sound dev mac N x) {j : ℤ} (hj : InChain N j) {p : Port}
    (henters : Enters p j x) (now : Word) :
    (st.learn dev (mac x) now (mac j) p).Sound dev mac N x where
  sending := h.sending
  table := by
    intro i hi
    by_cases hel : Eligible (mac x) (mac j)
    · rcases netBridgeLearn_valid idleHal dev hel p (s := ⟨st.fdb, ()⟩) h.distinct hi with heq | heq
      · have heq : (st.learn dev (mac x) now (mac j) p).fdb i = ⟨mac j, p, true, now⟩ := heq
        rw [heq]
        exact ⟨j, hj, rfl, henters⟩
      · have hsame : (st.learn dev (mac x) now (mac j) p).fdb i = st.fdb i := heq.1
        rw [hsame]
        exact h.table i heq.2.1
    · have hsame : (st.learn dev (mac x) now (mac j) p).fdb = st.fdb := by
        rw [Adapter.learn, netBridgeLearn_of_not_eligible idleHal dev hel]
      rw [hsame] at hi ⊢
      exact h.table i hi
  distinct :=
    show fdbTable.Distinct ((BridgeOp.learn now (mac j) p).exec idleHal dev (mac x)
        ⟨st.fdb, ()⟩).fdb from
      BridgeOp.distinct_exec ⟨st.fdb, ()⟩ (.learn now (mac j) p) h.distinct
  regs := h.regs
  pending := opWrites_fdbWrite _

theorem sweep (h : st.Sound dev mac N x) (now : Word) : (st.sweep dev now).Sound dev mac N x where
  sending := h.sending
  table := by
    intro i hi
    have hsame : (st.sweep dev now).fdb i = st.fdb i := linkTaskSweep_fdb_of_valid i hi
    rw [hsame] at hi ⊢
    exact h.table i hi
  distinct := h.distinct.retire fun i hi => linkTaskSweep_fdb_of_valid i hi
  regs := h.regs
  pending := opWrites_fdbWrite _

theorem write (h : st.Sound dev mac N x) {w : ℕ × Word} {ws : List (ℕ × Word)}
    {rest : List (List (ℕ × Word))} (hpending : st.pending = (w :: ws) :: rest) (ok : Bool) :
    (if ok then { st with
        regs := RegFile.write st.regs w
        pending := Adapter.afterWrite ws rest }
      else { st with pending := rest } : Adapter).Sound dev mac N x := by
  have hp := h.pending
  rw [hpending, List.forall_mem_cons, List.forall_mem_cons] at hp
  obtain ⟨⟨hw, hws⟩, hrest⟩ := hp
  cases ok with
  | true =>
    refine ⟨h.sending, h.table, h.distinct, h.regs.write hw, ?_⟩
    show ∀ ws' ∈ Adapter.afterWrite ws rest, ∀ w ∈ ws', FdbWrite w
    cases ws with
    | nil => exact hrest
    | cons v ws => exact List.forall_mem_cons.mpr ⟨hws, hrest⟩
  | false => exact ⟨h.sending, h.table, h.distinct, h.regs, hrest⟩

theorem sends (h : st.Sound dev mac N x) {sending : List (Port × Packet)}
    (hs : ∀ e ∈ sending, e.2.Honest mac N ∧ e.2.origin = x) :
    ({ st with sending := sending } : Adapter).Sound dev mac N x :=
  ⟨hs, h.table, h.distinct, h.regs, h.pending⟩

end Adapter.Sound

/-! ### The chain -/

namespace Chain.Sound

variable {s : Chain}

/-- One adapter is replaced. -/
theorem withAdapter (h : s.Sound dev mac N) {x : ℤ} {st : Adapter} (hst : st.Sound dev mac N x) :
    (s.withAdapter x st).Sound dev mac N where
  adapter := by
    intro y
    show (Function.update s.adapter x st y).Sound dev mac N y
    rcases eq_or_ne y x with rfl | hne
    · rw [Function.update_self]
      exact hst
    · rw [Function.update_of_ne hne]
      exact h.adapter y
  cable := h.cable
  fifo := h.fifo
  host := h.host

/-- A frame put out by an adapter that sends it, or that it has entered on the other port. -/
theorem putOn (h : s.Sound dev mac N) {x : ℤ} {p : Port} {a : Packet}
    {inbox : ℤ × Port → List Packet}
    (hinbox : ∀ y q, ∀ b ∈ inbox (y, q), b ∈ s.inbox (y, q)) (ha : a.Honest mac N)
    (hx : a.origin = x ∨ Enters p.opposite a.origin x) :
    ({ s with inbox := Usb2T1L.cable N x p a inbox } : Chain).Sound dev mac N where
  adapter := h.adapter
  cable := by
    intro y q b hb
    rcases mem_cable hb with hb | ⟨rfl, hy, rfl, rfl⟩
    · exact h.cable y q b (hinbox y q b hb)
    · refine ⟨ha, hy, ?_⟩
      rcases hx with rfl | hx
      · refine ⟨0, ?_⟩
        rw [← beyond_origin, Port.opposite_opposite]
      · have hnext := hx.beyond
        rwa [Port.opposite_opposite] at hnext
  fifo := h.fifo
  host := h.host

/-- Cables and FIFOs that hold nothing new. -/
theorem shrink (h : s.Sound dev mac N) {inbox rx : ℤ × Port → List Packet}
    (hinbox : ∀ y q, ∀ b ∈ inbox (y, q), b ∈ s.inbox (y, q))
    (hrx : ∀ y q, ∀ b ∈ rx (y, q), b ∈ s.rx (y, q)) :
    ({ s with inbox := inbox, rx := rx } : Chain).Sound dev mac N where
  adapter := h.adapter
  cable := fun y q b hb => h.cable y q b (hinbox y q b hb)
  fifo := fun y q b hb => h.fifo y q b (hrx y q b hb)
  host := h.host

/-- A frame for the host is put into the FIFO of the port it enters on. -/
theorem queue (h : s.Sound dev mac N) {x : ℤ} {p : Port} {a : Packet} (ha : a.Honest mac N)
    (hp : Enters p a.origin x) (hfor : a.IsFor mac x) :
    ({ s with rx := Function.update s.rx (x, p) (s.rx (x, p) ++ [a]) } : Chain).Sound dev mac
      N where
  adapter := h.adapter
  cable := h.cable
  fifo := by
    intro y q b hb
    rcases mem_update_snoc hb with hb | ⟨rfl, hkey⟩
    · exact h.fifo y q b hb
    · obtain ⟨rfl, rfl⟩ := Prod.mk.inj hkey
      exact ⟨ha, hp, hfor⟩
  host := h.host

/-- **What the device sends to a host is for it**, whatever is being rewritten. -/
theorem isFor_of_toHost (h : s.Sound dev mac N) (hmode : dev.mode = .switch) {x : ℤ} {p : Port}
    {a : Packet} (hv : (deviceVerdict (s.adapter x).regs a.frame.dst p).toHost = true) :
    a.IsFor mac x := (((h.adapter x).regs.verdict hmode _ p).1).mp hv

/-- **Every step keeps the invariant.** -/
theorem move (h : s.Sound dev mac N) (hmode : dev.mode = .switch) {a : ChainAct} {s' : Chain}
    (hs : ChainMove dev mac N s a s') : s'.Sound dev mac N := by
  cases hs with
  | send x f hx hidle hsrc =>
    have hsending : ∀ e ∈ (netTxPorts dev.mode (s.adapter x).fdb f).map
        (fun p => (p, (⟨f, x⟩ : Packet))), e.2.Honest mac N ∧ e.2.origin = x := by
      intro e he
      obtain ⟨p, -, rfl⟩ := List.mem_map.mp he
      exact ⟨⟨hx, hsrc⟩, rfl⟩
    have hw := h.withAdapter ((h.adapter x).sends hsending)
    exact ⟨hw.adapter, hw.cable, hw.fifo, hw.host⟩
  | xmit x ok p a rest hsending =>
    have he := (h.adapter x).sending
    rw [hsending, List.forall_mem_cons] at he
    obtain ⟨⟨ha, horigin⟩, hrest⟩ := he
    have hw := h.withAdapter ((h.adapter x).sends hrest)
    cases ok with
    | false => exact hw
    | true => exact hw.putOn (fun _ _ _ hb => hb) ha (Or.inl horigin)
  | arrive x p room a rest hinbox =>
    obtain ⟨ha, -, henters⟩ := h.cable x p a (by rw [hinbox]; exact List.mem_cons_self)
    have htail : ∀ y q, ∀ b ∈ Function.update s.inbox (x, p) rest (y, q), b ∈ s.inbox (y, q) :=
      fun y q b hb => mem_update_tail hinbox hb
    -- first what goes on, then what goes to the host
    have hon : Sound dev mac N { s with
        inbox := if (deviceVerdict (s.adapter x).regs a.frame.dst p).toOtherPort then
            Usb2T1L.cable N x p.opposite a (Function.update s.inbox (x, p) rest)
          else Function.update s.inbox (x, p) rest } := by
      split
      · refine h.putOn htail ha (Or.inr ?_)
        rwa [Port.opposite_opposite]
      · exact h.shrink htail fun _ _ _ hb => hb
    show Sound dev mac N (s.enter N x p room a rest)
    rw [Chain.enter]
    by_cases hroom : ((deviceVerdict (s.adapter x).regs a.frame.dst p).toHost && room) = true
    · rw [if_pos hroom]
      exact hon.queue ha henters (h.isFor_of_toHost hmode (Bool.and_eq_true _ _ ▸ hroom).1)
    · rw [if_neg hroom]
      exact hon
  | lose x p a rest hinbox =>
    exact h.shrink (fun y q b hb => mem_update_tail hinbox hb) fun _ _ _ hb => hb
  | serve x p now a rest hrx hpending =>
    obtain ⟨ha, henters, hfor⟩ := h.fifo x p a (by rw [hrx]; exact List.mem_cons_self)
    have hst := (h.adapter x).learn ha.1 henters now
    rw [← ha.2] at hst
    have hw := h.withAdapter hst
    refine ⟨hw.adapter, hw.cable, fun y q b hb => h.fifo y q b (mem_update_tail hrx hb), ?_⟩
    intro y b hb
    rcases mem_update_snoc hb with hb | ⟨rfl, rfl⟩
    · exact h.host y b hb
    · exact ⟨ha, henters.ne, hfor⟩
  | flush x =>
    refine h.shrink (fun _ _ _ hb => hb) fun y q b hb => ?_
    rcases eq_or_ne (y, q) (x, .port2) with heq | hne
    · rw [heq, Function.update_self] at hb
      exact absurd hb List.not_mem_nil
    · rw [Function.update_of_ne hne] at hb
      rcases eq_or_ne (y, q) (x, .port1) with heq | hne'
      · rw [heq, Function.update_self] at hb
        exact absurd hb List.not_mem_nil
      · rwa [Function.update_of_ne hne'] at hb
  | sweep x now hx hpending => exact h.withAdapter ((h.adapter x).sweep now)
  | write x ok w ws rest hpending => exact h.withAdapter ((h.adapter x).write hpending ok)

end Chain.Sound

/-- A chain where nothing has been sent yet, with devices as the bring-up leaves them. -/
theorem quietChain_sound {regs : ℤ → ℕ → Word} (hregs : ∀ x, Isolating dev (mac x) (regs x)) :
    (quietChain regs).Sound dev mac N where
  adapter := fun x =>
    { sending := fun _ he => absurd he List.not_mem_nil
      table := fun _ hi => absurd hi Bool.false_ne_true
      distinct := distinct_of_all_invalid fun _ => rfl
      regs := hregs x
      pending := fun _ hws => absurd hws List.not_mem_nil }
  cable := fun _ _ _ ha => absurd ha List.not_mem_nil
  fifo := fun _ _ _ ha => absurd ha List.not_mem_nil
  host := fun _ _ ha => absurd ha List.not_mem_nil

theorem Chain.Sound.run (hmode : dev.mode = .switch) {s s' : Chain} {as : List ChainAct}
    (h : s.Sound dev mac N) (hrun : (chainSys dev mac N).run s as = some s') :
    s'.Sound dev mac N :=
  Lts.run_invariant (fun _ _ _ h _ hs => h.move hmode (chainMove_of_step hs)) h
    (Lts.along_true as _) hrun

/-! ### What follows for tables and ports -/

/-- No two adapters of the chain have one address. -/
def DistinctMacs (mac : ℤ → Mac) (N : ℕ) : Prop :=
  ∀ i j, InChain N i → InChain N j → mac i = mac j → i = j

/-- **A table that knows a station knows the port that leads to it.** -/
theorem Adapter.Sound.lookup {x : ℤ} {st : Adapter} (h : st.Sound dev mac N x)
    (hmac : DistinctMacs mac N) {j : ℤ} (hj : InChain N j) {p : Port}
    (hlookup : netBridgeFdbLookup st.fdb (mac j) = some p) : Enters p j x := by
  obtain ⟨i, hv, hm, hp⟩ := (Table.lookup_eq_some_iff h.distinct).mp hlookup
  obtain ⟨k, hk, hmk, henters⟩ := h.table i hv
  have hp : (st.fdb i).port = p := hp
  rw [hmac k j hk hj (hmk.trans hm), hp] at henters
  exact henters

/-- **A frame goes out on the port that leads to where it is to go**, if perhaps on the other as
well. -/
theorem Adapter.Sound.mem_ports {x : ℤ} {st : Adapter} (h : st.Sound dev mac N x)
    (hmac : DistinctMacs mac N) (hmode : dev.mode = .switch) {j : ℤ} (hj : InChain N j)
    {f : NetFrame} (hf : macIsGroup f.dst = true ∨ f.dst = mac j) {p : Port}
    (hp : Enters p j x) : p ∈ netTxPorts dev.mode st.fdb f := by
  have hboth : p ∈ [Port.port1, Port.port2] := by cases p <;> simp
  rw [hmode, netTxPorts]
  split
  · exact hboth
  · next q hq =>
    split_ifs at hq with hgroup
    · rw [hf.resolve_left hgroup] at hq
      rw [(h.lookup hmac hj hq).port_eq hp]
      exact List.mem_singleton_self p

/-- **Tables never mislead.**  In every run of a chain with different addresses, whatever is lost
and whichever register writes fail: what a table says of a station is the port that leads to it;
the ports chosen for a frame include the one that leads to its destination; and a host is handed
only frames that another host of the chain has sent, with the address of that host as the source,
and that are for a group or for itself. -/
theorem chain_sound (hmode : dev.mode = .switch) (hmac : DistinctMacs mac N)
    {regs : ℤ → ℕ → Word} (hregs : ∀ x, Isolating dev (mac x) (regs x)) {as : List ChainAct}
    {s : Chain} (hrun : (chainSys dev mac N).run (quietChain regs) as = some s) :
    (∀ x j p, InChain N j → netBridgeFdbLookup (s.adapter x).fdb (mac j) = some p →
      Enters p j x) ∧
    (∀ x j p (f : NetFrame), InChain N j → macIsGroup f.dst = true ∨ f.dst = mac j →
      Enters p j x → p ∈ netTxPorts dev.mode (s.adapter x).fdb f) ∧
    ∀ x, ∀ a ∈ s.got x, InChain N a.origin ∧ a.origin ≠ x ∧ a.frame.src = mac a.origin ∧
      (macIsGroup a.frame.dst = true ∨ a.frame.dst = mac x) := by
  have hs := (quietChain_sound (N := N) hregs).run hmode hrun
  refine ⟨fun x j p hj hp => (hs.adapter x).lookup hmac hj hp,
    fun x j p f hj hf hp => (hs.adapter x).mem_ports hmac hmode hj hf hp, fun x a ha => ?_⟩
  obtain ⟨⟨hin, hsrc⟩, hne, hfor⟩ := hs.host x a ha
  exact ⟨hin, hne, hsrc, hfor⟩

end Soundness

/-! ### Three adapters -/

/-- The addresses of three adapters. -/
def rowMac (x : ℤ) : Mac := if x = 0 then fun _ => 2 else if x = 1 then fun _ => 4 else fun _ => 6

theorem distinctMacs_rowMac : DistinctMacs rowMac 3 := by
  intro i j hi hj hij
  have hcases : ∀ k, InChain 3 k → k = 0 ∨ k = 1 ∨ k = 2 := by
    intro k hk
    unfold InChain at hk
    omega
  rcases hcases i hi with rfl | rfl | rfl <;> rcases hcases j hj with rfl | rfl | rfl
  any_goals rfl
  all_goals exact absurd hij (by decide)

/-- A frame of 60 bytes. -/
def frameOf (dst src : Byte) : NetFrame := ⟨60, 0, fun i => if i.val < 6 then dst else src⟩

/-- A frame of the first host to everybody. -/
def hello : Packet := ⟨frameOf 0xFF 2, 0⟩

/-- It is sent to both sides, -/
def helloSent : List ChainAct := [.send 0 hello.frame, .xmit 0 true, .xmit 0 true]

/-- enters the second adapter, and is handed on there. -/
def helloServed : List ChainAct := [.arrive 1 .port1 true, .serve 1 .port1 7]

theorem helloRun_got : ∃ s, (chainSys (twoPorts true .switch) rowMac 3).run
    (quietChain fun x => startRegs (rowMac x)) (helloSent ++ helloServed) = some s ∧
      s.got 1 = [hello] ∧ s.sent 0 = [hello] := by
  have hsrc : hello.frame.src = rowMac 0 := by decide
  have hgroup : macIsGroup hello.frame.dst = true := by decide
  have hsound : (quietChain fun x => startRegs (rowMac x)).Sound (twoPorts true .switch) rowMac 3 :=
    quietChain_sound fun x => startRegs_isolating (rowMac x)
  generalize (fun x => startRegs (rowMac x)) = regs at hsound ⊢
  obtain ⟨s, hrun, hinbox, hrx, hpending, hgot, hsent⟩ :
      ∃ s, (chainSys (twoPorts true .switch) rowMac 3).run (quietChain regs) helloSent = some s ∧
        s.inbox (1, .port1) = [hello] ∧ s.rx (1, .port1) = [] ∧ (s.adapter 1).pending = [] ∧
          s.got 1 = [] ∧ s.sent 0 = [hello] :=
    ⟨_, run_sendBoth (by decide) rfl rfl hsrc (by decide) rfl, rfl, rfl, rfl, rfl, rfl⟩
  have hhost : (deviceVerdict (s.adapter 1).regs hello.frame.dst .port1).toHost = true :=
    ((((hsound.run rfl hrun).adapter 1).regs.verdict rfl _ _).1).mpr (Or.inl hgroup)
  have hrx' : (s.enter 3 1 .port1 true hello []).rx (1, .port1) = [hello] := by
    rw [Chain.enter_rx hhost, Function.update_self, hrx]
    rfl
  have hgot' : ((s.enter 3 1 .port1 true hello []).handOn (twoPorts true .switch) rowMac 1 .port1 7
      hello []).got 1 = [hello] := by
    rw [Chain.handOn_got]
    show s.got 1 ++ [hello] = _
    rw [hgot]
    rfl
  exact ⟨_, Lts.run_append_eq_some _ hrun (Lts.run_cons_eq_some _ |>.mpr ⟨_,
    step_arrive hinbox true, Lts.run_cons_eq_some _ |>.mpr ⟨_,
      step_serve hrx' hpending (Or.inl rfl) 7, rfl⟩⟩), hgot', hsent⟩

/-- The second adapter is handed the frame of the first. -/
theorem chain_sound_hello : ∃ s, (chainSys (twoPorts true .switch) rowMac 3).run
    (quietChain fun x => startRegs (rowMac x)) (helloSent ++ helloServed) = some s ∧
      s.got 1 = [hello] ∧ ∀ a ∈ s.got 1, a.frame.src = rowMac a.origin := by
  obtain ⟨s, hrun, hgot, -⟩ := helloRun_got
  exact ⟨s, hrun, hgot, fun a ha => ((chain_sound rfl distinctMacs_rowMac
    (fun x => startRegs_isolating (rowMac x)) hrun).2.2 1 a ha).2.2.1⟩

end Usb2T1L
