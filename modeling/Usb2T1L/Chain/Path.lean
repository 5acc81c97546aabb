import Usb2T1L.Chain.Direction
import Usb2T1L.Lib.Row

/-!
# The path between two hosts

Frames of one host on their way to another: they have been handed on, or are in the FIFO there, on
the cables between the two, or still to be put out.  Read in this order, oldest first, they keep
their order, and none of them goes missing unless it is lost or sent the wrong way.

## Main definitions

* `Chain.path` — the frames of a kind between a host and another, oldest first.
* `Spares`, `Routed` — a step loses none of them; it sends them the right way.

## Main results

* `path_move` — **what one step does to the path**.
-/

namespace Usb2T1L

/-! ### Cables and kinds of frames -/

section Cable

variable {P : Packet → Bool} {N : ℕ} {x : ℤ} {p : Port} {a : Packet}
  {inbox : ℤ × Port → List Packet}

theorem cable_of_ne {k : ℤ × Port} (hk : k ≠ (p.beyond x, p.opposite)) :
    cable N x p a inbox k = inbox k := by
  unfold cable
  split
  · exact Function.update_of_ne hk _ _
  · rfl

theorem cable_self (hin : InChain N (p.beyond x)) :
    cable N x p a inbox (p.beyond x, p.opposite) = inbox (p.beyond x, p.opposite) ++ [a] := by
  rw [cable, if_pos hin, Function.update_self]

/-- A frame of another kind does not matter. -/
theorem filter_cable_of_not (ha : P a = false) (k : ℤ × Port) :
    (cable N x p a inbox k).filter P = (inbox k).filter P := by
  unfold cable
  split
  · rcases eq_or_ne k (p.beyond x, p.opposite) with rfl | hne
    · rw [Function.update_self, List.filter_append, List.filter_singleton, ha]
      simp
    · rw [Function.update_of_ne hne]
  · rfl

theorem filter_tail_of_not {K : Type*} [DecidableEq K] {q : K → List Packet} {k : K}
    {rest : List Packet} (hq : q k = a :: rest) (ha : P a = false) (k' : K) :
    (Function.update q k rest k').filter P = (q k').filter P := by
  rcases eq_or_ne k' k with rfl | hne
  · rw [Function.update_self, hq, List.filter_cons, ha]
    simp
  · rw [Function.update_of_ne hne]

theorem filter_snoc_of_not {K : Type*} [DecidableEq K] {q : K → List Packet} {k : K}
    (ha : P a = false) (k' : K) :
    (Function.update q k (q k ++ [a]) k').filter P = (q k').filter P := by
  rcases eq_or_ne k' k with rfl | hne
  · rw [Function.update_self, List.filter_append, List.filter_singleton, ha]
    simp
  · rw [Function.update_of_ne hne]

/-- The cables after the first frame on one has entered, and perhaps gone on. -/
def takeFirst (N : ℕ) (x : ℤ) (p : Port) (on : Bool) (a : Packet) (rest : List Packet)
    (inbox : ℤ × Port → List Packet) : ℤ × Port → List Packet :=
  if on then cable N x p.opposite a (Function.update inbox (x, p) rest)
  else Function.update inbox (x, p) rest

theorem filter_takeFirst_of_not {rest : List Packet} (hinbox : inbox (x, p) = a :: rest)
    (ha : P a = false) (on : Bool) (k : ℤ × Port) :
    (takeFirst N x p on a rest inbox k).filter P = (inbox k).filter P := by
  unfold takeFirst
  split
  · rw [filter_cable_of_not ha, filter_tail_of_not hinbox ha]
  · exact filter_tail_of_not hinbox ha k

/-- Only cables that carry frames the same way are concerned. -/
theorem takeFirst_of_port_ne {rest : List Packet} {q : Port} (hq : q ≠ p) (on : Bool) (y : ℤ) :
    takeFirst N x p on a rest inbox (y, q) = inbox (y, q) := by
  have hne : ∀ z, (y, q) ≠ (z, p) := fun z h => hq (congrArg Prod.snd h)
  unfold takeFirst
  split
  · rw [cable_of_ne (by rw [Port.opposite_opposite]; exact hne _), Function.update_of_ne (hne x)]
  · exact Function.update_of_ne (hne x) _ _

end Cable

/-! ### The path -/

section Path

variable (P : Packet → Bool) (p : Port) (i : ℤ) (n : ℕ)

/-- The frames of a kind on the cables from adapter `i` to the adapter at distance `n + 1`. -/
def onCables (inbox : ℤ × Port → List Packet) : List Packet :=
  Row.line (fun d => (inbox (cell p i d, p)).filter P) (n + 1)

/-- What is still to be put out, on the side of the path. -/
def toPutOut (sending : List (Port × Packet)) : List Packet :=
  ((sending.filter fun e => e.1 = p.opposite).map Prod.snd).filter P

/-- The frames of a kind from host `i` to the host at distance `n + 1`, oldest first. -/
def Chain.path (s : Chain) : List Packet :=
  (s.got (cell p i n)).filter P ++ (s.rx (cell p i n, p)).filter P ++ onCables P p i n s.inbox ++
    toPutOut P p (s.adapter i).sending

variable {P p i n} {N : ℕ} {inbox inbox' : ℤ × Port → List Packet} {a : Packet}

theorem onCables_congr
    (h : ∀ d ≤ n, (inbox' (cell p i d, p)).filter P = (inbox (cell p i d, p)).filter P) :
    onCables P p i n inbox' = onCables P p i n inbox :=
  Row.line_congr fun d hd => h d (Nat.lt_succ_iff.mp hd)

/-- A frame put out on the side of the path is the last on the cables. -/
theorem onCables_cable (hin : InChain N (cell p i 0)) (ha : P a = true) :
    onCables P p i n (cable N i p.opposite a inbox) = onCables P p i n inbox ++ [a] := by
  have hkey : (cell p i 0, p) = (p.opposite.beyond i, p.opposite.opposite) := by
    rw [beyond_origin, Port.opposite_opposite]
  refine Row.line_enter (Nat.succ_pos n) ?_ fun d hd => ?_
  · rw [hkey, cable_self (by rw [beyond_origin]; exact hin), List.filter_append,
      List.filter_singleton, ha, cond_true]
  · rw [cable_of_ne]
    rw [← hkey]
    exact fun h => hd (cell_injective (congrArg Prod.fst h))

/-- A frame put out on the other side is not on the path. -/
theorem onCables_cable_other : onCables P p i n (cable N i p a inbox) = onCables P p i n inbox := by
  refine onCables_congr fun d _ => ?_
  rw [cable_of_ne fun h => ?_]
  have hport : p = p.opposite := congrArg Prod.snd h
  cases p <;> exact absurd hport (by decide)

section TakeFirst

variable {d : ℕ} {rest : List Packet} (hinbox : inbox (cell p i d, p) = a :: rest)
  (ha : P a = true) (on : Bool)
include hinbox ha

/-- The cable the frame was on. -/
theorem filter_takeFirst_self :
    (inbox (cell p i d, p)).filter P =
      a :: (takeFirst N (cell p i d) p on a rest inbox (cell p i d, p)).filter P := by
  have hself : takeFirst N (cell p i d) p on a rest inbox (cell p i d, p) = rest := by
    unfold takeFirst
    split
    · rw [cable_of_ne, Function.update_self]
      rw [beyond_cell, Port.opposite_opposite]
      intro h
      have hd := cell_injective (congrArg Prod.fst h)
      omega
    · exact Function.update_self _ _ _
  rw [hself, hinbox, List.filter_cons, if_pos ha]

omit hinbox ha in
/-- The cables it is not concerned with. -/
theorem takeFirst_of_ne {e : ℕ} (hd : e ≠ d) (hon : e = d + 1 → on = false) :
    takeFirst N (cell p i d) p on a rest inbox (cell p i e, p) = inbox (cell p i e, p) := by
  have hne : (cell p i e, p) ≠ (cell p i d, p) := fun h => hd (cell_injective (congrArg Prod.fst h))
  unfold takeFirst
  split
  · next htrue =>
    rw [cable_of_ne, Function.update_of_ne hne]
    rw [beyond_cell, Port.opposite_opposite]
    intro h
    rw [hon (cell_injective (congrArg Prod.fst h))] at htrue
    exact Bool.false_ne_true htrue
  · exact Function.update_of_ne hne _ _

omit hinbox in
/-- The cable it goes on to. -/
theorem filter_takeFirst_next (hin : InChain N (cell p i (d + 1))) :
    (takeFirst N (cell p i d) p true a rest inbox (cell p i (d + 1), p)).filter P =
      (inbox (cell p i (d + 1), p)).filter P ++ [a] := by
  have hkey : (cell p i (d + 1), p) =
      (p.opposite.beyond (cell p i d), p.opposite.opposite) := by
    rw [beyond_cell, Port.opposite_opposite]
  have hne : (cell p i (d + 1), p) ≠ (cell p i d, p) := by
    intro h
    have hd := cell_injective (congrArg Prod.fst h)
    omega
  rw [takeFirst, if_pos rfl, hkey, cable_self (by rw [beyond_cell]; exact hin), ← hkey,
    Function.update_of_ne hne, List.filter_append, List.filter_singleton, ha, cond_true]

omit hinbox ha in
/-- Behind the end of the path nothing is concerned. -/
theorem onCables_takeFirst_beyond (hd : n < d) :
    onCables P p i n (takeFirst N (cell p i d) p on a rest inbox) = onCables P p i n inbox :=
  onCables_congr fun e he => by
    rw [takeFirst_of_ne on (by omega) (by omega)]

/-- At the end the oldest frame leaves the cables. -/
theorem onCables_takeFirst_end (hd : d = n) : onCables P p i n inbox =
    a :: onCables P p i n (takeFirst N (cell p i d) p on a rest inbox) := by
  subst hd
  exact Row.line_leave (filter_takeFirst_self hinbox ha on) fun e he => by
    rw [takeFirst_of_ne on (by omega) (by omega)]

/-- Before the end a frame that goes on stays on the path, -/
theorem onCables_takeFirst_on (hd : d < n) (hin : InChain N (cell p i (d + 1))) :
    onCables P p i n (takeFirst N (cell p i d) p true a rest inbox) = onCables P p i n inbox := by
  refine Row.line_move (k := d) (filter_takeFirst_self hinbox ha true)
    (filter_takeFirst_next ha hin) (fun e hne hne' => ?_) (by omega)
  rw [takeFirst_of_ne true hne (fun h => absurd h hne')]

/-- and one that does not is lost. -/
theorem onCables_takeFirst_off :
    (onCables P p i n (takeFirst N (cell p i d) p false a rest inbox)).Sublist
      (onCables P p i n inbox) := by
  refine Row.line_lose (k := d) (filter_takeFirst_self hinbox ha false) fun e hne => ?_
  rw [takeFirst_of_ne false hne fun _ => rfl]

end TakeFirst

end Path

/-! ### What a step does to the path -/

section Move

variable {dev : Adin2111} {mac : ℤ → Mac} {N : ℕ} {P : Packet → Bool} {p : Port} {i : ℤ} {n : ℕ}
  {s : Chain} {x : ℤ} {q : Port} {a : Packet} {rest : List Packet}

/-- Nothing is new or in another order, and under `E` nothing is missing. -/
def Keeps (E : Prop) (l l' : List Packet) : Prop := l'.Sublist l ∧ (E → l' = l)

theorem Keeps.of_eq {E : Prop} {l l' : List Packet} (h : l' = l) : Keeps E l l' :=
  ⟨h ▸ List.Sublist.refl _, fun _ => h⟩

theorem Keeps.append_nil {E : Prop} {l l' : List Packet} (h : Keeps E l l') :
    Keeps E (l ++ []) l' := by rwa [List.append_nil]

theorem Chain.path_congr {s' : Chain}
    (hgot : (s'.got (cell p i n)).filter P = (s.got (cell p i n)).filter P)
    (hrx : (s'.rx (cell p i n, p)).filter P = (s.rx (cell p i n, p)).filter P)
    (hcables : onCables P p i n s'.inbox = onCables P p i n s.inbox)
    (hout : toPutOut P p (s'.adapter i).sending = toPutOut P p (s.adapter i).sending) :
    s'.path P p i n = s.path P p i n := by
  rw [path, path, hgot, hrx, hcables, hout]

/-- What a task does that has no frame of the kind to put out. -/
theorem Chain.path_withAdapter {st : Adapter}
    (hout : toPutOut P p st.sending = toPutOut P p (s.adapter x).sending) :
    (s.withAdapter x st).path P p i n = s.path P p i n := by
  refine path_congr rfl rfl rfl ?_
  show toPutOut P p (Function.update s.adapter x st i).sending = _
  rcases eq_or_ne i x with rfl | hne
  · rw [Function.update_self, hout]
  · rw [Function.update_of_ne hne]

theorem toPutOut_cons_of_not (ha : P a = false) (sending : List (Port × Packet)) :
    toPutOut P p ((q, a) :: sending) = toPutOut P p sending := by
  rw [toPutOut, toPutOut, List.filter_cons]
  split
  · rw [List.map_cons, List.filter_cons, ha]
    rfl
  · rfl

theorem toPutOut_cons_other (sending : List (Port × Packet)) :
    toPutOut P p ((p, a) :: sending) = toPutOut P p sending := by
  rw [toPutOut, toPutOut, List.filter_cons]
  cases p <;> rfl

theorem toPutOut_cons (ha : P a = true) (sending : List (Port × Packet)) :
    toPutOut P p ((p.opposite, a) :: sending) = a :: toPutOut P p sending := by
  rw [toPutOut, toPutOut, List.filter_cons, if_pos (decide_eq_true rfl), List.map_cons,
    List.filter_cons, if_pos ha]

/-- The ports chosen for a frame are different. -/
theorem toPutOut_ports (mode : Mode) (fdb : Fdb) (f : NetFrame) :
    toPutOut P p ((netTxPorts mode fdb f).map fun q => (q, a)) =
      if p.opposite ∈ netTxPorts mode fdb f then [a].filter P else [] := by
  have hports : netTxPorts mode fdb f = [.port1] ∨ netTxPorts mode fdb f = [.port2] ∨
      netTxPorts mode fdb f = [.port1, .port2] := by
    unfold netTxPorts
    split
    · split
      · exact Or.inr (Or.inr rfl)
      · next r _ => cases r <;> simp
    · exact Or.inl rfl
  rcases hports with h | h | h <;> rw [h] <;> cases p <;> simp [toPutOut, Port.opposite]

/-- A frame is taken from the host. -/
theorem Chain.path_choose {f : NetFrame} (hP : ∀ a, P a = true → a.origin = i)
    (hidle : (s.adapter x).sending = []) :
    Keeps (P ⟨f, x⟩ = true → p.opposite ∈ netTxPorts dev.mode (s.adapter x).fdb f)
      (s.path P p i n ++ [⟨f, x⟩].filter P) ((s.choose dev x f).path P p i n) := by
  rcases eq_or_ne x i with rfl | hne
  · have hout : toPutOut P p ((s.choose dev x f).adapter x).sending =
        if p.opposite ∈ netTxPorts dev.mode (s.adapter x).fdb f then [⟨f, x⟩].filter P else [] := by
      show toPutOut P p (Function.update s.adapter x _ x).sending = _
      rw [Function.update_self]
      exact toPutOut_ports _ _ _
    have hpath : (s.choose dev x f).path P p x n =
        s.path P p x n ++ toPutOut P p ((s.choose dev x f).adapter x).sending := by
      rw [path, path, hidle]
      show _ = _ ++ [] ++ _
      rw [List.append_nil]
      rfl
    rw [hpath, hout]
    split
    · exact Keeps.of_eq rfl
    · next hmiss =>
      refine ⟨List.Sublist.append_left (List.nil_sublist _) _, fun hall => ?_⟩
      have ha : ¬P ⟨f, x⟩ = true := fun ha => hmiss (hall ha)
      rw [List.filter_singleton, Bool.eq_false_of_not_eq_true ha]
      rfl
  · have ha : P ⟨f, x⟩ = false := Bool.eq_false_of_not_eq_true fun ha => hne (hP _ ha)
    refine Keeps.of_eq ?_
    rw [List.filter_singleton, ha, cond_false, List.append_nil]
    refine path_congr rfl rfl rfl ?_
    show toPutOut P p (Function.update s.adapter x _ i).sending = _
    rw [Function.update_of_ne hne.symm]

/-- A frame is put out, or given up. -/
theorem Chain.path_putOut {sending : List (Port × Packet)} (hP : ∀ a, P a = true → a.origin = i)
    (hin : InChain N (cell p i 0)) (hsending : (s.adapter x).sending = (q, a) :: sending)
    (horigin : a.origin = x) (ok : Bool) :
    Keeps (ok = true ∨ P a = false) (s.path P p i n)
      ((s.putOut N x ok q a sending).path P p i n) := by
  cases ha : P a with
  | false =>
    refine Keeps.of_eq ?_
    have hcables : onCables P p i n (s.putOut N x ok q a sending).inbox =
        onCables P p i n s.inbox := by
      refine onCables_congr fun d _ => ?_
      show ((if ok then cable N x q a s.inbox else s.inbox) _).filter P = _
      split
      · exact filter_cable_of_not ha _
      · rfl
    refine path_congr rfl rfl hcables ?_
    show toPutOut P p (Function.update s.adapter x _ i).sending = _
    rcases eq_or_ne i x with rfl | hne
    · rw [Function.update_self, hsending, toPutOut_cons_of_not ha]
    · rw [Function.update_of_ne hne]
  | true =>
    obtain rfl : x = i := horigin.symm.trans (hP a ha)
    have hout : toPutOut P p ((s.putOut N x ok q a sending).adapter x).sending =
        toPutOut P p sending := by
      show toPutOut P p (Function.update s.adapter x _ x).sending = _
      rw [Function.update_self]
    rcases eq_or_ne q p with rfl | hq
    · refine Keeps.of_eq (path_congr rfl rfl ?_ ?_)
      · show onCables P q x n (if ok then cable N x q a s.inbox else s.inbox) = _
        split
        · exact onCables_cable_other
        · rfl
      · rw [hout, hsending, toPutOut_cons_other]
    · obtain rfl : q = p.opposite := by cases q <;> cases p <;> simp_all [Port.opposite]
      rw [path, path, hout, hsending, toPutOut_cons ha]
      cases ok with
      | true =>
        refine Keeps.of_eq ?_
        show _ ++ _ ++ onCables P p x n (cable N x p.opposite a s.inbox) ++ _ = _
        rw [onCables_cable hin ha, ← List.append_assoc, List.append_assoc _ [a]]
        rfl
      | false =>
        refine ⟨List.Sublist.append_left (List.sublist_cons_self a _) _, fun h => ?_⟩
        rcases h with h | h
        · exact absurd h Bool.false_ne_true
        · exact absurd h.symm Bool.false_ne_true

/-- A frame enters an adapter: it goes on, to the host, or nowhere. -/
theorem Chain.path_enter {d : ℕ} (hinbox : s.inbox (cell p i d, p) = a :: rest) (ha : P a = true)
    (hnext : d < n → InChain N (cell p i (d + 1))) (room : Bool) :
    Keeps (room = true ∧
        (d < n → (deviceVerdict (s.adapter (cell p i d)).regs a.frame.dst p).toOtherPort = true) ∧
        (d = n → (deviceVerdict (s.adapter (cell p i d)).regs a.frame.dst p).toHost = true))
      (s.path P p i n) ((s.enter N (cell p i d) p room a rest).path P p i n) := by
  let v := deviceVerdict (s.adapter (cell p i d)).regs a.frame.dst p
  have hcables : (s.enter N (cell p i d) p room a rest).inbox =
      takeFirst N (cell p i d) p v.toOtherPort a rest s.inbox := rfl
  have hrx : (s.enter N (cell p i d) p room a rest).rx =
      if v.toHost && room then Function.update s.rx (cell p i d, p) (s.rx (cell p i d, p) ++ [a])
      else s.rx := rfl
  -- the FIFO at the end is another one, unless the frame enters there
  have hfifo : d ≠ n → (s.enter N (cell p i d) p room a rest).rx (cell p i n, p) =
      s.rx (cell p i n, p) := by
    intro hd
    rw [hrx]
    split
    · exact Function.update_of_ne (fun h => hd (cell_injective (congrArg Prod.fst h)).symm) _ _
    · rfl
  rcases lt_trichotomy d n with hd | rfl | hd
  · cases hv : v.toOtherPort with
    | true =>
      refine Keeps.of_eq (path_congr rfl (congrArg _ (hfifo hd.ne)) ?_ rfl)
      rw [hcables, hv, onCables_takeFirst_on hinbox ha hd (hnext hd)]
    | false =>
      refine ⟨?_, fun h => absurd (h.2.1 hd) Bool.false_ne_true⟩
      rw [path, path, hfifo hd.ne, hcables, hv]
      exact ((onCables_takeFirst_off hinbox ha).append_left _).append_right _
  · have hline := onCables_takeFirst_end (N := N) hinbox ha v.toOtherPort rfl
    cases hv : v.toHost && room with
    | true =>
      refine Keeps.of_eq ?_
      rw [path, path, hcables, hrx, hv, if_pos rfl, hline, Function.update_self, List.filter_append,
        List.filter_singleton, ha]
      simp only [cond_true, List.append_assoc, List.cons_append, List.nil_append]
      rfl
    | false =>
      refine ⟨?_, fun h => ?_⟩
      · rw [path, path, hcables, hrx, hv, if_neg Bool.false_ne_true, hline]
        exact ((List.sublist_cons_self a _).append_left _).append_right _
      · rw [h.1, h.2.2 rfl] at hv
        exact absurd hv.symm Bool.false_ne_true
  · refine Keeps.of_eq (path_congr rfl (congrArg _ (hfifo hd.ne')) ?_ rfl)
    rw [hcables, onCables_takeFirst_beyond _ hd]

/-- A frame is lost on a cable. -/
theorem Chain.path_lose {d : ℕ} (hinbox : s.inbox (cell p i d, p) = a :: rest) (ha : P a = true) :
    (Chain.path P p i n
      { s with inbox := Function.update s.inbox (cell p i d, p) rest }).Sublist
      (s.path P p i n) :=
  ((onCables_takeFirst_off (N := 0) hinbox ha).append_left _).append_right _

/-- A frame leaves a FIFO for the host. -/
theorem Chain.path_handOn (now : Word) (hrx : s.rx (x, q) = a :: rest)
    (hside : x = cell p i n → P a = true → q = p) :
    (s.handOn dev mac x q now a rest).path P p i n = s.path P p i n := by
  have hout : toPutOut P p ((s.handOn dev mac x q now a rest).adapter i).sending =
      toPutOut P p (s.adapter i).sending := by
    show toPutOut P p (Function.update s.adapter x _ i).sending = _
    rcases eq_or_ne i x with rfl | hne
    · rw [Function.update_self]
      rfl
    · rw [Function.update_of_ne hne]
  cases ha : P a with
  | false =>
    refine path_congr ?_ (filter_tail_of_not hrx ha _) rfl hout
    exact filter_snoc_of_not ha _
  | true =>
    by_cases hx : x = cell p i n
    · obtain rfl := hside hx ha
      subst hx
      rw [path, path, hout]
      show (Function.update s.got (cell q i n) _ (cell q i n)).filter P ++
        (Function.update s.rx (cell q i n, q) rest (cell q i n, q)).filter P ++ _ ++ _ = _
      rw [Function.update_self, Function.update_self, hrx, List.filter_append,
        List.filter_singleton, ha, cond_true, List.filter_cons, if_pos ha, List.append_assoc _ [a]]
      rfl
    · refine path_congr (congrArg _ (Function.update_of_ne (Ne.symm hx) _ _))
        (congrArg _ (Function.update_of_ne ?_ _ _)) rfl hout
      exact fun h => hx (congrArg Prod.fst h).symm

/-- The FIFOs are emptied. -/
theorem Chain.path_clearRx :
    Keeps (∀ q, ∀ a ∈ s.rx (x, q), P a = false) (s.path P p i n) ((s.clearRx x).path P p i n) := by
  have hrx : ∀ q, (s.clearRx x).rx (x, q) = [] := by
    intro q
    show Function.update (Function.update s.rx (x, .port1) []) (x, .port2) [] (x, q) = _
    cases q with
    | port1 => rw [Function.update_of_ne (by simp), Function.update_self]
    | port2 => rw [Function.update_self]
  by_cases hx : cell p i n = x
  · refine ⟨?_, fun h => path_congr rfl ?_ rfl rfl⟩
    · refine List.Sublist.append_right (List.Sublist.append_right ?_ _) _
      refine List.Sublist.append_left (List.Sublist.filter P ?_) _
      rw [hx, hrx p]
      exact List.nil_sublist _
    · rw [hx, hrx p, List.filter_nil]
      exact (List.filter_eq_nil_iff.mpr fun a ha => by simp [h p a ha]).symm
  · refine Keeps.of_eq (path_congr rfl (congrArg _ ?_) rfl rfl)
    have hne : ∀ q, (cell p i n, p) ≠ (x, q) := fun q h => hx (congrArg Prod.fst h)
    show Function.update (Function.update s.rx (x, .port1) []) (x, .port2) [] _ = _
    rw [Function.update_of_ne (hne _), Function.update_of_ne (hne _)]

/-- Between two adapters of the chain there are others of the chain only. -/
theorem inChain_cell {d : ℕ} (hi : InChain N i) (hj : InChain N (cell p i n)) (hd : d ≤ n) :
    InChain N (cell p i d) := by
  unfold InChain at hi hj ⊢
  cases p <;> simp only [cell] at hj ⊢ <;> omega

variable (dev P p i n) in
/-- The step sends frames of the kind the right way: towards the other host, and there to it. -/
def Routed (s : Chain) : ChainAct → Prop
  | .send x f => P ⟨f, x⟩ = true → p.opposite ∈ netTxPorts dev.mode (s.adapter x).fdb f
  | .arrive x q _ => ∀ a ∈ (s.inbox (x, q)).head?, P a = true → ∀ d, x = cell p i d → q = p →
      (d < n → (deviceVerdict (s.adapter x).regs a.frame.dst q).toOtherPort = true) ∧
        (d = n → (deviceVerdict (s.adapter x).regs a.frame.dst q).toHost = true)
  | _ => True

variable (P) in
/-- The step loses no frame of the kind. -/
def Spares (s : Chain) : ChainAct → Prop
  | .xmit x ok => ∀ e ∈ (s.adapter x).sending.head?, ok = true ∨ P e.2 = false
  | .arrive x q room => ∀ a ∈ (s.inbox (x, q)).head?, room = true ∨ P a = false
  | .lose x q => ∀ a ∈ (s.inbox (x, q)).head?, P a = false
  | .flush x => ∀ q, ∀ a ∈ s.rx (x, q), P a = false
  | _ => True

variable (P) in
/-- The frame of the kind that a step takes from a host. -/
def fresh : ChainAct → List Packet
  | .send x f => [⟨f, x⟩].filter P
  | _ => []

/-- **What one step does to the path**: it takes nothing out of order, and nothing away unless a
frame is lost or sent the wrong way. -/
theorem path_move (hs : s.Sound dev mac N) (hP : ∀ a, P a = true → a.origin = i)
    (hi : InChain N i) (hj : InChain N (cell p i n)) {act : ChainAct} {s' : Chain}
    (hmove : ChainMove dev mac N s act s') :
    Keeps (Spares P s act ∧ Routed dev P p i n s act) (s.path P p i n ++ fresh P act)
      (s'.path P p i n) := by
  cases hmove with
  | send x f hx hidle hsrc =>
    obtain ⟨hsub, heq⟩ : Keeps _ (s.path P p i n ++ [⟨f, x⟩].filter P)
        ((s.choose dev x f).path P p i n) := Chain.path_choose hP hidle
    exact ⟨hsub, fun h => heq h.2⟩
  | xmit x ok q a sending hsending =>
    have hmem : (q, a) ∈ (s.adapter x).sending := by rw [hsending]; exact List.mem_cons_self
    obtain ⟨hsub, heq⟩ := Chain.path_putOut hP (inChain_cell hi hj (Nat.zero_le n)) hsending
      ((hs.adapter x).sending _ hmem).2 ok
    refine Keeps.append_nil ?_
    exact ⟨hsub, fun h => heq (h.1 (q, a) (by rw [hsending]; rfl))⟩
  | arrive x q room a rest hinbox =>
    refine Keeps.append_nil ?_
    have hhead : a ∈ (s.inbox (x, q)).head? := by rw [hinbox]; rfl
    cases ha : P a with
    | false =>
      refine Keeps.of_eq (Chain.path_congr rfl ?_
        (onCables_congr fun d _ => filter_takeFirst_of_not hinbox ha _ _) rfl)
      show ((if _ then Function.update s.rx (x, q) (s.rx (x, q) ++ [a]) else s.rx) _).filter P = _
      split
      · exact filter_snoc_of_not ha _
      · rfl
    | true =>
      obtain ⟨-, -, henters⟩ := hs.cable x q a (by rw [hinbox]; exact List.mem_cons_self)
      rw [hP a ha] at henters
      obtain ⟨d, rfl⟩ := henters
      rcases eq_or_ne q p with rfl | hq
      · obtain ⟨hsub, heq⟩ := Chain.path_enter hinbox ha
          (fun hd => inChain_cell (N := N) hi hj hd) room
        refine ⟨hsub, fun h => heq ⟨(h.1 a hhead).resolve_right (by simp [ha]), ?_⟩⟩
        exact h.2 a hhead ha d rfl rfl
      · refine Keeps.of_eq (Chain.path_congr rfl (congrArg _ ?_)
          (onCables_congr fun e _ => congrArg _ (takeFirst_of_port_ne hq.symm _ _)) rfl)
        show (if _ then Function.update s.rx (cell q i d, q) _ else s.rx) _ = _
        split
        · exact Function.update_of_ne (fun h => hq (congrArg Prod.snd h).symm) _ _
        · rfl
  | lose x q a rest hinbox =>
    refine Keeps.append_nil ?_
    have hhead : a ∈ (s.inbox (x, q)).head? := by rw [hinbox]; rfl
    cases ha : P a with
    | false =>
      exact Keeps.of_eq (Chain.path_congr rfl rfl
        (onCables_congr fun d _ => filter_tail_of_not hinbox ha _) rfl)
    | true =>
      refine ⟨?_, fun h => absurd ((h.1 a hhead).symm.trans ha) Bool.false_ne_true⟩
      obtain ⟨-, -, henters⟩ := hs.cable x q a (by rw [hinbox]; exact List.mem_cons_self)
      rw [hP a ha] at henters
      obtain ⟨d, rfl⟩ := henters
      rcases eq_or_ne q p with rfl | hq
      · exact Chain.path_lose hinbox ha
      · have hsame : ∀ e, Function.update s.inbox (cell q i d, q) rest (cell p i e, p) =
            s.inbox (cell p i e, p) :=
          fun e => Function.update_of_ne (fun h => hq (congrArg Prod.snd h).symm) _ _
        have hpath : Chain.path P p i n { s with
            inbox := Function.update s.inbox (cell q i d, q) rest } = s.path P p i n :=
          Chain.path_congr rfl rfl (onCables_congr fun e _ => congrArg _ (hsame e)) rfl
        rw [hpath]
  | serve x q now a rest hrx hpending =>
    refine Keeps.append_nil ?_
    refine Keeps.of_eq (Chain.path_handOn now hrx fun hx ha => ?_)
    obtain ⟨-, henters, -⟩ := hs.fifo x q a (by rw [hrx]; exact List.mem_cons_self)
    rw [hP a ha] at henters
    exact henters.port_eq ⟨n, hx⟩
  | flush x =>
    refine Keeps.append_nil ?_
    exact ⟨Chain.path_clearRx.1, fun h => Chain.path_clearRx.2 h.1⟩
  | sweep x now hx hpending =>
    refine Keeps.append_nil ?_
    exact Keeps.of_eq (Chain.path_withAdapter rfl)
  | write x ok w ws rest hpending =>
    refine Keeps.append_nil ?_
    refine Keeps.of_eq (Chain.path_withAdapter ?_)
    cases ok <;> rfl

/-- What the hosts have sent. -/
theorem sent_move (hP : ∀ a, P a = true → a.origin = i) {act : ChainAct} {s' : Chain}
    (hmove : ChainMove dev mac N s act s') :
    (s'.sent i).filter P = (s.sent i).filter P ++ fresh P act := by
  cases hmove with
  | send x f hx hidle hsrc =>
    show (Function.update s.sent x (s.sent x ++ [⟨f, x⟩]) i).filter P = _
    rcases eq_or_ne i x with rfl | hne
    · rw [Function.update_self, List.filter_append]
      rfl
    · have ha : P ⟨f, x⟩ = false := Bool.eq_false_of_not_eq_true fun ha => hne (hP _ ha).symm
      rw [Function.update_of_ne hne, fresh, List.filter_singleton, ha, cond_false, List.append_nil]
  | xmit | arrive | lose | serve | flush | sweep | write => exact (List.append_nil _).symm

end Move

end Usb2T1L
