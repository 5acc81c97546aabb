import Mathlib.Tactic

/-!
# Frames in packets

A bulk pipe carries packets of at most `m` items.  A frame is sent as full packets
followed by one that is shorter than `m`, empty if need be, and the receiver cuts
the stream of packets after every short one.

A sender may give up on a frame after any number of its packets.  If the last one
was full, the receiver takes what comes next for the rest of that frame.

## Main definitions

* `Packets.packets`, `Packets.frame` — a transfer in packets, and a whole frame.
* `Packets.groups`, `Packets.pending` — what the receiver has cut off, and what it holds.
* `Packets.frames` — the frames it takes from a stream.
* `Sending`, `wire` — an attempt at sending a frame, and the packets of several.

## Main results

* `Packets.packets_frame` — a transfer, with an empty one after it when no packet of
  it is short, is a frame.
* `frames_intact_iff` — **what was sent whole arrives whole** exactly if the receiver
  was never in the middle of an abandoned frame when it began.
-/

namespace Usb2T1L

namespace Packets

variable {α : Type*}

/-! ### Cutting into packets -/

/-- `n` packets of `m` items, from the front. -/
def chunks (m : ℕ) : ℕ → List α → List (List α)
  | 0, _ => []
  | n + 1, l => l.take m :: chunks m n (l.drop m)

/-- The full packets of `l`. -/
def full (m : ℕ) (l : List α) : List (List α) := chunks m (l.length / m) l

/-- The items of `l` after its full packets. -/
def rest (m : ℕ) (l : List α) : List α := l.drop (l.length / m * m)

/-- The packets of a transfer: a last short one only if there are items left for it,
and one empty packet for no items at all. -/
def packets (m : ℕ) (l : List α) : List (List α) :=
  if l = [] then [[]] else full m l ++ if l.length % m = 0 then [] else [rest m l]

/-- The packets of a frame. -/
def frame (m : ℕ) (l : List α) : List (List α) := full m l ++ [rest m l]

theorem length_of_mem_chunks {m : ℕ} : ∀ {n : ℕ} {l : List α}, n * m ≤ l.length →
    ∀ p ∈ chunks m n l, p.length = m := by
  intro n
  induction n with
  | zero => intro l _ p hp; exact absurd hp List.not_mem_nil
  | succ n ih =>
    intro l h p hp
    rw [Nat.succ_mul] at h
    rcases List.mem_cons.mp hp with rfl | hp
    · rw [List.length_take]
      omega
    · refine ih ?_ p hp
      rw [List.length_drop]
      omega

theorem flatten_chunks {m : ℕ} : ∀ (n : ℕ) (l : List α),
    (chunks m n l).flatten ++ l.drop (n * m) = l := by
  intro n
  induction n with
  | zero => intro l; rw [Nat.zero_mul]; rfl
  | succ n ih =>
    intro l
    have hdrop : l.drop ((n + 1) * m) = (l.drop m).drop (n * m) := by
      rw [List.drop_drop, Nat.succ_mul, Nat.add_comm]
    rw [chunks, List.flatten_cons, hdrop, List.append_assoc, ih, List.take_append_drop]

theorem length_of_mem_full {m : ℕ} {l : List α} : ∀ p ∈ full m l, p.length = m :=
  length_of_mem_chunks (Nat.div_mul_le_self l.length m)

theorem length_rest_lt {m : ℕ} (hm : 0 < m) (l : List α) : (rest m l).length < m := by
  rw [rest, List.length_drop, ← Nat.mod_eq_sub_div_mul]
  exact Nat.mod_lt _ hm

/-- A frame holds its items. -/
@[simp] theorem flatten_frame (m : ℕ) (l : List α) : (frame m l).flatten = l := by
  rw [frame, List.flatten_append, List.flatten_singleton]
  exact flatten_chunks _ l

/-- **A transfer is a frame**, if need be with an empty transfer after it. -/
theorem packets_frame {m : ℕ} {l : List α} (hl : l ≠ []) :
    packets m l ++ (if l.length % m = 0 then packets m [] else []) = frame m l := by
  rw [packets, if_neg hl, packets, if_pos rfl, frame]
  split
  · next h =>
    have hrest : rest m l = [] := by
      rw [rest, Nat.div_mul_cancel (Nat.dvd_of_mod_eq_zero h), List.drop_length]
    rw [hrest, List.append_nil]
  · rw [List.append_nil]

/-! ### Cutting a stream after its short packets -/

variable {P : Type*} (short : P → Bool)

/-- What the receiver cuts off from a stream, with packets in hand already. -/
def groups : List P → List P → List (List P)
  | _, [] => []
  | acc, p :: ps => if short p then (acc ++ [p]) :: groups [] ps else groups (acc ++ [p]) ps

/-- What it still has in hand after that. -/
def pending : List P → List P → List P
  | acc, [] => acc
  | acc, p :: ps => if short p then pending [] ps else pending (acc ++ [p]) ps

variable {short}

theorem groups_append : ∀ (xs acc ys : List P),
    groups short acc (xs ++ ys) =
      groups short acc xs ++ groups short (pending short acc xs) ys := by
  intro xs
  induction xs with
  | nil => intro acc ys; rfl
  | cons p xs ih =>
    intro acc ys
    rw [List.cons_append, groups, groups, pending]
    split
    · rw [ih, List.cons_append]
    · rw [ih]

theorem pending_append : ∀ (xs acc ys : List P),
    pending short acc (xs ++ ys) = pending short (pending short acc xs) ys := by
  intro xs
  induction xs with
  | nil => intro acc ys; rfl
  | cons p xs ih =>
    intro acc ys
    rw [List.cons_append, pending, pending]
    split
    · rw [ih]
    · rw [ih]

/-- Packets that are not short are kept in hand. -/
theorem groups_of_not_short : ∀ {xs : List P}, (∀ p ∈ xs, short p = false) → ∀ acc : List P,
    groups short acc xs = [] ∧ pending short acc xs = acc ++ xs := by
  intro xs
  induction xs with
  | nil => intro _ acc; exact ⟨rfl, (List.append_nil acc).symm⟩
  | cons p xs ih =>
    intro h acc
    have hp : short p = false := h p List.mem_cons_self
    obtain ⟨hg, hpend⟩ := ih (fun q hq => h q (List.mem_cons_of_mem p hq)) (acc ++ [p])
    rw [groups, pending, if_neg (by simp [hp]), if_neg (by simp [hp])]
    exact ⟨hg, by rw [hpend, List.append_assoc]; rfl⟩

/-- A short packet after such ends a group. -/
theorem groups_of_short {xs : List P} {p : P} (h : ∀ q ∈ xs, short q = false)
    (hp : short p = true) (acc : List P) :
    groups short acc (xs ++ [p]) = [acc ++ xs ++ [p]] ∧ pending short acc (xs ++ [p]) = [] := by
  obtain ⟨hg, hpend⟩ := groups_of_not_short h acc
  rw [groups_append, pending_append, hg, hpend]
  simp [groups, pending, hp]

/-- Nothing in hand is short. -/
theorem pending_not_short : ∀ {xs acc : List P}, (∀ p ∈ acc, short p = false) →
    ∀ p ∈ pending short acc xs, short p = false := by
  intro xs
  induction xs with
  | nil => intro acc h; exact h
  | cons p xs ih =>
    intro acc h
    rw [pending]
    split
    · exact ih fun q hq => absurd hq List.not_mem_nil
    · next hp =>
      refine ih fun q hq => ?_
      rcases List.mem_append.mp hq with hq | hq
      · exact h q hq
      · rw [List.mem_singleton.mp hq]
        exact Bool.not_eq_true _ |>.mp hp

/-- The receiver has something in hand exactly if the stream ends in a packet that
is not short. -/
theorem pending_nil_eq_nil_iff {xs : List P} :
    pending short [] xs = [] ↔ ∀ p, xs.getLast? = some p → short p = true := by
  induction xs using List.reverseRecOn with
  | nil => simp [pending]
  | append_singleton xs p _ =>
    rw [pending_append, pending, pending, pending, List.getLast?_concat]
    cases hp : short p <;> simp [hp]

/-! ### The frames of a stream -/

/-- What a receiver takes for frames: it cuts the stream after every short packet. -/
def frames (m : ℕ) (ps : List (List α)) : List (List α) :=
  (groups (fun p => decide (p.length < m)) [] ps).map List.flatten

variable {m : ℕ}

theorem full_not_short (l : List α) : ∀ p ∈ full m l, decide (p.length < m) = false := fun p hp =>
  decide_eq_false (length_of_mem_full p hp).not_lt

/-- A whole frame is cut off, and the stream after it is cut as if it began there. -/
theorem frames_frame_append (hm : 0 < m) (l : List α) (ps : List (List α)) :
    frames m (frame m l ++ ps) = l :: frames m ps := by
  obtain ⟨hgroups, hpending⟩ := groups_of_short (full_not_short (m := m) l)
    (decide_eq_true (length_rest_lt hm l)) []
  rw [frames, groups_append, frame, hgroups, hpending, List.nil_append, List.singleton_append,
    List.map_cons, ← frame, flatten_frame]
  rfl

/-- Of several frames and the beginning of one more, the receiver takes these, and perhaps that. -/
theorem frames_sublist (hm : 0 < m) {l : List α} {ps : List (List α)} (h : ps <+: frame m l) :
    ∀ ls : List (List α), (frames m (ls.flatMap (frame m) ++ ps)).Sublist (ls ++ [l]) := by
  intro ls
  induction ls with
  | nil =>
    rw [List.flatMap_nil, List.nil_append, List.nil_append]
    rcases List.prefix_concat_iff.mp h with rfl | hpart
    · have hwhole := frames_frame_append hm l []
      rw [List.append_nil, frame] at hwhole
      rw [hwhole]
      exact List.Sublist.refl _
    · obtain ⟨hnil, -⟩ := groups_of_not_short
        (fun p hp => full_not_short l p (hpart.subset hp)) ([] : List (List α))
      rw [frames, hnil]
      exact List.nil_sublist _
  | cons l' ls ih =>
    rw [List.flatMap_cons, List.append_assoc, frames_frame_append hm, List.cons_append]
    exact ih.cons_cons l'

/-- **Whole frames are received as they are.** -/
theorem frames_flatMap (hm : 0 < m) (ls : List (List α)) :
    frames m (ls.flatMap (frame m)) = ls := by
  induction ls with
  | nil => rfl
  | cons l ls ih => rw [List.flatMap_cons, frames_frame_append hm, ih]

end Packets

open Packets

/-! ### Abandoned frames -/

/-- An attempt at sending a frame: its items, the packets that got through, and
whether the sender takes it for done. -/
structure Sending (α : Type*) where
  data : List α
  sent : List (List α)
  ok : Bool

variable {α : Type*} {m : ℕ}

/-- A front part of the frame got through, and all of it if the sender says so. -/
structure Sending.Sound (m : ℕ) (c : Sending α) : Prop where
  sent_isPrefix : c.sent <+: frame m c.data
  whole : c.ok = true → c.sent = frame m c.data

/-- The packets of an attempt, each marked with whether the attempt was taken for done. -/
def Sending.marked (c : Sending α) : List (Bool × List α) := c.sent.map fun p => (c.ok, p)

/-- The packets of several attempts. -/
def wire (cs : List (Sending α)) : List (Bool × List α) := cs.flatMap Sending.marked

/-- The packet ends a frame. -/
def isShort (m : ℕ) (p : Bool × List α) : Bool := decide (p.2.length < m)

/-- The groups of packets the receiver takes for frames. -/
def received (m : ℕ) (cs : List (Sending α)) : List (List (Bool × List α)) :=
  groups (isShort m) [] (wire cs)

/-- A packet of an attempt taken for done is among them. -/
def ofDone (g : List (Bool × List α)) : Bool := g.any Prod.fst

/-- The items of a group. -/
def items (g : List (Bool × List α)) : List α := (g.map Prod.snd).flatten

/-- The frames received in which a packet of a done attempt takes part are exactly
the frames of the done attempts, one each and in order. -/
def Intact (m : ℕ) (cs : List (Sending α)) : Prop :=
  ((received m cs).filter ofDone).map items = (cs.filter Sending.ok).map Sending.data

/-- When a done attempt began, the receiver was not in the middle of a frame: it had
got no packet yet, or the last one was short. -/
def BetweenFrames (m : ℕ) (cs : List (Sending α)) : Prop :=
  ∀ before c after, cs = before ++ c :: after → c.ok = true →
    ∀ p, (wire before).getLast? = some p → p.2.length < m

@[simp] theorem wire_concat (cs : List (Sending α)) (c : Sending α) :
    wire (cs ++ [c]) = wire cs ++ c.marked := by
  rw [wire, List.flatMap_append, List.flatMap_singleton]
  rfl

theorem not_isShort_of_mem_full {d : List α} {b : Bool} :
    ∀ p ∈ (full m d).map fun p => (b, p), isShort m p = false := by
  intro p hp
  obtain ⟨q, hq, rfl⟩ := List.mem_map.mp hp
  rw [isShort, length_of_mem_full q hq, decide_eq_false (lt_irrefl m)]

theorem isShort_rest (hm : 0 < m) (d : List α) (b : Bool) : isShort m (b, rest m d) = true :=
  decide_eq_true (length_rest_lt hm d)

theorem map_frame (d : List α) (b : Bool) :
    (frame m d).map (fun p => (b, p)) = ((full m d).map fun p => (b, p)) ++ [(b, rest m d)] := by
  rw [frame, List.map_append]
  rfl

/-- The whole of a frame ends a group. -/
theorem groups_frame (hm : 0 < m) (d : List α) (b : Bool) (acc : List (Bool × List α)) :
    groups (isShort m) acc ((frame m d).map fun p => (b, p)) =
        [acc ++ (frame m d).map fun p => (b, p)] ∧
      pending (isShort m) acc ((frame m d).map fun p => (b, p)) = [] := by
  rw [map_frame, ← List.append_assoc]
  exact groups_of_short not_isShort_of_mem_full (isShort_rest hm d b) acc

/-- A part of an abandoned frame ends no group, or one of its own. -/
theorem groups_abandoned (hm : 0 < m) {c : Sending α} (hc : c.Sound m) (hok : c.ok = false)
    {acc : List (Bool × List α)} (hacc : ∀ p ∈ acc, p.1 = false) :
    (∀ g ∈ groups (isShort m) acc c.marked, ofDone g = false) ∧
      ∀ p ∈ pending (isShort m) acc c.marked, p.1 = false := by
  have hmarked : ∀ p ∈ c.marked, p.1 = false := by
    intro p hp
    obtain ⟨q, -, rfl⟩ := List.mem_map.mp hp
    exact hok
  have hall : ∀ p ∈ acc ++ c.marked, p.1 = false := fun p hp =>
    (List.mem_append.mp hp).elim (hacc p) (hmarked p)
  rcases List.prefix_concat_iff.mp hc.sent_isPrefix with hwhole | hpart
  · have hmk : c.marked = (frame m c.data).map fun p => (c.ok, p) := by
      rw [Sending.marked, hwhole]
      rfl
    obtain ⟨hg, hp⟩ := groups_frame hm c.data c.ok acc
    rw [← hmk] at hg hp
    rw [hg, hp]
    refine ⟨fun g hg => ?_, fun p hp => absurd hp List.not_mem_nil⟩
    rw [List.mem_singleton.mp hg, ofDone, List.any_eq_false]
    exact fun p hp => by simp [hall p hp]
  · have hns : ∀ p ∈ c.marked, isShort m p = false := by
      intro p hp
      obtain ⟨q, hq, rfl⟩ := List.mem_map.mp hp
      exact not_isShort_of_mem_full _ (List.mem_map.mpr ⟨q, hpart.subset hq, rfl⟩)
    obtain ⟨hg, hp⟩ := groups_of_not_short hns acc
    rw [hg, hp]
    exact ⟨fun g hg => absurd hg List.not_mem_nil, hall⟩

/-- What the receiver has in hand is of abandoned frames only. -/
theorem pending_abandoned (hm : 0 < m) {cs : List (Sending α)} (hcs : ∀ c ∈ cs, c.Sound m) :
    ∀ p ∈ pending (isShort m) [] (wire cs), p.1 = false := by
  induction cs using List.reverseRecOn with
  | nil => exact fun p hp => absurd hp List.not_mem_nil
  | append_singleton cs c ih =>
    have ih := ih fun d hd => hcs d (List.mem_append_left _ hd)
    have hc : c.Sound m := hcs c (List.mem_append_right _ (List.mem_singleton.mpr rfl))
    rw [wire_concat, pending_append]
    cases hok : c.ok with
    | true =>
      have hmk : c.marked = (frame m c.data).map fun p => (c.ok, p) := by
        rw [Sending.marked, hc.whole hok]
      rw [hmk, (groups_frame hm c.data c.ok _).2]
      exact fun p hp => absurd hp List.not_mem_nil
    | false => exact (groups_abandoned hm hc hok ih).2

/-- The frames with a packet of a done attempt, one attempt more. -/
theorem received_concat (hm : 0 < m) {cs : List (Sending α)} {c : Sending α}
    (hcs : ∀ d ∈ cs, d.Sound m) (hc : c.Sound m) :
    (received m (cs ++ [c])).filter ofDone = (received m cs).filter ofDone ++
      if c.ok = true then [pending (isShort m) [] (wire cs) ++ c.marked] else [] := by
  rw [received, wire_concat, groups_append, List.filter_append]
  congr 1
  cases hok : c.ok with
  | true =>
    have hmk : c.marked = (frame m c.data).map fun p => (c.ok, p) := by
      rw [Sending.marked, hc.whole hok]
    rw [hmk, (groups_frame hm c.data c.ok _).1, ← hmk, if_pos rfl, List.filter_cons_of_pos]
    · rfl
    · rw [ofDone, List.any_append, hmk, hok, map_frame, List.any_append]
      simp
  | false =>
    rw [if_neg (by simp), List.filter_eq_nil_iff]
    intro g hg
    have := (groups_abandoned hm hc hok (pending_abandoned hm hcs)).1 g hg
    simp [this]

/-- There is one such frame for each done attempt. -/
theorem length_received (hm : 0 < m) {cs : List (Sending α)} (hcs : ∀ c ∈ cs, c.Sound m) :
    ((received m cs).filter ofDone).length = (cs.filter Sending.ok).length := by
  induction cs using List.reverseRecOn with
  | nil => rfl
  | append_singleton cs c ih =>
    have hcs' : ∀ d ∈ cs, d.Sound m := fun d hd => hcs d (List.mem_append_left _ hd)
    have hc : c.Sound m := hcs c (List.mem_append_right _ (List.mem_singleton.mpr rfl))
    rw [received_concat hm hcs' hc, List.filter_append, List.length_append, List.length_append,
      ih hcs']
    cases hok : c.ok <;> simp [hok]

theorem betweenFrames_concat {cs : List (Sending α)} {c : Sending α} :
    BetweenFrames m (cs ++ [c]) ↔ BetweenFrames m cs ∧
      (c.ok = true → ∀ p, (wire cs).getLast? = some p → p.2.length < m) := by
  constructor
  · intro h
    refine ⟨fun before d after heq => ?_, h cs c [] rfl⟩
    exact h before d (after ++ [c]) (by rw [heq, List.append_assoc]; rfl)
  · rintro ⟨hcs, hc⟩ before d after heq
    rcases List.eq_nil_or_concat after with rfl | ⟨after, e, rfl⟩
    · obtain ⟨rfl, h⟩ := List.append_inj' heq rfl
      rw [← (List.cons.inj h).1]
      exact hc
    · rw [List.concat_eq_append, ← List.cons_append, ← List.append_assoc] at heq
      exact hcs before d after (List.append_inj' heq rfl).1

/-- What the receiver has in hand holds no items only if it is nothing. -/
theorem items_pending_eq_nil_iff (hm : 0 < m) (w : List (Bool × List α)) :
    items (pending (isShort m) [] w) = [] ↔
      ∀ p, w.getLast? = some p → p.2.length < m := by
  have hiff : (∀ p, w.getLast? = some p → p.2.length < m) ↔ pending (isShort m) [] w = [] := by
    rw [pending_nil_eq_nil_iff]
    simp only [isShort, decide_eq_true_eq]
  rw [hiff]
  constructor
  · intro h
    rw [List.eq_nil_iff_forall_not_mem]
    intro p hp
    have hshort : isShort m p = false :=
      pending_not_short (fun q hq => absurd hq List.not_mem_nil) p hp
    have hnil : p.2 = [] := List.flatten_eq_nil_iff.mp h _ (List.mem_map_of_mem hp)
    rw [isShort, hnil, decide_eq_false_iff_not] at hshort
    exact hshort hm
  · intro h
    rw [h]
    rfl

/-- **What was sent whole arrives whole** exactly if every done attempt began while
the receiver was between two frames. -/
theorem frames_intact_iff (hm : 0 < m) {cs : List (Sending α)} (hcs : ∀ c ∈ cs, c.Sound m) :
    Intact m cs ↔ BetweenFrames m cs := by
  induction cs using List.reverseRecOn with
  | nil =>
    refine iff_of_true rfl fun before c after heq => ?_
    exact absurd heq.symm (by simp)
  | append_singleton cs c ih =>
    have hcs' : ∀ d ∈ cs, d.Sound m := fun d hd => hcs d (List.mem_append_left _ hd)
    have hc : c.Sound m := hcs c (List.mem_append_right _ (List.mem_singleton.mpr rfl))
    have hlen := length_received hm hcs'
    rw [betweenFrames_concat, ← ih hcs', Intact, received_concat hm hcs' hc, List.filter_append,
      List.map_append, List.map_append, ← items_pending_eq_nil_iff hm]
    cases hok : c.ok with
    | false => simp [hok, Intact]
    | true =>
      have hitems : items (pending (isShort m) [] (wire cs) ++ c.marked) =
          items (pending (isShort m) [] (wire cs)) ++ c.data := by
        rw [items, items, List.map_append, List.flatten_append, Sending.marked, hc.whole hok,
          List.map_map]
        congr 1
        simp
      simp only [if_true, List.filter_cons, hok, List.filter_nil, List.map_cons, List.map_nil,
        hitems]
      constructor
      · intro h
        obtain ⟨h1, h2⟩ := List.append_inj h (by simpa using hlen)
        refine ⟨h1, fun _ => ?_⟩
        simpa using h2
      · rintro ⟨h1, h2⟩
        rw [Intact] at h1
        rw [h1, h2 trivial, List.nil_append]

end Usb2T1L
