import Usb2T1L.Lib.Crc

/-!
# What a CRC detects

A message that carries its CRC behind it has remainder zero, and the remainder is linear.  So a
corrupted message passes the check exactly if the error pattern, as a message of its own, has
remainder zero.  Short bursts never have, two bits only when they are as far apart as the order
of `x`, and an odd number of bits never when `x + 1` divides the polynomial.

## Main definitions

* `Crc.highBits` — the bits of a word as they are divided.
* `Crc.parity` — the parity of a list of bits.

## Main results

* `Crc.remainder_xor` — the remainder is linear.
* `Crc.foldl_shift` — the implementation that adds whole words computes it.
* `Crc.remainder_append_highBits` — passing the check, as a remainder that is zero.
* `Crc.remainder_highBits_ne_zero` — **at most three bits, and bursts, are detected**.
-/

namespace Usb2T1L

namespace Crc

variable {w m n : ℕ}

/-! ### Linearity -/

/-- The bits of a word, most significant first. -/
def highBits (d : BitVec m) : List Bool := (List.range m).map d.getMsbD

theorem length_highBits (d : BitVec m) : (highBits d).length = m := by
  rw [highBits, List.length_map, List.length_range]

/-- The bits of two words, one behind the other. -/
theorem highBits_append (a : BitVec m) (b : BitVec n) :
    highBits (a ++ b) = highBits a ++ highBits b := by
  rw [highBits, List.range_add, List.map_append, List.map_map]
  refine congrArg₂ _ (List.map_congr_left fun i hi => ?_) (List.map_congr_left fun i _ => ?_)
  · rw [BitVec.getMsbD_append, if_neg (not_le.mpr (List.mem_range.mp hi))]
  · rw [Function.comp_apply, BitVec.getMsbD_append, if_pos (Nat.le_add_right m i),
      Nat.add_sub_cancel_left]

/-- Read from the other end, the bits of a word are its low bits. -/
theorem highBits_reverse (x : BitVec m) : highBits x.reverse = lowBits m x :=
  List.map_congr_left fun _ _ => BitVec.getMsbD_reverse

/-- A step of the division, as a shift and a subtraction. -/
theorem shift_eq (poly r : BitVec w) (b : Bool) :
    shift poly r b = (r <<< 1) ^^^ if xor r.msb b = true then poly else 0#w := by
  rw [shift]
  split
  · rfl
  · exact BitVec.xor_zero.symm

/-- A step is linear. -/
theorem shift_xor (poly r s : BitVec w) (a b : Bool) :
    shift poly (r ^^^ s) (xor a b) = shift poly r a ^^^ shift poly s b := by
  have hmask : ∀ c c' : Bool, (if xor c c' = true then poly else 0#w) =
      (if c = true then poly else 0#w) ^^^ if c' = true then poly else 0#w := by
    intro c c'
    cases c <;> cases c' <;> simp
  have hcond : xor (r ^^^ s).msb (xor a b) = xor (xor r.msb a) (xor s.msb b) := by
    rw [BitVec.msb_xor]
    cases r.msb <;> cases s.msb <;> cases a <;> cases b <;> rfl
  rw [shift_eq, shift_eq, shift_eq, hcond, hmask, BitVec.shiftLeft_xor_distrib]
  ac_rfl

/-- **The remainder is linear.** -/
theorem remainder_xor {ι : Type*} (poly : BitVec w) (f g : ι → Bool) : ∀ (is : List ι)
    (r s : BitVec w), remainder poly (r ^^^ s) (is.map fun i => xor (f i) (g i)) =
      remainder poly r (is.map f) ^^^ remainder poly s (is.map g) := by
  intro is
  induction is with
  | nil => intro r s; rfl
  | cons i is ih =>
    intro r s
    simp only [remainder, List.map_cons, List.foldl_cons] at ih ⊢
    rw [shift_xor, ih]

theorem highBits_xor (a b : BitVec m) :
    highBits (a ^^^ b) = (List.range m).map fun i => xor (a.getMsbD i) (b.getMsbD i) :=
  List.map_congr_left fun _ _ => BitVec.getMsbD_xor

theorem remainder_cons (poly r : BitVec w) (b : Bool) (l : List Bool) :
    remainder poly r (b :: l) = remainder poly (shift poly r b) l := rfl

theorem remainder_append (poly r : BitVec w) (l l' : List Bool) :
    remainder poly r (l ++ l') = remainder poly (remainder poly r l) l' := List.foldl_append

/-- The same for messages of words. -/
theorem remainder_zipWith (poly : BitVec w) : ∀ {a b : List (BitVec m)}, a.length = b.length →
    ∀ r s : BitVec w, remainder poly (r ^^^ s) ((List.zipWith (· ^^^ ·) a b).flatMap highBits) =
      remainder poly r (a.flatMap highBits) ^^^ remainder poly s (b.flatMap highBits) := by
  intro a
  induction a with
  | nil =>
    intro b h r s
    obtain rfl := List.eq_nil_of_length_eq_zero h.symm
    rfl
  | cons x a ih =>
    intro b h r s
    cases b with
    | nil => exact absurd h (Nat.succ_ne_zero _)
    | cons y b =>
      have hword := remainder_xor poly x.getMsbD y.getMsbD (List.range m) r s
      rw [List.zipWith_cons_cons, List.flatMap_cons, List.flatMap_cons, List.flatMap_cons,
        remainder_append, remainder_append, remainder_append, highBits_xor, hword]
      exact ih (Nat.succ.inj h) _ _

/-! ### Words and zeros -/

variable {poly : BitVec w}

theorem shift_zero (b : Bool) : shift poly 0#w b = if b = true then poly else 0#w := by
  rw [shift_eq, BitVec.msb_zero, Bool.false_xor, BitVec.zero_shiftLeft, BitVec.zero_xor]

theorem shift_true (poly r : BitVec w) : shift poly r true = shift poly r false ^^^ poly := by
  have h := shift_xor poly r 0#w false true
  rwa [BitVec.xor_zero, shift_zero, if_pos rfl] at h

/-- Leading zeros do not count. -/
theorem remainder_zeros (k : ℕ) (l : List Bool) :
    remainder poly 0#w (List.replicate k false ++ l) = remainder poly 0#w l := by
  induction k with
  | zero => rfl
  | succ k ih =>
    rw [List.replicate_succ, List.cons_append, remainder, List.foldl_cons, shift_zero]
    exact ih

/-- **A word at once**: its bits can be added to the remainder before they are shifted in. -/
theorem remainder_getMsbD : ∀ (k : ℕ) (r d : BitVec w), (∀ i, k ≤ i → d.getMsbD i = false) →
    remainder poly r ((List.range k).map d.getMsbD) =
      remainder poly (r ^^^ d) (List.replicate k false) := by
  intro k
  induction k with
  | zero =>
    intro r d hd
    have hzero : d = 0#w := by
      apply BitVec.eq_of_getMsbD_eq
      intro i _
      rw [hd i (Nat.zero_le i), BitVec.getMsbD_zero]
    rw [hzero, BitVec.xor_zero]
    rfl
  | succ k ih =>
    intro r d hd
    -- the first bit of the word is shifted in, and the others move up by one
    have hshift : shift poly (r ^^^ d) false = shift poly r (d.getMsbD 0) ^^^ (d <<< 1) := by
      rw [shift_eq, shift_eq, BitVec.msb_xor, Bool.xor_false, BitVec.shiftLeft_xor_distrib,
        ← BitVec.msb_eq_getMsbD_zero]
      ac_rfl
    have hbits : (List.range k).map (d.getMsbD ∘ Nat.succ) =
        (List.range k).map (d <<< 1).getMsbD :=
      List.map_congr_left fun i _ => (BitVec.getMsbD_shiftLeft d 1).symm
    have hnext := ih (shift poly r (d.getMsbD 0)) (d <<< 1) fun i hi => by
      rw [BitVec.getMsbD_shiftLeft]
      exact hd _ (Nat.succ_le_succ hi)
    rw [List.range_succ_eq_map, List.map_cons, List.map_map, hbits, List.replicate_succ, remainder,
      remainder, List.foldl_cons, List.foldl_cons, hshift]
    exact hnext

theorem remainder_highBits (r d : BitVec w) :
    remainder poly r (highBits d) = remainder poly (r ^^^ d) (List.replicate w false) :=
  remainder_getMsbD w r d fun i hi => BitVec.getMsbD_of_ge d i hi

theorem remainder_replicate (r : BitVec w) (k : ℕ) :
    remainder poly r (List.replicate k false) = (fun r => shift poly r false)^[k] r := by
  induction k generalizing r with
  | zero => rfl
  | succ k ih =>
    rw [List.replicate_succ, remainder_cons, ih, Function.iterate_succ_apply]

/-- **The implementation that adds whole words computes the remainder.** -/
theorem foldl_shift : ∀ (data : List (BitVec w)) (start : BitVec w),
    data.foldl (fun r d => (fun r => shift poly r false)^[w] (r ^^^ d)) start =
      remainder poly start (data.flatMap highBits) := by
  intro data
  induction data with
  | nil => intro start; rfl
  | cons d data ih =>
    intro start
    rw [List.foldl_cons, ← remainder_replicate, ← remainder_highBits, ih, List.flatMap_cons,
      remainder_append]

/-- With a constant term in the polynomial nothing is lost by shifting. -/
theorem eq_zero_of_shift (h : poly.getLsbD 0 = true) {r : BitVec w}
    (hr : shift poly r false = 0#w) : r = 0#w := by
  rw [shift, Bool.xor_false] at hr
  cases hmsb : r.msb with
  | true =>
    -- the constant term has been subtracted from a bit that was zero
    rw [if_pos hmsb] at hr
    have hbit := congrArg (fun x => x.getLsbD 0) hr
    simp [h] at hbit
  | false =>
    rw [if_neg (by simp [hmsb])] at hr
    apply BitVec.eq_of_getMsbD_eq
    intro i _
    cases i with
    | zero => rw [← BitVec.msb_eq_getMsbD_zero, hmsb, BitVec.getMsbD_zero]
    | succ i => rw [← BitVec.getMsbD_shiftLeft r 1, hr, BitVec.getMsbD_zero, BitVec.getMsbD_zero]

theorem eq_zero_of_remainder (h : poly.getLsbD 0 = true) (k : ℕ) : ∀ {r : BitVec w},
    remainder poly r (List.replicate k false) = 0#w → r = 0#w := by
  induction k with
  | zero => exact id
  | succ k ih => exact fun hr => eq_zero_of_shift h (ih hr)

/-- **A message passes the check exactly if with its CRC behind it its remainder is zero.** -/
theorem remainder_append_highBits (h : poly.getLsbD 0 = true) (l : List Bool) (c : BitVec w) :
    remainder poly 0#w (l ++ highBits c) = 0#w ↔ remainder poly 0#w l = c := by
  rw [remainder_append, remainder_highBits]
  constructor
  · exact fun hzero => BitVec.xor_eq_zero_iff.mp (eq_zero_of_remainder h w hzero)
  · rintro rfl
    have hzeros : remainder poly 0#w (List.replicate w false ++ []) = 0#w := remainder_zeros w []
    rwa [BitVec.xor_self, ← List.append_nil (List.replicate w false)]

/-! ### Error patterns -/

/-- **A burst is detected**: a word that is not zero, among zeros. -/
theorem remainder_window_ne_zero (h : poly.getLsbD 0 = true) {d : BitVec w} (hd : d ≠ 0#w)
    (j k : ℕ) : remainder poly 0#w
      (List.replicate j false ++ highBits d ++ List.replicate k false) ≠ 0#w := by
  intro hzero
  -- the zeros in front do nothing, and the word is then the remainder, shifted
  rw [List.append_assoc, remainder_zeros, remainder_append, remainder_highBits,
    BitVec.zero_xor] at hzero
  exact hd (eq_zero_of_remainder h w (eq_zero_of_remainder h k hzero))

/-- The parity of a list of bits. -/
def parity (l : List Bool) : Bool := l.foldr xor false

theorem parity_append (l l' : List Bool) : parity (l ++ l') = xor (parity l) (parity l') := by
  induction l with
  | nil => exact (Bool.false_xor _).symm
  | cons b l ih => exact (congrArg (xor b) ih).trans (Bool.xor_assoc _ _ _).symm

theorem parity_eq (l : List Bool) : parity l = decide (l.count true % 2 = 1) := by
  induction l with
  | nil => rfl
  | cons b l ih =>
    rw [parity, List.foldr_cons, ← parity, ih]
    cases b with
    | false => rw [List.count_cons_of_ne (by decide), Bool.false_xor]
    | true =>
      rw [List.count_cons_self, Bool.true_xor, ← decide_not, decide_eq_decide]
      omega

theorem parity_map_xor {ι : Type*} (f g : ι → Bool) (is : List ι) :
    parity (is.map fun i => xor (f i) (g i)) = xor (parity (is.map f)) (parity (is.map g)) := by
  induction is with
  | nil => rfl
  | cons i is ih =>
    show xor (xor (f i) (g i)) (parity _) = xor (xor (f i) (parity _)) (xor (g i) (parity _))
    rw [ih]
    cases f i <;> cases g i <;> simp

theorem parity_highBits_xor (a b : BitVec m) :
    parity (highBits (a ^^^ b)) = xor (parity (highBits a)) (parity (highBits b)) := by
  rw [highBits_xor, parity_map_xor]
  rfl

theorem parity_highBits_zero : parity (highBits 0#w) = false := by
  have h := parity_highBits_xor 0#w 0#w
  rwa [BitVec.xor_zero, Bool.xor_self] at h

/-- Shifting a word loses its first bit, and brings in a zero behind the others. -/
theorem highBits_shiftLeft (r : BitVec (m + 1)) :
    ∃ l, highBits r = r.msb :: l ∧ highBits (r <<< 1) = l ++ [false] := by
  refine ⟨(List.range m).map (r.getMsbD ∘ Nat.succ), ?_, ?_⟩
  · rw [highBits, List.range_succ_eq_map, List.map_cons, List.map_map, BitVec.msb_eq_getMsbD_zero]
  · rw [highBits, List.range_succ, List.map_append]
    refine congrArg₂ _ (List.map_congr_left fun i _ => BitVec.getMsbD_shiftLeft r 1) ?_
    rw [List.map_singleton, BitVec.getMsbD_shiftLeft, BitVec.getMsbD_of_ge _ _ le_rfl]

theorem parity_shiftLeft (r : BitVec w) :
    parity (highBits (r <<< 1)) = xor r.msb (parity (highBits r)) := by
  cases w with
  | zero => rw [Subsingleton.elim r 0#0]; rfl
  | succ v =>
    obtain ⟨l, hbits, hshift⟩ := highBits_shiftLeft r
    rw [hshift, parity_append, hbits]
    show xor _ false = xor r.msb (xor r.msb _)
    rw [Bool.xor_false, ← Bool.xor_assoc, Bool.xor_self, Bool.false_xor]
    rfl

/-- **Where the polynomial has an even number of terms**, a step adds its bit to the parity. -/
theorem parity_shift (hpar : parity (highBits poly) = true) (r : BitVec w) (b : Bool) :
    parity (highBits (shift poly r b)) = xor (parity (highBits r)) b := by
  rw [shift]
  cases hmsb : r.msb <;> cases b <;>
    simp [parity_highBits_xor, parity_shiftLeft, hpar, hmsb]

theorem parity_remainder (hpar : parity (highBits poly) = true) (l : List Bool) :
    ∀ r : BitVec w, parity (highBits (remainder poly r l)) =
      xor (parity (highBits r)) (parity l) := by
  induction l with
  | nil => intro r; exact (Bool.xor_false _).symm
  | cons b l ih =>
    intro r
    have hstep := ih (shift poly r b)
    rw [parity_shift hpar, Bool.xor_assoc] at hstep
    exact hstep

/-- **An odd number of bits is detected.** -/
theorem remainder_odd_ne_zero (hpar : parity (highBits poly) = true) {l : List Bool}
    (hodd : l.count true % 2 = 1) : remainder poly 0#w l ≠ 0#w := by
  intro hzero
  have h := parity_remainder hpar l 0#w
  rw [hzero, parity_highBits_zero, Bool.false_xor, parity_eq, decide_eq_true hodd] at h
  exact absurd h (by decide)

/-- The first bit that is set. -/
theorem exists_eq_zeros_append {l : List Bool} (h : 0 < l.count true) :
    ∃ k l', l = List.replicate k false ++ true :: l' ∧ l'.count true + 1 = l.count true := by
  induction l with
  | nil => exact absurd h (by simp)
  | cons b l ih =>
    cases b with
    | true => exact ⟨0, l, rfl, List.count_cons_self.symm⟩
    | false =>
      rw [List.count_cons_of_ne (by decide)] at h ⊢
      obtain ⟨k, l', hl, hcount⟩ := ih h
      exact ⟨k + 1, l', congrArg (false :: ·) hl, hcount⟩

/-- **Two bits are detected**, where they are not as far apart as the order of the shift. -/
theorem remainder_two_ne_zero (h : poly.getLsbD 0 = true) {l : List Bool}
    (horder : ∀ k, 0 < k → k < l.length →
      remainder poly poly (List.replicate k false) ≠ poly)
    (htwo : l.count true = 2) : remainder poly 0#w l ≠ 0#w := by
  obtain ⟨i, l1, hl1, hcount1⟩ := exists_eq_zeros_append (htwo ▸ two_pos)
  obtain ⟨j, l2, hl2, hcount2⟩ := exists_eq_zeros_append (show 0 < l1.count true by omega)
  have hl3 : l2 = List.replicate l2.length false :=
    List.eq_replicate_iff.mpr ⟨rfl, fun b hb => by
      have hnot : true ∉ l2 := List.count_eq_zero.mp (by omega)
      cases b with
      | false => rfl
      | true => exact absurd hb hnot⟩
  have hlen : j + 1 < l.length := by
    rw [hl1, hl2]
    simp only [List.length_append, List.length_cons, List.length_replicate]
    omega
  intro hzero
  rw [hl1, remainder_zeros, remainder_cons, shift_zero, if_pos rfl, hl2, remainder_append,
    remainder_cons, hl3] at hzero
  -- after the second bit the remainder was zero
  have hsecond := eq_zero_of_remainder h _ hzero
  refine horder (j + 1) j.succ_pos hlen ?_
  rw [List.replicate_succ', remainder_append, ← BitVec.xor_eq_zero_iff, ← hsecond]
  exact (shift_true poly _).symm

/-- **At most three bits are detected.** -/
theorem remainder_ne_zero_of_count (h : poly.getLsbD 0 = true)
    (hpar : parity (highBits poly) = true) {l : List Bool}
    (horder : ∀ k, 0 < k → k < l.length →
      remainder poly poly (List.replicate k false) ≠ poly)
    (hpos : 0 < l.count true) (hle : l.count true ≤ 3) : remainder poly 0#w l ≠ 0#w := by
  by_cases htwo : l.count true = 2
  · exact remainder_two_ne_zero h horder htwo
  · exact remainder_odd_ne_zero hpar (by omega)

/-! ### Patterns as words -/

theorem map_range_eq_zeros {f : ℕ → Bool} {k : ℕ} (h : ∀ i < k, f i = false) :
    (List.range k).map f = List.replicate k false := by
  refine List.eq_replicate_iff.mpr ⟨by rw [List.length_map, List.length_range], fun b hb => ?_⟩
  obtain ⟨i, hi, rfl⟩ := List.mem_map.mp hb
  exact h i (List.mem_range.mp hi)

theorem highBits_zero : highBits 0#w = List.replicate w false :=
  map_range_eq_zeros fun _ _ => BitVec.getMsbD_zero

/-- The bits of a word whose set bits are within `w` consecutive ones. -/
theorem highBits_window {j k : ℕ} {p : BitVec (j + w + k)}
    (hwin : ∀ i, p.getLsbD i = true → k ≤ i ∧ i < k + w) :
    highBits p = List.replicate j false ++ highBits (p.extractLsb' k w) ++
      List.replicate k false := by
  have hfalse : ∀ i, ¬ (k ≤ j + w + k - 1 - i ∧ j + w + k - 1 - i < k + w) →
      p.getMsbD i = false := by
    intro i hout
    rw [BitVec.getMsbD_eq_getLsbD, Bool.and_eq_false_iff]
    exact .inr (Bool.eq_false_iff.mpr fun hset => hout (hwin _ hset))
  rw [highBits, List.range_add, List.map_append, List.range_add, List.map_append, List.map_map,
    List.map_map]
  refine congrArg₂ _ (congrArg₂ _ ?_ ?_) ?_
  · exact map_range_eq_zeros fun i hi => hfalse i (by omega)
  · refine List.map_congr_left fun i hi => ?_
    have hi := List.mem_range.mp hi
    rw [Function.comp_apply, BitVec.getMsbD_eq_getLsbD, BitVec.getMsbD_eq_getLsbD,
      BitVec.getLsbD_extractLsb', decide_eq_true hi, decide_eq_true (by omega : j + i < j + w + k),
      decide_eq_true (by omega : w - 1 - i < w), Bool.true_and, Bool.true_and, Bool.true_and]
    congr 1
    omega
  · refine map_range_eq_zeros fun i hi => hfalse (j + w + i) ?_
    omega

theorem count_highBits_pos {p : BitVec n} (hp : p ≠ 0#n) : 0 < (highBits p).count true := by
  rw [List.count_pos_iff, highBits, List.mem_map]
  by_contra hnone
  push Not at hnone
  refine hp (BitVec.eq_of_getMsbD_eq fun i hi => ?_)
  rw [BitVec.getMsbD_zero]
  exact Bool.eq_false_iff.mpr (hnone i (List.mem_range.mpr hi))

/-- **A burst is detected**, wherever it lies in a codeword of `n` bits. -/
theorem remainder_burst_ne_zero (h : poly.getLsbD 0 = true) (hw : w ≤ n) {p : BitVec n}
    (hp : p ≠ 0#n) {k : ℕ} (hwin : ∀ i, p.getLsbD i = true → k ≤ i ∧ i < k + w) :
    remainder poly 0#w (highBits p) ≠ 0#w := by
  -- a window that ends beyond the word can be moved down to its end
  obtain ⟨k', hk', hwin⟩ : ∃ k', k' + w ≤ n ∧
      ∀ i, p.getLsbD i = true → k' ≤ i ∧ i < k' + w := by
    refine ⟨min k (n - w), by omega, fun i hi => ?_⟩
    have hi' := BitVec.lt_of_getLsbD hi
    have := hwin i hi
    omega
  obtain ⟨j, rfl⟩ : ∃ j, n = j + w + k' := ⟨n - w - k', by omega⟩
  have hbits := highBits_window hwin
  rw [hbits]
  refine remainder_window_ne_zero h (fun hzero => ?_) j k'
  have hpos := count_highBits_pos hp
  rw [hbits, hzero, highBits_zero] at hpos
  simp [List.count_replicate] at hpos

/-- **What is detected in a codeword of `n` bits.** -/
theorem remainder_highBits_ne_zero (h : poly.getLsbD 0 = true)
    (hpar : parity (highBits poly) = true) (hw : w ≤ n)
    (horder : ∀ k, 0 < k → k < n → remainder poly poly (List.replicate k false) ≠ poly)
    {p : BitVec n} (hp : p ≠ 0#n)
    (herr : (highBits p).count true ≤ 3 ∨
      ∃ k, ∀ i, p.getLsbD i = true → k ≤ i ∧ i < k + w) :
    remainder poly 0#w (highBits p) ≠ 0#w := by
  rcases herr with hcount | ⟨k, hwin⟩
  · refine remainder_ne_zero_of_count h hpar ?_ (count_highBits_pos hp) hcount
    rw [length_highBits]
    exact horder
  · exact remainder_burst_ne_zero h hw hp hwin

/-! ### Patterns as lists -/

/-- The number of bits that are set. -/
theorem count_map_true {ι : Type*} (f : ι → Bool) (is : List ι) :
    (is.map f).count true = (is.filter f).length := by
  rw [List.count_eq_countP, List.countP_map, List.countP_eq_length_filter]
  refine congrArg List.length (List.filter_congr fun i _ => ?_)
  exact beq_true (f i)

/-- The bits of the word that a list of bits is. -/
theorem highBits_ofBoolListBE (l : List Bool) : highBits (BitVec.ofBoolListBE l) = l := by
  apply List.ext_getElem
  · rw [length_highBits]
  · intro i hi hl
    rw [highBits] at hi
    simp only [highBits, List.getElem_map, List.getElem_range, BitVec.getMsbD_ofBoolListBE]
    exact (List.getElem_eq_getD false).symm

/-- A burst, counted from the front. -/
theorem remainder_list_burst_ne_zero (h : poly.getLsbD 0 = true) {l : List Bool}
    (hw : w ≤ l.length) (hl : true ∈ l) {k : ℕ}
    (hwin : ∀ i, l.getD i false = true → k ≤ i ∧ i < k + w) : remainder poly 0#w l ≠ 0#w := by
  have hne : BitVec.ofBoolListBE l ≠ 0#l.length := by
    intro hzero
    have hbits := highBits_ofBoolListBE l
    rw [hzero, highBits_zero] at hbits
    rw [← hbits] at hl
    exact absurd (List.eq_of_mem_replicate hl) (by decide)
  have hwin' : ∀ i, (BitVec.ofBoolListBE l).getLsbD i = true →
      l.length - k - w ≤ i ∧ i < l.length - k - w + w := by
    intro i hi
    rw [BitVec.getLsbD_ofBoolListBE, Bool.and_eq_true, decide_eq_true_iff] at hi
    have := hwin _ hi.2
    omega
  have hburst := remainder_burst_ne_zero h hw hne hwin'
  rwa [highBits_ofBoolListBE] at hburst

/-! ### The order of the shift -/

/-- The polynomial does not come back within `n` steps. -/
def noReturn (poly : BitVec w) : ℕ → BitVec w → Bool
  | 0, _ => true
  | n + 1, r => decide (shift poly r false ≠ poly) && noReturn poly n (shift poly r false)

theorem remainder_ne_of_noReturn : ∀ {n : ℕ} {r : BitVec w}, noReturn poly n r = true →
    ∀ k, 0 < k → k ≤ n → remainder poly r (List.replicate k false) ≠ poly := by
  intro n
  induction n with
  | zero => intro r _ k hpos hk; omega
  | succ n ih =>
    intro r h k hpos hk
    rw [noReturn, Bool.and_eq_true, decide_eq_true_iff] at h
    obtain ⟨j, rfl⟩ := Nat.exists_eq_add_one_of_ne_zero hpos.ne'
    rw [List.replicate_succ, remainder_cons]
    cases j with
    | zero => exact h.1
    | succ j => exact ih h.2 (j + 1) j.succ_pos (Nat.le_of_succ_le_succ hk)

end Crc

end Usb2T1L
