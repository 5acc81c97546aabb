import Mathlib.Tactic

/-!
# Cyclic redundancy checks

A CRC is the remainder of a message under long division of polynomials over `GF(2)`, one
message bit at a time, most significant coefficient first.  Where the bits of a byte are sent
least significant first, implementations keep the remainder reversed, shift it the other way,
and add a whole byte of the message at once.

## Main definitions

* `Crc.shift`, `Crc.remainder` — the division.
* `Crc.shiftReflected` — a round of the reversed implementation.

## Main results

* `Crc.foldl_shiftReflected` — **the reversed implementation computes the remainder**.
-/

namespace Usb2T1L

namespace Crc

variable {w m n : ℕ}

/-- The remainder after one more bit of the message. -/
def shift (poly r : BitVec w) (b : Bool) : BitVec w :=
  if xor r.msb b = true then (r <<< 1) ^^^ poly else r <<< 1

/-- The remainder of a message, from a given start. -/
def remainder (poly start : BitVec w) (bits : List Bool) : BitVec w := bits.foldl (shift poly) start

/-- The first `k` bits of a word, least significant first. -/
def lowBits (k : ℕ) (d : BitVec m) : List Bool := (List.range k).map d.getLsbD

/-- The low bits of two words, one behind the other. -/
theorem lowBits_append (x : BitVec m) (y : BitVec n) :
    lowBits (n + m) (x ++ y) = lowBits n y ++ lowBits m x := by
  rw [lowBits, List.range_add, List.map_append, List.map_map]
  refine congrArg₂ _ (List.map_congr_left fun i hi => ?_) (List.map_congr_left fun i _ => ?_)
  · rw [BitVec.getLsbD_append, if_pos (List.mem_range.mp hi)]
  · rw [Function.comp_apply, BitVec.getLsbD_append, if_neg (by omega), Nat.add_sub_cancel_left]

/-- The bits of some words in a row, numbered through. -/
theorem flatMap_lowBits (f : ℕ → BitVec m) (k : ℕ) :
    ((List.range k).map f).flatMap (lowBits m) =
      (List.range (k * m)).map fun i => (f (i / m)).getLsbD (i % m) := by
  induction k with
  | zero => rw [Nat.zero_mul]; rfl
  | succ k ih =>
    rw [List.range_succ, List.map_append, List.flatMap_append, ih, Nat.succ_mul, List.range_add,
      List.map_append, List.map_singleton, List.flatMap_singleton, lowBits, List.map_map]
    refine congrArg _ (List.map_congr_left fun i hi => ?_)
    have hi := List.mem_range.mp hi
    rw [Function.comp_apply, Nat.mul_comm, Nat.mul_add_div (by omega), Nat.div_eq_of_lt hi,
      Nat.add_zero, Nat.mul_add_mod, Nat.mod_eq_of_lt hi]

/-- A round of the reversed implementation. -/
def shiftReflected (poly r : BitVec w) : BitVec w :=
  if r.getLsbD 0 = true then (r >>> 1) ^^^ poly else r >>> 1

/-- A bit as the lowest of a word. -/
def lowBit (w : ℕ) (b : Bool) : BitVec w := (BitVec.ofBool b).setWidth w

theorem getLsbD_lowBit_succ (b : Bool) (i : ℕ) : (lowBit w b).getLsbD (i + 1) = false := by
  rw [lowBit, BitVec.getLsbD_setWidth, BitVec.getLsbD_of_ge _ _ (by omega), Bool.and_false]

theorem getLsbD_lowBit_zero (h : 0 < w) (b : Bool) : (lowBit w b).getLsbD 0 = b := by
  rw [lowBit, BitVec.getLsbD_setWidth, decide_eq_true h, Bool.true_and]
  cases b <;> rfl

theorem reverse_xor (x y : BitVec w) : (x ^^^ y).reverse = x.reverse ^^^ y.reverse := by
  apply BitVec.eq_of_getLsbD_eq
  intro i _
  simp only [BitVec.getLsbD_reverse, BitVec.getMsbD_xor, BitVec.getLsbD_xor]

/-- **One bit, reversed.** -/
theorem reverse_shift (poly r : BitVec w) (b : Bool) :
    (shift poly r b).reverse = shiftReflected poly.reverse (r.reverse ^^^ lowBit w b) := by
  rcases Nat.eq_zero_or_pos w with rfl | hw
  · exact Subsingleton.elim _ _
  have hcond : (r.reverse ^^^ lowBit w b).getLsbD 0 = xor r.msb b := by
    rw [BitVec.getLsbD_xor, BitVec.getLsbD_reverse, getLsbD_lowBit_zero hw, BitVec.msb]
  have hshift : (r <<< 1).reverse = (r.reverse ^^^ lowBit w b) >>> 1 := by
    apply BitVec.eq_of_getLsbD_eq
    intro i hi
    rw [BitVec.getLsbD_reverse, BitVec.getLsbD_ushiftRight, BitVec.getLsbD_xor, Nat.add_comm,
      getLsbD_lowBit_succ, Bool.xor_false, BitVec.getLsbD_reverse, BitVec.getMsbD_shiftLeft]
  rw [shift, shiftReflected, hcond]
  split
  · rw [← hshift, reverse_xor]
  · exact hshift

/-! ### A whole byte at once -/

/-- What is added to the remainder beyond its lowest bit only moves down. -/
theorem shiftReflected_xor (poly r d : BitVec w) :
    shiftReflected poly (r ^^^ d) =
      shiftReflected poly (r ^^^ lowBit w (d.getLsbD 0)) ^^^ (d >>> 1) := by
  rcases Nat.eq_zero_or_pos w with rfl | hw
  · exact Subsingleton.elim _ _
  have hcond : (r ^^^ lowBit w (d.getLsbD 0)).getLsbD 0 = (r ^^^ d).getLsbD 0 := by
    rw [BitVec.getLsbD_xor, BitVec.getLsbD_xor, getLsbD_lowBit_zero hw]
  have hshift : (r ^^^ d) >>> 1 = ((r ^^^ lowBit w (d.getLsbD 0)) >>> 1) ^^^ (d >>> 1) := by
    apply BitVec.eq_of_getLsbD_eq
    intro i hi
    simp only [BitVec.getLsbD_xor, BitVec.getLsbD_ushiftRight]
    rw [Nat.add_comm 1 i, getLsbD_lowBit_succ, Bool.xor_false]
  rw [shiftReflected, shiftReflected, hcond, hshift]
  split
  · rw [BitVec.xor_assoc, BitVec.xor_assoc, BitVec.xor_comm (d >>> 1)]
  · rfl

theorem lowBits_succ (k : ℕ) (d : BitVec w) :
    lowBits (k + 1) d = d.getLsbD 0 :: lowBits k (d >>> 1) := by
  rw [lowBits, lowBits, List.range_succ_eq_map, List.map_cons, List.map_map]
  refine congrArg (d.getLsbD 0 :: ·) (List.map_congr_left fun i _ => ?_)
  rw [Function.comp_apply, BitVec.getLsbD_ushiftRight, Nat.succ_eq_add_one, Nat.add_comm]

/-- `k` bits added at once are taken in by `k` rounds. -/
theorem iterate_shiftReflected (poly : BitVec w) :
    ∀ (k : ℕ) (r d : BitVec w), (∀ i, k ≤ i → d.getLsbD i = false) →
      (shiftReflected poly)^[k] (r ^^^ d) =
        (lowBits k d).foldl (fun r b => shiftReflected poly (r ^^^ lowBit w b)) r := by
  intro k
  induction k with
  | zero =>
    intro r d hd
    have hzero : d = 0#w := by
      apply BitVec.eq_of_getLsbD_eq
      intro i _
      rw [hd i (Nat.zero_le i)]
      exact (BitVec.getLsbD_zero).symm
    rw [hzero, BitVec.xor_zero]
    rfl
  | succ k ih =>
    intro r d hd
    rw [Function.iterate_succ_apply, shiftReflected_xor, lowBits_succ, List.foldl_cons]
    refine ih _ _ fun i hi => ?_
    rw [BitVec.getLsbD_ushiftRight]
    exact hd _ (by omega)

theorem lowBits_setWidth {k : ℕ} (h : k ≤ w) (d : BitVec m) :
    lowBits k (d.setWidth w) = lowBits k d := by
  refine List.map_congr_left fun i hi => ?_
  rw [BitVec.getLsbD_setWidth, decide_eq_true (by have := List.mem_range.mp hi; omega),
    Bool.true_and]

/-- Several bits, reversed. -/
theorem reverse_remainder (poly : BitVec w) : ∀ (bits : List Bool) (r : BitVec w),
    (remainder poly r bits).reverse =
      bits.foldl (fun r b => shiftReflected poly.reverse (r ^^^ lowBit w b)) r.reverse := by
  intro bits
  induction bits with
  | nil => intro r; rfl
  | cons b bits ih =>
    intro r
    rw [remainder, List.foldl_cons, List.foldl_cons, ← reverse_shift]
    exact ih (shift poly r b)

/-- **The reversed implementation computes the remainder** of the bytes, each sent least
significant bit first. -/
theorem foldl_shiftReflected (poly : BitVec w) (h : m ≤ w) : ∀ (data : List (BitVec m))
    (start : BitVec w),
    data.foldl (fun r d => (shiftReflected poly.reverse)^[m] (r ^^^ d.setWidth w)) start.reverse =
      (remainder poly start (data.flatMap (lowBits m))).reverse := by
  intro data
  induction data with
  | nil => intro start; rfl
  | cons d data ih =>
    intro start
    have hhigh : ∀ i, m ≤ i → (d.setWidth w).getLsbD i = false := by
      intro i hi
      rw [BitVec.getLsbD_setWidth, BitVec.getLsbD_of_ge d i hi, Bool.and_false]
    rw [List.foldl_cons, iterate_shiftReflected _ _ _ _ hhigh, lowBits_setWidth h,
      ← reverse_remainder, ih, List.flatMap_cons, remainder, remainder, remainder,
      List.foldl_append]

end Crc

end Usb2T1L
