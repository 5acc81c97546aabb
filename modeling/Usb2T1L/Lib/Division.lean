import Mathlib.Algebra.Polynomial.Div
import Usb2T1L.Lib.Detection

/-!
# The remainder as a polynomial

`Crc.remainder` divides bit by bit.  Here bits are coefficients of polynomials over `GF(2)`, most
significant first, and what the loop leaves is the remainder of Mathlib's division.

## Main definitions

* `Crc.toPoly` — the polynomial of a list of bits.
* `Crc.divisor` — the polynomial of a CRC, with its leading term.

## Main results

* `Crc.toPoly_remainder` — **the loop computes the remainder of the division**.
-/

namespace Usb2T1L

namespace Crc

open Polynomial

variable {w m : ℕ}

/-! ### Bits as coefficients -/

/-- A bit as an element of `GF(2)`. -/
def coeffOf (b : Bool) : ZMod 2 := if b = true then 1 else 0

theorem coeffOf_xor (a b : Bool) : coeffOf (xor a b) = coeffOf a + coeffOf b := by
  cases a <;> cases b <;> decide

theorem coeffOf_inj {a b : Bool} (h : coeffOf a = coeffOf b) : a = b := by
  cases a <;> cases b <;> simp [coeffOf] at h ⊢

/-- The polynomial of a list of bits, most significant coefficient first. -/
noncomputable def toPoly : List Bool → (ZMod 2)[X]
  | [] => 0
  | b :: l => C (coeffOf b) * X ^ l.length + toPoly l

@[simp] theorem toPoly_nil : toPoly [] = 0 := rfl

@[simp] theorem toPoly_cons (b : Bool) (l : List Bool) :
    toPoly (b :: l) = C (coeffOf b) * X ^ l.length + toPoly l := rfl

/-- What is in front counts as many places more as there are bits behind it. -/
theorem toPoly_append (l l' : List Bool) :
    toPoly (l ++ l') = toPoly l * X ^ l'.length + toPoly l' := by
  induction l with
  | nil => simp
  | cons b l ih =>
    rw [List.cons_append, toPoly_cons, toPoly_cons, ih, List.length_append, pow_add]
    ring

theorem degree_toPoly_lt (l : List Bool) : (toPoly l).degree < l.length := by
  induction l with
  | nil => exact degree_zero.trans_lt (WithBot.bot_lt_coe 0)
  | cons b l ih =>
    have hlt : (l.length : WithBot ℕ) < (b :: l).length := by
      rw [List.length_cons]
      exact_mod_cast Nat.lt_succ_self _
    exact (degree_add_le _ _).trans_lt
      (max_lt ((degree_C_mul_X_pow_le _ _).trans_lt hlt) (ih.trans hlt))

/-- Adding bits adds polynomials. -/
theorem coeff_toPoly_cons (b : Bool) (l : List Bool) :
    (toPoly (b :: l)).coeff l.length = coeffOf b := by
  rw [toPoly_cons, coeff_add, coeff_C_mul, coeff_X_pow, if_pos rfl, mul_one,
    coeff_eq_zero_of_degree_lt (degree_toPoly_lt l), add_zero]

/-- The polynomial determines the bits, if their number is known. -/
theorem toPoly_inj : ∀ {l l' : List Bool}, l.length = l'.length → toPoly l = toPoly l' →
    l = l' := by
  intro l
  induction l with
  | nil => intro l' hlen _; exact (List.length_eq_zero_iff.mp hlen.symm).symm
  | cons b l ih =>
    intro l' hlen h
    cases l' with
    | nil => simp at hlen
    | cons b' l' =>
      have hlen : l.length = l'.length := Nat.succ_injective hlen
      have hb : coeffOf b = coeffOf b' := by
        rw [← coeff_toPoly_cons b l, h, hlen, coeff_toPoly_cons]
      have htail : toPoly l = toPoly l' := by
        rw [toPoly_cons, toPoly_cons, hb, hlen] at h
        exact add_left_cancel h
      rw [coeffOf_inj hb, ih hlen htail]

theorem toPoly_map_xor {ι : Type*} (f g : ι → Bool) (is : List ι) :
    toPoly (is.map fun i => xor (f i) (g i)) = toPoly (is.map f) + toPoly (is.map g) := by
  induction is with
  | nil => simp
  | cons i is ih =>
    simp only [List.map_cons, toPoly_cons, List.length_map, ih, coeffOf_xor, map_add]
    ring

/-! ### Words -/

/-- The polynomial of a word determines it. -/
theorem toPoly_highBits_inj {a b : BitVec m} (h : toPoly (highBits a) = toPoly (highBits b)) :
    a = b := by
  have hbits := toPoly_inj ((length_highBits a).trans (length_highBits b).symm) h
  refine BitVec.eq_of_getMsbD_eq fun i hi => ?_
  exact List.map_inj_left.mp hbits i (List.mem_range.mpr hi)

theorem toPoly_highBits_xor (a b : BitVec m) :
    toPoly (highBits (a ^^^ b)) = toPoly (highBits a) + toPoly (highBits b) := by
  rw [highBits_xor, toPoly_map_xor]
  rfl

theorem toPoly_highBits_zero : toPoly (highBits 0#m) = 0 := by
  have hadd := toPoly_highBits_xor 0#m 0#m
  rw [BitVec.xor_self] at hadd
  exact left_eq_add.mp hadd

theorem degree_toPoly_highBits_lt (d : BitVec w) : (toPoly (highBits d)).degree < w := by
  have h := degree_toPoly_lt (highBits d)
  rwa [length_highBits] at h

theorem toPoly_highBits_shiftLeft (r : BitVec w) :
    toPoly (highBits (r <<< 1)) + C (coeffOf r.msb) * X ^ w = toPoly (highBits r) * X := by
  cases w with
  | zero => rw [Subsingleton.elim r 0#0]; simp [highBits, coeffOf]
  | succ v =>
    obtain ⟨l, hbits, hshift⟩ := highBits_shiftLeft r
    have hlen : l.length = v := Nat.succ.inj ((congrArg List.length hbits).symm.trans
      (length_highBits r))
    rw [hshift, hbits, toPoly_append, toPoly_cons r.msb l, hlen, pow_succ]
    simp only [toPoly_cons, toPoly_nil, List.length_singleton, List.length_nil, coeffOf,
      Bool.false_eq_true, if_false, map_zero, pow_one]
    ring

/-! ### The division -/

/-- The polynomial of a CRC, with its leading term. -/
noncomputable def divisor (poly : BitVec w) : (ZMod 2)[X] := toPoly (true :: highBits poly)

theorem divisor_eq (poly : BitVec w) : divisor poly = X ^ w + toPoly (highBits poly) := by
  rw [divisor, toPoly_cons, length_highBits, coeffOf, if_pos rfl, C_1, one_mul]

theorem monic_divisor (poly : BitVec w) : (divisor poly).Monic := by
  rw [divisor_eq]
  exact monic_X_pow_add (degree_toPoly_highBits_lt poly)

theorem degree_divisor (poly : BitVec w) : (divisor poly).degree = w := by
  rw [divisor_eq, degree_add_eq_left_of_degree_lt, degree_X_pow]
  rw [degree_X_pow]
  exact degree_toPoly_highBits_lt poly

/-- **A step of the loop** takes one more bit in, `w` places up, and subtracts the divisor if there
is a term in its leading place then. -/
theorem toPoly_shift (poly r : BitVec w) (b : Bool) :
    toPoly (highBits (shift poly r b)) + divisor poly * C (coeffOf (xor r.msb b)) =
      toPoly (highBits r) * X + C (coeffOf b) * X ^ w := by
  have hmask : toPoly (highBits (if xor r.msb b = true then poly else 0#w)) =
      C (coeffOf (xor r.msb b)) * toPoly (highBits poly) := by
    cases xor r.msb b with
    | true => simp [coeffOf]
    | false => simp [coeffOf, toPoly_highBits_zero]
  have htwo : (2 : (ZMod 2)[X]) = 0 := CharTwo.two_eq_zero
  have hshift := toPoly_highBits_shiftLeft r
  rw [shift_eq, toPoly_highBits_xor, hmask, divisor_eq, coeffOf_xor, map_add]
  linear_combination hshift +
    (C (coeffOf r.msb) + C (coeffOf b)) * toPoly (highBits poly) * htwo

/-- What the loop has subtracted is a multiple of the divisor. -/
theorem exists_toPoly_remainder (poly : BitVec w) : ∀ (l : List Bool) (r : BitVec w),
    ∃ q, toPoly (highBits (remainder poly r l)) + divisor poly * q =
      toPoly (highBits r) * X ^ l.length + toPoly l * X ^ w := by
  intro l
  induction l with
  | nil => intro r; exact ⟨0, by simp [remainder]⟩
  | cons b l ih =>
    intro r
    obtain ⟨q, hq⟩ := ih (shift poly r b)
    have hstep := toPoly_shift poly r b
    refine ⟨q + C (coeffOf (xor r.msb b)) * X ^ l.length, ?_⟩
    rw [remainder_cons, toPoly_cons, List.length_cons, pow_succ]
    linear_combination hq + X ^ l.length * hstep

/-- **The loop computes the remainder of the division** of the message, `w` places up, with the
start value in front of it. -/
theorem toPoly_remainder (poly r : BitVec w) (l : List Bool) :
    toPoly (highBits (remainder poly r l)) =
      (toPoly (highBits r) * X ^ l.length + toPoly l * X ^ w) %ₘ divisor poly := by
  obtain ⟨q, hq⟩ := exists_toPoly_remainder poly l r
  have hdegree : (toPoly (highBits (remainder poly r l))).degree < (divisor poly).degree := by
    rw [degree_divisor]
    exact degree_toPoly_highBits_lt _
  exact (div_modByMonic_unique q _ (monic_divisor poly) ⟨hq, hdegree⟩).2.symm

end Crc

end Usb2T1L
