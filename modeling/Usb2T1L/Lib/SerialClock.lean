import Mathlib.Tactic

/-!
# Clocks that wrap

A clock of `w` bits shows the number of ticks passed so far modulo `2 ^ w`.  The
difference of two readings is the time between them, modulo `2 ^ w` and taken
forward: a reading that is in truth the later one is a whole turn minus a little
away.

## Main definitions

* `clock w t` — what the clock shows at time `t`.

## Main results

* `toNat_clock_sub` — the difference of two readings, the earlier one subtracted.
* `toNat_clock_sub_le` — such a difference is never more than the time between.
-/

namespace Usb2T1L

/-- What a clock of `w` bits shows at time `t`. -/
def clock (w t : ℕ) : BitVec w := BitVec.ofNat w t

/-- **The age of a reading**, modulo a turn. -/
theorem toNat_clock_sub {w s t : ℕ} (h : s ≤ t) :
    (clock w t - clock w s).toNat = (t - s) % 2 ^ w := by
  obtain ⟨d, rfl⟩ := Nat.exists_eq_add_of_le h
  have hsum : clock w (s + d) = clock w d + clock w s := by
    rw [clock, clock, clock, ← BitVec.ofNat_add, Nat.add_comm]
  rw [hsum, BitVec.add_sub_cancel, Nat.add_sub_cancel_left, clock, BitVec.toNat_ofNat]

theorem toNat_clock_sub_le {w s t : ℕ} (h : s ≤ t) :
    (clock w t - clock w s).toNat ≤ t - s := by
  rw [toNat_clock_sub h]
  exact Nat.mod_le _ _

end Usb2T1L
