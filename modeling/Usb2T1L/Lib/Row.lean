import Mathlib.Tactic

/-!
# Queues in a row

Messages enter at queue 0 and go from each queue to the next, first in first out.  What counts is
the contents of the row read from the exit to the entrance: a message that moves on leaves it as it
is.

## Main definitions

* `Row.line q n` — what is in queues `0, …, n - 1`, oldest first.

## Main results

* `Row.line_enter`, `Row.line_move`, `Row.line_leave`, `Row.line_lose` — what becomes of it when a
  message enters, moves on, leaves at the exit, or is lost.
-/

namespace Usb2T1L

namespace Row

variable {α : Type*} {q q' : ℕ → List α} {n k : ℕ} {a : α}

/-- What is in the first `n` queues, oldest first: queue `n - 1` is at the exit. -/
def line (q : ℕ → List α) : ℕ → List α
  | 0 => []
  | n + 1 => q n ++ line q n

@[simp] theorem line_zero (q : ℕ → List α) : line q 0 = [] := rfl

theorem line_succ (q : ℕ → List α) (n : ℕ) : line q (n + 1) = q n ++ line q n := rfl

theorem line_congr (h : ∀ d < n, q' d = q d) : line q' n = line q n := by
  induction n with
  | zero => rfl
  | succ n ih =>
    rw [line_succ, line_succ, h n (Nat.lt_succ_self n),
      ih fun d hd => h d (hd.trans (Nat.lt_succ_self n))]

theorem line_of_nil (h : ∀ d < n, q d = []) : line q n = [] := by
  induction n with
  | zero => rfl
  | succ n ih =>
    rw [line_succ, h n (Nat.lt_succ_self n), ih fun d hd => h d (hd.trans (Nat.lt_succ_self n))]
    rfl

/-- A message enters at the end of the line. -/
theorem line_enter (hn : 0 < n) (h0 : q' 0 = q 0 ++ [a]) (h : ∀ d, d ≠ 0 → q' d = q d) :
    line q' n = line q n ++ [a] := by
  induction n with
  | zero => exact absurd hn (lt_irrefl 0)
  | succ n ih =>
    rw [line_succ, line_succ]
    rcases Nat.eq_zero_or_pos n with rfl | hpos
    · rw [h0, line_zero, line_zero, List.append_nil, List.append_nil]
    · rw [ih hpos, h n hpos.ne', List.append_assoc]

/-- **A message that moves on** keeps its place in the line. -/
theorem line_move (hk : q k = a :: q' k) (hk' : q' (k + 1) = q (k + 1) ++ [a])
    (h : ∀ d, d ≠ k → d ≠ k + 1 → q' d = q d) (hn : k + 1 < n) : line q' n = line q n := by
  induction n with
  | zero => exact absurd hn (Nat.not_lt_zero _)
  | succ n ih =>
    rw [line_succ, line_succ]
    rcases (Nat.lt_succ_iff.mp hn).eq_or_lt with rfl | hlt
    · have hrest : line q' k = line q k := line_congr fun d hd => h d (by omega) (by omega)
      rw [line_succ, line_succ, hk, hk', hrest, List.append_assoc]
      rfl
    · rw [ih hlt, h n (by omega) (by omega)]

/-- The oldest message leaves at the exit. -/
theorem line_leave (hk : q n = a :: q' n) (h : ∀ d < n, q' d = q d) :
    line q (n + 1) = a :: line q' (n + 1) := by
  rw [line_succ, line_succ, hk, line_congr h]
  rfl

/-- Where a message is lost, the others keep their order. -/
theorem line_lose (hk : q k = a :: q' k) (h : ∀ d, d ≠ k → q' d = q d) :
    (line q' n).Sublist (line q n) := by
  induction n with
  | zero => exact List.Sublist.slnil
  | succ n ih =>
    rw [line_succ, line_succ]
    refine List.Sublist.append ?_ ih
    rcases eq_or_ne n k with rfl | hne
    · rw [hk]
      exact List.sublist_cons_self a _
    · rw [h n hne]

end Row

end Usb2T1L
