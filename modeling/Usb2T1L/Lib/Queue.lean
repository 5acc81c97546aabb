import Mathlib.Tactic

/-!
# Bounded queues

First-in first-out queues of bounded length, with single atomic operations: the
kernel queues a real-time operating system offers.  A queue carries the proof
that it is within its bound.

## Main definitions

* `Queue α n` — queues of at most `n` items.
* `Queue.send`, `Queue.receive` — the operations; sending to a full queue and
  receiving from an empty one fail.

## Main results

* `Queue.send_eq_some_iff`, `Queue.send_eq_none_iff` — when a send succeeds, and what it does.
-/

namespace Usb2T1L

/-- A queue of at most `n` items, oldest first. -/
structure Queue (α : Type*) (n : ℕ) where
  items : List α
  bounded : items.length ≤ n

namespace Queue

variable {α : Type*} {n : ℕ}

/-- The empty queue. -/
def empty : Queue α n := ⟨[], Nat.zero_le n⟩

/-- Append an item, if there is room. -/
def send (q : Queue α n) (a : α) : Option (Queue α n) :=
  if h : q.items.length < n then
    some ⟨q.items ++ [a], by rw [List.length_append]; exact h⟩
  else none

/-- Take the oldest item, if there is one. -/
def receive (q : Queue α n) : Option (α × Queue α n) :=
  match q with
  | ⟨[], _⟩ => none
  | ⟨a :: l, h⟩ => some (a, ⟨l, (Nat.le_succ _).trans h⟩)

@[ext] theorem ext {q q' : Queue α n} (h : q.items = q'.items) : q = q' := by
  cases q
  cases q'
  congr

@[simp] theorem empty_items : (empty : Queue α n).items = [] := rfl

theorem send_eq_some_iff {q q' : Queue α n} {a : α} :
    q.send a = some q' ↔ q.items.length < n ∧ q'.items = q.items ++ [a] := by
  unfold send
  split
  · next h =>
    rw [Option.some.injEq]
    constructor
    · rintro rfl
      exact ⟨h, rfl⟩
    · rintro ⟨-, hq'⟩
      exact ext hq'.symm
  · next h => simp [h]

theorem send_eq_none_iff {q : Queue α n} {a : α} : q.send a = none ↔ n ≤ q.items.length := by
  unfold send
  split
  · next h => simp [h]
  · next h => simp [not_lt.mp h]

theorem receive_eq_some_iff {q q' : Queue α n} {a : α} :
    q.receive = some (a, q') ↔ q.items = a :: q'.items := by
  rcases q with ⟨_ | ⟨b, l⟩, h⟩
  · simp [receive]
  · simp only [receive, Option.some.injEq, Prod.mk.injEq, List.cons.injEq]
    refine and_congr_right fun _ => ⟨?_, fun hl => ext hl⟩
    rintro rfl
    rfl

theorem receive_eq_none_iff {q : Queue α n} : q.receive = none ↔ q.items = [] := by
  rcases q with ⟨_ | ⟨b, l⟩, h⟩ <;> simp [receive]

end Queue

end Usb2T1L
