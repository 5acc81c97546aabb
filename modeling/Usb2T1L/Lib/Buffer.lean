import Mathlib.Tactic

/-!
# Buffers of a fixed size

An array of `n` cells, and copies into and out of it at an offset.  A copy that would leave the
array has no result, so a program that returns one has stayed inside its arrays.

The rules split the cells where the copy begins: what is before it stays, and so does what is
behind it.

## Main definitions

* `Buffer` — the array.
* `Buffer.load`, `Buffer.store` — the copies.

## Main results

* `Buffer.store_of_cells`, `Buffer.load_of_cells` — **a copy that fits succeeds**, and what it
  does.
-/

namespace Usb2T1L

/-- An array of `n` cells. -/
structure Buffer (α : Type*) (n : ℕ) where
  cells : List α
  length_cells : cells.length = n

namespace Buffer

variable {α : Type*} {n : ℕ}

/-- All cells alike. -/
def fill (n : ℕ) (a : α) : Buffer α n := ⟨List.replicate n a, List.length_replicate⟩

/-- The `len` cells from `off`. -/
def load (b : Buffer α n) (off len : ℕ) : Option (List α) :=
  if off + len ≤ n then some ((b.cells.drop off).take len) else none

/-- The cells of `src`, copied to `off`. -/
def store (b : Buffer α n) (off : ℕ) (src : List α) : Option (Buffer α n) :=
  if h : off + src.length ≤ n then
    some ⟨b.cells.take off ++ src ++ b.cells.drop (off + src.length), by
      have hlen := b.length_cells
      simp only [List.length_append, List.length_take, List.length_drop]
      omega⟩
  else none

variable {b : Buffer α n} {l mid rest : List α} {off len : ℕ}

/-- A copy into the buffer replaces what it covers. -/
theorem store_of_cells (src : List α) (hb : b.cells = l ++ rest) (hoff : l.length = off)
    (h : src.length ≤ rest.length) :
    ∃ b', b.store off src = some b' ∧ b'.cells = l ++ src ++ rest.drop src.length := by
  subst hoff
  have hlen : l.length + rest.length = n := by
    rw [← List.length_append, ← hb]
    exact b.length_cells
  refine ⟨_, dif_pos (show l.length + src.length ≤ n by omega), ?_⟩
  show b.cells.take l.length ++ src ++ b.cells.drop (l.length + src.length) = _
  rw [hb, List.take_left, ← List.drop_drop, List.drop_left]

/-- A copy out of the buffer. -/
theorem load_of_cells (hb : b.cells = l ++ mid ++ rest) (hoff : l.length = off)
    (hlen : mid.length = len) : b.load off len = some mid := by
  subst hoff hlen
  have hn : l.length + mid.length + rest.length = n := by
    rw [← List.length_append, ← List.length_append, ← hb]
    exact b.length_cells
  rw [load, if_pos (by omega), hb, List.append_assoc, List.drop_left, List.take_left]

/-- A copy to the start. -/
theorem store_zero (b : Buffer α n) (src : List α) (h : src.length ≤ n) :
    ∃ b', b.store 0 src = some b' ∧ b'.cells = src ++ b.cells.drop src.length :=
  store_of_cells src (List.nil_append _).symm rfl (b.length_cells.symm ▸ h)

/-- A copy from the start. -/
theorem load_zero (hb : b.cells = l ++ rest) (hlen : l.length = len) :
    b.load 0 len = some l := by
  have hb : b.cells = [] ++ l ++ rest := hb
  exact load_of_cells hb rfl hlen

end Buffer

end Usb2T1L
