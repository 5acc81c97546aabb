import Mathlib.Tactic

/-!
# Register files and interrupted write sequences

A register file maps addresses to values.  A driver programs it by a sequence of
single writes over a bus that may fail at any of them, and gives up at the first
failure: what reaches the device is a prefix of the intended sequence.

## Main definitions

* `RegFile.write`, `RegFile.writes` — one write, and a sequence of them.
* `RegFile.cut ok ws` — the part of `ws` performed when the `n`-th transaction
  succeeds exactly if `ok n`.

## Main results

* `RegFile.writes_of_notMem` — addresses not written keep their value.
* `RegFile.writes_apply` — **an address holds the last value written to it**.
* `RegFile.cut_isPrefix` — the performed part is a prefix.
-/

namespace Usb2T1L

namespace RegFile

variable {A V : Type*} [DecidableEq A]

/-- One write. -/
def write (r : A → V) (w : A × V) : A → V := Function.update r w.1 w.2

/-- A sequence of writes, first one first. -/
def writes (r : A → V) (ws : List (A × V)) : A → V := ws.foldl write r

@[simp] theorem writes_cons (r : A → V) (w : A × V) (ws : List (A × V)) :
    writes r (w :: ws) = writes (write r w) ws := rfl

theorem write_self (r : A → V) (w : A × V) : write r w w.1 = w.2 := Function.update_self _ _ _

theorem write_of_ne (r : A → V) {w : A × V} {a : A} (h : a ≠ w.1) : write r w a = r a := by
  simp [write, h]

/-- An address no write goes to keeps its value. -/
theorem writes_of_notMem {ws : List (A × V)} {a : A} :
    ∀ (r : A → V), a ∉ ws.map Prod.fst → writes r ws a = r a := by
  induction ws with
  | nil => intro r _; rfl
  | cons w ws ih =>
    intro r h
    rw [List.map_cons, List.mem_cons, not_or] at h
    rw [writes_cons, ih _ h.2, write_of_ne r h.1]

@[simp] theorem writes_append (r : A → V) (ws ws' : List (A × V)) :
    writes r (ws ++ ws') = writes (writes r ws) ws' := List.foldl_append

/-- **An address holds the last value written to it**, and else what it held before. -/
theorem writes_apply (r : A → V) (ws : List (A × V)) (a : A) :
    writes r ws a = ((ws.filter fun w => w.1 = a).getLast?.map Prod.snd).getD (r a) := by
  induction ws using List.reverseRecOn with
  | nil => rfl
  | append_singleton ws w ih =>
    rw [writes_append, writes_cons, List.filter_append, List.filter_singleton]
    by_cases h : w.1 = a
    · subst h
      have hlast : (ws.filter (fun v => v.1 = w.1) ++ [w]).getLast? = some w :=
        List.getLast?_concat
      rw [decide_eq_true rfl, cond_true, hlast]
      exact write_self _ w
    · rw [decide_eq_false h, cond_false, List.append_nil, ← ih]
      exact write_of_ne _ fun ha => h ha.symm

/-- The part of a write sequence that is performed before the first failing
transaction. -/
def cut {W : Type*} : (ℕ → Bool) → List W → List W
  | _, [] => []
  | ok, w :: ws => if ok 0 then w :: cut (fun n => ok (n + 1)) ws else []

theorem cut_isPrefix {W : Type*} : ∀ (ws : List W) (ok : ℕ → Bool), cut ok ws <+: ws := by
  intro ws
  induction ws with
  | nil => intro ok; exact List.nil_prefix
  | cons w ws ih =>
    intro ok
    rw [cut]
    split
    · exact List.cons_prefix_cons.mpr ⟨rfl, ih _⟩
    · exact List.nil_prefix

/-- On a bus that works the whole sequence is performed. -/
theorem cut_of_works {W : Type*} :
    ∀ (ws : List W) {ok : ℕ → Bool}, (∀ n, ok n = true) → cut ok ws = ws := by
  intro ws
  induction ws with
  | nil => intro ok _; rfl
  | cons w ws ih => intro ok h; rw [cut, if_pos (h 0), ih fun n => h (n + 1)]

end RegFile

end Usb2T1L
