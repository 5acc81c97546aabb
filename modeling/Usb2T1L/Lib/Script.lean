import Mathlib.Tactic

/-!
# Programs as scripts of requests

A program that works on a state one access at a time: it makes a request, and goes on with the
answer.  What a request does is said by a handler, so one and the same script can be run as a whole
or one request at a time, among others.

## Main definitions

* `Script` — scripts, a monad.
* `Script.exec` — the run as a whole.
* `Script.AtMost` — a bound on the number of requests.
* `Script.All` — a condition on every request.

## Main results

* `Script.exec_bind`, `Script.AtMost.bind`, `Script.All.bind` — the rules for one script after
  another.
* `Script.All.exec` — **what every request keeps to, the run as a whole keeps to**.
-/

namespace Usb2T1L

/-- A program over requests `Q`, with answers `R`. -/
inductive Script (Q : Type) (R : Q → Type) (α : Type)
  | done (a : α)
  | ask (q : Q) (k : R q → Script Q R α)

namespace Script

variable {Q : Type} {R : Q → Type} {S α β : Type}

/-- A single request. -/
def req (q : Q) : Script Q R (R q) := .ask q .done

/-- One script after another. -/
protected def bind : Script Q R α → (α → Script Q R β) → Script Q R β
  | .done a, f => f a
  | .ask q k, f => .ask q fun r => (k r).bind f

instance : Monad (Script Q R) where
  pure := .done
  bind := Script.bind

@[simp] theorem pure_eq (a : α) : (pure a : Script Q R α) = .done a := rfl

@[simp] theorem done_bind (a : α) (f : α → Script Q R β) : (Script.done a >>= f) = f a := rfl

@[simp] theorem ask_bind (q : Q) (k : R q → Script Q R α) (f : α → Script Q R β) :
    (Script.ask q k >>= f) = .ask q fun r => k r >>= f := rfl

/-! ### The run as a whole -/

/-- The result of a script and the state it leaves. -/
def exec (handle : (q : Q) → S → R q × S) : Script Q R α → S → α × S
  | .done a, s => (a, s)
  | .ask q k, s => exec handle (k (handle q s).1) (handle q s).2

variable (handle : (q : Q) → S → R q × S)

@[simp] theorem exec_done (a : α) (s : S) : exec handle (.done a : Script Q R α) s = (a, s) := rfl

@[simp] theorem exec_ask (q : Q) (k : R q → Script Q R α) (s : S) :
    exec handle (.ask q k) s = exec handle (k (handle q s).1) (handle q s).2 := rfl

@[simp] theorem exec_req (q : Q) (s : S) : exec handle (req q : Script Q R _) s = handle q s := rfl

@[simp] theorem exec_bind (p : Script Q R α) (f : α → Script Q R β) (s : S) :
    exec handle (p >>= f) s = exec handle (f (exec handle p s).1) (exec handle p s).2 := by
  induction p generalizing s with
  | done a => rfl
  | ask q k ih => exact ih (handle q s).1 (handle q s).2

/-! ### The number of requests -/

/-- The script makes at most so many requests. -/
def AtMost : Script Q R α → ℕ → Prop
  | .done _, _ => True
  | .ask _ _, 0 => False
  | .ask _ k, n + 1 => ∀ r, (k r).AtMost n

theorem atMost_done (a : α) (n : ℕ) : (.done a : Script Q R α).AtMost n := by
  unfold AtMost
  trivial

theorem atMost_req (q : Q) : (req q : Script Q R _).AtMost 1 := fun r => atMost_done r 0

theorem AtMost.mono {p : Script Q R α} {m n : ℕ} (h : p.AtMost m) (hmn : m ≤ n) :
    p.AtMost n := by
  induction p generalizing m n with
  | done a => exact atMost_done a n
  | ask q k ih =>
    cases m with
    | zero => exact h.elim
    | succ m =>
      obtain ⟨n, rfl⟩ : ∃ i, n = i + 1 := ⟨n - 1, by omega⟩
      exact fun r => ih r (h r) (by omega)

theorem AtMost.bind {p : Script Q R α} {f : α → Script Q R β} {m n : ℕ} (hp : p.AtMost m)
    (hf : ∀ a, (f a).AtMost n) : (p >>= f).AtMost (m + n) := by
  induction p generalizing m with
  | done a => exact (hf a).mono (by omega)
  | ask q k ih =>
    cases m with
    | zero => exact hp.elim
    | succ m =>
      rw [ask_bind, show m + 1 + n = (m + n) + 1 by omega]
      exact fun r => ih r (hp r)

theorem atMost_ite {c : Prop} [Decidable c] {p p' : Script Q R α} {n : ℕ} (hp : p.AtMost n)
    (hp' : p'.AtMost n) : (if c then p else p').AtMost n := by
  split
  · exact hp
  · exact hp'

/-! ### The requests -/

/-- Every request the script may make meets `P`, whatever has been answered before. -/
def All (P : Q → Prop) : Script Q R α → Prop
  | .done _ => True
  | .ask q k => P q ∧ ∀ r, (k r).All P

section All

variable {P P' : Q → Prop}

theorem all_done (a : α) : (.done a : Script Q R α).All P := by
  unfold All
  trivial

theorem all_req {q : Q} (hq : P q) : (req q : Script Q R _).All P := ⟨hq, fun r => all_done r⟩

theorem All.mono {p : Script Q R α} (h : p.All P) (hP : ∀ q, P q → P' q) : p.All P' := by
  induction p with
  | done a => exact all_done a
  | ask q k ih => exact ⟨hP q h.1, fun r => ih r (h.2 r)⟩

theorem All.bind {p : Script Q R α} {f : α → Script Q R β} (hp : p.All P)
    (hf : ∀ a, (f a).All P) : (p >>= f).All P := by
  induction p with
  | done a => exact hf a
  | ask q k ih =>
    rw [ask_bind]
    exact ⟨hp.1, fun r => ih r (hp.2 r)⟩

theorem all_ite {c : Prop} [Decidable c] {p p' : Script Q R α} (hp : p.All P)
    (hp' : p'.All P) : (if c then p else p').All P := by
  split
  · exact hp
  · exact hp'

/-- **What every request keeps to, the run as a whole keeps to.** -/
theorem All.exec {handle : (q : Q) → S → R q × S} {K : S → S → Prop} (hrefl : ∀ s, K s s)
    (htrans : ∀ s t u, K s t → K t u → K s u) (hstep : ∀ q s, P q → K s (handle q s).2)
    {p : Script Q R α} (h : p.All P) (s : S) : K s (p.exec handle s).2 := by
  induction p generalizing s with
  | done a => exact hrefl s
  | ask q k ih => exact htrans _ _ _ (hstep q s h.1) (ih _ (h.2 _) _)

end All

end Script

end Usb2T1L
