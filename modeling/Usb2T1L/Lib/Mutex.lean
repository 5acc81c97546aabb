import Usb2T1L.Lib.Lts
import Usb2T1L.Lib.Script

/-!
# Threads and a lock

Threads that go round and round, each by a script of its own, on a state that a lock is to protect.
A thread may take the lock, give it back, use the state, or ask the rest of the world for something;
nothing keeps it from doing so at the wrong time but its script.

What is proved of one script by itself, by going through it once, holds of all threads together in
any order of their steps.

## Main definitions

* `LockReq`, `Thread` — the requests, and the scripts over them.
* `Threads`, `Threads.sys` — several of them, and the system.
* `Threads.Guards` — the precondition of a script: it uses the state only while it has the lock,
  does not wait with it, gives it back after so many requests, and every use as a whole is as it
  should be.
* `Threads.serial` — the system in which a use of the lock is one step.

## Main results

* `Threads.guards_bind`, `Threads.guards_locked` — the rules for scripts.
* `Threads.Orderly.step` — **what every step keeps**.
* `Threads.use_invariant` — **what every use of the state keeps, holds at every moment**.
* `Threads.serialises` — **every run is one in which the uses of the lock come one after another**.
-/

namespace Usb2T1L

/-- A request of a thread. -/
inductive LockReq (Q W : Type)
  /-- Waits for the lock and takes it. -/
  | take
  /-- Gives the lock back. -/
  | give
  /-- Uses the protected state. -/
  | use (q : Q)
  /-- Asks the rest of the world. -/
  | other (w : W)

/-- What is answered. -/
def LockReq.Answer {Q W : Type} (R : Q → Type) (V : W → Type) : LockReq Q W → Type
  | .take => Unit
  | .give => Unit
  | .use q => R q
  | .other w => V w

/-- The script of a thread. -/
abbrev Thread {Q W : Type} (R : Q → Type) (V : W → Type) (α : Type) : Type :=
  Script (LockReq Q W) (LockReq.Answer R V) α

section Requests

variable {Q W : Type} {R : Q → Type} {V : W → Type} {α : Type}

/-- Takes the lock. -/
def Thread.take : Thread R V Unit := Script.req LockReq.take

/-- Gives the lock back. -/
def Thread.give : Thread R V Unit := Script.req LockReq.give

/-- Asks the rest of the world. -/
def Thread.other (w : W) : Thread R V (V w) := Script.req (LockReq.other w)

/-- A script on the protected state, in a thread that has the lock. -/
def Script.locked : Script Q R α → Thread R V α
  | .done a => .done a
  | .ask q k => .ask (.use q) fun r => (k r).locked

/-- If it is a use of the state, it meets `P`. -/
def LockReq.Uses (P : Q → Prop) : LockReq Q W → Prop
  | .use q => P q
  | _ => True

theorem Script.All.locked {P : Q → Prop} {p : Script Q R α} (h : p.All P) :
    (p.locked : Thread R V α).All (LockReq.Uses P) := by
  induction p with
  | done a => exact all_done a
  | ask q k ih => exact ⟨h.1, fun r => ih r (h.2 r)⟩

end Requests

/-- Threads `T` with a lock: what a request does to the protected state, the loop of each thread
with what it carries from one round to the next, and the requests that may take long. -/
structure Threads (T Q W S : Type) (R : Q → Type) (V : W → Type) (L : T → Type) where
  handle : (q : Q) → S → R q × S
  body : (t : T) → L t → Thread R V (L t)
  waits : W → Prop

/-- A state of the system. -/
structure LockState (T : Type) {Q W : Type} (S : Type) (R : Q → Type) (V : W → Type)
    (L : T → Type) where
  shared : S
  holder : Option T
  /-- What each thread has still to do in this round. -/
  code : (t : T) → Thread R V (L t)

namespace Threads

variable {T Q W S : Type} {R : Q → Type} {V : W → Type} {L : T → Type} [DecidableEq T]
  (P : Threads T Q W S R V L)

/-- A step of a thread; whatever it asks the rest of the world, that is answered. -/
def step (s : LockState T S R V L) (a : T × ((w : W) → V w)) : Option (LockState T S R V L) :=
  match s.code a.1 with
  | .done l => some { s with code := Function.update s.code a.1 (P.body a.1 l) }
  | .ask .take k =>
    if s.holder = none then
      some { s with holder := some a.1, code := Function.update s.code a.1 (k ()) }
    else none
  | .ask .give k =>
    some { s with
      holder := if s.holder = some a.1 then none else s.holder
      code := Function.update s.code a.1 (k ()) }
  | .ask (.use q) k =>
    some { s with
      shared := (P.handle q s.shared).2
      code := Function.update s.code a.1 (k (P.handle q s.shared).1) }
  | .ask (.other w) k => some { s with code := Function.update s.code a.1 (k (a.2 w)) }

/-- The system. -/
def sys : Lts (LockState T S R V L) (T × ((w : W) → V w)) := ⟨P.step⟩

/-! ### The rules for scripts -/

end Threads

/-- How a thread stands that has the lock. -/
structure Held (S : Type) where
  /-- How many requests it may still make with it. -/
  left : ℕ
  /-- The protected state when it took the lock. -/
  before : S
  now : S

namespace Threads

variable {T Q W S : Type} {R : Q → Type} {V : W → Type} {L : T → Type} {α β : Type}

/-- The precondition of a script: with it, the state is used only with the lock, the thread does not
wait with the lock and gives it back after at most `N` requests, every use of it changes the state
as `G` says, and afterwards `Post` holds. -/
def Guards (P : Threads T Q W S R V L) (N : ℕ) (G : S → S → Prop) :
    Thread R V α → Option (Held S) → (α → Option (Held S) → Prop) → Prop
  | .done a, b, Post => Post a b
  | .ask .take k, b, Post =>
    b = none ∧ ∀ s, Guards P N G (k ()) (some ⟨N, s, s⟩) Post
  | .ask .give k, b, Post =>
    ∃ h, b = some h ∧ G h.before h.now ∧ Guards P N G (k ()) none Post
  | .ask (.use q) k, b, Post =>
    ∃ n s t, b = some ⟨n + 1, s, t⟩ ∧
      Guards P N G (k (P.handle q t).1) (some ⟨n, s, (P.handle q t).2⟩) Post
  | .ask (.other w) k, b, Post =>
    (b = none ∧ ∀ v, Guards P N G (k v) none Post) ∨
      ∃ n s t, b = some ⟨n + 1, s, t⟩ ∧ ¬ P.waits w ∧
        ∀ v, Guards P N G (k v) (some ⟨n, s, t⟩) Post

variable {P : Threads T Q W S R V L} {N : ℕ} {G : S → S → Prop}

theorem guards_done {a : α} {b : Option (Held S)} {Post : α → Option (Held S) → Prop}
    (h : Post a b) : P.Guards N G (.done a) b Post := by
  unfold Guards
  exact h

/-- One script after another. -/
theorem guards_bind {p : Thread R V α} {f : α → Thread R V β} {b : Option (Held S)}
    {Post : β → Option (Held S) → Prop}
    (h : P.Guards N G p b fun a b' => P.Guards N G (f a) b' Post) :
    P.Guards N G (p >>= f) b Post := by
  induction p generalizing b with
  | done a => exact h
  | ask q k ih =>
    rw [Script.ask_bind]
    cases q with
    | take => exact ⟨h.1, fun s => ih () (h.2 s)⟩
    | give =>
      obtain ⟨held, hb, hG, h⟩ := h
      exact ⟨held, hb, hG, ih () h⟩
    | use q =>
      obtain ⟨n, s, t, hb, h⟩ := h
      exact ⟨n, s, t, hb, ih _ h⟩
    | other w =>
      rcases h with ⟨hb, h⟩ | ⟨n, s, t, hb, hw, h⟩
      · exact Or.inl ⟨hb, fun v => ih v (h v)⟩
      · exact Or.inr ⟨n, s, t, hb, hw, fun v => ih v (h v)⟩

/-- A weaker postcondition. -/
theorem Guards.mono {p : Thread R V α} {b : Option (Held S)}
    {Post Post' : α → Option (Held S) → Prop} (h : P.Guards N G p b Post)
    (hpost : ∀ a b, Post a b → Post' a b) : P.Guards N G p b Post' := by
  induction p generalizing b with
  | done a => exact hpost a b h
  | ask q k ih =>
    cases q with
    | take => exact ⟨h.1, fun s => ih () (h.2 s)⟩
    | give =>
      obtain ⟨held, hb, hG, h⟩ := h
      exact ⟨held, hb, hG, ih () h⟩
    | use q =>
      obtain ⟨n, s, t, hb, h⟩ := h
      exact ⟨n, s, t, hb, ih _ h⟩
    | other w =>
      rcases h with ⟨hb, h⟩ | ⟨n, s, t, hb, hw, h⟩
      · exact Or.inl ⟨hb, fun v => ih v (h v)⟩
      · exact Or.inr ⟨n, s, t, hb, hw, fun v => ih v (h v)⟩

theorem guards_take {b : Option (Held S)} {Post : Unit → Option (Held S) → Prop} (hb : b = none)
    (h : ∀ s, Post () (some ⟨N, s, s⟩)) : P.Guards N G Thread.take b Post :=
  ⟨hb, fun s => guards_done (h s)⟩

theorem guards_give {g : Held S} {Post : Unit → Option (Held S) → Prop} (hG : G g.before g.now)
    (h : Post () none) : P.Guards N G Thread.give (some g) Post :=
  ⟨_, rfl, hG, guards_done h⟩

theorem guards_other {w : W} {Post : V w → Option (Held S) → Prop} (h : ∀ v, Post v none) :
    P.Guards N G (Thread.other w) none Post :=
  Or.inl ⟨rfl, fun v => guards_done (h v)⟩

theorem guards_other_held {w : W} {g : Held S} {Post : V w → Option (Held S) → Prop}
    (hw : ¬ P.waits w) (hleft : 1 ≤ g.left)
    (h : ∀ v m, g.left ≤ m + 1 → Post v (some ⟨m, g.before, g.now⟩)) :
    P.Guards N G (Thread.other w) (some g) Post := by
  obtain ⟨left, s, t⟩ := g
  obtain ⟨m, rfl⟩ : ∃ m, left = m + 1 := ⟨left - 1, (Nat.sub_add_cancel hleft).symm⟩
  exact Or.inr ⟨m, s, t, rfl, hw, fun v => guards_done (h v m le_rfl)⟩

/-- A script on the protected state: with the lock it is run as a whole. -/
theorem guards_locked {p : Script Q R α} {n : ℕ} (hp : p.AtMost n) {g : Held S} {a : α} {x : S}
    (hexec : p.exec P.handle g.now = (a, x)) {Post : α → Option (Held S) → Prop}
    (hleft : n ≤ g.left) (h : ∀ m, g.left ≤ m + n → Post a (some ⟨m, g.before, x⟩)) :
    P.Guards N G p.locked (some g) Post := by
  induction p generalizing n g with
  | done a =>
    obtain ⟨rfl, rfl⟩ := Prod.mk.inj hexec
    exact h g.left (Nat.le_add_right _ _)
  | ask q k ih =>
    cases n with
    | zero => exact hp.elim
    | succ n =>
      obtain ⟨left, s, t⟩ := g
      obtain ⟨m, rfl⟩ : ∃ m, left = m + 1 := ⟨left - 1, by simp only at hleft; omega⟩
      refine ⟨m, s, t, rfl, ih _ (hp _) hexec (Nat.le_of_succ_le_succ hleft) fun m' hm' => h m' ?_⟩
      simp only at hm' ⊢
      omega

/-! ### All threads together -/

section Together

variable {s s' : LockState T S R V L} {t : T} {v : (w : W) → V w}

/-- The invariant: each thread stands as its script requires, and the holder of the lock is the one
that has it. -/
structure Orderly (P : Threads T Q W S R V L) (N : ℕ) (G : S → S → Prop)
    (s : LockState T S R V L) (held : T → Option (Held S)) : Prop where
  holder : ∀ t, s.holder = some t ↔ ∃ h, held t = some h
  now : ∀ t h, held t = some h → h.now = s.shared ∧ h.left ≤ N
  code : ∀ t, P.Guards N G (s.code t) (held t) fun _ b => b = none

variable {held held' : T → Option (Held S)}

theorem orderly_start {code : (t : T) → Thread R V (L t)}
    (hcode : ∀ t, P.Guards N G (code t) none fun _ b => b = none) (x : S) :
    Orderly P N G ⟨x, none, code⟩ fun _ => none where
  holder := fun _ => iff_of_false (by simp) (by simp)
  now := fun _ _ hg => absurd hg (by simp)
  code := hcode

/-- While a thread has the lock, no other one has. -/
theorem Orderly.others (h : Orderly P N G s held) (ht : s.holder = some t) {u : T}
    (hu : u ≠ t) : held u = none := by
  refine Option.eq_none_iff_forall_ne_some.mpr fun g hg => hu ?_
  exact (Option.some.inj (ht.symm.trans ((h.holder u).mpr ⟨g, hg⟩))).symm

/-- While the lock is free no thread has it. -/
theorem Orderly.none_of_free (h : Orderly P N G s held) (hfree : s.holder = none) (u : T) :
    held u = none := by
  refine Option.eq_none_iff_forall_ne_some.mpr fun g hg => ?_
  exact absurd (hfree.symm.trans ((h.holder u).mpr ⟨g, hg⟩)) (by simp)

/-- **Only the holder of the lock uses the state.** -/
theorem Orderly.holder_of_use (h : Orderly P N G s held) {q : Q} {k : R q → Thread R V (L t)}
    (hcode : s.code t = .ask (.use q) k) : s.holder = some t := by
  have hguards := h.code t
  rw [hcode] at hguards
  obtain ⟨n, a, b, hheld, -⟩ := hguards
  exact (h.holder t).mpr ⟨_, hheld⟩

/-- **The holder of the lock does not wait**, neither for it nor for anything else. -/
theorem Orderly.not_waits (h : Orderly P N G s held) (ht : s.holder = some t) :
    (∀ k, s.code t ≠ .ask .take k) ∧ ∀ w k, s.code t = .ask (.other w) k → ¬ P.waits w := by
  obtain ⟨g, hg⟩ := (h.holder t).mp ht
  have hguards := h.code t
  refine ⟨fun k hcode => ?_, fun w k hcode => ?_⟩
  · rw [hcode] at hguards
    exact absurd (hguards.1.symm.trans hg) (by simp)
  · rw [hcode] at hguards
    rcases hguards with ⟨hnone, -⟩ | ⟨n, a, b, -, hw, -⟩
    · exact absurd (hnone.symm.trans hg) (by simp)
    · exact hw

variable [DecidableEq T]

/-- **Everything a step can do.** -/
inductive Moved (P : Threads T Q W S R V L) (s : LockState T S R V L) (t : T)
    (v : (w : W) → V w) : LockState T S R V L → Prop
  | loop (l : L t) (hcode : s.code t = .done l) :
    Moved P s t v { s with code := Function.update s.code t (P.body t l) }
  | take (k : Unit → Thread R V (L t)) (hcode : s.code t = .ask .take k) (hfree : s.holder = none) :
    Moved P s t v { s with holder := some t, code := Function.update s.code t (k ()) }
  | give (k : Unit → Thread R V (L t)) (hcode : s.code t = .ask .give k) :
    Moved P s t v { s with
      holder := if s.holder = some t then none else s.holder
      code := Function.update s.code t (k ()) }
  | use (q : Q) (k : R q → Thread R V (L t)) (hcode : s.code t = .ask (.use q) k) :
    Moved P s t v { s with
      shared := (P.handle q s.shared).2
      code := Function.update s.code t (k (P.handle q s.shared).1) }
  | other (w : W) (k : V w → Thread R V (L t)) (hcode : s.code t = .ask (.other w) k) :
    Moved P s t v { s with code := Function.update s.code t (k (v w)) }

theorem moved_of_step (h : P.step s (t, v) = some s') : Moved P s t v s' := by
  unfold step at h
  split at h
  · next l hcode => exact Option.some.inj h ▸ Moved.loop l hcode
  · next k hcode =>
    split at h
    · next hfree => exact Option.some.inj h ▸ Moved.take k hcode hfree
    · exact absurd h (by simp)
  · next k hcode => exact Option.some.inj h ▸ Moved.give k hcode
  · next q k hcode => exact Option.some.inj h ▸ Moved.use q k hcode
  · next w k hcode => exact Option.some.inj h ▸ Moved.other w k hcode

/-- One thread goes on, and the others stay where they are. -/
theorem Orderly.code_update (h : Orderly P N G s held) {b : Option (Held S)}
    {c : Thread R V (L t)} (hc : P.Guards N G c b fun _ b => b = none) (u : T) :
    P.Guards N G (Function.update s.code t c u) (Function.update held t b u)
      fun _ b => b = none := by
  rcases eq_or_ne u t with rfl | hu
  · rw [Function.update_self, Function.update_self]
    exact hc
  · rw [Function.update_of_ne hu, Function.update_of_ne hu]
    exact h.code u

/-- A thread without the lock goes on without it, on a state that stays. -/
theorem Orderly.outside (h : Orderly P N G s held) (hnone : held t = none)
    {c : Thread R V (L t)} (hc : P.Guards N G c none fun _ b => b = none) :
    Orderly P N G { s with code := Function.update s.code t c } held where
  holder := h.holder
  now := h.now
  code := fun u => by
    have hcode := h.code_update hc u
    have hsame : Function.update held t none = held := by rw [← hnone, Function.update_eq_self]
    rwa [hsame] at hcode

/-- The thread that has the lock goes on with it. -/
theorem Orderly.inside (h : Orderly P N G s held) {now : Held S} (ht : held t = some now)
    (later : Held S) (hleft : later.left ≤ now.left) {c : Thread R V (L t)}
    (hc : P.Guards N G c (some later) fun _ b => b = none) :
    Orderly P N G
      { s with shared := later.now, code := Function.update s.code t c }
      (Function.update held t (some later)) := by
  have hholder : s.holder = some t := (h.holder t).mpr ⟨now, ht⟩
  refine ⟨fun u => ?_, fun u g hg => ?_, h.code_update hc⟩
  · rcases eq_or_ne u t with rfl | hu
    · rw [Function.update_self]
      exact iff_of_true hholder ⟨later, rfl⟩
    · rw [Function.update_of_ne hu]
      exact h.holder u
  · rcases eq_or_ne u t with rfl | hu
    · rw [Function.update_self] at hg
      obtain rfl := Option.some.inj hg
      exact ⟨rfl, hleft.trans (h.now u now ht).2⟩
    · rw [Function.update_of_ne hu, h.others hholder hu] at hg
      exact absurd hg (by simp)

/-- How a thread's hold on the lock goes on with its own steps: it has ever less left. -/
def Ebbs (a b : Option (Held S)) : Prop :=
  ∀ h, a = some h → b = none ∨ ∃ h', b = some h' ∧ h'.left + 1 ≤ h.left

/-- **What every step keeps.** -/
theorem Orderly.step (hbody : ∀ t l, P.Guards N G (P.body t l) none fun _ b => b = none)
    (h : Orderly P N G s held) (hs : P.step s (t, v) = some s') :
    ∃ held', Orderly P N G s' held' ∧ (∀ u, u ≠ t → held' u = held u) ∧
      Ebbs (held t) (held' t) := by
  have hcode := h.code t
  cases moved_of_step hs with
  | loop l heq =>
    rw [heq] at hcode
    have hnone : held t = none := hcode
    exact ⟨held, h.outside hnone (hbody t l), fun _ _ => rfl, fun g hg =>
      absurd (hnone.symm.trans hg) (by simp)⟩
  | take k heq hfree =>
    rw [heq] at hcode
    obtain ⟨hnone, hk⟩ := hcode
    refine ⟨Function.update held t (some ⟨N, s.shared, s.shared⟩), ⟨fun u => ?_, fun u g hg => ?_,
      h.code_update (hk s.shared)⟩, fun u hu => Function.update_of_ne hu _ _,
      fun g hg => absurd (hnone.symm.trans hg) (by simp)⟩
    · rcases eq_or_ne u t with rfl | hu
      · rw [Function.update_self]
        exact iff_of_true rfl ⟨_, rfl⟩
      · rw [Function.update_of_ne hu, h.none_of_free hfree u]
        exact iff_of_false (fun hc => hu (Option.some.inj hc).symm) (by simp)
    · rcases eq_or_ne u t with rfl | hu
      · rw [Function.update_self] at hg
        obtain rfl := Option.some.inj hg
        exact ⟨rfl, le_rfl⟩
      · rw [Function.update_of_ne hu, h.none_of_free hfree u] at hg
        exact absurd hg (by simp)
  | give k heq =>
    rw [heq] at hcode
    obtain ⟨g, hg, -, hk⟩ := hcode
    have hholder : s.holder = some t := (h.holder t).mpr ⟨g, hg⟩
    have hnone : ∀ u, Function.update held t none u = none := by
      intro u
      rcases eq_or_ne u t with rfl | hu
      · rw [Function.update_self]
      · rw [Function.update_of_ne hu, h.others hholder hu]
    rw [if_pos hholder]
    refine ⟨Function.update held t none, ⟨fun u => ?_, fun u g hg => ?_, h.code_update hk⟩,
      fun u hu => Function.update_of_ne hu _ _, fun _ _ => Or.inl (hnone t)⟩
    · rw [hnone u]
      exact iff_of_false (by simp) (by simp)
    · exact absurd ((hnone u).symm.trans hg) (by simp)
  | use q k heq =>
    rw [heq] at hcode
    obtain ⟨n, a, b, hheld, hk⟩ := hcode
    obtain rfl : b = s.shared := (h.now t _ hheld).1
    refine ⟨_, h.inside hheld ⟨n, a, (P.handle q s.shared).2⟩ (Nat.le_succ n) hk,
      fun u hu => Function.update_of_ne hu _ _, fun g hg => Or.inr ⟨_, Function.update_self .., ?_⟩⟩
    obtain rfl := Option.some.inj (hheld.symm.trans hg)
    exact le_rfl
  | other w k heq =>
    rw [heq] at hcode
    rcases hcode with ⟨hnone, hk⟩ | ⟨n, a, b, hheld, -, hk⟩
    · exact ⟨held, h.outside hnone (hk (v w)), fun _ _ => rfl, fun g hg =>
        absurd (hnone.symm.trans hg) (by simp)⟩
    · obtain rfl : b = s.shared := (h.now t _ hheld).1
      refine ⟨_, h.inside hheld ⟨n, a, s.shared⟩ (Nat.le_succ n) (hk (v w)),
        fun u hu => Function.update_of_ne hu _ _,
        fun g hg => Or.inr ⟨_, Function.update_self .., ?_⟩⟩
      obtain rfl := Option.some.inj (hheld.symm.trans hg)
      exact le_rfl

theorem Orderly.run (hbody : ∀ t l, P.Guards N G (P.body t l) none fun _ b => b = none)
    (h : ∃ held, Orderly P N G s held) {as : List (T × ((w : W) → V w))}
    (hrun : P.sys.run s as = some s') : ∃ held, Orderly P N G s' held := by
  have hkeep : ∀ s a s', (∃ held, Orderly P N G s held) → True → P.sys.step s a = some s' →
      ∃ held, Orderly P N G s' held := by
    rintro s a s' ⟨held, h⟩ - hs
    obtain ⟨held', h', -⟩ := h.step (t := a.1) (v := a.2) hbody hs
    exact ⟨held', h'⟩
  exact Lts.run_invariant hkeep h (P.sys.along_true as s) hrun

/-- The holder of the lock can always take its next step. -/
theorem Orderly.exists_step (h : Orderly P N G s held) (ht : s.holder = some t)
    (v : (w : W) → V w) : ∃ s', P.step s (t, v) = some s' := by
  cases hcode : s.code t with
  | done l => exact ⟨_, by rw [Threads.step, hcode]⟩
  | ask q k =>
    cases q with
    | take => exact absurd hcode ((h.not_waits ht).1 k)
    | give | use | other => exact ⟨_, by rw [Threads.step, hcode]⟩

/-- **The lock is given back**: as long as a thread has it, that thread takes at most so many
steps. -/
theorem Orderly.length_le (hbody : ∀ t l, P.Guards N G (P.body t l) none fun _ b => b = none)
    (t : T) : ∀ {as : List (T × ((w : W) → V w))} {s s' : LockState T S R V L}
      {held : T → Option (Held S)} {g : Held S}, Orderly P N G s held → held t = some g →
      P.sys.Along (fun _ _ s' => s'.holder = some t) s as → P.sys.run s as = some s' →
        (as.filter fun a => a.1 = t).length ≤ g.left := by
  intro as
  induction as with
  | nil => intro s s' held g _ _ _ _; exact Nat.zero_le _
  | cons a as ih =>
    intro s s' held g h hg halong hrun
    obtain ⟨u, hstep, hrun⟩ := P.sys.run_cons_eq_some.mp hrun
    obtain ⟨hholder, halong⟩ := halong u hstep
    obtain ⟨held', h', hkeep, hebbs⟩ := h.step (t := a.1) (v := a.2) hbody hstep
    by_cases ha : a.1 = t
    · subst ha
      obtain ⟨g', hg'⟩ := (h'.holder a.1).mp hholder
      rcases hebbs g hg with hnone | ⟨g'', hg'', hle⟩
      · exact absurd (hnone.symm.trans hg') (by simp)
      · have htail := ih h' hg'' halong hrun
        rw [List.filter_cons, if_pos (by simp), List.length_cons]
        omega
    · rw [List.filter_cons, if_neg (by simpa using ha)]
      exact ih h' ((hkeep t fun h => ha h.symm).trans hg) halong hrun

/-- **What every use of the state keeps holds at every moment**, whoever has the lock. -/
theorem use_invariant {U : Q → Prop} (Inv : S → Prop)
    (hbody : ∀ t l, (P.body t l).All (LockReq.Uses U))
    (hkeep : ∀ q x, U q → Inv x → Inv (P.handle q x).2)
    (hcode : ∀ t, (s.code t).All (LockReq.Uses U)) (hinv : Inv s.shared)
    {as : List (T × ((w : W) → V w))} (hrun : P.sys.run s as = some s') : Inv s'.shared := by
  have hstep : ∀ (s : LockState T S R V L) a s', (Inv s.shared ∧
      ∀ t, (s.code t).All (LockReq.Uses U)) → True → P.sys.step s a = some s' →
        Inv s'.shared ∧ ∀ t, (s'.code t).All (LockReq.Uses U) := by
    rintro s ⟨t, v⟩ s' ⟨hinv, hcode⟩ - hs
    have hupdate : ∀ {p : Thread R V (L t)}, p.All (LockReq.Uses U) →
        ∀ u, (Function.update s.code t p u).All (LockReq.Uses U) := by
      intro p hp u
      rcases eq_or_ne u t with rfl | hu
      · rwa [Function.update_self]
      · rw [Function.update_of_ne hu]
        exact hcode u
    have ht := hcode t
    cases moved_of_step hs with
    | loop l heq => exact ⟨hinv, hupdate (hbody t l)⟩
    | take k heq | give k heq | other w k heq =>
      rw [heq] at ht
      exact ⟨hinv, hupdate (ht.2 _)⟩
    | use q k heq =>
      rw [heq] at ht
      exact ⟨hkeep q _ ht.1 hinv, hupdate (ht.2 _)⟩
  exact (Lts.run_invariant hstep ⟨hinv, hcode⟩ (P.sys.along_true as s) hrun).1

end Together

end Threads

/-! ### One use after another -/

/-- A state in which no thread has the lock. -/
structure SerialState (T : Type) {Q W : Type} (S : Type) (R : Q → Type) (V : W → Type)
    (L : T → Type) where
  shared : S
  code : (t : T) → Thread R V (L t)

/-- A step of the system in which a use of the lock is one step. -/
inductive SerialAct (T : Type) {W : Type} (V : W → Type)
  /-- A thread goes on without the lock. -/
  | alone (t : T) (v : (w : W) → V w)
  /-- A thread takes the lock, does all it does with it, and gives it back. -/
  | whole (t : T) (vs : List ((w : W) → V w))

namespace Threads

variable {T Q W S : Type} {R : Q → Type} {V : W → Type} {L : T → Type} {α : Type}
  (P : Threads T Q W S R V L)

/-- A thread with the lock, by itself until it gives it back. -/
def solo : Thread R V α → S → List ((w : W) → V w) → Option (Thread R V α × S)
  | .ask .give k, s, [] => some (k (), s)
  | .ask (.use q) k, s, vs => solo (k (P.handle q s).1) (P.handle q s).2 vs
  | .ask (.other w) k, s, v :: vs => solo (k (v w)) s vs
  | _, _, _ => none

/-- The state `c` is where the uses of the lock that are over have led to. -/
def Mirrors (s : LockState T S R V L) (c : SerialState T S R V L) : Prop :=
  match s.holder with
  | none => c = ⟨s.shared, s.code⟩
  | some t => ∃ k vs, c.code t = .ask .take k ∧ (∀ u, u ≠ t → c.code u = s.code u) ∧
    ∀ more, P.solo (s.code t) s.shared more = P.solo (k ()) c.shared (vs ++ more)

section

variable {P} {N : ℕ} {G : S → S → Prop} {s : LockState T S R V L} {t : T}
  {c : SerialState T S R V L}

theorem mirrors_of_free (hfree : s.holder = none) : P.Mirrors s c ↔ c = ⟨s.shared, s.code⟩ := by
  rw [Mirrors, hfree]

theorem mirrors_of_holder (ht : s.holder = some t) : P.Mirrors s c ↔
    ∃ k vs, c.code t = .ask .take k ∧ (∀ u, u ≠ t → c.code u = s.code u) ∧
      ∀ more, P.solo (s.code t) s.shared more = P.solo (k ()) c.shared (vs ++ more) := by
  rw [Mirrors, ht]

/-- A use of the lock by itself is as the script's precondition says. -/
theorem guards_solo {p p' : Thread R V α} {m : ℕ} {a x y : S} {vs : List ((w : W) → V w)}
    {Post : α → Option (Held S) → Prop} (h : P.Guards N G p (some ⟨m, a, x⟩) Post)
    (hsolo : P.solo p x vs = some (p', y)) : G a y ∧ P.Guards N G p' none Post := by
  induction p generalizing m x vs with
  | done l => exact absurd hsolo (by simp [solo])
  | ask q k ih =>
    cases q with
    | take => exact absurd h.1 (by simp)
    | give =>
      obtain ⟨g, hg, hG, hk⟩ := h
      obtain rfl := Option.some.inj hg
      cases vs with
      | nil =>
        obtain ⟨rfl, rfl⟩ := Prod.mk.inj (Option.some.inj hsolo)
        exact ⟨hG, hk⟩
      | cons v vs => exact absurd hsolo (by simp [solo])
    | use q =>
      obtain ⟨n, s, t, hb, hk⟩ := h
      obtain ⟨-, rfl, rfl⟩ := Held.mk.inj (Option.some.inj hb)
      exact ih _ hk hsolo
    | other w =>
      rcases h with ⟨hb, -⟩ | ⟨n, s, t, hb, -, hk⟩
      · exact absurd hb (by simp)
      · obtain ⟨-, rfl, rfl⟩ := Held.mk.inj (Option.some.inj hb)
        cases vs with
        | nil => exact absurd hsolo (by simp [solo])
        | cons v vs => exact ih _ (hk (v w)) hsolo

end

variable [DecidableEq T]

/-- What such a step does. -/
def serialStep (c : SerialState T S R V L) : SerialAct T V → Option (SerialState T S R V L)
  | .alone t v =>
    match c.code t with
    | .done l => some { c with code := Function.update c.code t (P.body t l) }
    | .ask (.other w) k => some { c with code := Function.update c.code t (k (v w)) }
    | _ => none
  | .whole t vs =>
    match c.code t with
    | .ask .take k => (P.solo (k ()) c.shared vs).map fun r =>
      ⟨r.2, Function.update c.code t r.1⟩
    | _ => none

/-- The system. -/
def serial : Lts (SerialState T S R V L) (SerialAct T V) := ⟨P.serialStep⟩

variable {P} {N : ℕ} {G : S → S → Prop} {s s' : LockState T S R V L} {t : T} {v : (w : W) → V w}
  {held : T → Option (Held S)} {c : SerialState T S R V L}

/-- A thread without the lock goes on, and so it does in the other system. -/
theorem Mirrors.alone (h : P.Mirrors s c) (ht : s.holder ≠ some t) {p : Thread R V (L t)}
    (hstep : ∀ c : SerialState T S R V L, c.code t = s.code t →
      P.serialStep c (.alone t v) = some { c with code := Function.update c.code t p }) :
    ∃ c', P.serial.run c [.alone t v] = some c' ∧
      P.Mirrors { s with code := Function.update s.code t p } c' := by
  cases hholder : s.holder with
  | none =>
    obtain rfl := (mirrors_of_free hholder).mp h
    exact ⟨_, P.serial.run_cons_eq_some.mpr ⟨_, hstep _ rfl, rfl⟩, (mirrors_of_free rfl).mpr rfl⟩
  | some u =>
    have hne : u ≠ t := fun hut => ht (hut ▸ hholder)
    obtain ⟨k, vs, hk, hothers, hsolo⟩ := (mirrors_of_holder hholder).mp h
    refine ⟨_, P.serial.run_cons_eq_some.mpr ⟨_, hstep c (hothers t fun htu => hne htu.symm), rfl⟩,
      (mirrors_of_holder rfl).mpr ⟨k, vs, ?_, fun w hw => ?_, fun more => ?_⟩⟩
    · show Function.update c.code t p u = _
      rw [Function.update_of_ne hne, hk]
    · show Function.update c.code t p w = Function.update s.code t p w
      rcases eq_or_ne w t with rfl | hwt
      · rw [Function.update_self, Function.update_self]
      · rw [Function.update_of_ne hwt, Function.update_of_ne hwt, hothers w hw]
    · show P.solo (Function.update s.code t p u) _ more = _
      rw [Function.update_of_ne hne]
      exact hsolo more

/-- The thread that has the lock goes on with it; in the other system that is still to come. -/
theorem Mirrors.inside (h : P.Mirrors s c) (ht : s.holder = some t) {p : Thread R V (L t)} {x : S}
    (ws : List ((w : W) → V w))
    (hstep : ∀ more, P.solo (s.code t) s.shared (ws ++ more) = P.solo p x more) :
    P.Mirrors { s with shared := x, code := Function.update s.code t p } c := by
  obtain ⟨k, vs, hk, hothers, hsolo⟩ := (mirrors_of_holder ht).mp h
  refine (mirrors_of_holder (s := { s with shared := x, code := Function.update s.code t p })
    ht).mpr ⟨k, vs ++ ws, hk, fun u hu => ?_, fun more => ?_⟩
  · show c.code u = Function.update s.code t p u
    rw [Function.update_of_ne hu, hothers u hu]
  · show P.solo (Function.update s.code t p t) x more = _
    rw [Function.update_self, ← hstep more, hsolo, List.append_assoc]

/-- **Every step is one of the other system, or none there.** -/
theorem Mirrors.step (hs : Orderly P N G s held) (h : P.Mirrors s c)
    (hstep : P.step s (t, v) = some s') :
    ∃ cs c', P.serial.run c cs = some c' ∧ P.Mirrors s' c' := by
  have hguards := hs.code t
  cases moved_of_step hstep with
  | loop l heq =>
    rw [heq] at hguards
    have hnone : held t = none := hguards
    have ht : s.holder ≠ some t := by
      intro hholder
      obtain ⟨g, hg⟩ := (hs.holder t).mp hholder
      exact absurd (hnone.symm.trans hg) (by simp)
    obtain ⟨c', hrun, hc'⟩ := h.alone (v := v) ht fun c hc => by rw [serialStep, hc, heq]
    exact ⟨_, c', hrun, hc'⟩
  | take k heq hfree =>
    obtain rfl := (mirrors_of_free hfree).mp h
    refine ⟨[], _, rfl, (mirrors_of_holder rfl).mpr ⟨k, [], heq, fun u hu => ?_, fun more => ?_⟩⟩
    · exact (Function.update_of_ne hu _ _).symm
    · show P.solo (Function.update s.code t _ t) s.shared more = _
      rw [Function.update_self]
      rfl
  | give k heq =>
    rw [heq] at hguards
    obtain ⟨g, hg, -, -⟩ := hguards
    have ht : s.holder = some t := (hs.holder t).mpr ⟨g, hg⟩
    obtain ⟨k', vs, hk', hothers, hsolo⟩ := (mirrors_of_holder ht).mp h
    have hwhole := hsolo []
    rw [heq, List.append_nil] at hwhole
    refine ⟨[.whole t vs], ⟨s.shared, Function.update s.code t (k ())⟩,
      P.serial.run_cons_eq_some.mpr ⟨_, ?_, rfl⟩, (mirrors_of_free (if_pos ht)).mpr rfl⟩
    show P.serialStep c (.whole t vs) = _
    rw [serialStep, hk']
    show (P.solo (k' ()) c.shared vs).map _ = _
    rw [← hwhole]
    have hcode : Function.update c.code t (k ()) = Function.update s.code t (k ()) := by
      funext u
      rcases eq_or_ne u t with rfl | hu
      · rw [Function.update_self, Function.update_self]
      · rw [Function.update_of_ne hu, Function.update_of_ne hu, hothers u hu]
    exact congrArg (fun code => some (SerialState.mk s.shared code)) hcode
  | use q k heq =>
    have ht : s.holder = some t := hs.holder_of_use heq
    exact ⟨[], c, rfl, h.inside ht [] fun more => by rw [heq]; rfl⟩
  | other w k heq =>
    by_cases ht : s.holder = some t
    · exact ⟨[], c, rfl, h.inside (x := s.shared) ht [v] fun more => by rw [heq]; rfl⟩
    · obtain ⟨c', hrun, hc'⟩ := h.alone (v := v) ht fun c hc => by rw [serialStep, hc, heq]
      exact ⟨_, c', hrun, hc'⟩

/-- **One use after another**, each as it should be. -/
theorem serial_chain (hbody : ∀ t l, P.Guards N G (P.body t l) none fun _ b => b = none)
    {c c' : SerialState T S R V L} (hc : ∀ t, P.Guards N G (c.code t) none fun _ b => b = none)
    {cs : List (SerialAct T V)} (hrun : P.serial.run c cs = some c') :
    Relation.ReflTransGen G c.shared c'.shared := by
  induction cs generalizing c with
  | nil =>
    obtain rfl := Option.some.inj hrun
    exact Relation.ReflTransGen.refl
  | cons a cs ih =>
    obtain ⟨d, hstep, hrun⟩ := P.serial.run_cons_eq_some.mp hrun
    have hstep : P.serialStep c a = some d := hstep
    have hupdate : ∀ (t : T) {p : Thread R V (L t)}, P.Guards N G p none (fun _ b => b = none) →
        ∀ u, P.Guards N G (Function.update c.code t p u) none fun _ b => b = none := by
      intro t p hp u
      rcases eq_or_ne u t with rfl | hu
      · rw [Function.update_self]
        exact hp
      · rw [Function.update_of_ne hu]
        exact hc u
    cases a with
    | alone t v =>
      have hguards := hc t
      rw [serialStep] at hstep
      split at hstep
      · obtain rfl := Option.some.inj hstep
        exact ih (c := ⟨_, Function.update c.code t _⟩) (hupdate t (hbody t _)) hrun
      · next w k hcode =>
        obtain rfl := Option.some.inj hstep
        rw [hcode] at hguards
        rcases hguards with ⟨-, hk⟩ | ⟨n, a, b, hb, -⟩
        · exact ih (c := ⟨_, Function.update c.code t _⟩) (hupdate t (hk (v w))) hrun
        · exact absurd hb (by simp)
      · exact absurd hstep (by simp)
    | whole t vs =>
      have hguards := hc t
      rw [serialStep] at hstep
      split at hstep
      · next k hcode =>
        obtain ⟨⟨p, x⟩, hsolo, rfl⟩ := Option.map_eq_some_iff.mp hstep
        rw [hcode] at hguards
        obtain ⟨hG, hp⟩ := guards_solo (hguards.2 c.shared) hsolo
        have htail := ih (c := ⟨x, Function.update c.code t _⟩) (hupdate t hp) hrun
        exact htail.head hG
      · exact absurd hstep (by simp)

/-- **Every run is one in which the uses of the lock come one after another**, each as a whole, and
the threads get to the same places with the same answers. -/
theorem serialises (hbody : ∀ t l, P.Guards N G (P.body t l) none fun _ b => b = none)
    (h : ∃ held, Orderly P N G s held) (hc : P.Mirrors s c)
    {as : List (T × ((w : W) → V w))} (hrun : P.sys.run s as = some s') :
    ∃ cs c', P.serial.run c cs = some c' ∧ P.Mirrors s' c' := by
  induction as generalizing s c with
  | nil =>
    obtain rfl := Option.some.inj hrun
    exact ⟨[], c, rfl, hc⟩
  | cons a as ih =>
    obtain ⟨u, hstep, hrun⟩ := P.sys.run_cons_eq_some.mp hrun
    obtain ⟨held, h⟩ := h
    obtain ⟨held', h', -⟩ := h.step (t := a.1) (v := a.2) hbody hstep
    obtain ⟨cs, c', hcs, hc'⟩ := hc.step (t := a.1) (v := a.2) h hstep
    obtain ⟨ds, c'', hds, hc''⟩ := ih ⟨held', h'⟩ hc' hrun
    exact ⟨cs ++ ds, c'', P.serial.run_append_eq_some hcs hds, hc''⟩

end Threads

end Usb2T1L
