import Mathlib.Tactic

/-!
# Labelled transition systems

A system is a partial step function on states.  Everything that is not decided
by the state — which party moves next, what the environment answers — is in the
action, so a run is just a list of actions.  An action that is not enabled ends
the run.

Assumptions on the environment are conditions on single steps: `Along G s as`
says that every step the run `as` takes from `s` meets `G`.

## Main definitions

* `Lts`, `Lts.run` — systems and their runs.
* `Lts.Along P s as` — every step of a run satisfies `P`.

## Main results

* `Lts.run_invariant`, `Lts.along_invariant` — **the rule of invariance**, for
  the states and for the steps of the runs that meet a condition.
* `Lts.leads_to` — **the rule of progress**, for a bound that every step lowers.
* `Lts.length_le_potential` — **the rule of termination.**
-/

namespace Usb2T1L

/-- A labelled transition system: `step s a` is the state after action `a`, or
`none` when `a` is not enabled in `s`. -/
structure Lts (S A : Type*) where
  step : S → A → Option S

namespace Lts

variable {S A : Type*} (T : Lts S A)

/-- The state a list of actions leads to. -/
def run : S → List A → Option S
  | s, [] => some s
  | s, a :: as => (T.step s a).bind fun s' => run s' as

/-- Every step of the run `as` from `s` satisfies `P`. -/
def Along (P : S → A → S → Prop) : S → List A → Prop
  | _, [] => True
  | s, a :: as => ∀ s', T.step s a = some s' → P s a s' ∧ Along P s' as

@[simp] theorem run_nil (s : S) : T.run s [] = some s := rfl

theorem run_cons (s : S) (a : A) (as : List A) :
    T.run s (a :: as) = (T.step s a).bind fun s' => T.run s' as := rfl

theorem run_cons_eq_some {s s' : S} {a : A} {as : List A} :
    T.run s (a :: as) = some s' ↔ ∃ t, T.step s a = some t ∧ T.run t as = some s' := by
  rw [run_cons, Option.bind_eq_some_iff]

/-- A run after another. -/
theorem run_append (s : S) (as bs : List A) :
    T.run s (as ++ bs) = (T.run s as).bind fun t => T.run t bs := by
  induction as generalizing s with
  | nil => rfl
  | cons a as ih =>
    rw [List.cons_append, run_cons, run_cons, Option.bind_assoc]
    exact congrArg _ (funext ih)

theorem run_append_iff {s s' : S} {as bs : List A} :
    T.run s (as ++ bs) = some s' ↔ ∃ t, T.run s as = some t ∧ T.run t bs = some s' := by
  rw [run_append, Option.bind_eq_some_iff]

theorem run_append_eq_some {s t s' : S} {as bs : List A} (h : T.run s as = some t)
    (h' : T.run t bs = some s') : T.run s (as ++ bs) = some s' :=
  T.run_append_iff.mpr ⟨t, h, h'⟩

/-- Whether a given run satisfies a decidable step predicate can be computed. -/
instance decidableAlong {P : S → A → S → Prop} [∀ s a s', Decidable (P s a s')] :
    ∀ (s : S) (as : List A), Decidable (T.Along P s as)
  | _, [] => isTrue trivial
  | s, a :: as =>
    match h : T.step s a with
    | none => isTrue fun _ hs => absurd (h.symm.trans hs) (by simp)
    | some t =>
      have : Decidable (T.Along P t as) := decidableAlong t as
      decidable_of_iff (P s a t ∧ T.Along P t as)
        ⟨fun hP s' hs => by obtain rfl := Option.some.inj (h.symm.trans hs); exact hP,
          fun hA => hA t h⟩

variable {T}

/-- **The rule of invariance, for steps.**  `Inv` is kept by the steps that meet
`G`, and such steps from a state of `Inv` satisfy `P`; then every run whose steps
meet `G` has all its steps in `P`. -/
theorem along_invariant {Inv : S → Prop} {G P : S → A → S → Prop}
    (hkeep : ∀ s a s', Inv s → G s a s' → T.step s a = some s' → Inv s')
    (hstep : ∀ s a s', Inv s → G s a s' → T.step s a = some s' → P s a s') :
    ∀ {as : List A} {s : S}, Inv s → T.Along G s as → T.Along P s as := by
  intro as
  induction as with
  | nil => intro s _ _; trivial
  | cons a as ih =>
    intro s hI hG s' hs
    obtain ⟨h1, h2⟩ := hG s' hs
    exact ⟨hstep s a s' hI h1 hs, ih (hkeep s a s' hI h1 hs) h2⟩

/-- **The rule of invariance, for states.** -/
theorem run_invariant {Inv : S → Prop} {G : S → A → S → Prop}
    (hkeep : ∀ s a s', Inv s → G s a s' → T.step s a = some s' → Inv s') :
    ∀ {as : List A} {s s' : S}, Inv s → T.Along G s as → T.run s as = some s' → Inv s' := by
  intro as
  induction as with
  | nil =>
    intro s s' hI _ hr
    rw [run_nil, Option.some.injEq] at hr
    exact hr ▸ hI
  | cons a as ih =>
    intro s s' hI hG hr
    obtain ⟨t, ht, hr⟩ := T.run_cons_eq_some.mp hr
    obtain ⟨h1, h2⟩ := hG t ht
    exact ih (hkeep s a t hI h1 ht) h2 hr

/-- With no condition on the steps. -/
theorem along_true : ∀ (as : List A) (s : S), T.Along (fun _ _ _ => True) s as := by
  intro as
  induction as with
  | nil => intro s; trivial
  | cons a as ih => intro s s' _; exact ⟨trivial, ih s'⟩

/-- With a condition on the actions only. -/
theorem along_of_forall_mem {G : A → Prop} : ∀ {as : List A}, (∀ a ∈ as, G a) →
    ∀ s : S, T.Along (fun _ a _ => G a) s as := by
  intro as
  induction as with
  | nil => intro _ s; trivial
  | cons a as ih =>
    intro h s s' _
    obtain ⟨ha, has⟩ := List.forall_mem_cons.mp h
    exact ⟨ha, ih has s'⟩

/-- A condition that another one implies. -/
theorem along_mono {G P : S → A → S → Prop} (h : ∀ s a s', G s a s' → P s a s') {as : List A}
    {s : S} (hG : T.Along G s as) : T.Along P s as := by
  have hkeep : ∀ s a s', True → G s a s' → T.step s a = some s' → True := fun _ _ _ h _ _ => h
  exact along_invariant hkeep (fun s a s' _ hg _ => h s a s' hg) trivial hG

/-- A run after another. -/
theorem along_append {P : S → A → S → Prop} {as bs : List A} {s : S} (h : T.Along P s as)
    (h' : ∀ t, T.run s as = some t → T.Along P t bs) : T.Along P s (as ++ bs) := by
  induction as generalizing s with
  | nil => exact h' s rfl
  | cons a as ih =>
    intro t ht
    obtain ⟨hP, has⟩ := h t ht
    exact ⟨hP, ih has fun r hr => h' r (T.run_cons_eq_some.mpr ⟨t, ht, hr⟩)⟩

/-- **The rule of termination.**  Steps of a kind each lower a potential; then there are at most as
many of them in a row as it says. -/
theorem length_le_potential {Inv : S → Prop} {G : A → Prop} {f : S → ℕ}
    (hkeep : ∀ s a s', Inv s → G a → T.step s a = some s' → Inv s')
    (hlower : ∀ s a s', Inv s → G a → T.step s a = some s' → f s' + 1 ≤ f s) :
    ∀ {as : List A} {s s' : S}, Inv s → (∀ a ∈ as, G a) → T.run s as = some s' →
      as.length + f s' ≤ f s := by
  intro as
  induction as with
  | nil =>
    intro s s' _ _ hr
    rw [run_nil, Option.some.injEq] at hr
    rw [hr, List.length_nil, Nat.zero_add]
  | cons a as ih =>
    intro s s' hI hG hr
    obtain ⟨ha, has⟩ := List.forall_mem_cons.mp hG
    obtain ⟨t, ht, hr⟩ := T.run_cons_eq_some.mp hr
    have hrest := ih (hkeep s a t hI ha ht) has hr
    have hfirst := hlower s a t hI ha ht
    rw [List.length_cons]
    omega

/-- The first step of a sequence of choices, and the others. -/
theorem run_choices_succ {B : Type*} (act : B → A) (choice : ℕ → B) (s : S) (m : ℕ) :
    T.run s ((List.range (m + 1)).map fun i => act (choice i)) =
      T.run s (act (choice 0) :: (List.range m).map fun i => act (choice (i + 1))) := by
  rw [List.range_succ_eq_map, List.map_cons, List.map_map]
  rfl

/-- **The rule of progress.**  Each step of a sequence of choices is enabled, and leads to `Q` or
to a smaller bound; then the sequence leads to `Q`. -/
theorem leads_to {B : Type*} (act : B → A) {Q : S → Prop} {Bound : ℕ → S → (ℕ → B) → Prop}
    (hstep : ∀ k s choice, Bound k s choice → ∃ s', T.step s (act (choice 0)) = some s' ∧
      (Q s' ∨ ∃ j < k, Bound j s' fun i => choice (i + 1))) :
    ∀ (k : ℕ) (s : S) (choice : ℕ → B), Bound k s choice →
      ∃ m s', T.run s ((List.range m).map fun i => act (choice i)) = some s' ∧ Q s' := by
  intro k
  induction k using Nat.strong_induction_on with
  | _ k ih =>
    intro s choice hk
    obtain ⟨s', hs', hQ | ⟨j, hj, hB⟩⟩ := hstep k s choice hk
    · exact ⟨1, s', T.run_cons_eq_some.mpr ⟨s', hs', rfl⟩, hQ⟩
    · obtain ⟨m, t, hrun, hQ⟩ := ih j hj s' (fun i => choice (i + 1)) hB
      refine ⟨m + 1, t, ?_, hQ⟩
      rw [run_choices_succ]
      exact T.run_cons_eq_some.mpr ⟨s', hs', hrun⟩

end Lts

end Usb2T1L
