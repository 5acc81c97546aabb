import Mathlib.Tactic
import Mathlib.Data.Fintype.Basic

/-!
# Fixed tables searched by key

A table is an array of `N` entries, some of them live, searched for the first
live entry with a given key.  While live entries have pairwise different keys
the search is a finite map, whose domain is bounded by `N`, and storing an entry
changes that map at the new key and at most at one other: the key of the entry
that was overwritten.

## Main definitions

* `Table.find`, `Table.lookup` — first match, and the value it gives.
* `Table.Distinct` — live entries have different keys.

## Main results

* `Table.find_eq_some_iff` — under `Distinct`, a match is *the* match.
* `Table.lookup_update_self`, `Table.lookup_update_of_ne` — storing an entry.
* `Table.lookup_retire` — retiring entries.
* `Table.card_keys_le` — the map is bounded.
-/

namespace Usb2T1L

/-- How the entries of a table are read. -/
structure Table (E K V : Type*) where
  live : E → Bool
  key : E → K
  val : E → V

namespace Table

variable {E K V : Type*} [DecidableEq K] (T : Table E K V) {N : ℕ}

/-- Entry `i` is live and has key `k`. -/
def hit (t : Fin N → E) (k : K) (i : Fin N) : Bool := T.live (t i) && decide (T.key (t i) = k)

/-- The first live entry with key `k`. -/
def find (t : Fin N → E) (k : K) : Option (Fin N) := (List.finRange N).find? (T.hit t k)

/-- The value stored under `k`. -/
def lookup (t : Fin N → E) (k : K) : Option V := (T.find t k).map fun i => T.val (t i)

/-- Live entries have different keys. -/
def Distinct (t : Fin N → E) : Prop :=
  ∀ i j, T.live (t i) = true → T.live (t j) = true → T.key (t i) = T.key (t j) → i = j

variable {T}

theorem hit_iff {t : Fin N → E} {k : K} {i : Fin N} :
    T.hit t k i = true ↔ T.live (t i) = true ∧ T.key (t i) = k := by
  rw [hit, Bool.and_eq_true, decide_eq_true_eq]

theorem find_eq_none_iff {t : Fin N → E} {k : K} :
    T.find t k = none ↔ ∀ i, T.live (t i) = true → T.key (t i) ≠ k := by
  rw [find, List.find?_eq_none]
  constructor
  · intro h i hl hk
    exact h i (List.mem_finRange i) (hit_iff.mpr ⟨hl, hk⟩)
  · intro h i _ hit
    obtain ⟨hl, hk⟩ := hit_iff.mp hit
    exact h i hl hk

theorem find_spec {t : Fin N → E} {k : K} {i : Fin N} (h : T.find t k = some i) :
    T.live (t i) = true ∧ T.key (t i) = k := hit_iff.mp (List.find?_some h)

/-- **A match is the match**, when keys are distinct. -/
theorem find_eq_some_iff {t : Fin N → E} (hd : T.Distinct t) {k : K} {i : Fin N} :
    T.find t k = some i ↔ T.live (t i) = true ∧ T.key (t i) = k := by
  constructor
  · exact find_spec
  · rintro ⟨hl, hk⟩
    cases hf : T.find t k with
    | none => exact absurd hk (find_eq_none_iff.mp hf i hl)
    | some j =>
      obtain ⟨hl', hk'⟩ := find_spec hf
      rw [hd i j hl hl' (hk.trans hk'.symm)]

/-- The searches of two tables agree on a key when the same entries match. -/
theorem find_congr {t t' : Fin N → E} {k : K} (h : ∀ i, T.hit t' k i = T.hit t k i) :
    T.find t' k = T.find t k := by
  rw [find, find, funext h]

omit [DecidableEq K] in
/-- Storing an entry under a key no other live entry has keeps keys distinct. -/
theorem Distinct.update {t : Fin N → E} (hd : T.Distinct t) {i : Fin N} {e : E}
    (hfresh : ∀ j, j ≠ i → T.live (t j) = true → T.key (t j) ≠ T.key e) :
    T.Distinct (Function.update t i e) := by
  intro a b ha hb hk
  by_cases hai : a = i <;> by_cases hbi : b = i
  · rw [hai, hbi]
  · rw [Function.update_of_ne hbi] at hb hk
    rw [hai, Function.update_self] at hk
    exact absurd hk.symm (hfresh b hbi hb)
  · rw [Function.update_of_ne hai] at ha hk
    rw [hbi, Function.update_self] at hk
    exact absurd hk (hfresh a hai ha)
  · rw [Function.update_of_ne hai] at ha hk
    rw [Function.update_of_ne hbi] at hb hk
    exact hd a b ha hb hk

theorem lookup_eq_none_iff {t : Fin N → E} {k : K} :
    T.lookup t k = none ↔ ∀ i, T.live (t i) = true → T.key (t i) ≠ k := by
  rw [lookup, Option.map_eq_none_iff, find_eq_none_iff]

/-- What is found under a key is the value of its live entry. -/
theorem lookup_eq_some_iff {t : Fin N → E} (hd : T.Distinct t) {k : K} {v : V} :
    T.lookup t k = some v ↔ ∃ i, T.live (t i) = true ∧ T.key (t i) = k ∧ T.val (t i) = v := by
  rw [lookup, Option.map_eq_some_iff]
  refine exists_congr fun i => ?_
  rw [find_eq_some_iff hd, and_assoc]

/-- The keys of the live entries. -/
def keys (T : Table E K V) (t : Fin N → E) : Finset K :=
  (Finset.univ.filter fun i => T.live (t i) = true).image fun i => T.key (t i)

/-- **The map is bounded**: it is defined on at most `N` keys. -/
theorem card_keys_le (t : Fin N → E) : (T.keys t).card ≤ N := by
  refine Finset.card_image_le.trans ((Finset.card_filter_le _ _).trans ?_)
  rw [Finset.card_univ, Fintype.card_fin]

theorem mem_keys_iff {t : Fin N → E} {k : K} : k ∈ T.keys t ↔ T.lookup t k ≠ none := by
  rw [ne_eq, lookup_eq_none_iff, keys, Finset.mem_image]
  simp only [Finset.mem_filter, Finset.mem_univ, true_and, not_forall, not_not]
  exact ⟨fun ⟨i, hl, hk⟩ => ⟨i, hl, hk⟩, fun ⟨i, hl, hk⟩ => ⟨i, hl, hk⟩⟩

/-- After storing a live entry its key is found, with its value. -/
theorem lookup_update_self {t : Fin N → E} (hd : T.Distinct t) {i : Fin N} {e : E}
    (hlive : T.live e = true)
    (hfresh : ∀ j, j ≠ i → T.live (t j) = true → T.key (t j) ≠ T.key e) :
    T.lookup (Function.update t i e) (T.key e) = some (T.val e) := by
  have hf : T.find (Function.update t i e) (T.key e) = some i := by
    rw [find_eq_some_iff (hd.update hfresh), Function.update_self]
    exact ⟨hlive, rfl⟩
  rw [lookup, hf, Option.map_some, Function.update_self]

/-- Storing an entry takes away the key it overwrites, and no other. -/
theorem lookup_update_of_ne {t : Fin N → E} (hd : T.Distinct t) {i : Fin N} {e : E} {k : K}
    (hk : k ≠ T.key e) :
    T.lookup (Function.update t i e) k = if T.hit t k i = true then none else T.lookup t k := by
  have hmiss : T.hit (Function.update t i e) k i = false := by
    rw [hit, Function.update_self, decide_eq_false hk.symm, Bool.and_false]
  have hother : ∀ j, j ≠ i → T.hit (Function.update t i e) k j = T.hit t k j := by
    intro j hj
    rw [hit, hit, Function.update_of_ne hj]
  split
  · next hhit =>
    -- the only entry with key `k` was the one overwritten
    have hf : T.find (Function.update t i e) k = none := by
      rw [find_eq_none_iff]
      intro j hl hkj
      have hj := hit_iff.mpr ⟨hl, hkj⟩
      rcases eq_or_ne j i with rfl | hji
      · rw [hmiss] at hj; exact absurd hj (by decide)
      · rw [hother j hji] at hj
        obtain ⟨hl1, hk1⟩ := hit_iff.mp hj
        obtain ⟨hl2, hk2⟩ := hit_iff.mp hhit
        exact hji (hd j i hl1 hl2 (hk1.trans hk2.symm))
    rw [lookup, hf, Option.map_none]
  · next hhit =>
    have hf : T.find (Function.update t i e) k = T.find t k := by
      refine find_congr fun j => ?_
      rcases eq_or_ne j i with rfl | hji
      · rw [hmiss, Bool.not_eq_true _ |>.mp hhit]
      · exact hother j hji
    rw [lookup, lookup, hf]
    cases hfi : T.find t k with
    | none => rfl
    | some j =>
      have hji : j ≠ i := by
        rintro rfl
        exact hhit (hit_iff.mpr (find_spec hfi))
      rw [Option.map_some, Option.map_some, Function.update_of_ne hji]

omit [DecidableEq K] in
/-- Retiring entries keeps keys distinct. -/
theorem Distinct.retire {t t' : Fin N → E} (hd : T.Distinct t)
    (h : ∀ i, T.live (t' i) = true → t' i = t i) : T.Distinct t' := by
  intro i j hi hj hk
  have ei := h i hi
  have ej := h j hj
  rw [ei] at hi hk
  rw [ej] at hj hk
  exact hd i j hi hj hk

/-- Retiring entries takes away exactly their keys. -/
theorem lookup_retire {t t' : Fin N → E} (hd : T.Distinct t)
    (h : ∀ i, T.live (t' i) = true → t' i = t i) (k : K) :
    T.lookup t' k =
      (T.find t k).bind fun i => if T.live (t' i) = true then some (T.val (t i)) else none := by
  cases hf : T.find t k with
  | none =>
    have hnone : T.find t' k = none := by
      rw [find_eq_none_iff] at hf ⊢
      intro i hl
      have ei := h i hl
      rw [ei] at hl ⊢
      exact hf i hl
    rw [lookup, hnone]
    rfl
  | some i =>
    rw [Option.bind_some]
    split
    · next hl =>
      have hi := h i hl
      have hf' : T.find t' k = some i := by
        rw [find_eq_some_iff (hd.retire h), hi]
        exact find_spec hf
      rw [lookup, hf', Option.map_some, hi]
    · next hl =>
      have hnone : T.find t' k = none := by
        rw [find_eq_none_iff]
        intro j hlj hkj
        have hj := h j hlj
        obtain ⟨hl1, hk1⟩ := find_spec hf
        rw [hj] at hkj
        have hji : j = i := hd j i (hj ▸ hlj) hl1 (hkj.trans hk1.symm)
        exact hl (hji ▸ hlj)
      rw [lookup, hnone, Option.map_none]

end Table

end Usb2T1L
