import Mathlib.Tactic

/-!
# Packed little-endian layouts

A packed record is its fields one after the other, and each integer field its bytes, least
significant first.  A reader that walks through the fields and one that goes to each field's
offset see the same bytes.

## Main definitions

* `Layout.split`, `Layout.offset` — walking through the fields, and where each begins.
* `Layout.ofLe`, `Layout.toLe` — integers and their bytes.

## Main results

* `Layout.split_flatten`, `Layout.getElem?_split` — the two ways of reading agree.
* `Layout.toNat_word` — **a load from memory is the integer** of its bytes.
-/

namespace Usb2T1L

namespace Layout

variable {α : Type*}

/-! ### Fields -/

/-- Cut a record into fields of the given sizes. -/
def split : List ℕ → List α → List (List α)
  | [], _ => []
  | n :: ns, b => b.take n :: split ns (b.drop n)

/-- Where field `k` begins. -/
def offset (ns : List ℕ) (k : ℕ) : ℕ := (ns.take k).sum

/-- **Cutting undoes packing.** -/
theorem split_flatten : ∀ {ns : List ℕ} {fields : List (List α)},
    fields.map List.length = ns → ∀ tail, split ns (fields.flatten ++ tail) = fields := by
  intro ns
  induction ns with
  | nil =>
    intro fields h tail
    rw [List.map_eq_nil_iff.mp h]
    rfl
  | cons n ns ih =>
    intro fields h tail
    cases fields with
    | nil => exact absurd h (by simp)
    | cons f fields =>
      rw [List.map_cons, List.cons.injEq] at h
      obtain ⟨rfl, h⟩ := h
      rw [split, List.flatten_cons, List.append_assoc, List.take_left', List.drop_left', ih h]
      · rfl
      · rfl

/-- **Field `k` lies at its offset.** -/
theorem getElem?_split : ∀ (ns : List ℕ) (b : List α) (k : ℕ),
    (split ns b)[k]? = ns[k]?.map fun n => (b.drop (offset ns k)).take n := by
  intro ns
  induction ns with
  | nil => intro b k; rfl
  | cons n ns ih =>
    intro b k
    cases k with
    | zero => rfl
    | succ k =>
      rw [split, List.getElem?_cons_succ, List.getElem?_cons_succ, ih, List.drop_drop, offset,
        offset, List.take_succ_cons, List.sum_cons]

/-- A field ends within the record. -/
theorem offset_add_le : ∀ {ns : List ℕ} {k n : ℕ}, ns[k]? = some n → offset ns k + n ≤ ns.sum := by
  intro ns
  induction ns with
  | nil => intro k n h; exact absurd h (by simp)
  | cons m ns ih =>
    intro k n h
    cases k with
    | zero =>
      obtain rfl : m = n := Option.some.inj h
      rw [offset, List.take_zero, List.sum_nil, List.sum_cons]
      omega
    | succ k =>
      have hle := ih (List.getElem?_cons_succ.symm.trans h)
      rw [offset, List.take_succ_cons, List.sum_cons, List.sum_cons, ← offset]
      omega

/-- **Packing undoes cutting**, as far as the fields reach. -/
theorem flatten_split : ∀ (ns : List ℕ) (b : List α), (split ns b).flatten = b.take ns.sum := by
  intro ns
  induction ns with
  | nil => intro b; rfl
  | cons n ns ih =>
    intro b
    rw [split, List.flatten_cons, ih, List.sum_cons, List.take_add]

/-! ### Integers -/

/-- The integer of some bytes, least significant first. -/
def ofLe : List (BitVec 8) → ℕ
  | [] => 0
  | b :: bs => b.toNat + 256 * ofLe bs

/-- The `k` bytes of an integer, least significant first. -/
def toLe : ℕ → ℕ → List (BitVec 8)
  | 0, _ => []
  | k + 1, n => BitVec.ofNat 8 n :: toLe k (n / 256)

@[simp] theorem length_toLe : ∀ k n, (toLe k n).length = k := by
  intro k
  induction k with
  | zero => intro n; rfl
  | succ k ih => intro n; rw [toLe, List.length_cons, ih]

theorem ofLe_toLe : ∀ {k n : ℕ}, n < 256 ^ k → ofLe (toLe k n) = n := by
  intro k
  induction k with
  | zero =>
    intro n h
    rw [pow_zero, Nat.lt_one_iff] at h
    exact h.symm
  | succ k ih =>
    intro n h
    have hdiv : n / 256 < 256 ^ k := Nat.div_lt_of_lt_mul (by rwa [pow_succ'] at h)
    rw [toLe, ofLe, ih hdiv, BitVec.toNat_ofNat]
    omega

theorem toLe_ofLe : ∀ b : List (BitVec 8), toLe b.length (ofLe b) = b := by
  intro b
  induction b with
  | nil => rfl
  | cons x b ih =>
    have hx := x.isLt
    have hhead : BitVec.ofNat 8 (x.toNat + 256 * ofLe b) = x := by
      apply BitVec.eq_of_toNat_eq
      rw [BitVec.toNat_ofNat]
      omega
    have htail : (x.toNat + 256 * ofLe b) / 256 = ofLe b := by omega
    rw [List.length_cons, toLe, ofLe, hhead, htail, ih]

/-- Four bytes in memory, loaded as a 32-bit word. -/
def word (b : ℕ → BitVec 8) (off : ℕ) : BitVec 32 :=
  b (off + 3) ++ b (off + 2) ++ b (off + 1) ++ b off

/-- Two bytes in memory, loaded as a 16-bit word. -/
def half (b : ℕ → BitVec 8) (off : ℕ) : BitVec 16 := b (off + 1) ++ b off

theorem toNat_append_byte {w : ℕ} (x : BitVec w) (y : BitVec 8) :
    (x ++ y).toNat = y.toNat + 256 * x.toNat := by
  have hy := y.isLt
  rw [BitVec.toNat_append, Nat.shiftLeft_eq, Nat.mul_comm, ← Nat.two_pow_add_eq_or_of_lt hy]
  omega

/-- **A load is the integer of the bytes it covers.** -/
theorem toNat_word (b : ℕ → BitVec 8) (off : ℕ) :
    (word b off).toNat = ofLe [b off, b (off + 1), b (off + 2), b (off + 3)] := by
  rw [word, toNat_append_byte, toNat_append_byte, toNat_append_byte]
  rfl

theorem toNat_half (b : ℕ → BitVec 8) (off : ℕ) :
    (half b off).toNat = ofLe [b off, b (off + 1)] := by
  rw [half, toNat_append_byte]
  rfl

/-- The bytes of a stretch of a record. -/
theorem take_drop_eq_map {l : List α} {off n : ℕ} (h : off + n ≤ l.length) (d : α) :
    (l.drop off).take n = (List.range n).map fun i => l.getD (off + i) d := by
  apply List.ext_getElem
  · rw [List.length_take, List.length_drop, List.length_map, List.length_range]
    omega
  · intro i h1 h2
    rw [List.length_map, List.length_range] at h2
    rw [List.getElem_take, List.getElem_drop, List.getElem_map, List.getElem_range]
    exact List.getElem_eq_getD d

end Layout

end Usb2T1L
