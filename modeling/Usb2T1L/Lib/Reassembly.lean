import Usb2T1L.Lib.Packets

/-!
# Receptions of several packets

An endpoint that is armed for `M` items receives packets of at most `m`.  The reception is
complete with a short packet, or once there are `M` items, and the endpoint is armed again.

## Main definitions

* `Packets.completes` — the packet completes the reception.
* `Packets.receptions`, `Packets.leftover` — what a stream of packets completes, and what it
  leaves.
* `Packets.withData` — the receptions that are not empty.

## Main results

* `Packets.receptions_frame` — **a frame in packets is received as a frame in receptions**.
* `Packets.withData_frame` — a frame that fits is one reception with data.
-/

namespace Usb2T1L

namespace Packets

variable {α : Type*}

/-! ### Frames, a packet at a time -/

theorem frame_of_lt {m : ℕ} {l : List α} (h : l.length < m) : frame m l = [l] := by
  rw [frame, full, rest, Nat.div_eq_of_lt h, Nat.zero_mul]
  rfl

theorem frame_cons {m : ℕ} {l : List α} (hm : 0 < m) (h : m ≤ l.length) :
    frame m l = l.take m :: frame m (l.drop m) := by
  have hlen : l.length = (l.drop m).length + m := by
    rw [List.length_drop]
    omega
  have hdiv : l.length / m = (l.drop m).length / m + 1 := by
    rw [hlen, Nat.add_div_right _ hm]
  have hmul : ((l.drop m).length / m + 1) * m = m + (l.drop m).length / m * m := by
    rw [Nat.succ_mul, Nat.add_comm]
  rw [frame, frame, full, full, rest, rest, hdiv, chunks, List.drop_drop, List.cons_append, hmul]

theorem length_le_of_mem_frame {m : ℕ} (hm : 0 < m) {l : List α} : ∀ p ∈ frame m l,
    p.length ≤ m := by
  intro p hp
  rcases List.mem_append.mp hp with hp | hp
  · exact (length_of_mem_full p hp).le
  · rw [List.mem_singleton.mp hp]
    exact (length_rest_lt hm l).le

/-! ### Receptions -/

section Receptions

variable (M m : ℕ)

/-- The packet `p` completes the reception, with `acc` received before. -/
def completes (acc p : List α) : Bool := decide (p.length < m ∨ M ≤ (acc ++ p).length)

/-- The receptions a stream of packets completes, with `acc` received before. -/
def receptions : List α → List (List α) → List (List α)
  | _, [] => []
  | acc, p :: ps =>
    if completes M m acc p then (acc ++ p) :: receptions [] ps else receptions (acc ++ p) ps

/-- What has been received after that and is not complete. -/
def leftover : List α → List (List α) → List α
  | acc, [] => acc
  | acc, p :: ps => if completes M m acc p then leftover [] ps else leftover (acc ++ p) ps

end Receptions

variable {M m : ℕ}

/-- The frame is cut in packets of `m`, and what comes of `acc` and the frame in packets of `M`. -/
theorem receptions_frame_aux (hm : 0 < m) (hM : m ∣ M) : ∀ (k : ℕ) (acc l : List α),
    l.length = k → m ∣ acc.length → acc.length < M →
      receptions M m acc (frame m l) = frame M (acc ++ l) ∧ leftover M m acc (frame m l) = [] := by
  intro k
  induction k using Nat.strong_induction_on with
  | _ k ih =>
    intro acc l hk hacc hlt
    have hroom : acc.length + m ≤ M := by
      obtain ⟨a, ha⟩ := hacc
      obtain ⟨b, rfl⟩ := hM
      rw [ha] at hlt ⊢
      exact Nat.mul_le_mul_left m (Nat.lt_of_mul_lt_mul_left hlt)
    rcases Nat.lt_or_ge l.length m with h | h
    · -- the last packet
      have hcompletes : completes M m acc l = true := decide_eq_true (Or.inl h)
      have hfits : (acc ++ l).length < M := by
        rw [List.length_append]
        omega
      rw [frame_of_lt h, frame_of_lt hfits, receptions, leftover, if_pos hcompletes,
        if_pos hcompletes]
      exact ⟨rfl, rfl⟩
    · have htake : (l.take m).length = m := by
        rw [List.length_take, min_eq_left h]
      have hdrop : (l.drop m).length < k := by
        rw [List.length_drop]
        omega
      have hsplit : acc ++ l = (acc ++ l.take m) ++ l.drop m := by
        rw [List.append_assoc, List.take_append_drop]
      have hlen : (acc ++ l.take m).length = acc.length + m := by
        rw [List.length_append, htake]
      rw [frame_cons hm h, receptions, leftover]
      rcases Nat.lt_or_ge (acc ++ l.take m).length M with hM' | hM'
      · have hcompletes : completes M m acc (l.take m) ≠ true := by
          rw [completes, ne_eq, decide_eq_true_eq, htake]
          omega
        rw [if_neg hcompletes, if_neg hcompletes, hsplit]
        refine ih _ hdrop _ _ rfl ?_ hM'
        rw [hlen]
        exact Nat.dvd_add_self_right.mpr hacc
      · -- the reception is full
        have hcompletes : completes M m acc (l.take m) = true := decide_eq_true (Or.inr hM')
        have hfull : (acc ++ l.take m).length = M := by omega
        obtain ⟨hr, hl⟩ := ih _ hdrop [] _ rfl (dvd_zero m) (by rw [List.length_nil]; omega)
        have hframe := frame_cons (l := (acc ++ l.take m) ++ l.drop m) (by omega : 0 < M)
          (by rw [List.length_append]; omega)
        rw [List.take_left' hfull, List.drop_left' hfull] at hframe
        rw [if_pos hcompletes, if_pos hcompletes, hr, hl, hsplit, hframe]
        exact ⟨rfl, rfl⟩

/-- **A frame in packets is received as a frame in receptions.** -/
theorem receptions_frame (hm : 0 < m) (hM : m ∣ M) (hpos : 0 < M) (l : List α) :
    receptions M m [] (frame m l) = frame M l ∧ leftover M m [] (frame m l) = [] :=
  receptions_frame_aux hm hM _ [] l rfl (dvd_zero m) hpos

/-- What has data, of some receptions. -/
def withData (rs : List (List α)) : List (List α) := rs.filter fun r => decide (r ≠ [])

theorem withData_cons (r : List α) (rs : List (List α)) :
    withData (r :: rs) = withData [r] ++ withData rs :=
  List.filter_append [r] rs

/-- **A frame that fits is one reception with data**, and an empty one none. -/
theorem withData_frame {l : List α} (hpos : 0 < M) (h : l.length ≤ M) :
    withData (frame M l) = if l = [] then [] else [l] := by
  rcases Nat.lt_or_ge l.length M with hlt | hge
  · rw [frame_of_lt hlt, withData]
    by_cases hl : l = []
    · rw [if_pos hl, hl]
      rfl
    · rw [if_neg hl]
      simp [hl]
  · have hlen : l.length = M := le_antisymm h hge
    have hl : l ≠ [] := by
      rintro rfl
      rw [List.length_nil] at hlen
      omega
    have hdrop : l.drop M = [] := by rw [← hlen, List.drop_length]
    rw [frame_cons hpos hge, ← hlen, List.take_length, hlen, hdrop, frame_of_lt hpos, if_neg hl,
      withData]
    simp [hl]

end Packets

end Usb2T1L
