import Usb2T1L.Adin2111.Driver
import Usb2T1L.Lib.Queue

/-!
# Frame buffers

The frame pool of `frame_pool.c`: an array of frames, and a kernel queue of the
free ones.  Pointers into the array are indices; the task and the ISR variants of
a function differ only in how they wait, so each pair is one definition.

## Main definitions

* `NetFrame` — `net_frame_t`; `NetFrame.Holds` — what it holds.
* `FramePool`, `framePoolInit`, `framePoolAlloc`, `framePoolFree` — the pool.
-/

namespace Usb2T1L

/-- `NET_MAX_FRAME_LEN` of `app_config.h`. -/
abbrev netMaxFrameLen : ℕ := 1536

/-- `NET_TX_POOL_COUNT` of `app_config.h`. -/
abbrev netTxPoolCount : ℕ := 8

/-- `NET_RX_POOL_COUNT` of `app_config.h`. -/
abbrev netRxPoolCount : ℕ := 8

/-- `net_frame_t`. -/
structure NetFrame where
  len : BitVec 16
  port : Byte
  data : Fin netMaxFrameLen → Byte

/-- The valid bytes of a frame. -/
def NetFrame.bytes (f : NetFrame) : List Byte := (List.ofFn f.data).take f.len.toNat

/-- The frame has exactly these bytes. -/
def NetFrame.Holds (f : NetFrame) (bs : List Byte) : Prop := f.len.toNat = bs.length ∧ f.bytes = bs

/-- The destination address of a frame, `data[0..5]`. -/
def NetFrame.dst (f : NetFrame) : Mac := fun i => f.data (i.castLE (by decide))

/-- The source address of a frame, `data[6..11]`. -/
def NetFrame.src (f : NetFrame) : Mac := fun i => f.data ((i.natAdd 6).castLE (by decide))

/-- `frame_pool_t` over `n` frames. -/
structure FramePool (n : ℕ) where
  storage : Fin n → NetFrame
  freeQ : Queue (Fin n) n

/-- `frame_pool_free`: the result of the send is discarded. -/
def framePoolFree {n : ℕ} (q : Queue (Fin n) n) (i : Fin n) : Queue (Fin n) n :=
  (q.send i).getD q

/-- `frame_pool_alloc` without waiting, and `frame_pool_alloc_isr`. -/
def framePoolAlloc {n : ℕ} (q : Queue (Fin n) n) : Option (Fin n × Queue (Fin n) n) := q.receive

/-- `frame_pool_init`, whose queue could be created. -/
def framePoolInit {n : ℕ} (storage : Fin n → NetFrame) : Option (FramePool n) :=
  if n = 0 then none
  else some ⟨fun i => { storage i with len := 0, port := 0 },
    (List.finRange n).foldl framePoolFree Queue.empty⟩

theorem framePoolFree_items {n : ℕ} {q : Queue (Fin n) n} (h : q.items.length < n) (i : Fin n) :
    (framePoolFree q i).items = q.items ++ [i] := by
  obtain ⟨q', hq'⟩ := Option.ne_none_iff_exists'.mp
    fun hn : q.send i = none => absurd h (not_lt.mpr (Queue.send_eq_none_iff.mp hn))
  rw [framePoolFree, hq']
  exact (Queue.send_eq_some_iff.mp hq').2

theorem foldl_framePoolFree {n : ℕ} : ∀ (l : List (Fin n)) (q : Queue (Fin n) n),
    q.items.length + l.length ≤ n → (l.foldl framePoolFree q).items = q.items ++ l := by
  intro l
  induction l with
  | nil => intro q _; exact (List.append_nil _).symm
  | cons i l ih =>
    intro q h
    rw [List.length_cons] at h
    have hfree := framePoolFree_items (show q.items.length < n by omega) i
    rw [List.foldl_cons, ih, hfree, List.append_assoc]
    · rfl
    · rw [hfree, List.length_append, List.length_singleton]
      omega

theorem foldl_framePoolFree_finRange (n : ℕ) :
    ((List.finRange n).foldl framePoolFree (Queue.empty : Queue (Fin n) n)).items =
      List.finRange n := by
  have hroom : (Queue.empty : Queue (Fin n) n).items.length + (List.finRange n).length ≤ n := by
    simp
  rw [foldl_framePoolFree _ _ hroom, Queue.empty_items, List.nil_append]

/-- With room for a frame the pool is made. -/
theorem exists_framePoolInit {n : ℕ} (hn : 0 < n) (storage : Fin n → NetFrame) :
    ∃ pool, framePoolInit storage = some pool := by
  rw [framePoolInit, if_neg hn.ne']
  exact ⟨_, rfl⟩

/-- **A new pool has every one of its frames free.** -/
theorem framePoolInit_items {n : ℕ} {storage : Fin n → NetFrame} {pool : FramePool n}
    (h : framePoolInit storage = some pool) : pool.freeQ.items = List.finRange n := by
  unfold framePoolInit at h
  split at h
  · exact absurd h (by simp)
  · rw [Option.some.injEq] at h
    rw [← h]
    exact foldl_framePoolFree_finRange n

/-- A pool of zeroed frames, all of them free. -/
def freshPool (n : ℕ) : FramePool n :=
  ⟨fun _ => ⟨0, 0, fun _ => 0⟩, ⟨List.finRange n, (List.length_finRange).le⟩⟩

theorem framePoolInit_freshPool {n : ℕ} (hn : 0 < n) :
    framePoolInit (freshPool n).storage = some (freshPool n) := by
  have hq : (List.finRange n).foldl framePoolFree Queue.empty = (freshPool n).freeQ := by
    apply Queue.ext
    exact foldl_framePoolFree_finRange n
  rw [framePoolInit, if_neg hn.ne', hq]
  rfl

end Usb2T1L
