import Usb2T1L.Adin2111.Transfer
import Usb2T1L.Bridge.Directory
import Usb2T1L.Ecm.Class

/-!
# The transmit task

What `net_tx_task` does with a frame once its egress ports are chosen: the attempts to write it out
on each of them.

The buffers are recycled, so behind its `len` bytes a frame has whatever an earlier one left there.
The destination address is read without a look at `len`.

## Main definitions

* `txFramePort`, `netTxFrame` — the functions.
* `NoPartialMatch` — no station is found by a short frame and what lies behind it.

## Main results

* `stale_bytes_iff` — **when what lies behind a frame has no influence**.
-/

namespace Usb2T1L

/-- How often `tx_frame_port` tries. -/
def txAttempts : ℕ := 4

section Functions

variable {σ : Type} (hal : Hal σ) (dev : Adin2111)

/-- The loop of `tx_frame_port`, with so many attempts left. -/
def txFramePort (f : NetFrame) (port : Port) : ℕ → σ → σ
  | 0, s => s
  | attempts + 1, s =>
    let r := adin2111WriteFrame hal dev port (List.ofFn f.data) f.len.toNat s
    if r.1 = .errNospace then txFramePort f port attempts r.2 else r.2

/-- `net_tx_task` for one frame. -/
def netTxFrame (f : NetFrame) (b : Bridge σ) : Bridge σ :=
  { b with
    adin := (netTxPorts dev.mode b.fdb f).foldl
      (fun s p => txFramePort hal dev f p txAttempts s) b.adin }

end Functions

/-! ### What lies behind a frame -/

/-- No station in the table has an address that starts with the given bytes. -/
def NoPartialMatch (fdb : Fdb) (bs : List Byte) : Prop :=
  ∀ i, (fdb i).valid = true → (List.ofFn (fdb i).mac).take bs.length ≠ bs

theorem NetFrame.Holds.getElem {f : NetFrame} {bs : List Byte} (h : f.Holds bs) {i : ℕ}
    (hi : i < bs.length) (hlt : i < netMaxFrameLen) : f.data ⟨i, hlt⟩ = bs[i] := by
  obtain ⟨hlen, hbytes⟩ := h
  have hbs : bs = (List.ofFn f.data).take f.len.toNat := hbytes.symm
  subst hbs
  rw [List.getElem_take, List.getElem_ofFn]

/-- What is written out depends on the bytes of the frame only. -/
theorem txBody_of_holds {f : NetFrame} {bs : List Byte} (h : f.Holds bs) (port : Port) :
    txBody port (List.ofFn f.data) f.len.toNat = txBody port bs bs.length := by
  obtain ⟨hlen, hbytes⟩ := h
  have htake : (List.ofFn f.data).take f.len.toNat = bs.take bs.length := by
    rw [List.take_length, ← hbytes]
    rfl
  rw [txBody, txBody, htake, hlen]

theorem txFramePort_of_holds {σ : Type} (hal : Hal σ) (dev : Adin2111) {f g : NetFrame}
    {bs : List Byte} (hf : f.Holds bs) (hg : g.Holds bs) (port : Port) :
    ∀ (attempts : ℕ) (s : σ),
      txFramePort hal dev f port attempts s = txFramePort hal dev g port attempts s := by
  have hwrite : ∀ s : σ, adin2111WriteFrame hal dev port (List.ofFn f.data) f.len.toNat s =
      adin2111WriteFrame hal dev port (List.ofFn g.data) g.len.toNat s := by
    intro s
    rw [adin2111WriteFrame, adin2111WriteFrame, txBody_of_holds hf, txBody_of_holds hg, hf.1, hg.1]
  intro attempts
  induction attempts with
  | zero => intro s; rfl
  | succ attempts ih =>
    intro s
    rw [txFramePort, txFramePort, hwrite s]
    split
    · exact ih _
    · rfl

/-- With the same egress ports the same is written out. -/
theorem netTxFrame_of_holds {σ : Type} (hal : Hal σ) (dev : Adin2111) {f g : NetFrame}
    {bs : List Byte} (hf : f.Holds bs) (hg : g.Holds bs) (b : Bridge σ)
    (hports : netTxPorts dev.mode b.fdb f = netTxPorts dev.mode b.fdb g) :
    netTxFrame hal dev f b = netTxFrame hal dev g b := by
  have hport : (fun (s : σ) p => txFramePort hal dev f p txAttempts s) =
      fun s p => txFramePort hal dev g p txAttempts s :=
    funext fun s => funext fun p => txFramePort_of_holds hal dev hf hg p txAttempts s
  rw [netTxFrame, netTxFrame, hports, hport]

theorem NetFrame.Holds.dst {f : NetFrame} {bs : List Byte} (h : f.Holds bs) (i : Fin 6)
    (hi : (i : ℕ) < bs.length) : f.dst i = bs[(i : ℕ)] :=
  h.getElem hi (i.isLt.trans (by decide))

/-- The ports with the lookup spelt out. -/
theorem netTxPorts_of_switch (fdb : Fdb) (f : NetFrame) : netTxPorts .switch fdb f =
    ((if macIsGroup f.dst then none else netBridgeFdbLookup fdb f.dst).map fun p => [p]).getD
      [.port1, .port2] := by
  rw [netTxPorts]
  cases if macIsGroup f.dst then none else netBridgeFdbLookup fdb f.dst <;> rfl

/-- A frame of `len` bytes in a buffer that starts with an address. -/
def frameTo (m : Mac) (len : ℕ) : NetFrame :=
  ⟨BitVec.ofNat 16 len, 0, overlay (List.ofFn m) fun _ => 0⟩

theorem dst_frameTo (m : Mac) (len : ℕ) : (frameTo m len).dst = m := by
  funext i
  show ((List.ofFn m)[(i : ℕ)]?).getD 0 = m i
  rw [List.getElem?_ofFn]
  simp

theorem holds_frameTo {m : Mac} {bs : List Byte} (hlen : bs.length ≤ 6)
    (h : (List.ofFn m).take bs.length = bs) : (frameTo m bs.length).Holds bs := by
  have hnat : (BitVec.ofNat 16 bs.length).toNat = bs.length := by
    rw [BitVec.toNat_ofNat, Nat.mod_eq_of_lt (by omega)]
  have hfront : (List.ofFn (overlay (List.ofFn m) fun _ : Fin netMaxFrameLen => 0)).take 6 =
      List.ofFn m := by
    have hle : (List.ofFn m).length ≤ netMaxFrameLen := by
      rw [List.length_ofFn]
      decide
    have htake := take_ofFn_overlay hle fun _ => 0
    rwa [List.length_ofFn] at htake
  refine ⟨hnat, ?_⟩
  show (List.ofFn (overlay (List.ofFn m) fun _ => 0)).take (BitVec.ofNat 16 bs.length).toNat = bs
  have hmin : min bs.length 6 = bs.length := min_eq_left hlen
  rw [hnat, ← hmin, ← List.take_take, hfront, h]

/-- An address with another last byte, which no station in the table has. -/
theorem exists_unknown (fdb : Fdb) (m : Mac) :
    ∃ x : Byte, netBridgeFdbLookup fdb (Function.update m 5 x) = none := by
  -- there are more bytes than entries
  obtain ⟨k, hk, hfree⟩ := Finset.exists_mem_notMem_of_card_lt_card
    (s := Finset.univ.image fun i : Fin netFdbMaxEntries => ((fdb i).mac 5).toNat)
    (t := Finset.range 256) (by
      refine lt_of_le_of_lt Finset.card_image_le ?_
      rw [Finset.card_univ, Fintype.card_fin, Finset.card_range]
      decide)
  refine ⟨BitVec.ofNat 8 k, Table.lookup_eq_none_iff.mpr fun i _ hmac => hfree ?_⟩
  have hbyte : (fdb i).mac 5 = BitVec.ofNat 8 k := by
    have hmac : (fdb i).mac = Function.update m 5 (BitVec.ofNat 8 k) := hmac
    rw [hmac, Function.update_self]
  refine Finset.mem_image.mpr ⟨i, Finset.mem_univ i, ?_⟩
  rw [hbyte, BitVec.toNat_ofNat, Nat.mod_eq_of_lt (Finset.mem_range.mp hk)]

/-- The last byte of an address is not among the first five. -/
theorem take_update_last (m : Mac) (x : Byte) {k : ℕ} (hk : k < 6) :
    (List.ofFn (Function.update m 5 x)).take k = (List.ofFn m).take k := by
  apply List.ext_getElem
  · simp
  · intro i hi _
    rw [List.length_take, List.length_ofFn] at hi
    rw [List.getElem_take, List.getElem_take, List.getElem_ofFn, List.getElem_ofFn,
      Function.update_of_ne]
    rw [Ne, Fin.ext_iff]
    show ¬ i = 5
    omega

theorem NetFrame.Holds.macIsGroup {f : NetFrame} {bs : List Byte} (h : f.Holds bs)
    (h0 : 0 < bs.length) : macIsGroup f.dst = true ↔ bs.getD 0 0 &&& 0x01 ≠ 0 := by
  rw [Usb2T1L.macIsGroup, h.dst 0 h0, decide_eq_true_eq, ← List.getElem_eq_getD (h := h0)]
  rfl

/-- Of a short frame the address starts with its bytes. -/
theorem NetFrame.Holds.take_dst {f : NetFrame} {bs : List Byte} (h : f.Holds bs)
    (hlen : bs.length < 6) : (List.ofFn f.dst).take bs.length = bs := by
  apply List.ext_getElem
  · rw [List.length_take, List.length_ofFn]
    omega
  · intro i _ hi
    rw [List.getElem_take, List.getElem_ofFn]
    exact h.dst ⟨i, by omega⟩ hi

/-- Where the condition holds, the ports depend on the bytes of the frame only. -/
theorem netTxPorts_congr {dev : Adin2111} {fdb : Fdb} {bs : List Byte} (h0 : 0 < bs.length)
    (h : dev.mode = .endpoint ∨ bs.getD 0 0 &&& 0x01 ≠ 0 ∨ 6 ≤ bs.length ∨ NoPartialMatch fdb bs)
    {f g : NetFrame} (hf : f.Holds bs) (hg : g.Holds bs) :
    netTxPorts dev.mode fdb f = netTxPorts dev.mode fdb g := by
  cases hmode : dev.mode with
  | endpoint => rfl
  | switch =>
    rw [netTxPorts_of_switch, netTxPorts_of_switch]
    by_cases hgroup : bs.getD 0 0 &&& 0x01 ≠ 0
    · rw [if_pos ((hf.macIsGroup h0).mpr hgroup), if_pos ((hg.macIsGroup h0).mpr hgroup)]
    rw [if_neg (mt (hf.macIsGroup h0).mp hgroup), if_neg (mt (hg.macIsGroup h0).mp hgroup)]
    by_cases hlen : 6 ≤ bs.length
    · -- the whole address is there
      have hdst : f.dst = g.dst := funext fun i => by
        have hi : (i : ℕ) < bs.length := i.isLt.trans_le hlen
        rw [hf.dst i hi, hg.dst i hi]
      rw [hdst]
    · have hno : NoPartialMatch fdb bs :=
        ((h.resolve_left (by simp [hmode])).resolve_left hgroup).resolve_left hlen
      have hnone : ∀ {k : NetFrame}, k.Holds bs → netBridgeFdbLookup fdb k.dst = none := by
        intro k hk
        refine Table.lookup_eq_none_iff.mpr fun i hvalid hmac => hno i hvalid ?_
        have hmac : (fdb i).mac = k.dst := hmac
        rw [hmac]
        exact hk.take_dst (not_le.mp hlen)
      rw [hnone hf, hnone hg]

/-- **When what lies behind a frame has no influence** on its egress ports and on what is shifted
out: in endpoint mode, for group addresses, for frames with a whole address, and for shorter ones
that no station in the table could be meant by. -/
theorem stale_bytes_iff (dev : Adin2111) (fdb : Fdb) {bs : List Byte} (h0 : 0 < bs.length) :
    (∀ f g : NetFrame, f.Holds bs → g.Holds bs →
        netTxPorts dev.mode fdb f = netTxPorts dev.mode fdb g ∧
        ∀ (σ : Type) (hal : Hal σ) (s : σ), netTxFrame (logged hal) dev f ⟨fdb, (s, [])⟩ =
          netTxFrame (logged hal) dev g ⟨fdb, (s, [])⟩) ↔
      dev.mode = .endpoint ∨ bs.getD 0 0 &&& 0x01 ≠ 0 ∨ 6 ≤ bs.length ∨ NoPartialMatch fdb bs := by
  constructor
  swap
  · intro h f g hf hg
    have hports := netTxPorts_congr h0 h hf hg
    exact ⟨hports, fun σ hal s => netTxFrame_of_holds (logged hal) dev hf hg ⟨fdb, (s, [])⟩ hports⟩
  intro h
  by_contra hcond
  simp only [not_or, not_not, not_le] at hcond
  obtain ⟨hmode, hgroup, hlen, hmatch⟩ := hcond
  have hmode : dev.mode = .switch := by
    cases hm : dev.mode with
    | switch => rfl
    | endpoint => exact absurd hm hmode
  unfold NoPartialMatch at hmatch
  push Not at hmatch
  obtain ⟨i, hvalid, hbs⟩ := hmatch
  -- the station, and an address that differs from its own in the last byte and is unknown
  obtain ⟨x, hx⟩ := exists_unknown fdb (fdb i).mac
  have hf := holds_frameTo hlen.le hbs
  have hg := holds_frameTo hlen.le ((take_update_last (fdb i).mac x hlen).trans hbs)
  have hports := (h _ _ hf hg).1
  rw [hmode, netTxPorts_of_switch, netTxPorts_of_switch,
    if_neg (mt (hf.macIsGroup h0).mp (not_not.mpr hgroup)),
    if_neg (mt (hg.macIsGroup h0).mp (not_not.mpr hgroup)), dst_frameTo, dst_frameTo, hx] at hports
  cases hlook : netBridgeFdbLookup fdb (fdb i).mac with
  | none => exact absurd rfl (Table.lookup_eq_none_iff.mp hlook i hvalid)
  | some p =>
    rw [hlook] at hports
    simp at hports

theorem stale_bytes_unlearnt :
    NoPartialMatch emptyFdb [0x02] ∧ ∀ f g : NetFrame, f.Holds [0x02] → g.Holds [0x02] →
      netTxPorts .switch emptyFdb f =
          netTxPorts .switch emptyFdb g ∧
        ∀ (σ : Type) (hal : Hal σ) (s : σ),
          netTxFrame (logged hal) ⟨true, .switch, 2, fun _ => le_rfl⟩ f ⟨emptyFdb, (s, [])⟩ =
            netTxFrame (logged hal) ⟨true, .switch, 2, fun _ => le_rfl⟩ g ⟨emptyFdb, (s, [])⟩ :=
  have hno : NoPartialMatch emptyFdb [0x02] := fun _ hvalid =>
    absurd hvalid Bool.false_ne_true
  ⟨hno, (stale_bytes_iff ⟨true, .switch, 2, fun _ => le_rfl⟩ emptyFdb (by decide)).mpr
    (Or.inr (Or.inr (Or.inr hno)))⟩

/-- The table when station 02:00:00:00:00:00 has been seen on port 1. -/
def oneStation : Fdb :=
  Function.update emptyFdb ⟨0, by decide⟩
    ⟨fun i => if (i : ℕ) = 0 then 0x02 else 0, .port1, true, 0⟩

/-- **A frame of one byte** goes out on the port of a station or on both, by what lies behind it. -/
theorem stale_bytes_steer :
    ¬ ∀ (dev : Adin2111) (fdb : Fdb) (bs : List Byte), 0 < bs.length →
      bs.length ≤ netMaxFrameLen → ∀ f g : NetFrame, f.Holds bs → g.Holds bs →
        netTxPorts dev.mode fdb f = netTxPorts dev.mode fdb g ∧
          ∀ (σ : Type) (hal : Hal σ) (s : σ), netTxFrame (logged hal) dev f ⟨fdb, (s, [])⟩ =
            netTxFrame (logged hal) dev g ⟨fdb, (s, [])⟩ := by
  intro h
  have hf : (frameTo (fun i => if i = 0 then 0x02 else 0)
      ([0x02] : List Byte).length).Holds [0x02] :=
    holds_frameTo (by decide) rfl
  have hg : (frameTo (fun i => if i = 0 then 0x02 else 1)
      ([0x02] : List Byte).length).Holds [0x02] :=
    holds_frameTo (by decide) rfl
  have hports := (h ⟨true, .switch, 2, fun _ => le_rfl⟩ oneStation [0x02] (by decide) (by decide)
    _ _ hf hg).1
  rw [netTxPorts_of_switch, netTxPorts_of_switch, dst_frameTo, dst_frameTo] at hports
  exact absurd hports (by decide)

end Usb2T1L
