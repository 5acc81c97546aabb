import Usb2T1L.Ecm.Contents
import Usb2T1L.Lib.Reassembly

/-!
# Reassembly of the host's transfers

The host sends a frame in a transfer of its own: packets of 64 bytes and a short one, empty if need
be.  The bulk OUT endpoint is armed for `NET_MAX_FRAME_LEN` bytes, and `ECM_DataOut` takes what
each reception completes.

A longer transfer is several receptions, and `ECM_DataOut` cannot tell: none of them is longer than
`NET_MAX_FRAME_LEN`, so the check for that never drops anything.

## Main definitions

* `HostTransfer`, `OutRun`, `outSys` — a transfer, and the endpoint between host and class.
* `OutRun.expected`, `OutRun.Exact` — the frames that are to be submitted.
* `OutRun.OversizeDropped` — no reception of a transfer that is too long found a fresh buffer.

## Main results

* `OutRun.Followed.step` — what every step keeps.
* `reassembly_exact_iff` — **the frames submitted are exactly the transfers that fit** if and only
  if nothing of the others found a fresh buffer.
* `reassembly_splits_oversize` — a transfer of 1537 bytes is submitted as two frames.
-/

namespace Usb2T1L

open Packets

/-- A transfer of the host. -/
structure HostTransfer where
  data : List Byte
  /-- Its receptions with data, each with whether there was a fresh buffer. -/
  got : List (List Byte × Bool)

namespace HostTransfer

/-- A reception of the transfer. -/
def note (t : HostTransfer) (rx : List Byte) (fresh : Bool) : HostTransfer :=
  if rx = [] then t else { t with got := t.got ++ [(rx, fresh)] }

/-- What was received while there was a fresh buffer. -/
def accepted (t : HostTransfer) : List (List Byte) := (t.got.filter Prod.snd).map Prod.fst

/-- There was a fresh buffer for data of the transfer. -/
def fresh (t : HostTransfer) : Bool := t.got.any Prod.snd

theorem data_note (t : HostTransfer) (rx : List Byte) (fr : Bool) :
    (t.note rx fr).data = t.data := by
  unfold note
  split <;> rfl

theorem got_note (t : HostTransfer) (rx : List Byte) (fr : Bool) :
    (t.note rx fr).got.map Prod.fst = t.got.map Prod.fst ++ withData [rx] := by
  unfold note
  split
  · next h =>
    rw [h]
    exact (List.append_nil _).symm
  · next h =>
    have hdata : withData [rx] = [rx] := by simp [withData, h]
    rw [hdata, List.map_append]
    rfl

theorem accepted_note (t : HostTransfer) (rx : List Byte) (fr : Bool) :
    (t.note rx fr).accepted = t.accepted ++ if rx ≠ [] ∧ fr = true then [rx] else [] := by
  unfold note
  split
  · next h => rw [if_neg fun hc => hc.1 h, List.append_nil]
  · next h =>
    rw [accepted, List.filter_append, List.map_append]
    cases fr <;> simp [h, accepted]

/-- The transfer has been received, as a frame in receptions. -/
def Received (t : HostTransfer) : Prop :=
  t.got.map Prod.fst = withData (frame netMaxFrameLen t.data)

/-- The transfer is to be submitted: a buffer has room for it, and there was a fresh one. -/
def wanted (t : HostTransfer) : Bool :=
  decide (1 ≤ t.data.length ∧ t.data.length ≤ netMaxFrameLen) && t.fresh

/-- A transfer of a length a buffer has room for is accepted as a whole, or not at all. -/
theorem Received.accepted_eq {t : HostTransfer} (h : t.Received)
    (hlen : t.data.length ≤ netMaxFrameLen) :
    t.accepted = if t.wanted = true then [t.data] else [] := by
  have hgot := h
  rw [Received, withData_frame (by decide) hlen] at hgot
  by_cases hnil : t.data = []
  · have hwanted : t.wanted ≠ true := by simp [wanted, hnil]
    rw [if_pos hnil, List.map_eq_nil_iff] at hgot
    rw [if_neg hwanted, accepted, hgot]
    rfl
  · rw [if_neg hnil] at hgot
    obtain ⟨⟨rx, fr⟩, hgot, hrx⟩ := List.map_eq_singleton_iff.mp hgot
    have hrx : rx = t.data := hrx
    have hpos : 1 ≤ t.data.length := List.length_pos_iff.mpr hnil
    rw [accepted, wanted, fresh, hgot, hrx]
    cases fr <;> simp [hpos, hlen]

/-- Of a longer one something is accepted exactly if there was a fresh buffer. -/
theorem accepted_ne_nil_iff (t : HostTransfer) : t.accepted ≠ [] ↔ t.fresh = true := by
  rw [accepted, fresh, ne_eq, List.map_eq_nil_iff, List.filter_eq_nil_iff, List.any_eq_true]
  push Not
  rfl

theorem wanted_eq_false {t : HostTransfer} (h : netMaxFrameLen < t.data.length) :
    t.wanted = false := by
  have hlen : ¬ (1 ≤ t.data.length ∧ t.data.length ≤ netMaxFrameLen) := fun hc => by omega
  rw [wanted, decide_eq_false hlen, Bool.false_and]

/-- **What is accepted of received transfers** is what is wanted, or there is more of it, from
transfers that are too long. -/
theorem accepted_cases : ∀ {ts : List HostTransfer}, (∀ t ∈ ts, t.Received) →
    (∀ t ∈ ts, netMaxFrameLen < t.data.length → t.fresh = false) ∧
        ts.flatMap accepted = (ts.filter wanted).map data ∨
      ¬ (∀ t ∈ ts, netMaxFrameLen < t.data.length → t.fresh = false) ∧
        ((ts.filter wanted).map data).length < (ts.flatMap accepted).length := by
  intro ts
  induction ts with
  | nil => intro _; exact Or.inl ⟨fun t ht => absurd ht List.not_mem_nil, rfl⟩
  | cons t ts ih =>
    intro h
    have ih := ih fun u hu => h u (List.mem_cons_of_mem t hu)
    have hwanted : ((t :: ts).filter wanted).map data =
        (if t.wanted = true then [t.data] else []) ++ (ts.filter wanted).map data := by
      rw [List.filter_cons]
      split <;> rfl
    rw [List.flatMap_cons, hwanted, List.forall_mem_cons]
    by_cases hfits : netMaxFrameLen < t.data.length → t.fresh = false
    · have hacc : t.accepted = if t.wanted = true then [t.data] else [] := by
        rcases Nat.lt_or_ge netMaxFrameLen t.data.length with hlt | hle
        · have hnil : t.accepted = [] := by
            by_contra hne
            exact absurd ((accepted_ne_nil_iff t).mp hne) (by simp [hfits hlt])
          rw [hnil, if_neg (by simp [wanted_eq_false hlt])]
        · exact (h t List.mem_cons_self).accepted_eq hle
      rw [← hacc]
      rcases ih with ⟨hall, heq⟩ | ⟨hnot, hlt⟩
      · exact Or.inl ⟨⟨hfits, hall⟩, by rw [heq]⟩
      · refine Or.inr ⟨fun hc => hnot hc.2, ?_⟩
        rw [List.length_append, List.length_append]
        omega
    · obtain ⟨hlt, hfresh⟩ : netMaxFrameLen < t.data.length ∧ t.fresh = true := by
        simpa using hfits
      have hpos := List.length_pos_iff.mpr ((accepted_ne_nil_iff t).mpr hfresh)
      refine Or.inr ⟨fun hc => hfits hc.1, ?_⟩
      rw [if_neg (by simp [wanted_eq_false hlt]), List.length_append, List.length_append,
        List.length_nil]
      rcases ih with ⟨-, heq⟩ | ⟨-, hlt⟩
      · rw [heq]
        omega
      · omega

end HostTransfer

/-- The class, the bulk OUT endpoint, the host, and what has happened. -/
structure OutRun (n : ℕ) where
  ecm : Ecm n
  /-- The packets of the host's transfer still to come. -/
  toCome : List (List Byte)
  /-- What the endpoint has received since it was armed. -/
  acc : List Byte
  /-- The transfers before the last. -/
  earlier : List HostTransfer
  /-- The last transfer. -/
  current : Option HostTransfer
  /-- The frames handed to `net_bridge_downlink_submit_isr`. -/
  submitted : List NetFrame

/-- A step. -/
inductive OutAct
  /-- A step of the USB core or a task, but for the completion of a reception. -/
  | ecm (a : EcmAct)
  /-- The host begins a transfer. -/
  | transfer (data : List Byte)
  /-- The endpoint takes a packet. -/
  | packet

/-- The step is the completion of a reception. -/
def EcmAct.isReception : EcmAct → Bool
  | .dataOut _ => true
  | _ => false

section System

variable {n : ℕ}

namespace OutRun

/-- The data interface is active, and the host has sent nothing yet. -/
def start (s : Ecm n) : OutRun n := ⟨s, [], [], [], none, []⟩

/-- The transfers begun. -/
def transfers (s : OutRun n) : List HostTransfer := s.earlier ++ s.current.toList

/-- The host begins a transfer. -/
def begin (s : OutRun n) (data : List Byte) : OutRun n :=
  { s with
    toCome := frame cdcEcmDataMaxPacketSize data
    earlier := s.transfers
    current := some ⟨data, []⟩ }

/-- The endpoint completes the reception of `rx`. -/
def complete (s : OutRun n) (rx : List Byte) (ps : List (List Byte)) : Option (OutRun n) :=
  (ecmStep s.ecm (.dataOut rx)).map fun e =>
    { s with
      ecm := e
      toCome := ps
      acc := []
      current := s.current.map fun t => t.note rx s.ecm.down.fresh }

end OutRun

/-- What a step does.  The data interface stays active. -/
def outStep (s : OutRun n) : OutAct → Option (OutRun n)
  | .ecm a =>
    if a.isReception = true then none
    else ((ecmStep s.ecm a).filter fun e => e.cls.sReady).map fun e =>
      { s with ecm := e, submitted := s.submitted ++ handed s.ecm e a }
  | .transfer data => if s.toCome = [] then some (s.begin data) else none
  | .packet =>
    match s.toCome with
    | [] => none
    | p :: ps =>
      -- without a reception armed the packet is not taken
      if s.ecm.down.outArmed = none then none
      else if completes netMaxFrameLen cdcEcmDataMaxPacketSize s.acc p = true then
        s.complete (s.acc ++ p) ps
      else some { s with toCome := ps, acc := s.acc ++ p }

/-- The system. -/
def outSys : Lts (OutRun n) OutAct := ⟨outStep⟩

end System

namespace OutRun

variable {n : ℕ} {s s' : OutRun n}

/-! ### What is to be submitted -/

/-- The host's transfers of a length a buffer has room for, for which there was a fresh buffer. -/
def expected (s : OutRun n) : List (List Byte) :=
  (s.transfers.filter HostTransfer.wanted).map HostTransfer.data

/-- The frames submitted are exactly these, in order, with their lengths and bytes. -/
def Exact (s : OutRun n) : Prop := List.Forall₂ NetFrame.Holds s.submitted s.expected

/-- No reception of a transfer that is too long found a fresh buffer. -/
def OversizeDropped (s : OutRun n) : Prop :=
  ∀ t ∈ s.transfers, netMaxFrameLen < t.data.length → t.fresh = false

/-- No transfer is under way, and `ECM_DataOut` is not running. -/
def Settled (s : OutRun n) : Prop := s.toCome = [] ∧ s.ecm.down.dataOutNext = none

/-! ### What the class makes of the receptions -/

/-- All that was received while there was a fresh buffer. -/
def accepted (s : OutRun n) : List (List Byte) := s.transfers.flatMap HostTransfer.accepted

/-- The invariant. -/
structure Followed (s : OutRun n) : Prop where
  owned : s.ecm.Owned
  ready : s.ecm.cls.sReady = true
  /-- An earlier transfer has been received, as a frame in receptions. -/
  earlier : ∀ t ∈ s.earlier, t.Received
  /-- The last one has, but for what is to come. -/
  current : ∀ t ∈ s.current, t.got.map Prod.fst ++
    withData (receptions netMaxFrameLen cdcEcmDataMaxPacketSize s.acc s.toCome) =
      withData (frame netMaxFrameLen t.data)
  idle : s.current = none → s.toCome = []
  /-- The packets to come complete what has been received. -/
  ends : leftover netMaxFrameLen cdcEcmDataMaxPacketSize s.acc s.toCome = []
  bounded : ∀ r ∈ receptions netMaxFrameLen cdcEcmDataMaxPacketSize s.acc s.toCome,
    r.length ≤ netMaxFrameLen
  /-- Outside `ECM_DataOut` all that was accepted has been submitted. -/
  outside : s.ecm.down.dataOutNext = none → List.Forall₂ NetFrame.Holds s.submitted s.accepted
  /-- Inside, the last of it is in the buffer on the endpoint. -/
  inside : ∀ nx len, s.ecm.down.dataOutNext = some (nx, len) → ∃ f before rx,
    s.ecm.down.sOutFrame = some f ∧ s.accepted = before ++ [rx] ∧
      List.Forall₂ NetFrame.Holds s.submitted before ∧ len = rx.length ∧
      rx.length ≤ netMaxFrameLen ∧
      (List.ofFn (s.ecm.down.pool.storage f).data).take rx.length = rx

/-- With packets to come there is a transfer. -/
theorem Followed.exists_current (h : s.Followed) {p : List Byte} {ps : List (List Byte)}
    (htoCome : s.toCome = p :: ps) : ∃ t, s.current = some t := by
  refine Option.ne_none_iff_exists'.mp fun hnone => ?_
  have hidle := h.idle hnone
  rw [htoCome] at hidle
  exact absurd hidle (by simp)

/-- What was accepted of the last transfer comes last. -/
theorem accepted_eq {t : HostTransfer} (ht : s.current = some t) :
    s.accepted = s.earlier.flatMap HostTransfer.accepted ++ t.accepted := by
  rw [accepted, transfers, ht, List.flatMap_append]
  exact congrArg _ (List.flatMap_singleton _ _)

/-- **A step of the USB core or a task**, but for those of `ECM_DataOut`. -/
theorem Followed.still (h : s.Followed) {a : EcmAct} {e : Ecm n}
    (hs : ecmSys.step s.ecm a = some e) (hrx : ∀ rx, a ≠ .dataOut rx) (hsubmit : a ≠ .submit)
    (hready : e.cls.sReady = true) : ({ s with
      ecm := e
      submitted := s.submitted ++ handed s.ecm e a } : OutRun n).Followed := by
  obtain ⟨hnext, hout, hst⟩ := h.owned.still hs hrx hsubmit h.ready hready
  have hhanded : handed s.ecm e a = [] := if_neg hsubmit
  rw [hhanded, List.append_nil]
  exact
    { owned := h.owned.step hs
      ready := hready
      earlier := h.earlier
      current := h.current
      idle := h.idle
      ends := h.ends
      bounded := h.bounded
      outside := fun hisr => h.outside (hnext.symm.trans hisr)
      inside := by
        intro nx len hin
        obtain ⟨f, before, rx, hf, hrest⟩ := h.inside nx len (hnext.symm.trans hin)
        rw [← hst] at hrest
        exact ⟨f, before, rx, hout.trans hf, hrest⟩ }

/-- **The submission** hands on what was received. -/
theorem Followed.submit (h : s.Followed) {e : Ecm n} (hs : ecmSys.step s.ecm .submit = some e)
    (hready : e.cls.sReady = true) : ({ s with
      ecm := e
      submitted := s.submitted ++ handed s.ecm e .submit } : OutRun n).Followed := by
  have howned := h.owned.step hs
  obtain ⟨nx, len, f, q, hnext, hout, -, hdown⟩ :=
    h.owned.down.submit_eq (Ecm.down_submit hs)
  obtain ⟨g, before, rx, hg, haccepted, hbefore, hlen, hrx, hdata⟩ := h.inside nx len hnext
  obtain rfl : f = g := Option.some.inj (hout.symm.trans hg)
  have hst : e.down.pool.storage f =
      { s.ecm.down.pool.storage f with len := BitVec.ofNat 16 rx.length } := by
    rw [hdown, hlen]
    exact Function.update_self _ _ _
  have hnat : (BitVec.ofNat 16 rx.length).toNat = rx.length := by
    rw [BitVec.toNat_ofNat, Nat.mod_eq_of_lt (lt_of_le_of_lt hrx (by decide))]
  have hholds : (e.down.pool.storage f).Holds rx := by
    rw [hst]
    refine ⟨hnat, ?_⟩
    show List.take (BitVec.ofNat 16 rx.length).toNat _ = rx
    rw [hnat]
    exact hdata
  have hhanded : handed s.ecm e .submit = [e.down.pool.storage f] := by
    rw [handed, if_pos rfl, hout]
    rfl
  have hisr : e.down.dataOutNext = none := by rw [hdown]
  rw [hhanded]
  exact
    { owned := howned
      ready := hready
      earlier := h.earlier
      current := h.current
      idle := h.idle
      ends := h.ends
      bounded := h.bounded
      outside := by
        intro _
        show List.Forall₂ _ _ s.accepted
        rw [haccepted]
        exact List.rel_append hbefore (List.Forall₂.cons hholds List.Forall₂.nil)
      inside := fun nx len hin => absurd (hisr.symm.trans hin) (by simp) }

/-- The receptions of a transfer, and its packets. -/
theorem receptions_transfer (data : List Byte) :
    receptions netMaxFrameLen cdcEcmDataMaxPacketSize [] (frame cdcEcmDataMaxPacketSize data) =
        frame netMaxFrameLen data ∧
      leftover netMaxFrameLen cdcEcmDataMaxPacketSize []
        (frame cdcEcmDataMaxPacketSize data) = [] :=
  receptions_frame (by decide) (by decide) (by decide) data

/-- Between two transfers all have been received. -/
theorem Followed.received (h : s.Followed) (htoCome : s.toCome = []) :
    ∀ t ∈ s.transfers, t.Received := by
  intro t ht
  rcases List.mem_append.mp ht with ht | ht
  · exact h.earlier t ht
  · have hcurrent := h.current t (Option.mem_toList.mp ht)
    rw [htoCome] at hcurrent
    exact (List.append_nil _).symm.trans hcurrent

/-- **A transfer begins** when the one before has been received. -/
theorem Followed.begin (h : s.Followed) (htoCome : s.toCome = []) (data : List Byte) :
    (s.begin data).Followed := by
  have hacc : s.acc = [] := by
    have hends := h.ends
    rwa [htoCome] at hends
  obtain ⟨hreceptions, hleftover⟩ := receptions_transfer data
  have haccepted : (s.begin data).accepted = s.accepted := by
    show (s.transfers ++ [_]).flatMap HostTransfer.accepted = s.transfers.flatMap _
    rw [List.flatMap_append, List.flatMap_singleton]
    exact List.append_nil _
  exact
    { owned := h.owned
      ready := h.ready
      earlier := h.received htoCome
      current := by
        intro t ht
        obtain rfl := Option.mem_some.mp ht
        show [] ++ withData (receptions _ _ s.acc (frame _ data)) = withData (frame _ data)
        rw [hacc, hreceptions]
        rfl
      idle := fun hnone => absurd hnone (by simp [OutRun.begin])
      ends := by
        show leftover _ _ s.acc (frame _ data) = []
        rw [hacc]
        exact hleftover
      bounded := by
        show ∀ r ∈ receptions _ _ s.acc (frame _ data), r.length ≤ netMaxFrameLen
        rw [hacc, hreceptions]
        exact length_le_of_mem_frame (by decide)
      outside := fun hisr => haccepted ▸ h.outside hisr
      inside := fun nx len hin => by
        rw [haccepted]
        exact h.inside nx len hin }

/-- **A packet that does not complete the reception.** -/
theorem Followed.packet (h : s.Followed) {p : List Byte} {ps : List (List Byte)}
    (htoCome : s.toCome = p :: ps)
    (hc : completes netMaxFrameLen cdcEcmDataMaxPacketSize s.acc p ≠ true) :
    ({ s with toCome := ps, acc := s.acc ++ p } : OutRun n).Followed := by
  have hcurrent := h.current
  have hends := h.ends
  have hbounded := h.bounded
  rw [htoCome, receptions, if_neg hc] at hcurrent hbounded
  rw [htoCome, leftover, if_neg hc] at hends
  obtain ⟨t, ht⟩ := h.exists_current htoCome
  exact
    { owned := h.owned
      ready := h.ready
      earlier := h.earlier
      current := hcurrent
      idle := fun hnone => absurd (ht.symm.trans hnone) (by simp)
      ends := hends
      bounded := hbounded
      outside := h.outside
      inside := h.inside }

/-- **A packet that completes the reception**, and `ECM_DataOut`. -/
theorem Followed.complete (h : s.Followed) {p : List Byte} {ps : List (List Byte)}
    (htoCome : s.toCome = p :: ps)
    (hc : completes netMaxFrameLen cdcEcmDataMaxPacketSize s.acc p = true)
    (hs : s.complete (s.acc ++ p) ps = some s') : s'.Followed := by
  obtain ⟨e, he, rfl⟩ := Option.map_eq_some_iff.mp hs
  have hcurrent := h.current
  have hends := h.ends
  have hbounded := h.bounded
  rw [htoCome, receptions, if_pos hc] at hcurrent hbounded
  rw [htoCome, leftover, if_pos hc] at hends
  have hrx : (s.acc ++ p).length ≤ netMaxFrameLen := hbounded _ List.mem_cons_self
  generalize s.acc ++ p = rx at *
  obtain ⟨t, ht⟩ := h.exists_current htoCome
  obtain ⟨f, hout⟩ := Option.isSome_iff_exists.mp (h.owned.ready.symm.trans h.ready)
  have he : ecmSys.step s.ecm (.dataOut rx) = some e := he
  have howned := h.owned.step he
  obtain ⟨hisr, rfl⟩ := Ecm.down_dataOut he
  have haccepted : ({ s with
      ecm := { s.ecm with down := (s.ecm.down.received rx).ecmDataOut rx }
      toCome := ps
      acc := []
      current := s.current.map fun t => t.note rx s.ecm.down.fresh } : OutRun n).accepted =
        s.accepted ++ if rx ≠ [] ∧ s.ecm.down.fresh = true then [rx] else [] := by
    have ht' : s.current.map (fun t => t.note rx s.ecm.down.fresh) = some (t.note rx _) :=
      congrArg (Option.map _) ht
    rw [accepted_eq ht, accepted_eq ht', HostTransfer.accepted_note, List.append_assoc]
  exact
    { owned := howned
      ready := h.ready
      earlier := h.earlier
      current := by
        intro u hu
        have hu : u ∈ s.current.map fun t => t.note rx s.ecm.down.fresh := hu
        rw [ht] at hu
        obtain rfl := Option.mem_some.mp hu
        rw [HostTransfer.got_note, HostTransfer.data_note, List.append_assoc, ← withData_cons]
        exact hcurrent t ht
      idle := fun hnone => absurd hnone (by rw [ht]; simp)
      ends := hends
      bounded := fun r hr => hbounded r (List.mem_cons_of_mem _ hr)
      outside := by
        intro hnext
        rcases h.owned.down.dataOut_cases hisr hout hrx with ⟨hdrop, -⟩ | ⟨-, -, ⟨nx, hin⟩, -⟩
        · have hdropped : ¬ (rx ≠ [] ∧ s.ecm.down.fresh = true) := by
            rintro ⟨hdata, hfresh⟩
            rcases hdrop with hnil | hnone
            · exact hdata hnil
            · exact Bool.false_ne_true (hnone.symm.trans hfresh)
          rw [haccepted, if_neg hdropped, List.append_nil]
          exact h.outside hisr
        · exact absurd (hin.symm.trans hnext) (by simp)
      inside := by
        intro nx len hin
        rcases h.owned.down.dataOut_cases hisr hout hrx with
          ⟨-, hnext⟩ | ⟨hnil, hfresh, ⟨nx', hin'⟩, hout', hdata⟩
        · exact absurd (hnext.symm.trans hin) (by simp)
        · obtain ⟨-, hlen⟩ := Prod.mk.inj (Option.some.inj (hin'.symm.trans hin))
          refine ⟨f, s.accepted, rx, hout', ?_, h.outside hisr, hlen.symm, hrx, hdata⟩
          rw [haccepted, if_pos ⟨hnil, hfresh⟩] }

/-- **Every step.** -/
theorem Followed.step (h : s.Followed) {a : OutAct} (hs : outSys.step s a = some s') :
    s'.Followed := by
  have hs : outStep s a = some s' := hs
  cases a with
  | ecm a =>
    rw [outStep] at hs
    split at hs
    · exact absurd hs (by simp)
    · next hrx =>
      obtain ⟨e, hfilter, rfl⟩ := Option.map_eq_some_iff.mp hs
      obtain ⟨he, hready⟩ := Option.filter_eq_some_iff.mp hfilter
      by_cases hsubmit : a = .submit
      · subst hsubmit
        exact h.submit he hready
      · exact h.still he (fun rx ha => hrx (by rw [ha]; rfl)) hsubmit hready
  | transfer data =>
    rw [outStep] at hs
    split at hs
    · next htoCome =>
      obtain rfl := Option.some.inj hs
      exact h.begin htoCome data
    · exact absurd hs (by simp)
  | packet =>
    rw [outStep] at hs
    split at hs
    · exact absurd hs (by simp)
    · next p ps htoCome =>
      split_ifs at hs with _ hc
      · exact h.complete htoCome hc hs
      · obtain rfl := Option.some.inj hs
        exact h.packet htoCome hc

theorem followed_start {e : Ecm n} (howned : e.Owned) (hready : e.cls.sReady = true)
    (hisr : e.down.dataOutNext = none) : (start e).Followed where
  owned := howned
  ready := hready
  earlier := fun _ ht => absurd ht List.not_mem_nil
  current := fun _ ht => absurd ht (by simp [start])
  idle := fun _ => rfl
  ends := rfl
  bounded := fun _ hr => absurd hr List.not_mem_nil
  outside := fun _ => List.Forall₂.nil
  inside := fun _ _ hin => absurd (hisr.symm.trans hin) (by simp)

theorem Followed.exact_iff (h : s.Followed) (hsettled : s.Settled) :
    s.Exact ↔ s.OversizeDropped := by
  have haccepted := h.outside hsettled.2
  rcases HostTransfer.accepted_cases (h.received hsettled.1) with ⟨hall, heq⟩ | ⟨hnot, hlt⟩
  · refine iff_of_true ?_ hall
    rw [Exact, expected, ← heq]
    exact haccepted
  · refine iff_of_false (fun hexact => ?_) hnot
    have hsame := hexact.length_eq.symm.trans haccepted.length_eq
    rw [expected, accepted] at hsame
    exact hlt.ne hsame

end OutRun

/-- **Exactly the transfers that fit are submitted**, in order, with their lengths and bytes, if
and only if no reception of a longer transfer found a fresh buffer. -/
theorem reassembly_exact_iff {n : ℕ} (hn : 0 < n) {storage : Fin n → NetFrame} {pool : FramePool n}
    (hpool : framePoolInit storage = some pool) {sInDone : Option Bool} {before : List EcmAct}
    {e : Ecm n} (hbefore : ecmSys.run (Ecm.start pool sInDone) before = some e)
    (hready : e.cls.sReady = true) (hisr : e.down.dataOutNext = none) {as : List OutAct}
    {s : OutRun n} (hrun : outSys.run (OutRun.start e) as = some s) (hsettled : s.Settled) :
    s.Exact ↔ s.OversizeDropped := by
  have howned : e.Owned := Lts.run_invariant (fun s a s' h _ hs => h.step hs)
    (Ecm.owned_start hpool hn sInDone) (Lts.along_true before _) hbefore
  have hfollowed : s.Followed := Lts.run_invariant (fun s a s' h _ hs => h.step hs)
    (OutRun.followed_start howned hready hisr) (Lts.along_true as _) hrun
  exact hfollowed.exact_iff hsettled

/-- The host opens the data interface. -/
def openData : List EcmAct := [.init, .setInterface 1 1]

/-- A transfer of two packets, and one of three bytes. -/
def twoTransfers : List OutAct :=
  [.transfer (List.replicate 100 7), .packet, .packet, .ecm .submit, .transfer [1, 2, 3], .packet,
    .ecm .submit]

theorem length_of_twoTransfers {n : ℕ} {s : OutRun n}
    (hdata : s.transfers.map HostTransfer.data = [List.replicate 100 7, [1, 2, 3]]) :
    ∀ t ∈ s.transfers, t.data.length ≤ netMaxFrameLen := by
  intro t ht
  have hmem := List.mem_map_of_mem (f := HostTransfer.data) ht
  rw [hdata] at hmem
  exact (by decide : ∀ data ∈ [List.replicate 100 (7 : Byte), [1, 2, 3]],
    data.length ≤ netMaxFrameLen) _ hmem

theorem reassembly_exact_iff_twoTransfers : ∃ e s, ecmSys.run Ecm.board openData = some e ∧
    outSys.run (OutRun.start e) twoTransfers = some s ∧
      s.submitted.map NetFrame.len = [100, 3] ∧ s.Exact := by
  have hopen : ecmSys.run Ecm.board openData = some (Ecm.board.init.setInterface 1 1) := rfl
  have hsummary : (outSys.run (OutRun.start (Ecm.board.init.setInterface 1 1)) twoTransfers).map
      (fun s => (decide (s.toCome = [] ∧ s.ecm.down.dataOutNext = none),
        s.submitted.map NetFrame.len, s.transfers.map HostTransfer.data)) =
          some (true, [100, 3], [List.replicate 100 7, [1, 2, 3]]) := by decide +kernel
  obtain ⟨s, hrun, hs⟩ := Option.map_eq_some_iff.mp hsummary
  simp only [Prod.mk.injEq, decide_eq_true_eq] at hs
  obtain ⟨hsettled, hlens, hdata⟩ := hs
  refine ⟨_, s, hopen, hrun, hlens, ?_⟩
  refine (reassembly_exact_iff (by decide) (framePoolInit_freshPool (by decide)) hopen rfl rfl
    hrun hsettled).mpr fun t ht hlong => absurd hlong (not_lt.mpr ?_)
  exact length_of_twoTransfers hdata t ht

/-- A transfer of 1537 bytes. -/
def tooLong : List OutAct :=
  .transfer (List.replicate 1537 0) :: List.replicate 24 .packet ++
    [.ecm .submit, .packet, .ecm .submit]

/-- Its head is submitted as a frame of 1536 bytes, and its tail as another. -/
theorem reassembly_splits_oversize : ∃ e s, ecmSys.run Ecm.board openData = some e ∧
    e.cls.sReady = true ∧ outSys.run (OutRun.start e) tooLong = some s ∧ s.Settled ∧
    s.submitted.map NetFrame.len = [1536, 1] ∧ s.expected = [] ∧ ¬ s.Exact := by
  have hopen : ecmSys.run Ecm.board openData = some (Ecm.board.init.setInterface 1 1) := rfl
  have hsummary : (outSys.run (OutRun.start (Ecm.board.init.setInterface 1 1)) tooLong).map
      (fun s => (s.toCome, s.ecm.down.dataOutNext, s.submitted.map NetFrame.len, s.expected)) =
        some ([], none, [1536, 1], []) := by decide +kernel
  obtain ⟨s, hrun, hs⟩ := Option.map_eq_some_iff.mp hsummary
  obtain ⟨htoCome, hs⟩ := Prod.mk.inj hs
  obtain ⟨hisr, hs⟩ := Prod.mk.inj hs
  obtain ⟨hlens, hexpected⟩ := Prod.mk.inj hs
  refine ⟨_, s, hopen, rfl, hrun, ⟨htoCome, hisr⟩, hlens, hexpected, fun hexact => ?_⟩
  have hlen := hexact.length_eq
  have hlens := congrArg List.length hlens
  rw [List.length_map, hlen, hexpected] at hlens
  exact absurd hlens (by decide)

end Usb2T1L
