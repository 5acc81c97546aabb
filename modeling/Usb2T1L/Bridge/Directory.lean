import Usb2T1L.Bridge.Fdb
import Usb2T1L.Bridge.FramePool

/-!
# The learning table as a directory

What the learning table is for: a directory of at most fourteen stations, that
says of each on which port it was last sighted.  Here the table is followed
through a whole run from the point of view of one station, whose lot is a list of
`Fate`s: it is sighted, another station takes its place, it is aged out.  What
`net_bridge_fdb_lookup` finds is what the last of them says, and `net_tx_task`
sends a frame of the host accordingly.

None of this depends on the device, so the platform callbacks are arbitrary.

## Main definitions

* `netTxPorts` — the egress ports `net_tx_task` chooses.
* `Fate`, `history`, `standing` — the lot of a station in a run.

## Main results

* `lookup_exec` — one operation, as one station sees it.
* `lookup_run` — a run, as one station sees it.
* `fdb_refines_directory` — **the table is a bounded directory of last sightings,
  and egress follows it**.
-/

namespace Usb2T1L

/-- The ports `net_tx_task` passes to `tx_frame_port` for a frame, in order: for
switch mode what the table says of its destination, or both ports. -/
def netTxPorts (mode : Mode) (fdb : Fdb) (f : NetFrame) : List Port :=
  match mode with
  | .switch =>
    match if macIsGroup f.dst then none else netBridgeFdbLookup fdb f.dst with
    | none => [.port1, .port2]
    | some p => [p]
  | .endpoint => [.port1]

/-! ### The lot of a station -/

/-- What can happen to a station. -/
inductive Fate
  /-- It was learnt, on that port. -/
  | sighted (port : Port)
  /-- Another station was stored over its entry. -/
  | displaced
  /-- Its entry was older than the age limit when `link_task` scanned the table. -/
  | agedOut

/-- The port on which a station is, after its last `Fate`. -/
def Fate.port : Fate → Option Port
  | .sighted p => some p
  | .displaced => none
  | .agedOut => none

/-- What an operation on table `fdb` does to station `d`.  A call for a group
address or our own is no sighting. -/
def BridgeOp.fate (sOwnMac : Mac) (fdb : Fdb) (d : Mac) : BridgeOp → Option Fate
  | .learn now src ingress =>
    if Eligible sOwnMac src then
      if src = d then some (.sighted ingress)
      else if fdbTable.hit fdb d (learnSlot fdb now src) then some .displaced
      else none
    else none
  | .sweep now =>
    if ∃ i, fdbTable.hit fdb d i = true ∧ stale now fdb i = true then some .agedOut else none

section History

variable {σ : Type} (hal : Hal σ) (dev : Adin2111) (sOwnMac : Mac)

/-- Everything that happens to station `d` in a run, oldest first. -/
def history (d : Mac) : Bridge σ → List BridgeOp → List Fate
  | _, [] => []
  | s, op :: ops =>
    (op.fate sOwnMac s.fdb d).toList ++ history d (op.exec hal dev sOwnMac s) ops

/-- The port of the last sighting, if that is neither aged out nor displaced. -/
def standing (fates : List Fate) : Option Port := fates.getLast?.bind Fate.port

end History

/-- The port of the last call of `net_bridge_learn` for station `d`. -/
def lastIngress (d : Mac) (ops : List BridgeOp) : Option Port :=
  (ops.filterMap fun op => match op with
    | .learn _ src ingress => if src = d then some ingress else none
    | .sweep _ => none).getLast?

variable {σ : Type} {hal : Hal σ} {dev : Adin2111} {sOwnMac : Mac}

/-! ### One operation -/

/-- **A learn, as the station learnt sees it.** -/
theorem lookup_learn_self {s : Bridge σ} (hd : fdbTable.Distinct s.fdb) {src : Mac}
    (hel : Eligible sOwnMac src) (now : Word) (ingress : Port) :
    netBridgeFdbLookup (netBridgeLearn hal dev sOwnMac now src ingress s).fdb src =
      some ingress := by
  rw [netBridgeLearn_fdb hal dev hel]
  exact Table.lookup_update_self hd rfl (learnSlot_fresh hd)

/-- **A learn, as another station sees it.** -/
theorem lookup_learn_of_ne {s : Bridge σ} (hd : fdbTable.Distinct s.fdb) {src d : Mac}
    (hel : Eligible sOwnMac src) (hne : d ≠ src) (now : Word) (ingress : Port) :
    netBridgeFdbLookup (netBridgeLearn hal dev sOwnMac now src ingress s).fdb d =
      if fdbTable.hit s.fdb d (learnSlot s.fdb now src) = true then none
      else netBridgeFdbLookup s.fdb d := by
  rw [netBridgeLearn_fdb hal dev hel]
  exact Table.lookup_update_of_ne hd hne

/-- A learn takes at most one station away. -/
theorem exists_displaced {s : Bridge σ} (hd : fdbTable.Distinct s.fdb) {src : Mac}
    (hel : Eligible sOwnMac src) (now : Word) (ingress : Port) :
    ∃ displaced : Option Mac, ∀ d, d ≠ src →
      netBridgeFdbLookup (netBridgeLearn hal dev sOwnMac now src ingress s).fdb d =
        if displaced = some d then none else netBridgeFdbLookup s.fdb d := by
  let e := s.fdb (learnSlot s.fdb now src)
  refine ⟨if e.valid then some e.mac else none, fun d hne => ?_⟩
  rw [lookup_learn_of_ne hd hel hne]
  refine if_congr ?_ rfl rfl
  rw [Table.hit_iff]
  cases hv : e.valid with
  | true => exact ⟨fun h => congrArg some h.2, fun h => ⟨hv, Option.some.inj h⟩⟩
  | false => exact ⟨fun h => absurd (hv.symm.trans h.1) Bool.false_ne_true, fun h => by simp at h⟩

/-- **A sweep, as a station sees it.** -/
theorem lookup_sweep {s : Bridge σ} (hd : fdbTable.Distinct s.fdb) (now : Word) (d : Mac) :
    netBridgeFdbLookup (linkTaskSweep hal dev now s).fdb d =
      if ∃ i, fdbTable.hit s.fdb d i = true ∧ stale now s.fdb i = true then none
      else netBridgeFdbLookup s.fdb d := by
  have hlookup : netBridgeFdbLookup (linkTaskSweep hal dev now s).fdb d = _ :=
    Table.lookup_retire hd (fun i hi => linkTaskSweep_fdb_of_valid i hi) d
  rw [hlookup]
  cases hf : fdbTable.find s.fdb d with
  | none =>
    have hnone : netBridgeFdbLookup s.fdb d = none := by
      rw [netBridgeFdbLookup, Table.lookup, hf]
      rfl
    rw [hnone, ite_self]
    rfl
  | some i =>
    have hi := Table.find_spec hf
    have hsome : netBridgeFdbLookup s.fdb d = some (s.fdb i).port := by
      rw [netBridgeFdbLookup, Table.lookup, hf]
      rfl
    rw [hsome, Option.bind_some]
    cases hst : stale now s.fdb i with
    | true =>
      have hinv : ((linkTaskSweep hal dev now s).fdb i).valid = false := by
        rw [linkTaskSweep_fdb, hst]
        rfl
      have hdead : ¬ fdbTable.live ((linkTaskSweep hal dev now s).fdb i) = true :=
        fun h => Bool.false_ne_true (hinv.symm.trans h)
      rw [if_neg hdead, if_pos ⟨i, Table.hit_iff.mpr hi, hst⟩]
    | false =>
      have hsame : (linkTaskSweep hal dev now s).fdb i = s.fdb i := by
        rw [linkTaskSweep_fdb, hst]
        rfl
      have hnot : ¬ ∃ j, fdbTable.hit s.fdb d j = true ∧ stale now s.fdb j = true := by
        rintro ⟨j, hj, hstj⟩
        obtain ⟨hvj, hmj⟩ := Table.hit_iff.mp hj
        rw [hd j i hvj hi.1 (hmj.trans hi.2.symm), hst] at hstj
        exact Bool.false_ne_true hstj
      rw [if_neg hnot, hsame, if_pos hi.1]
      rfl

/-- **One operation, as one station sees it.** -/
theorem lookup_exec {s : Bridge σ} (hd : fdbTable.Distinct s.fdb) (op : BridgeOp) (d : Mac) :
    netBridgeFdbLookup (op.exec hal dev sOwnMac s).fdb d =
      match op.fate sOwnMac s.fdb d with
      | some fate => fate.port
      | none => netBridgeFdbLookup s.fdb d := by
  cases op with
  | learn now src ingress =>
    simp only [BridgeOp.exec, BridgeOp.fate]
    by_cases hel : Eligible sOwnMac src
    · rw [if_pos hel]
      by_cases hsrc : src = d
      · rw [if_pos hsrc, ← hsrc]
        exact lookup_learn_self hd hel now ingress
      · rw [if_neg hsrc, lookup_learn_of_ne hd hel (Ne.symm hsrc)]
        split <;> rfl
    · rw [if_neg hel, netBridgeLearn_of_not_eligible hal dev hel]
  | sweep now =>
    simp only [BridgeOp.exec, BridgeOp.fate]
    rw [lookup_sweep hd]
    split <;> rfl

/-! ### Runs -/

theorem standing_append (l l' : List Fate) :
    standing (l ++ l') = if l' = [] then standing l else standing l' := by
  unfold standing
  cases l' with
  | nil => rw [List.append_nil, if_pos rfl]
  | cons a l' => rw [List.getLast?_append_of_ne_nil _ (List.cons_ne_nil a l'), if_neg (by simp)]

/-- **A run, as one station sees it**: the lookup follows its last fate. -/
theorem lookup_run (d : Mac) : ∀ (ops : List BridgeOp) {s : Bridge σ}, fdbTable.Distinct s.fdb →
    netBridgeFdbLookup (bridgeRun hal dev sOwnMac s ops).fdb d =
      if history hal dev sOwnMac d s ops = [] then netBridgeFdbLookup s.fdb d
      else standing (history hal dev sOwnMac d s ops) := by
  intro ops
  induction ops with
  | nil => intro s _; rfl
  | cons op ops ih =>
    intro s hd
    have hrun : bridgeRun hal dev sOwnMac s (op :: ops) =
        bridgeRun hal dev sOwnMac (op.exec hal dev sOwnMac s) ops := rfl
    rw [hrun, ih (op.distinct_exec s hd), lookup_exec hd, history, standing_append]
    by_cases hnil : history hal dev sOwnMac d (op.exec hal dev sOwnMac s) ops = []
    · cases op.fate sOwnMac s.fdb d with
      | none => simp [hnil]
      | some fate => simp [hnil, standing]
    · simp [hnil]

/-- The sightings in the history of a station are the learns of it. -/
theorem filterMap_history {d : Mac} (hel : Eligible sOwnMac d) :
    ∀ (ops : List BridgeOp) (s : Bridge σ),
      (history hal dev sOwnMac d s ops).filterMap Fate.port =
        ops.filterMap fun op => match op with
          | .learn _ src ingress => if src = d then some ingress else none
          | .sweep _ => none := by
  intro ops
  induction ops with
  | nil => intro s; rfl
  | cons op ops ih =>
    intro s
    rw [history, List.filterMap_append, ih, List.filterMap_cons]
    cases op with
    | learn now src ingress =>
      by_cases hsrc : src = d
      · simp [BridgeOp.fate, hsrc, hel, Fate.port]
      · simp only [BridgeOp.fate, hsrc, if_false]
        split_ifs <;> rfl
    | sweep now =>
      simp only [BridgeOp.fate]
      split_ifs <;> rfl

/-- A station that still stands is where it was last learnt. -/
theorem lastIngress_of_standing {d : Mac} (hel : Eligible sOwnMac d) {ops : List BridgeOp}
    {s : Bridge σ} {p : Port} (h : standing (history hal dev sOwnMac d s ops) = some p) :
    lastIngress d ops = some p := by
  obtain ⟨fate, hlast, hport⟩ := Option.bind_eq_some_iff.mp h
  obtain ⟨fates, heq⟩ := List.getLast?_eq_some_iff.mp hlast
  rw [lastIngress, ← filterMap_history hel ops s, heq, List.filterMap_append]
  simp [hport]

/-- Every valid entry is of a station that may be learnt. -/
def AllEligible (sOwnMac : Mac) (fdb : Fdb) : Prop :=
  ∀ i, (fdb i).valid = true → Eligible sOwnMac (fdb i).mac

theorem AllEligible.exec {s : Bridge σ} (h : AllEligible sOwnMac s.fdb) (op : BridgeOp) :
    AllEligible sOwnMac (op.exec hal dev sOwnMac s).fdb := by
  cases op with
  | learn now src ingress =>
    by_cases hel : Eligible sOwnMac src
    · intro i hi
      rw [BridgeOp.exec, netBridgeLearn_fdb hal dev hel] at hi ⊢
      rcases eq_or_ne i (learnSlot s.fdb now src) with rfl | hne
      · rw [Function.update_self]
        exact hel
      · rw [Function.update_of_ne hne] at hi ⊢
        exact h i hi
    · rw [BridgeOp.exec, netBridgeLearn_of_not_eligible hal dev hel]
      exact h
  | sweep now =>
    intro i hi
    have hsame : (linkTaskSweep hal dev now s).fdb i = s.fdb i := linkTaskSweep_fdb_of_valid i hi
    rw [BridgeOp.exec, hsame] at hi ⊢
    exact h i hi

/-- **The table is a bounded directory of last sightings, and egress follows it.**
After every run of learns and sweeps from the empty table: valid entries are of
different stations, none of them a group address or our own, and at most fourteen
are found; learning a station makes the lookup give its port and takes at most one
other station away, and learning any other address changes nothing; a station that
is found is where it was last learnt; and in switch mode a frame of the host goes
out on the port of the last sighting of its destination, if that still stands, and
otherwise on both. -/
theorem fdb_refines_directory (hal : Hal σ) (dev : Adin2111) (sOwnMac : Mac) (adin : σ)
    (ops : List BridgeOp) :
    let s := bridgeRun hal dev sOwnMac ⟨emptyFdb, adin⟩ ops
    (∀ i j, (s.fdb i).valid = true → (s.fdb j).valid = true →
      (s.fdb i).mac = (s.fdb j).mac → i = j) ∧
    (∀ i, (s.fdb i).valid = true →
      macIsGroup (s.fdb i).mac = false ∧ (s.fdb i).mac ≠ sOwnMac) ∧
    (∃ known : Finset Mac, known.card ≤ netFdbMaxEntries ∧
      ∀ d, d ∈ known ↔ netBridgeFdbLookup s.fdb d ≠ none) ∧
    (∀ now src ingress, macIsGroup src = false → src ≠ sOwnMac →
      let s' := netBridgeLearn hal dev sOwnMac now src ingress s
      netBridgeFdbLookup s'.fdb src = some ingress ∧
      ∃ displaced : Option Mac, ∀ d, d ≠ src → netBridgeFdbLookup s'.fdb d =
        if displaced = some d then none else netBridgeFdbLookup s.fdb d) ∧
    (∀ now src ingress, macIsGroup src = true ∨ src = sOwnMac →
      netBridgeLearn hal dev sOwnMac now src ingress s = s) ∧
    (∀ d p, netBridgeFdbLookup s.fdb d = some p → lastIngress d ops = some p) ∧
    ∀ f : NetFrame, netTxPorts .switch s.fdb f =
      if macIsGroup f.dst then [.port1, .port2]
      else match standing (history hal dev sOwnMac f.dst ⟨emptyFdb, adin⟩ ops) with
        | some p => [p]
        | none => [.port1, .port2] := by
  intro s
  have hd0 : fdbTable.Distinct (⟨emptyFdb, adin⟩ : Bridge σ).fdb :=
    distinct_of_all_invalid fun _ => rfl
  have hd : fdbTable.Distinct s.fdb :=
    bridgeRun_invariant (fun s op h => op.distinct_exec s h) ops hd0
  have hel : AllEligible sOwnMac s.fdb := by
    have hkeep : ∀ (t : Bridge σ) (op : BridgeOp), AllEligible sOwnMac t.fdb →
        AllEligible sOwnMac (op.exec hal dev sOwnMac t).fdb := fun t op h => h.exec op
    exact bridgeRun_invariant hkeep ops fun i h => absurd h Bool.false_ne_true
  have hlookup : ∀ d, netBridgeFdbLookup s.fdb d =
      standing (history hal dev sOwnMac d ⟨emptyFdb, adin⟩ ops) := by
    intro d
    rw [lookup_run d ops hd0]
    split
    · next hnil =>
      rw [hnil]
      exact Table.lookup_eq_none_iff.mpr fun i h => absurd h Bool.false_ne_true
    · rfl
  refine ⟨hd, fun i hi => ?_, ?_, ?_, ?_, ?_, ?_⟩
  · have h := not_or.mp (hel i hi)
    exact ⟨Bool.not_eq_true _ |>.mp h.1, h.2⟩
  · exact ⟨fdbTable.keys s.fdb, Table.card_keys_le s.fdb, fun d => Table.mem_keys_iff⟩
  · intro now src ingress hgroup hown
    have hsrc : Eligible sOwnMac src := by simp [Eligible, hgroup, hown]
    exact ⟨lookup_learn_self hd hsrc now ingress, exists_displaced hd hsrc now ingress⟩
  · intro now src ingress h
    exact netBridgeLearn_of_not_eligible hal dev (not_not.mpr h) ingress s
  · intro d p h
    have hd' : Eligible sOwnMac d := by
      obtain ⟨i, hi, -⟩ := Option.map_eq_some_iff.mp h
      obtain ⟨hv, hm⟩ := Table.find_spec hi
      exact hm ▸ hel i hv
    exact lastIngress_of_standing hd' ((hlookup d).symm.trans h)
  · intro f
    rw [netTxPorts, hlookup]
    cases macIsGroup f.dst with
    | true => rfl
    | false =>
      simp only [Bool.false_eq_true, if_false]
      cases standing (history hal dev sOwnMac f.dst ⟨emptyFdb, adin⟩ ops) <;> rfl

end Usb2T1L
