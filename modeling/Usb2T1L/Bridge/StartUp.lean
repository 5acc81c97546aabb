import Usb2T1L.Adin2111.Init
import Usb2T1L.Bridge.Aging
import Usb2T1L.Bridge.FramePool

/-!
# Start-up of the bridge

`net_bridge_init`: the pools, the kernel objects, the device, the host filter and the tasks.

The kernel grants or refuses each object it is asked for.  The start of the USB device has no
result and is left out.

## Main definitions

* `Kernel` — what the kernel grants.
* `netBridgeInit` — the function.
* `BridgeStart.Complete` — everything has started.

## Main results

* `netBridgeInit_eq_true_iff` — when it returns `true`: no task matters.
* `netBridgeInit_complete` — **`true` means that everything started** exactly if the writes of
  the host filter land and the kernel grants the tasks.
-/

namespace Usb2T1L

/-- What the kernel grants of what `net_bridge_init` asks for. -/
structure Kernel where
  rxFreeQ : Bool
  txFreeQ : Bool
  toAdinQ : Bool
  adinIntSem : Bool
  adinLock : Bool
  task : BridgeTask → Bool

/-- `BaseType_t`. -/
abbrev BaseType := BitVec 32

/-- `pdPASS`. -/
def pdPass : BaseType := 1

/-- `errCOULD_NOT_ALLOCATE_REQUIRED_MEMORY`: there is no memory for a task. -/
def errCouldNotAllocateRequiredMemory : BaseType := -1

/-- The result of `xTaskCreate`. -/
def Kernel.xTaskCreate (k : Kernel) (t : BridgeTask) : BaseType :=
  if k.task t then pdPass else errCouldNotAllocateRequiredMemory

/-- The module state as `net_bridge_init` leaves it, with the device on the bus. -/
structure BridgeStart where
  rxPool : Option (FramePool netRxPoolCount)
  txPool : Option (FramePool netTxPoolCount)
  toAdinQ : Bool
  adinIntSem : Bool
  adinLock : Bool
  adin : Option Adin2111
  chip : Chip
  /-- The tasks that have been created. -/
  tasks : BridgeTask → Bool

/-- `net_bridge_init`. -/
def netBridgeInit (k : Kernel) (crc : Bool) (mode : Mode) (sOwnMac : Mac)
    (rxStorage : Fin netRxPoolCount → NetFrame) (txStorage : Fin netTxPoolCount → NetFrame)
    (c : Chip) : Bool × BridgeStart :=
  match if k.rxFreeQ then framePoolInit rxStorage else none with
  | none => (false, ⟨none, none, false, false, false, none, c, fun _ => false⟩)
  | some rx =>
    match if k.txFreeQ then framePoolInit txStorage else none with
    | none => (false, ⟨some rx, none, false, false, false, none, c, fun _ => false⟩)
    | some tx =>
      if k.toAdinQ = false ∨ k.adinIntSem = false ∨ k.adinLock = false then
        (false, ⟨some rx, some tx, k.toAdinQ, k.adinIntSem, k.adinLock, none, c, fun _ => false⟩)
      else
        match adin2111Init (chipHal (twoPorts crc mode)) crc mode c with
        | (.error _, c) =>
          (false, ⟨some rx, some tx, k.toAdinQ, k.adinIntSem, k.adinLock, none, c, fun _ => false⟩)
        | (.ok dev, c) =>
          -- the status of the host filter is discarded
          let c := (adin2111SetHostMac (chipHal dev) dev sOwnMac c).2
          let ok := pdPass &&& k.xTaskCreate .netRx &&& k.xTaskCreate .netTx &&& k.xTaskCreate .link
          (decide (ok = pdPass),
            ⟨some rx, some tx, k.toAdinQ, k.adinIntSem, k.adinLock, some dev, c, k.task⟩)

/-- The four registers of the host filter slot. -/
def hostWrites (dev : Adin2111) (mac : Mac) : List (ℕ × Word) :=
  filterWrites adinMacSlotHost (adinMacAddrToHost ||| adinApplyAllPorts dev) (addrUpr mac)
    (addrLwr mac) 0xFFFF 0xFFFFFFFF

/-- Everything has started. -/
structure BridgeStart.Complete (mac : Mac) (s : BridgeStart) : Prop where
  rxPool : ∃ pool, s.rxPool = some pool ∧ pool.freeQ.items = List.finRange netRxPoolCount
  txPool : ∃ pool, s.txPool = some pool ∧ pool.freeQ.items = List.finRange netTxPoolCount
  toAdinQ : s.toAdinQ = true
  adinIntSem : s.adinIntSem = true
  adinLock : s.adinLock = true
  hostFilter : ∃ dev, s.adin = some dev ∧ ∀ w ∈ hostWrites dev mac, s.chip.regs w.1 = w.2
  tasks : ∀ t, s.tasks t = true

/-- The kernel grants the objects whose creation is checked. -/
structure Kernel.GrantsObjects (k : Kernel) : Prop where
  rxFreeQ : k.rxFreeQ = true
  txFreeQ : k.txFreeQ = true
  toAdinQ : k.toAdinQ = true
  adinIntSem : k.adinIntSem = true
  adinLock : k.adinLock = true

/-- The fold of the results: a refused task is all ones and changes nothing. -/
theorem Kernel.xTaskCreate_fold (k : Kernel) :
    pdPass &&& k.xTaskCreate .netRx &&& k.xTaskCreate .netTx &&& k.xTaskCreate .link = pdPass := by
  have hand : ∀ t, pdPass &&& k.xTaskCreate t = pdPass := by
    intro t
    rw [xTaskCreate]
    split <;> decide
  rw [hand, hand, hand]

section

variable (k : Kernel) (crc : Bool) (mode : Mode) (mac : Mac)
  (rxStorage : Fin netRxPoolCount → NetFrame) (txStorage : Fin netTxPoolCount → NetFrame)
  (c : Chip)

/-- What `net_bridge_init` returns and leaves once `adin2111_init` has succeeded. -/
theorem netBridgeInit_of_ok {rx : FramePool netRxPoolCount} {tx : FramePool netTxPoolCount}
    (hrx : framePoolInit rxStorage = some rx) (htx : framePoolInit txStorage = some tx)
    (hk : k.GrantsObjects) {dev : Adin2111} {c' : Chip}
    (hinit : adin2111Init (chipHal (twoPorts crc mode)) crc mode c = (.ok dev, c')) :
    netBridgeInit k crc mode mac rxStorage txStorage c =
      (true, ⟨some rx, some tx, true, true, true, some dev,
        (adin2111SetHostMac (chipHal dev) dev mac c').2, k.task⟩) := by
  obtain ⟨h1, h2, h3, h4, h5⟩ := hk
  simp only [netBridgeInit, h1, h2, h3, h4, h5, if_true, hrx, htx, hinit, k.xTaskCreate_fold,
    Bool.true_eq_false, or_self, if_false, decide_true]

theorem framePoolInit_isSome {n : ℕ} (hn : n ≠ 0) (storage : Fin n → NetFrame) :
    ∃ pool, framePoolInit storage = some pool := ⟨_, if_neg hn⟩

/-- The same from what `adin2111_init` needs in order to succeed; the pools are never empty. -/
theorem netBridgeInit_of_succeeds (hk : k.GrantsObjects) {dev : Adin2111}
    (hdev : c.InitSucceeds crc mode dev) :
    ∃ rx tx, framePoolInit rxStorage = some rx ∧ framePoolInit txStorage = some tx ∧
      netBridgeInit k crc mode mac rxStorage txStorage c =
        (true, ⟨some rx, some tx, true, true, true, some dev, (adin2111SetHostMac (chipHal dev) dev
          mac (adin2111Init (chipHal (twoPorts crc mode)) crc mode c).2).2, k.task⟩) := by
  obtain ⟨rx, hrx⟩ := framePoolInit_isSome (by decide) rxStorage
  obtain ⟨tx, htx⟩ := framePoolInit_isSome (by decide) txStorage
  have hinit : adin2111Init (chipHal (twoPorts crc mode)) crc mode c = (.ok dev, _) :=
    Prod.ext (((adin2111Init_spec crc mode c).1 dev).mpr hdev) rfl
  exact ⟨rx, tx, hrx, htx,
    netBridgeInit_of_ok k crc mode mac rxStorage txStorage c hrx htx hk hinit⟩

/-- `net_bridge_init` returns `false` where one of its checks fails. -/
theorem netBridgeInit_of_not (h : ¬ (k.GrantsObjects ∧ ∃ dev c',
      adin2111Init (chipHal (twoPorts crc mode)) crc mode c = (.ok dev, c'))) :
    (netBridgeInit k crc mode mac rxStorage txStorage c).1 = false := by
  unfold netBridgeInit
  cases h1 : k.rxFreeQ with
  | false => rfl
  | true =>
    obtain ⟨rx, hrx⟩ := framePoolInit_isSome (by decide) rxStorage
    rw [if_pos rfl, hrx]
    dsimp only
    cases h2 : k.txFreeQ with
    | false => rfl
    | true =>
      obtain ⟨tx, htx⟩ := framePoolInit_isSome (by decide) txStorage
      rw [if_pos rfl, htx]
      dsimp only
      split
      · rfl
      · next hobj =>
        simp only [not_or, Bool.not_eq_false] at hobj
        rcases hinit : adin2111Init (chipHal (twoPorts crc mode)) crc mode c with ⟨_ | dev, c'⟩
        · rfl
        · exact absurd ⟨⟨h1, h2, hobj.1, hobj.2.1, hobj.2.2⟩, dev, c', hinit⟩ h

/-- **When `net_bridge_init` returns `true`**: the tasks and the host filter play no part. -/
theorem netBridgeInit_eq_true_iff :
    (netBridgeInit k crc mode mac rxStorage txStorage c).1 = true ↔
      k.GrantsObjects ∧ ∃ dev, c.InitSucceeds crc mode dev := by
  obtain ⟨hok, -⟩ := adin2111Init_spec crc mode c
  have hinit : (∃ dev, c.InitSucceeds crc mode dev) ↔ ∃ dev c',
      adin2111Init (chipHal (twoPorts crc mode)) crc mode c = (.ok dev, c') :=
    exists_congr fun dev => (hok dev).symm.trans
      ⟨fun h => ⟨_, Prod.ext h rfl⟩, fun ⟨c', h⟩ => by rw [h]⟩
  by_cases h : k.GrantsObjects ∧ ∃ dev, c.InitSucceeds crc mode dev
  · obtain ⟨hk, dev, hdev⟩ := h
    obtain ⟨rx, tx, -, -, hstart⟩ :=
      netBridgeInit_of_succeeds k crc mode mac rxStorage txStorage c hk hdev
    rw [hstart]
    exact iff_of_true rfl ⟨hk, dev, hdev⟩
  · have hnot := netBridgeInit_of_not k crc mode mac rxStorage txStorage c (by rwa [← hinit])
    rw [hnot]
    exact iff_of_false Bool.false_ne_true h

theorem netBridgeInit_tasks
    (h : (netBridgeInit k crc mode mac rxStorage txStorage c).1 = true) :
    (netBridgeInit k crc mode mac rxStorage txStorage c).2.tasks = k.task := by
  obtain ⟨hk, dev, hdev⟩ := (netBridgeInit_eq_true_iff k crc mode mac rxStorage txStorage c).mp h
  obtain ⟨rx, tx, -, -, hstart⟩ :=
    netBridgeInit_of_succeeds k crc mode mac rxStorage txStorage c hk hdev
  rw [hstart]

/-- The host filter is untouched by `adin2111_init`: its own writes decide. -/
theorem hostFilter_iff {dev : Adin2111} (h : c.InitSucceeds crc mode dev) :
    (∀ w ∈ hostWrites dev mac, (adin2111SetHostMac (chipHal dev) dev mac
        (adin2111Init (chipHal (twoPorts crc mode)) crc mode c).2).2.regs w.1 = w.2) ↔
      Lands (fun reg => c.fault crc (true, reg)) (c.rebootRegs crc) (hostWrites dev mac) := by
  obtain ⟨-, -, hregs, hfaults⟩ := adin2111Init_spec crc mode c
  have hslot : adinMacSlotHost < adinMacFilterSlots := by decide
  refine (adinWriteFilter_lands dev hslot _ _ _ _ _ _).trans (lands_congr fun w hw => ?_)
  have hmem : w.1 ∈ (hostWrites dev mac).map Prod.fst := List.mem_map_of_mem hw
  rw [hostWrites, map_fst_filterWrites] at hmem
  have hreg : (true, w.1) ∉ identifyAccesses ++ configureAccesses ∧
      (true, w.1) ∉ configureAccesses := by
    revert hmem
    generalize w.1 = reg
    revert reg
    decide
  rw [Chip.fault, Chip.fault, hfaults _ hreg.1, hregs _ hreg.2, crcEnabled_of_adinIdentify h.known]
  exact ⟨rfl, rfl⟩

/-- **`true` means that everything started** exactly if, whenever the checked steps succeed, the
writes of the host filter land and the kernel grants the tasks. -/
theorem netBridgeInit_complete :
    ((netBridgeInit k crc mode mac rxStorage txStorage c).1 = true →
        (netBridgeInit k crc mode mac rxStorage txStorage c).2.Complete mac) ↔
      (k.GrantsObjects → ∀ dev, c.InitSucceeds crc mode dev →
        Lands (fun reg => c.fault crc (true, reg)) (c.rebootRegs crc) (hostWrites dev mac) ∧
          ∀ t, k.task t = true) := by
  rw [netBridgeInit_eq_true_iff, and_imp, forall_exists_index]
  refine forall_congr' fun hk => forall_congr' fun dev => forall_congr' fun hdev => ?_
  obtain ⟨rx, tx, hrx, htx, hstart⟩ :=
    netBridgeInit_of_succeeds k crc mode mac rxStorage txStorage c hk hdev
  rw [hstart, ← hostFilter_iff crc mode mac c hdev]
  constructor
  · rintro ⟨-, -, -, -, -, ⟨dev', hsome, hregs⟩, htasks⟩
    obtain rfl := Option.some.inj hsome
    exact ⟨hregs, htasks⟩
  · rintro ⟨hregs, htasks⟩
    exact ⟨⟨rx, rfl, framePoolInit_items hrx⟩, ⟨tx, rfl, framePoolInit_items htx⟩, rfl, rfl, rfl,
      ⟨dev, rfl, hregs⟩, htasks⟩

end

/-- A kernel with no memory left for the last task. -/
def noLinkTask : Kernel := ⟨true, true, true, true, true, fun t => t ≠ .link⟩

/-- **A refused task is not seen**: `1 & -1` is `1`. -/
theorem netBridgeInit_without_link :
    ¬ ∀ (k : Kernel) (crc : Bool) (mode : Mode) (mac : Mac)
      (rxStorage : Fin netRxPoolCount → NetFrame) (txStorage : Fin netTxPoolCount → NetFrame)
      (c : Chip), (netBridgeInit k crc mode mac rxStorage txStorage c).1 = true →
        (netBridgeInit k crc mode mac rxStorage txStorage c).2.Complete mac := by
  intro h
  have htrue := (netBridgeInit_eq_true_iff noLinkTask true .switch (fun _ => 0)
    (freshPool _).storage (freshPool _).storage workingChip).mpr
      ⟨⟨rfl, rfl, rfl, rfl, rfl⟩, _, workingChip_succeeds⟩
  have hcomplete := h noLinkTask true .switch (fun _ => 0) (freshPool _).storage
    (freshPool _).storage workingChip htrue
  have hlink := hcomplete.tasks .link
  rw [netBridgeInit_tasks _ _ _ _ _ _ _ htrue] at hlink
  exact absurd hlink (by decide)

end Usb2T1L
