import Usb2T1L.Adin2111.Device

/-!
# The address filter table

What a filter slot does to a frame, and what the driver's two FDB operations do
to a slot.  A slot matches a destination address on an ingress port if that
port's `APPLY2PORT` bit is set and the address agrees with the slot's on every
bit of the mask.

`adin_write_filter` needs four register writes for a slot.  Between two of them,
and for good when one of them fails, the slot holds a mixture of its old and new
contents, `mixedSlot`.

## Main definitions

* `FilterSlot`, `FilterSlot.Matches`, `FilterSlot.Relays` — a slot and its effect.
* `fdbSlot` — the slot of an FDB entry: station and live port.
* `FdbOp` — `adin2111_fdb_set` and `adin2111_fdb_clear` as operations on a bus.

## Main results

* `fdbSlot_relays` — an entry relays exactly its own station, from the port
  opposite to where it lives.
* `FdbOp.slotAt_writes` — the slot between two writes of an operation.
* `FdbOp.slotAt_exec_self`, `FdbOp.slotAt_exec_of_ne` — the effect of an operation
  on its slot and on the others.
-/

namespace Usb2T1L

open RegFile

/-! ### What a slot does -/

/-- The register words of one address filter slot. -/
structure FilterSlot where
  filtUpr : Word
  filtLwr : Word
  maskUpr : Word
  maskLwr : Word
  deriving DecidableEq

namespace FilterSlot

variable (f : FilterSlot)

/-- `ADIN_MAC_ADDR_APPLY2PORT1`, `ADIN2111_MAC_ADDR_APPLY2PORT2`. -/
def appliesTo : Port → Bool
  | .port1 => f.filtUpr.getLsbD 30
  | .port2 => f.filtUpr.getLsbD 31

/-- `ADIN2111_MAC_ADDR_TO_OTHER_PORT`. -/
def toOtherPort : Bool := f.filtUpr.getLsbD 17

/-- `ADIN_MAC_ADDR_TO_HOST`. -/
def toHost : Bool := f.filtUpr.getLsbD 16

/-- Some `APPLY2PORT` bit is set. -/
def active : Bool := f.appliesTo .port1 || f.appliesTo .port2

/-- The slot matches a frame to `da` entering on `ingress`. -/
def Matches (da : Mac) (ingress : Port) : Prop :=
  f.appliesTo ingress = true ∧
    (addrUpr da ^^^ f.filtUpr.setWidth 16) &&& f.maskUpr.setWidth 16 = 0 ∧
      (addrLwr da ^^^ f.filtLwr) &&& f.maskLwr = 0

/-- The slot forwards a frame to `da` entering on `ingress` to the other port. -/
def Relays (da : Mac) (ingress : Port) : Prop := f.Matches da ingress ∧ f.toOtherPort = true

instance (da : Mac) (ingress : Port) : Decidable (f.Matches da ingress) :=
  inferInstanceAs (Decidable (_ ∧ _ ∧ _))

instance (da : Mac) (ingress : Port) : Decidable (f.Relays da ingress) :=
  inferInstanceAs (Decidable (_ ∧ _))

variable {f}

theorem active_of_appliesTo {p : Port} (h : f.appliesTo p = true) : f.active = true := by
  cases p <;> simp [active, h]

theorem appliesTo_congr {g : FilterSlot} (h : f.filtUpr = g.filtUpr) (p : Port) :
    f.appliesTo p = g.appliesTo p := by cases p <;> simp only [appliesTo, h]

theorem active_congr {g : FilterSlot} (h : f.filtUpr = g.filtUpr) : f.active = g.active := by
  simp only [active, appliesTo_congr h]

theorem toOtherPort_congr {g : FilterSlot} (h : f.filtUpr = g.filtUpr) :
    f.toOtherPort = g.toOtherPort := by simp only [toOtherPort, h]

/-- An inactive slot matches nothing. -/
theorem not_matches_of_inactive (h : f.active = false) (da : Mac) (p : Port) :
    ¬ f.Matches da p := by
  rintro ⟨ha, -⟩
  rw [active_of_appliesTo ha] at h
  exact absurd h (by decide)

end FilterSlot

/-- Slot `k` of the device. -/
def slotAt (regs : ℕ → Word) (k : ℕ) : FilterSlot where
  filtUpr := regs (adinRegMacAddrFiltUpr k)
  filtLwr := regs (adinRegMacAddrFiltLwr k)
  maskUpr := regs (adinRegMacAddrMaskUpr k)
  maskLwr := regs (adinRegMacAddrMaskLwr k)

/-! ### Addresses as the driver packs them -/

/-- The two address words determine the address. -/
theorem addr_ext {a b : Mac} (hu : addrUpr a = addrUpr b) (hl : addrLwr a = addrLwr b) : a = b := by
  have hu' : ∀ i, (addrUpr a).getLsbD i = (addrUpr b).getLsbD i := fun i => by rw [hu]
  have hl' : ∀ i, (addrLwr a).getLsbD i = (addrLwr b).getLsbD i := fun i => by rw [hl]
  simp only [addrUpr, addrLwr, BitVec.getLsbD_or, BitVec.getLsbD_shiftLeft,
    BitVec.getLsbD_setWidth] at hu' hl'
  funext j
  apply BitVec.eq_of_getLsbD_eq
  intro i hi
  have hhi : ∀ (c : Mac) (k n : ℕ) (j : Fin 6), 8 ≤ n - k → (c j).getLsbD (n - k) = false :=
    fun c k n j hk => BitVec.getLsbD_of_ge _ _ hk
  fin_cases j
  · have := hu' (i + 8); grind
  · have := hu' i; grind
  · have := hl' (i + 24); grind
  · have := hl' (i + 16); grind
  · have := hl' (i + 8); grind
  · have := hl' i; grind

/-! ### The slot of an FDB entry -/

/-- The contents `adin2111_fdb_set` gives a slot: an exact match for `mac`,
forwarded to `livePort`. -/
def fdbSlot (mac : Mac) (livePort : Port) : FilterSlot where
  filtUpr := fdbCtl livePort ||| (addrUpr mac).setWidth 32
  filtLwr := addrLwr mac
  maskUpr := (0xFFFF : BitVec 16).setWidth 32
  maskLwr := 0xFFFFFFFF

/-- Control bits are above the address: bits 16 and up of a `FILT_UPR` word. -/
theorem getLsbD_fdbCtl_or (p : Port) (a : BitVec 16) {i : ℕ} (hi : 16 ≤ i) :
    (fdbCtl p ||| a.setWidth 32).getLsbD i = (fdbCtl p).getLsbD i := by
  rw [BitVec.getLsbD_or, BitVec.getLsbD_setWidth, BitVec.getLsbD_of_ge a i hi, Bool.and_false,
    Bool.or_false]

/-- Address bits are below the control bits. -/
theorem setWidth_fdbCtl_or (p : Port) (a : BitVec 16) :
    (fdbCtl p ||| a.setWidth 32).setWidth 16 = a := by
  have hctl : (fdbCtl p).setWidth 16 = 0 := by cases p <;> decide
  rw [BitVec.setWidth_or, hctl, BitVec.setWidth_setWidth_of_le a (by decide), BitVec.setWidth_eq]
  exact BitVec.zero_or

@[simp] theorem fdbSlot_appliesTo (mac : Mac) (livePort ingress : Port) :
    (fdbSlot mac livePort).appliesTo ingress = decide (ingress = livePort.opposite) := by
  have h30 := getLsbD_fdbCtl_or livePort (addrUpr mac) (show 16 ≤ 30 by decide)
  have h31 := getLsbD_fdbCtl_or livePort (addrUpr mac) (show 16 ≤ 31 by decide)
  cases ingress
  · rw [FilterSlot.appliesTo, fdbSlot, h30]; cases livePort <;> decide
  · rw [FilterSlot.appliesTo, fdbSlot, h31]; cases livePort <;> decide

@[simp] theorem fdbSlot_active (mac : Mac) (p : Port) : (fdbSlot mac p).active = true := by
  have h : (fdbSlot mac p).appliesTo p.opposite = true := by simp
  exact FilterSlot.active_of_appliesTo h

@[simp] theorem fdbSlot_toOtherPort (mac : Mac) (p : Port) :
    (fdbSlot mac p).toOtherPort = true := by
  rw [FilterSlot.toOtherPort, fdbSlot, getLsbD_fdbCtl_or _ _ (by decide)]
  cases p <;> decide

@[simp] theorem fdbSlot_toHost (mac : Mac) (p : Port) : (fdbSlot mac p).toHost = false := by
  rw [FilterSlot.toHost, fdbSlot, getLsbD_fdbCtl_or _ _ (by decide)]
  cases p <;> decide

/-- Masking with all ones compares the whole word. -/
theorem xor_and_allOnes {w : ℕ} {a b m : BitVec w} (hm : m = BitVec.allOnes w) :
    (a ^^^ b) &&& m = 0 ↔ a = b := by
  rw [hm, BitVec.and_allOnes]
  exact BitVec.xor_eq_zero_iff

/-- **An entry matches its own station only**, entering on the port opposite to
where it lives. -/
theorem fdbSlot_matches {mac da : Mac} {p ingress : Port} :
    (fdbSlot mac p).Matches da ingress ↔ da = mac ∧ ingress = p.opposite := by
  unfold FilterSlot.Matches
  rw [fdbSlot_appliesTo, decide_eq_true_eq]
  simp only [fdbSlot, setWidth_fdbCtl_or]
  rw [xor_and_allOnes (by decide), xor_and_allOnes (by decide)]
  constructor
  · rintro ⟨hp, hu, hl⟩; exact ⟨addr_ext hu hl, hp⟩
  · rintro ⟨rfl, rfl⟩; exact ⟨rfl, rfl, rfl⟩

theorem fdbSlot_relays {mac da : Mac} {p ingress : Port} :
    (fdbSlot mac p).Relays da ingress ↔ da = mac ∧ ingress = p.opposite := by
  rw [FilterSlot.Relays, fdbSlot_matches, fdbSlot_toOtherPort, and_iff_left rfl]

/-! ### Complete rewrites -/

/-- The writes of `adin2111_fdb_set`. -/
def fdbSetWrites (slot : ℕ) (mac : Mac) (p : Port) : List (ℕ × Word) :=
  filterWrites slot (fdbCtl p) (addrUpr mac) (addrLwr mac) 0xFFFF 0xFFFFFFFF

/-- The writes of `adin2111_fdb_clear`. -/
def fdbClearWrites (slot : ℕ) : List (ℕ × Word) := filterWrites slot 0 0 0 0 0

/-- The addresses of slot `k`. -/
def slotRegs (k : ℕ) : List ℕ :=
  [adinRegMacAddrMaskUpr k, adinRegMacAddrMaskLwr k, adinRegMacAddrFiltLwr k,
    adinRegMacAddrFiltUpr k]

theorem filterWrites_fst (slot : ℕ) (ctl : Word) (aU : BitVec 16) (aL : Word) (mU : BitVec 16)
    (mL : Word) : (filterWrites slot ctl aU aL mU mL).map Prod.fst = slotRegs slot := rfl

/-- Different slots have different registers. -/
theorem slotRegs_disjoint {j k : ℕ} (hj : j < adinMacFilterSlots) (hk : k < adinMacFilterSlots)
    (hjk : j ≠ k) {r : ℕ} (h : r ∈ slotRegs j) : r ∉ slotRegs k := by
  simp only [slotRegs, List.mem_cons, List.not_mem_nil, or_false, adinRegMacAddrMaskUpr,
    adinRegMacAddrMaskLwr, adinRegMacAddrFiltLwr, adinRegMacAddrFiltUpr, adinMacFilterSlots] at *
  omega

/-- A slot is read off its own registers. -/
theorem slotAt_congr {regs regs' : ℕ → Word} {k : ℕ} (h : ∀ r ∈ slotRegs k, regs' r = regs r) :
    slotAt regs' k = slotAt regs k := by
  simp only [slotRegs, List.mem_cons, List.not_mem_nil, or_false, forall_eq_or_imp, forall_eq] at h
  obtain ⟨h1, h2, h3, h4⟩ := h
  rw [slotAt, slotAt, h1, h2, h3, h4]

/-- What a complete rewrite leaves in its slot. -/
def writtenSlot (ctl : Word) (aU : BitVec 16) (aL : Word) (mU : BitVec 16) (mL : Word) :
    FilterSlot where
  filtUpr := ctl ||| aU.setWidth 32
  filtLwr := aL
  maskUpr := mU.setWidth 32
  maskLwr := mL

/-- A slot after the first `n` writes of a rewrite from `old` to `new`. -/
def mixedSlot (old new : FilterSlot) : ℕ → FilterSlot
  | 0 => old
  | 1 => { old with maskUpr := new.maskUpr }
  | 2 => { old with maskUpr := new.maskUpr, maskLwr := new.maskLwr }
  | 3 => { new with filtUpr := old.filtUpr }
  | _ => new

/-- **The slot between two writes of a rewrite.** -/
theorem slotAt_writes_of_prefix (regs : ℕ → Word) (k : ℕ) (ctl : Word) (aU : BitVec 16) (aL : Word)
    (mU : BitVec 16) (mL : Word) {ws : List (ℕ × Word)}
    (hws : ws <+: filterWrites k ctl aU aL mU mL) :
    slotAt (writes regs ws) k =
      mixedSlot (slotAt regs k) (writtenSlot ctl aU aL mU mL) ws.length := by
  have hlen : ws.length ≤ 4 := hws.length_le
  have htake : ws = (filterWrites k ctl aU aL mU mL).take ws.length :=
    List.prefix_iff_eq_take.mp hws
  generalize ws.length = n at hlen htake
  subst htake
  have hcases : n = 0 ∨ n = 1 ∨ n = 2 ∨ n = 3 ∨ n = 4 := by omega
  rcases hcases with rfl | rfl | rfl | rfl | rfl <;>
    simp [filterWrites, writes, write, slotAt, mixedSlot, writtenSlot, adinRegMacAddrFiltUpr,
      adinRegMacAddrFiltLwr, adinRegMacAddrMaskUpr, adinRegMacAddrMaskLwr, Function.update]

theorem mem_slotRegs_of_mem_filterWrites {k : ℕ} {ctl : Word} {aU : BitVec 16} {aL : Word}
    {mU : BitVec 16} {mL : Word} {w : ℕ × Word} (h : w ∈ filterWrites k ctl aU aL mU mL) :
    w.1 ∈ slotRegs k := by
  rw [← filterWrites_fst k ctl aU aL mU mL]
  exact List.mem_map_of_mem h

/-! ### The FDB operations on the bus -/

/-- The two operations on an FDB slot. -/
inductive FdbOp
  /-- `adin2111_fdb_set`. -/
  | set (mac : Mac) (livePort : Port)
  /-- `adin2111_fdb_clear`. -/
  | clear

namespace FdbOp

/-- Running the driver function. -/
def exec (dev : Adin2111) (slot : ℕ) (b : Bus) : FdbOp → Bus
  | .set mac p => (adin2111FdbSet (busHal dev) dev slot mac p b).2
  | .clear => (adin2111FdbClear (busHal dev) dev slot b).2

/-- The writes it issues when none fails. -/
def intended (slot : ℕ) : FdbOp → List (ℕ × Word)
  | .set mac p => fdbSetWrites slot mac p
  | .clear => fdbClearWrites slot

/-- The destinations, with their ingress port, that the requested entry relays. -/
def Requests : FdbOp → Mac → Port → Prop
  | .set mac p, da, ingress => da = mac ∧ ingress = p.opposite
  | .clear, _, _ => False

theorem mem_slotRegs_of_mem_intended {op : FdbOp} {k : ℕ} {w : ℕ × Word}
    (h : w ∈ op.intended k) : w.1 ∈ slotRegs k := by
  cases op <;> exact mem_slotRegs_of_mem_filterWrites h

/-- The contents an operation leaves when all its writes are performed. -/
def slot : FdbOp → FilterSlot
  | .set mac p => fdbSlot mac p
  | .clear => writtenSlot 0 0 0 0 0

theorem slot_relays {op : FdbOp} {da : Mac} {ingress : Port}
    (h : op.slot.Relays da ingress) : op.Requests da ingress := by
  cases op with
  | set mac p => exact fdbSlot_relays.mp h
  | clear => exact absurd h.1 (FilterSlot.not_matches_of_inactive (by decide) da ingress)

/-- A slot in the middle of an FDB operation. -/
theorem slotAt_writes (op : FdbOp) (regs : ℕ → Word) (k : ℕ) {ws : List (ℕ × Word)}
    (hws : ws <+: op.intended k) :
    slotAt (writes regs ws) k = mixedSlot (slotAt regs k) op.slot ws.length := by
  cases op <;> exact slotAt_writes_of_prefix regs k _ _ _ _ _ hws

theorem intended_length (op : FdbOp) (k : ℕ) : (op.intended k).length = 4 := by
  cases op <;> rfl

end FdbOp

/-- The filter slot of FDB entry `i`: `ADIN_MAC_SLOT_FDB_BASE + i`. -/
def fdbSlotIndex (i : Fin netFdbMaxEntries) : ℕ := adinMacSlotFdbBase + i

theorem fdbSlotIndex_lt (i : Fin netFdbMaxEntries) : fdbSlotIndex i < adinMacFilterSlots := by
  have hi : (i : ℕ) < 14 := i.isLt
  rw [fdbSlotIndex, adinMacSlotFdbBase, adinMacFilterSlots]
  omega

theorem le_fdbSlotIndex (i : Fin netFdbMaxEntries) : adinMacSlotFdbBase ≤ fdbSlotIndex i :=
  Nat.le_add_right _ _

theorem fdbSlotIndex_injective : Function.Injective fdbSlotIndex := by
  intro i j h
  rw [fdbSlotIndex, fdbSlotIndex] at h
  exact Fin.ext (by omega)

/-- In switch mode both operations pass their parameter checks on an FDB slot. -/
theorem FdbOp.exec_eq_perform {dev : Adin2111} (hdev : dev.mode = .switch)
    (i : Fin netFdbMaxEntries) (op : FdbOp) (b : Bus) :
    op.exec dev (fdbSlotIndex i) b = b.perform (op.intended (fdbSlotIndex i)) := by
  have hports := dev.switch_ports hdev
  have hlt := fdbSlotIndex_lt i
  have hge := le_fdbSlotIndex i
  cases op with
  | set mac p =>
    rw [exec, adin2111FdbSet, if_neg (by omega), adinWriteFilter_bus dev hlt]
    rfl
  | clear =>
    rw [exec, adin2111FdbClear, if_neg (by omega), adinWriteFilter_bus dev hlt]
    rfl

namespace FdbOp

variable {dev : Adin2111} (hdev : dev.mode = .switch)
include hdev

/-- Failing or not, an operation writes registers of its own slot only. -/
theorem mem_writes_exec {i : Fin netFdbMaxEntries} {op : FdbOp} {b : Bus} {w : ℕ × Word}
    (h : w ∈ (op.exec dev (fdbSlotIndex i) b).writes) :
    w ∈ b.writes ∨ w.1 ∈ slotRegs (fdbSlotIndex i) := by
  rw [exec_eq_perform hdev, Bus.perform_writes, List.mem_append] at h
  exact h.imp_right fun hw => mem_slotRegs_of_mem_intended ((cut_isPrefix _ _).subset hw)

theorem exec_regs_of_notMem {i : Fin netFdbMaxEntries} {r : ℕ}
    (h : r ∉ slotRegs (fdbSlotIndex i)) (op : FdbOp) (b : Bus) :
    (op.exec dev (fdbSlotIndex i) b).regs r = b.regs r := by
  rw [exec_eq_perform hdev, Bus.perform_regs]
  refine writes_of_notMem _ fun hr => ?_
  obtain ⟨w, hw, rfl⟩ := List.mem_map.mp hr
  exact h (mem_slotRegs_of_mem_intended ((cut_isPrefix _ _).subset hw))

/-- Failing or not, an operation leaves the other slots alone. -/
theorem slotAt_exec_of_ne {i j : Fin netFdbMaxEntries} (hij : j ≠ i) (op : FdbOp) (b : Bus) :
    slotAt (op.exec dev (fdbSlotIndex i) b).regs (fdbSlotIndex j) =
      slotAt b.regs (fdbSlotIndex j) := by
  refine slotAt_congr fun r hr => exec_regs_of_notMem hdev ?_ op b
  exact slotRegs_disjoint (fdbSlotIndex_lt j) (fdbSlotIndex_lt i)
    (fun h => hij (fdbSlotIndex_injective h)) hr

/-- On a bus that works the slot ends up with the requested contents. -/
theorem slotAt_exec_self {i : Fin netFdbMaxEntries} (op : FdbOp) {b : Bus} (hb : b.Works) :
    slotAt (op.exec dev (fdbSlotIndex i) b).regs (fdbSlotIndex i) = op.slot := by
  rw [exec_eq_perform hdev, hb.perform_regs, op.slotAt_writes _ _ List.prefix_rfl,
    op.intended_length]
  rfl

theorem works_exec {i : Fin netFdbMaxEntries} (op : FdbOp) {b : Bus} (hb : b.Works) :
    (op.exec dev (fdbSlotIndex i) b).Works := by
  rw [exec_eq_perform hdev]
  exact hb.perform _

end FdbOp

end Usb2T1L
