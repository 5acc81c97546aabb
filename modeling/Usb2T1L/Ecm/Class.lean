import Usb2T1L.Adin2111.Driver

/-!
# State of the ECM class

What the callbacks of `usbd_ecm.c` keep about the device as a whole, and what the
two of them that bring it up and down and the SET_INTERFACE request do to it.  The
three directions of traffic — bulk OUT, bulk IN and notifications — have modules of
their own.

## Main definitions

* `EcmClass` — `s_pdev`, `s_ready`, `s_data_alt` and the device state.
* `EcmClass.setInterface` — SET_INTERFACE, and what becomes of the data endpoints.
* `EcmClass.Coherent` — the handle and readiness agree with the device state.

## Main results

* `EcmClass.setInterface_cases` — everything SET_INTERFACE can do.
-/

namespace Usb2T1L

/-- `CDC_ECM_DATA_MAX_PACKET_SIZE`. -/
abbrev cdcEcmDataMaxPacketSize : ℕ := 64

/-- `CDC_ECM_CMD_ITF_NBR`. -/
def cdcEcmCmdItfNbr : Byte := 0

/-- `CDC_ECM_DATA_ITF_NBR`. -/
def cdcEcmDataItfNbr : BitVec 16 := 1

/-- The statics of `usbd_ecm.c` that concern the device as a whole. -/
structure EcmClass where
  /-- `s_pdev` is not NULL; there is one device handle only. -/
  sPdev : Bool
  sReady : Bool
  sDataAlt : Byte
  /-- `dev_state` is `USBD_STATE_CONFIGURED`. -/
  configured : Bool
  deriving DecidableEq

/-- What a request makes of the two bulk endpoints. -/
inductive DataEps
  | kept
  | opened
  | closed
  deriving DecidableEq

namespace EcmClass

/-- Before the host has configured the device. -/
def reset : EcmClass := ⟨false, false, 0, false⟩

/-- `ECM_Init`, as far as the device is concerned. -/
def init (_ : EcmClass) : EcmClass := ⟨true, false, 0, true⟩

/-- `ECM_DeInit`, as far as the device is concerned. -/
def deInit (c : EcmClass) : EcmClass :=
  { c with sPdev := false, sReady := false, configured := false }

/-- The SET_INTERFACE case of `ECM_Setup`. -/
def setInterface (c : EcmClass) (wIndex wValue : BitVec 16) : DataEps × EcmClass :=
  if c.configured = true ∧ wIndex = cdcEcmDataItfNbr then
    let alt := wValue.setWidth 8
    if alt ≠ c.sDataAlt then
      if alt = 1 then (.opened, { c with sDataAlt := alt, sReady := true })
      else (.closed, { c with sDataAlt := alt, sReady := false })
    else (.kept, c)
  else (.kept, c)

/-- **Everything SET_INTERFACE can do.** -/
theorem setInterface_cases (c : EcmClass) (wIndex wValue : BitVec 16) :
    c.setInterface wIndex wValue = (.kept, c) ∨
    (c.configured = true ∧ c.sDataAlt ≠ 1 ∧
      c.setInterface wIndex wValue = (.opened, { c with sDataAlt := 1, sReady := true })) ∨
    ∃ alt, alt ≠ 1 ∧ c.configured = true ∧
      c.setInterface wIndex wValue = (.closed, { c with sDataAlt := alt, sReady := false }) := by
  unfold setInterface
  split
  · next hc =>
    by_cases halt : wValue.setWidth 8 = c.sDataAlt
    · exact Or.inl (if_neg (not_not.mpr halt))
    · rw [if_pos halt]
      by_cases h1 : wValue.setWidth 8 = 1
      · rw [if_pos h1, h1]
        exact Or.inr (Or.inl ⟨hc.1, fun h => halt (h1.trans h.symm), rfl⟩)
      · rw [if_neg h1]
        exact Or.inr (Or.inr ⟨_, h1, hc.1, rfl⟩)
  · exact Or.inl rfl

/-- The handle and readiness agree with the device state. -/
structure Coherent (c : EcmClass) : Prop where
  /-- `s_pdev` is set exactly while the device is configured. -/
  handle : c.sPdev = c.configured
  /-- The data interface is ready only in its alternate setting 1. -/
  ready : c.sReady = true → c.configured = true ∧ c.sDataAlt = 1

theorem coherent_reset : reset.Coherent := ⟨rfl, fun h => absurd h Bool.false_ne_true⟩

theorem Coherent.init (c : EcmClass) : c.init.Coherent :=
  ⟨rfl, fun h => absurd h Bool.false_ne_true⟩

theorem Coherent.deInit (c : EcmClass) : c.deInit.Coherent :=
  ⟨rfl, fun h => absurd h Bool.false_ne_true⟩

/-- A ready interface has a handle. -/
theorem Coherent.sPdev_of_ready {c : EcmClass} (h : c.Coherent) (hr : c.sReady = true) :
    c.sPdev = true := h.handle.trans (h.ready hr).1

end EcmClass

/-- A buffer after `bs` has been written to its front. -/
def overlay {N : ℕ} (bs : List Byte) (buf : Fin N → Byte) : Fin N → Byte := fun i =>
  (bs[(i : ℕ)]?).getD (buf i)

/-- What has been written is at the front. -/
theorem take_ofFn_overlay {N : ℕ} {bs : List Byte} (h : bs.length ≤ N) (buf : Fin N → Byte) :
    (List.ofFn (overlay bs buf)).take bs.length = bs := by
  apply List.ext_getElem
  · rw [List.length_take, List.length_ofFn]
    omega
  · intro i _ hi
    rw [List.getElem_take, List.getElem_ofFn, overlay, List.getElem?_eq_getElem hi,
      Option.getD_some]

end Usb2T1L
