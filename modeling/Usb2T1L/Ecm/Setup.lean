import Usb2T1L.Ecm.System
import Usb2T1L.Production.Record

/-!
# Requests on the control pipe

`ECM_Setup` with everything that it initiates on endpoint 0, and the USB core around it.  The
core answers for the class in two places: it sends the status stage after a request to an interface
without data that the class took, and before it passes CLEAR_FEATURE(ENDPOINT_HALT) on.  The host
waits for one answer, whoever gives it.

## Main definitions

* `SetupReq`, `ecmSetup` — the requests, and what the class makes of them.
* `UsbCore`, `UsbCore.Lawful` — the core as a parameter, and what is relied on.
* `UsbCore.responses` — everything that is initiated for a request.
* `SetupReq.Served` — the requests that the class is prepared for.

## Main results

* `ecmSetup_state`, `Ecm.setup_eq` — of all requests only SET_INTERFACE touches the class, and that
  as the system has it.
* `UsbCore.Lawful.length_responses` — how many answers there are.
* `one_response_iff` — **a request has exactly one answer** if and only if the class is prepared
  for it.
-/

namespace Usb2T1L

/-! ### The class, `usbd_ecm.c` -/

/-- `USB_REQ_TYPE_MASK`: the bits of `bmRequest` that are the type. -/
def usbReqTypeMask : Byte := 0x60

/-- `USB_REQ_TYPE_STANDARD`. -/
def usbReqTypeStandard : Byte := 0x00

/-- `USB_REQ_TYPE_CLASS`. -/
def usbReqTypeClass : Byte := 0x20

/-- `USB_REQ_TYPE_VENDOR`. -/
def usbReqTypeVendor : Byte := 0x40

@[simp] theorem usbReqTypeClass_ne_vendor : usbReqTypeClass ≠ usbReqTypeVendor := by decide

@[simp] theorem usbReqTypeStandard_ne_vendor : usbReqTypeStandard ≠ usbReqTypeVendor := by decide

@[simp] theorem usbReqTypeStandard_ne_class : usbReqTypeStandard ≠ usbReqTypeClass := by decide

/-- `USB_REQ_CLEAR_FEATURE`. -/
def usbReqClearFeature : Byte := 0x01

/-- `USB_REQ_GET_INTERFACE`. -/
def usbReqGetInterface : Byte := 0x0A

/-- `USB_REQ_SET_INTERFACE`. -/
def usbReqSetInterface : Byte := 0x0B

/-- `VENDOR_REQ_GET_PRODINFO`. -/
def vendorReqGetProdinfo : Byte := 0x50

/-- `USBD_SetupReqTypedef`. -/
structure SetupReq where
  bmRequest : Byte
  bRequest : Byte
  wValue : BitVec 16
  wIndex : BitVec 16
  wLength : BitVec 16

/-- What `ECM_Setup` returns, of `USBD_StatusTypeDef`. -/
inductive UsbdStatus
  | ok
  | fail
  deriving DecidableEq

/-- What is initiated on endpoint 0. -/
inductive Ep0Call
  /-- `USBD_CtlSendData`: a data stage to the host. -/
  | ctlSendData (data : List Byte)
  /-- `USBD_CtlPrepareRx`: a reception of up to so many bytes. -/
  | ctlPrepareRx (len : ℕ)
  /-- `USBD_CtlSendStatus`: the status stage. -/
  | ctlSendStatus
  /-- `USBD_CtlError`: a stall. -/
  | ctlError
  deriving DecidableEq

namespace SetupReq

/-- The type of a request. -/
def type (req : SetupReq) : Byte := req.bmRequest &&& usbReqTypeMask

/-- The data stage, if there is one, goes to the host. -/
def ToHost (req : SetupReq) : Prop := req.bmRequest &&& 0x80 ≠ 0

instance decidableToHost (req : SetupReq) : Decidable req.ToHost :=
  inferInstanceAs (Decidable (_ ≠ _))

end SetupReq

/-- `ECM_HandleClassReq`, receiving into the 64 bytes of `s_ctl_buf`. -/
def ecmHandleClassReq (req : SetupReq) : List Ep0Call :=
  if req.wLength = 0 then []
  else if req.ToHost then [.ctlError]
  else [.ctlPrepareRx (min req.wLength.toNat 64)]

/-- What a request comes to: the status for the core, what has been initiated, and what becomes of
the class. -/
structure SetupResult where
  status : UsbdStatus
  calls : List Ep0Call
  eps : DataEps
  cls : EcmClass

/-- `USBD_CtlError`, and `USBD_FAIL`. -/
def refused (c : EcmClass) : SetupResult := ⟨.fail, [.ctlError], .kept, c⟩

/-- The vendor case of `ECM_Setup`. -/
def ecmVendorReq (flash : Sector) (c : EcmClass) (req : SetupReq) : SetupResult :=
  if req.ToHost ∧ req.bRequest = vendorReqGetProdinfo then
    ⟨.ok, [.ctlSendData (flash.bytes.take req.wLength.toNat)], .kept, c⟩
  else refused c

/-- The standard case of `ECM_Setup`. -/
def ecmStandardReq (c : EcmClass) (req : SetupReq) : SetupResult :=
  if req.bRequest = usbReqGetInterface then
    if c.configured then
      ⟨.ok, [.ctlSendData [if req.wIndex = cdcEcmDataItfNbr then c.sDataAlt else 0]], .kept, c⟩
    else refused c
  else if req.bRequest = usbReqSetInterface then
    if c.configured then
      ⟨.ok, [], (c.setInterface req.wIndex req.wValue).1, (c.setInterface req.wIndex req.wValue).2⟩
    else refused c
  else refused c

/-- `ECM_Setup`, on a board with this record in flash. -/
def ecmSetup (flash : Sector) (c : EcmClass) (req : SetupReq) : SetupResult :=
  if req.type = usbReqTypeVendor then ecmVendorReq flash c req
  else if req.type = usbReqTypeClass then ⟨.ok, ecmHandleClassReq req, .kept, c⟩
  else if req.type = usbReqTypeStandard then ecmStandardReq c req
  else refused c

section Cases

variable (flash : Sector) (c : EcmClass) (req : SetupReq)

theorem ecmSetup_vendor (h : req.type = usbReqTypeVendor) :
    ecmSetup flash c req = ecmVendorReq flash c req := if_pos h

theorem ecmSetup_class (h : req.type = usbReqTypeClass) :
    ecmSetup flash c req = ⟨.ok, ecmHandleClassReq req, .kept, c⟩ := by
  simp [ecmSetup, h]

theorem ecmSetup_standard (h : req.type = usbReqTypeStandard) :
    ecmSetup flash c req = ecmStandardReq c req := by
  simp [ecmSetup, h]

/-- The type bits are those of one of the three types, or the request is refused. -/
theorem ecmSetup_type : req.type = usbReqTypeVendor ∨ req.type = usbReqTypeClass ∨
    req.type = usbReqTypeStandard ∨ req.type ≠ usbReqTypeVendor ∧ req.type ≠ usbReqTypeClass ∧
      req.type ≠ usbReqTypeStandard ∧ ecmSetup flash c req = refused c := by
  by_cases hvendor : req.type = usbReqTypeVendor
  · exact .inl hvendor
  by_cases hclass : req.type = usbReqTypeClass
  · exact .inr (.inl hclass)
  by_cases hstd : req.type = usbReqTypeStandard
  · exact .inr (.inr (.inl hstd))
  · refine .inr (.inr (.inr ⟨hvendor, hclass, hstd, ?_⟩))
    rw [ecmSetup, if_neg hvendor, if_neg hclass, if_neg hstd]

theorem ecmStandardReq_state :
    ((ecmStandardReq c req).eps, (ecmStandardReq c req).cls) =
      if req.bRequest = usbReqSetInterface then c.setInterface req.wIndex req.wValue
      else (.kept, c) := by
  rw [ecmStandardReq]
  by_cases hset : req.bRequest = usbReqSetInterface
  · rw [if_neg (by rw [hset]; decide), if_pos hset, if_pos hset]
    split
    · rfl
    · next hconf => rw [EcmClass.setInterface, if_neg fun h => hconf h.1]; rfl
  · rw [if_neg hset, if_neg hset]
    split
    · split <;> rfl
    · rfl

/-- **Of all requests only SET_INTERFACE touches the class.** -/
theorem ecmSetup_state :
    ((ecmSetup flash c req).eps, (ecmSetup flash c req).cls) =
      if req.type = usbReqTypeStandard ∧ req.bRequest = usbReqSetInterface then
        c.setInterface req.wIndex req.wValue
      else (.kept, c) := by
  rcases ecmSetup_type flash c req with h | h | h | ⟨-, -, hstd, h⟩
  · rw [ecmSetup_vendor _ _ _ h,
      if_neg fun hs => usbReqTypeStandard_ne_vendor (hs.1.symm.trans h), ecmVendorReq]
    split <;> rfl
  · rw [ecmSetup_class _ _ _ h, if_neg fun hs => usbReqTypeStandard_ne_class (hs.1.symm.trans h)]
  · rw [ecmSetup_standard _ _ _ h, ecmStandardReq_state]
    simp only [h, true_and]
  · rw [h, if_neg fun hs => hstd hs.1]
    rfl

end Cases

/-- `ECM_Setup` in the system, with the data endpoints. -/
def Ecm.setup {n : ℕ} (s : Ecm n) (flash : Sector) (req : SetupReq) : Ecm n :=
  match ((ecmSetup flash s.cls req).eps, (ecmSetup flash s.cls req).cls) with
  | (.kept, c) => { s with cls := c }
  | (.opened, c) => { s with cls := c, down := s.down.ecmOpenDataEps, notify := s.notify.activated }
  | (.closed, c) => { s with cls := c, down := s.down.ecmCloseDataEps, up := s.up.cancel }

/-- **A request is a step of the system**, or nothing to it. -/
theorem Ecm.setup_eq {n : ℕ} (s : Ecm n) (flash : Sector) (req : SetupReq) :
    s.setup flash req =
      if req.type = usbReqTypeStandard ∧ req.bRequest = usbReqSetInterface then
        s.setInterface req.wIndex req.wValue
      else s := by
  rw [setup, ecmSetup_state]
  by_cases h : req.type = usbReqTypeStandard ∧ req.bRequest = usbReqSetInterface
  · rw [if_pos h, if_pos h]
    rfl
  · rw [if_neg h, if_neg h]

/-! ### The core -/

namespace SetupReq

/-- The recipient is an interface. -/
def ToInterface (req : SetupReq) : Prop := req.bmRequest &&& 0x1F = 0x01

instance decidableToInterface (req : SetupReq) : Decidable req.ToInterface :=
  inferInstanceAs (Decidable (_ = _))

/-- CLEAR_FEATURE(ENDPOINT_HALT), for an endpoint. -/
def ClearsHalt (req : SetupReq) : Prop :=
  req.type = usbReqTypeStandard ∧ req.bmRequest &&& 0x1F = 0x02 ∧
    req.bRequest = usbReqClearFeature ∧ req.wValue = 0

instance decidableClearsHalt (req : SetupReq) : Decidable req.ClearsHalt :=
  inferInstanceAs (Decidable (_ ∧ _))

end SetupReq

/-- The USB core: which requests it passes to the class, and what it initiates itself before and,
by the status of the class, after. -/
structure UsbCore where
  passes : EcmClass → SetupReq → Bool
  before : EcmClass → SetupReq → List Ep0Call
  after : EcmClass → SetupReq → UsbdStatus → List Ep0Call

namespace UsbCore

/-- What is relied on: of the requests that it passes on, the core has sent the status of a
CLEAR_FEATURE(ENDPOINT_HALT) before, and sends that of a request to an interface without data after
the class has taken it; otherwise it leaves the answer to the class. -/
structure Lawful (core : UsbCore) : Prop where
  before_clearsHalt : ∀ {c req}, core.passes c req = true → req.ClearsHalt →
    core.before c req = [.ctlSendStatus]
  before_other : ∀ {c req}, core.passes c req = true → ¬ req.ClearsHalt → core.before c req = []
  after_taken : ∀ {c req}, core.passes c req = true → req.ToInterface → req.wLength = 0 →
    core.after c req .ok = [.ctlSendStatus]
  after_other : ∀ {c req st}, core.passes c req = true →
    ¬ (req.ToInterface ∧ req.wLength = 0 ∧ st = .ok) → core.after c req st = []

/-- Everything that is initiated for a request. -/
def responses (core : UsbCore) (flash : Sector) (c : EcmClass) (req : SetupReq) : List Ep0Call :=
  core.before c req ++ (ecmSetup flash c req).calls ++
    core.after c req (ecmSetup flash c req).status

/-- **How many answers there are.** -/
theorem Lawful.length_responses {core : UsbCore} (hcore : core.Lawful) (flash : Sector)
    {c : EcmClass} {req : SetupReq} (hp : core.passes c req = true) :
    (core.responses flash c req).length =
      (if req.ClearsHalt then 1 else 0) + (ecmSetup flash c req).calls.length +
        if req.ToInterface ∧ req.wLength = 0 ∧ (ecmSetup flash c req).status = .ok then 1
        else 0 := by
  have hbefore : (core.before c req).length = if req.ClearsHalt then 1 else 0 := by
    split
    · next hclear => rw [hcore.before_clearsHalt hp hclear]; rfl
    · next hother => rw [hcore.before_other hp hother]; rfl
  have hafter : (core.after c req (ecmSetup flash c req).status).length =
      if req.ToInterface ∧ req.wLength = 0 ∧ (ecmSetup flash c req).status = .ok then 1 else 0 := by
    split
    · next htaken => rw [htaken.2.2, hcore.after_taken hp htaken.1 htaken.2.1]; rfl
    · next hother => rw [hcore.after_other hp hother]; rfl
  rw [responses, List.length_append, List.length_append, hbefore, hafter]

end UsbCore

/-! ### One answer -/

/-- The requests that the class is prepared for, in a given state of the device. -/
structure SetupReq.Served (c : EcmClass) (req : SetupReq) : Prop where
  /-- The record is asked for from the device, or with room for some of it. -/
  vendor : req.type = usbReqTypeVendor → req.ToHost → req.bRequest = vendorReqGetProdinfo →
    ¬ (req.ToInterface ∧ req.wLength = 0)
  /-- A class request without data is one to an interface. -/
  cls : req.type = usbReqTypeClass → req.wLength = 0 → req.ToInterface
  /-- The halt of an endpoint is not cleared. -/
  clearFeature : ¬ req.ClearsHalt
  /-- GET_INTERFACE has room for its answer. -/
  getInterface : req.type = usbReqTypeStandard → req.bRequest = usbReqGetInterface →
    c.configured = true → ¬ (req.ToInterface ∧ req.wLength = 0)
  /-- SET_INTERFACE has no data. -/
  setInterface : req.type = usbReqTypeStandard → req.bRequest = usbReqSetInterface →
    c.configured = true → req.ToInterface ∧ req.wLength = 0

section Answers

variable (flash : Sector) (c : EcmClass) (req : SetupReq)

/-- The answers to a request that does not clear a halt: those of the class, and the status that the
core sends if the class has taken it. -/
def answers (r : SetupResult) : ℕ :=
  r.calls.length + if req.ToInterface ∧ req.wLength = 0 ∧ r.status = .ok then 1 else 0

theorem answers_refused : answers req (refused c) = 1 := by
  simp [answers, refused]

theorem answers_vendor : answers req (ecmVendorReq flash c req) = 1 ↔
    (req.ToHost → req.bRequest = vendorReqGetProdinfo → ¬ (req.ToInterface ∧ req.wLength = 0)) := by
  rw [ecmVendorReq]
  split
  · next hget => simp [answers, hget]
  · next hnot =>
    rw [answers_refused]
    exact ⟨fun _ hhost hreq => absurd ⟨hhost, hreq⟩ hnot, fun _ => rfl⟩

theorem answers_class : answers req ⟨.ok, ecmHandleClassReq req, .kept, c⟩ = 1 ↔
    (req.wLength = 0 → req.ToInterface) := by
  rw [answers, ecmHandleClassReq]
  by_cases hlen : req.wLength = 0
  · simp [hlen]
  · have hnot : ¬ (req.ToInterface ∧ req.wLength = 0 ∧ UsbdStatus.ok = .ok) := fun h => hlen h.2.1
    rw [if_neg hlen, if_neg hnot]
    split <;> exact ⟨fun _ h => absurd h hlen, fun _ => rfl⟩

theorem answers_standard : answers req (ecmStandardReq c req) = 1 ↔
    (req.bRequest = usbReqGetInterface → c.configured = true →
      ¬ (req.ToInterface ∧ req.wLength = 0)) ∧
    (req.bRequest = usbReqSetInterface → c.configured = true →
      req.ToInterface ∧ req.wLength = 0) := by
  have hne : usbReqGetInterface ≠ usbReqSetInterface := by decide
  rw [ecmStandardReq]
  by_cases hget : req.bRequest = usbReqGetInterface
  · rw [if_pos hget, hget]
    split
    · next hconf => simp [answers, hconf, hne]
    · next hconf => simp [answers_refused, hconf, hne]
  · rw [if_neg hget]
    split
    · next hset =>
      split
      · next hconf => simp [answers, hconf, hset, hne.symm]
      · next hconf => simp [answers_refused, hconf]
    · next hset => simp [answers_refused, hget, hset]

/-- **Exactly one answer**, for the requests of each type. -/
theorem answers_ecmSetup (hclear : ¬ req.ClearsHalt) :
    answers req (ecmSetup flash c req) = 1 ↔ req.Served c := by
  have hcv := usbReqTypeClass_ne_vendor
  have hsv := usbReqTypeStandard_ne_vendor
  have hsc := usbReqTypeStandard_ne_class
  rcases ecmSetup_type flash c req with h | h | h | ⟨hvendor, hclass, hstd, h⟩
  · rw [ecmSetup_vendor _ _ _ h, answers_vendor]
    exact ⟨fun hv => ⟨fun _ => hv, fun hc => absurd (hc.symm.trans h) hcv, hclear,
      fun hs => absurd (hs.symm.trans h) hsv, fun hs => absurd (hs.symm.trans h) hsv⟩,
      fun hserved => hserved.vendor h⟩
  · rw [ecmSetup_class _ _ _ h, answers_class]
    exact ⟨fun hc => ⟨fun hv => absurd (h.symm.trans hv) hcv, fun _ => hc, hclear,
      fun hs => absurd (hs.symm.trans h) hsc, fun hs => absurd (hs.symm.trans h) hsc⟩,
      fun hserved => hserved.cls h⟩
  · rw [ecmSetup_standard _ _ _ h, answers_standard]
    exact ⟨fun hs => ⟨fun hv => absurd (h.symm.trans hv) hsv,
      fun hc => absurd (h.symm.trans hc) hsc, hclear, fun _ => hs.1, fun _ => hs.2⟩,
      fun hserved => ⟨hserved.getInterface h, hserved.setInterface h⟩⟩
  · rw [h, answers_refused]
    exact ⟨fun _ => ⟨fun hv => absurd hv hvendor, fun hc => absurd hc hclass, hclear,
      fun hs => absurd hs hstd, fun hs => absurd hs hstd⟩, fun _ => rfl⟩

end Answers

/-- The request has been stalled after its status had been sent. -/
def StalledAfterStatus (calls : List Ep0Call) : Prop :=
  [Ep0Call.ctlSendStatus, Ep0Call.ctlError].Sublist calls

instance decidableStalledAfterStatus (calls : List Ep0Call) :
    Decidable (StalledAfterStatus calls) :=
  inferInstanceAs (Decidable (List.Sublist _ _))

/-- **Exactly one answer for a request.**  Whatever the core passes on, exactly one data stage,
reception, status stage or stall is initiated for it, and a standard request is not stalled after
its status, if and only if the class is prepared for the request. -/
theorem one_response_iff {core : UsbCore} (hcore : core.Lawful) (flash : Sector) {c : EcmClass}
    {req : SetupReq} (hp : core.passes c req = true) :
    (core.responses flash c req).length = 1 ∧
      (req.type = usbReqTypeStandard → ¬ StalledAfterStatus (core.responses flash c req)) ↔
    req.Served c := by
  have hlength := hcore.length_responses flash hp
  by_cases hclear : req.ClearsHalt
  · -- the core has answered, and the class refuses
    have hcalls : (ecmSetup flash c req).calls = [.ctlError] := by
      rw [ecmSetup_standard _ _ _ hclear.1, ecmStandardReq, if_neg (by rw [hclear.2.2.1]; decide),
        if_neg (by rw [hclear.2.2.1]; decide)]
      rfl
    rw [if_pos hclear, hcalls, List.length_singleton] at hlength
    exact ⟨fun h => by omega, fun h => absurd hclear h.clearFeature⟩
  · rw [if_neg hclear, Nat.zero_add] at hlength
    rw [← answers_ecmSetup flash c req hclear, answers, ← hlength]
    refine ⟨fun h => h.1, fun h => ⟨h, fun _ hstall => ?_⟩⟩
    have hle := hstall.length_le
    rw [h] at hle
    exact absurd hle (by decide)

/-- A core that does what is relied on, and passes on whatever is not answered by the core alone. -/
def statusCore : UsbCore where
  passes c req :=
    decide (req.ToInterface ∨ req.ClearsHalt ∧ c.configured = true ∨
      req.type = usbReqTypeClass ∨ req.type = usbReqTypeVendor)
  before _ req := if req.ClearsHalt then [.ctlSendStatus] else []
  after _ req st :=
    if req.ToInterface ∧ req.wLength = 0 ∧ st = .ok then [.ctlSendStatus] else []

theorem lawful_statusCore : statusCore.Lawful where
  before_clearsHalt _ hclear := if_pos hclear
  before_other _ hother := if_neg hother
  after_taken _ hitf hlen := if_pos ⟨hitf, hlen, rfl⟩
  after_other _ hnot := if_neg hnot

/-- The configured device, with the data interface active. -/
def activeCls : EcmClass := ⟨true, true, 1, true⟩

/-- SET_ETHERNET_PACKET_FILTER. -/
def setPacketFilter : SetupReq := ⟨0x21, 0x43, 0x000E, 0, 0⟩

/-- The packet filter is acknowledged, once. -/
theorem one_response_setPacketFilter :
    (statusCore.responses sizeless activeCls setPacketFilter).length = 1 :=
  ((one_response_iff lawful_statusCore sizeless (by decide)).mpr
    ⟨by decide, by decide, by decide, by decide, by decide⟩).1

/-- CLEAR_FEATURE(ENDPOINT_HALT) for the bulk IN endpoint. -/
def clearHaltIn : SetupReq := ⟨0x02, usbReqClearFeature, 0, 0x0081, 0⟩

/-- It is stalled after its status has been sent. -/
theorem clearHalt_stalled : statusCore.Lawful ∧ statusCore.passes activeCls clearHaltIn = true ∧
    statusCore.responses sizeless activeCls clearHaltIn = [.ctlSendStatus, .ctlError] ∧
    ¬ ((statusCore.responses sizeless activeCls clearHaltIn).length = 1 ∧
      (clearHaltIn.type = usbReqTypeStandard →
        ¬ StalledAfterStatus (statusCore.responses sizeless activeCls clearHaltIn))) :=
  ⟨lawful_statusCore, by decide, by decide, by decide⟩

end Usb2T1L
