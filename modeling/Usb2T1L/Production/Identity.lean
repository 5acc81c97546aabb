import Usb2T1L.Production.RoundTrip

/-!
# The identity the host sees

The MAC address and the serial number on their way from the production record through the string
descriptors to the host.

`USBD_GetString` belongs to the USB device library; what is relied on is its documentation.

## Main definitions

* `GetsStrings` — what is relied on of `USBD_GetString`.
* `usbDeviceInit`, `ecmGetUsrStrDesc`, `ecmSerialStrDescriptor` — the firmware.
* `hostString`, `hostMac` — what the host makes of a descriptor.

## Main results

* `hostString_stringDesc` — the host reads a descriptor as the string it was made of.
* `identity_reaches_host` — **the host uses the address of the host filter**, and shows the serial
  number of the record.
-/

namespace Usb2T1L

/-! ### The firmware -/

/-- `USB_DESC_TYPE_STRING`. -/
def usbDescTypeString : Byte := 0x03

/-- `CDC_ECM_MAC_STRING_INDEX`. -/
def cdcEcmMacStringIndex : Byte := 0x06

/-- The string descriptor of a string. -/
def stringDesc (s : List Byte) : List Byte :=
  BitVec.ofNat 8 (2 * s.length + 2) :: usbDescTypeString :: s.flatMap fun c => [c, 0]

/-- What is relied on of `USBD_GetString`: from a string that ends with a NUL in its array it makes
a descriptor, if the length of that fits its first byte. -/
def GetsStrings (usbdGetString : List Byte → List Byte) : Prop :=
  ∀ a : List Byte, 0 ∈ a → 2 * (a.takeWhile (· ≠ 0)).length + 2 < 2 ^ 8 →
    usbdGetString a = stringDesc (a.takeWhile (· ≠ 0))

/-- `hex` of `ECM_GetUsrStrDesc`. -/
def hex : List Byte := Tool.ascii "0123456789ABCDEF".toList

/-- The two digits of an octet. -/
def hexPair (x : Byte) : List Byte :=
  [hex.getD ((x >>> 4) &&& 0x0F).toNat 0, hex.getD (x &&& 0x0F).toNat 0]

/-- `ECM_GetUsrStrDesc`, with `s_mac`. -/
def ecmGetUsrStrDesc (usbdGetString : List Byte → List Byte) (sMac : Mac) (index : Byte) :
    Option (List Byte) :=
  if index = cdcEcmMacStringIndex then
    some (usbdGetString ((List.ofFn sMac).flatMap hexPair ++ [0]))
  else none

/-- The unique ID of the chip. -/
structure ChipUid where
  d0 : Word
  d1 : Word
  d2 : Word

/-- `s_mac` after `usb_device_init`. -/
def usbDeviceInit (flash : Sector) (uid : ChipUid) : Mac := bspGetMacAddress flash uid.d0 uid.d1

/-- A digit of `int_to_unicode`. -/
def nibbleAscii (nib : Byte) : Byte := if nib < 0xA then nib + 0x30 else nib + 0x41 - 0xA

/-- `int_to_unicode`. -/
def intToUnicode : Word → ℕ → List Byte
  | _, 0 => []
  | value, len + 1 =>
    nibbleAscii ((value >>> 28).setWidth 8) :: 0 :: intToUnicode (value <<< 4) len

/-- `USBD_StringSerial` at first. -/
def usbdStringSerial : List Byte := 26 :: usbDescTypeString :: List.replicate 24 0

/-- `get_serial_num`, on what is in `USBD_StringSerial`. -/
def getSerialNum (uid : ChipUid) (stringSerial : List Byte) : List Byte :=
  if uid.d0 + uid.d2 ≠ 0 then
    stringSerial.take 2 ++ intToUnicode (uid.d0 + uid.d2) 8 ++ intToUnicode uid.d1 4
  else stringSerial

/-- `ECM_SerialStrDescriptor`: the descriptor, and what is in `USBD_StringSerial` afterwards. -/
def ecmSerialStrDescriptor (usbdGetString : List Byte → List Byte) (flash : Sector) (uid : ChipUid)
    (stringSerial : List Byte) : List Byte × List Byte :=
  -- the length is that of the array, taken before it is filled
  let fallback := ((getSerialNum uid stringSerial).take (stringSerial.getD 0 0).toNat,
    getSerialNum uid stringSerial)
  match prodinfoGet flash with
  | some pi =>
    let serial := pi.member .serial
    if serial.getD 0 0 ≠ 0 ∧ serial.getD 0 0 ≠ 0xFF then
      (usbdGetString (serial ++ [0]), stringSerial)
    else fallback
  | none => fallback

/-- What is in `USBD_StringSerial` after so many requests. -/
def stringSerialAfter (usbdGetString : List Byte → List Byte) (flash : Sector) (uid : ChipUid) :
    ℕ → List Byte
  | 0 => usbdStringSerial
  | n + 1 =>
    (ecmSerialStrDescriptor usbdGetString flash uid
      (stringSerialAfter usbdGetString flash uid n)).2

/-! ### The host -/

/-- Two bytes a character, the lower one first. -/
def units : List Byte → List Char
  | lo :: hi :: rest => Char.ofNat (256 * hi.toNat + lo.toNat) :: units rest
  | _ => []

/-- The string of a string descriptor. -/
def hostString : List Byte → Option (List Char)
  | bLength :: bDescriptorType :: body =>
    if bLength.toNat = body.length + 2 ∧ bDescriptorType = usbDescTypeString then some (units body)
    else none
  | _ => none

/-- Octets of two hexadecimal digits each. -/
def hexOctets : List Char → Option (List Byte)
  | [] => some []
  | a :: b :: rest => do
    let x ← Tool.hexDigit a
    let y ← Tool.hexDigit b
    let octets ← hexOctets rest
    return BitVec.ofNat 8 (16 * x + y) :: octets
  | [_] => none

/-- The address that `iMACAddress` stands for: twelve hexadecimal digits. -/
def hostMac (desc : List Byte) : Option Mac :=
  (hostString desc).bind fun s =>
    if s.length = 12 then (hexOctets s).map octets else none

/-- A hexadecimal digit. -/
def upperDigit (n : ℕ) : Char := if n < 10 then Char.ofNat (n + 48) else Char.ofNat (n + 55)

/-- The first `n` of the eight hexadecimal digits of a word. -/
def hexText (v : Word) (n : ℕ) : List Char :=
  (List.range n).map fun i => upperDigit (v.toNat / 16 ^ (7 - i) % 16)

/-- The serial number of a board without one: twelve digits of its unique ID, or twelve NULs where
the first and the last word of it add up to zero. -/
def uidText (uid : ChipUid) : List Char :=
  if uid.d0 + uid.d2 ≠ 0 then hexText (uid.d0 + uid.d2) 8 ++ hexText uid.d1 4
  else List.replicate 12 '\x00'

/-! ### Strings -/

theorem units_flatMap (s : List Byte) :
    units (s.flatMap fun c => [c, 0]) = s.map fun c => Char.ofNat c.toNat := by
  induction s with
  | nil => rfl
  | cons c s ih =>
    rw [List.flatMap_cons, List.map_cons, ← ih]
    show Char.ofNat (256 * 0 + c.toNat) :: _ = _
    rw [Nat.mul_zero, Nat.zero_add]
    rfl

theorem length_flatMap_pair (s : List Byte) :
    (s.flatMap fun c => [c, 0]).length = 2 * s.length := by
  induction s with
  | nil => rfl
  | cons c s ih =>
    rw [List.flatMap_cons, List.length_append, ih, List.length_cons]
    simp only [List.length_cons, List.length_nil]
    omega

theorem length_stringDesc (s : List Byte) : (stringDesc s).length = 2 * s.length + 2 := by
  rw [stringDesc, List.length_cons, List.length_cons, length_flatMap_pair]

/-- **The host reads a descriptor as the string it was made of.** -/
theorem hostString_stringDesc {s : List Byte} (h : 2 * s.length + 2 < 2 ^ 8) :
    hostString (stringDesc s) = some (s.map fun c => Char.ofNat c.toNat) := by
  have hlen : (BitVec.ofNat 8 (2 * s.length + 2)).toNat =
      (s.flatMap fun c => [c, 0]).length + 2 := by
    rw [BitVec.toNat_ofNat, Nat.mod_eq_of_lt h, length_flatMap_pair]
  rw [stringDesc, hostString, if_pos ⟨hlen, rfl⟩, units_flatMap]

/-- A NUL behind the array does not change the string. -/
theorem takeWhile_append_nul (a : List Byte) :
    (a ++ [0]).takeWhile (· ≠ 0) = a.takeWhile (· ≠ 0) := by
  induction a with
  | nil => rfl
  | cons x a ih =>
    rw [List.cons_append, List.takeWhile_cons, List.takeWhile_cons, ih]

section GetString

variable {usbdGetString : List Byte → List Byte}

/-- The descriptor of a string in an array with a NUL behind it. -/
theorem GetsStrings.append_nul (hget : GetsStrings usbdGetString) {a : List Byte}
    (h : a.length ≤ 126) :
    usbdGetString (a ++ [0]) = stringDesc (a.takeWhile (· ≠ 0)) ∧
      2 * (a.takeWhile (· ≠ 0)).length + 2 < 2 ^ 8 := by
  have hle := (List.takeWhile_prefix (p := fun x : Byte => decide (x ≠ 0)) (l := a)).length_le
  have hlt : 2 * (a.takeWhile (· ≠ 0)).length + 2 < 2 ^ 8 := by omega
  have hdesc := hget (a ++ [0]) (by simp) (by rw [takeWhile_append_nul]; exact hlt)
  rw [takeWhile_append_nul] at hdesc
  exact ⟨hdesc, hlt⟩

/-! ### The address -/

theorem toNat_hexPair (x : Byte) : ((x >>> 4) &&& 0x0F).toNat = x.toNat / 16 ∧
    (x &&& 0x0F).toNat = x.toNat % 16 := by
  have hmask (y : ℕ) : y &&& 15 = y % 16 := Nat.and_two_pow_sub_one_eq_mod y 4
  have hlt : x.toNat / 16 < 16 := by omega
  rw [BitVec.toNat_and, BitVec.toNat_and, BitVec.toNat_ushiftRight, Nat.shiftRight_eq_div_pow]
  exact ⟨(hmask _).trans (Nat.mod_eq_of_lt hlt), hmask _⟩

/-- A digit of the table, and its value. -/
theorem hexDigit_hex : ∀ n : Fin 16, hex.getD n 0 ≠ 0 ∧
    Tool.hexDigit (Char.ofNat (hex.getD n 0).toNat) = some n.val := by decide

/-- The digits of an octet, and its value. -/
theorem hexPair_digits (x : Byte) : (∀ c ∈ hexPair x, c ≠ 0) ∧
    Tool.hexDigit (Char.ofNat (hex.getD ((x >>> 4) &&& 0x0F).toNat 0).toNat) =
      some (x.toNat / 16) ∧
    Tool.hexDigit (Char.ofNat (hex.getD (x &&& 0x0F).toNat 0).toNat) = some (x.toNat % 16) := by
  have hlt : x.toNat / 16 < 16 := by omega
  obtain ⟨hne, hhigh⟩ := hexDigit_hex ⟨_, hlt⟩
  obtain ⟨hne', hlow⟩ := hexDigit_hex ⟨x.toNat % 16, Nat.mod_lt _ (by decide)⟩
  rw [hexPair, (toNat_hexPair x).1, (toNat_hexPair x).2]
  refine ⟨fun c hc => ?_, hhigh, hlow⟩
  rcases List.mem_pair.mp hc with rfl | rfl
  · exact hne
  · exact hne'

theorem hexOctets_flatMap (l : List Byte) :
    hexOctets ((l.flatMap hexPair).map fun c => Char.ofNat c.toNat) = some l := by
  induction l with
  | nil => rfl
  | cons x l ih =>
    obtain ⟨-, hhigh, hlow⟩ := hexPair_digits x
    have hx : BitVec.ofNat 8 (16 * (x.toNat / 16) + x.toNat % 16) = x := by
      rw [Nat.div_add_mod, BitVec.ofNat_toNat, BitVec.setWidth_eq]
    rw [List.flatMap_cons, List.map_append]
    show (do
      let a ← Tool.hexDigit (Char.ofNat (hex.getD ((x >>> 4) &&& 0x0F).toNat 0).toNat)
      let b ← Tool.hexDigit (Char.ofNat (hex.getD (x &&& 0x0F).toNat 0).toNat)
      let octets ← hexOctets ((l.flatMap hexPair).map fun c => Char.ofNat c.toNat)
      return BitVec.ofNat 8 (16 * a + b) :: octets) = some (x :: l)
    rw [hhigh, hlow, ih]
    simp only [Option.bind_eq_bind, Option.bind_some, hx]
    rfl

theorem octets_member_mac (flash : Sector) : octets (flash.member .mac) = flash.mac := by
  funext i
  fin_cases i <;> rfl

theorem octets_ofFn (m : Mac) : octets (List.ofFn m) = m := by
  funext i
  rw [octets, List.getD_eq_getElem?_getD, List.getElem?_ofFn]
  simp

/-- **The host takes the address for its own that the string was made of.** -/
theorem hostMac_ecmGetUsrStrDesc (hget : GetsStrings usbdGetString) (sMac : Mac) :
    ∃ desc, ecmGetUsrStrDesc usbdGetString sMac cdcEcmMacStringIndex = some desc ∧
      desc.length = 26 ∧ hostMac desc = some sMac := by
  have hlen : ((List.ofFn sMac).flatMap hexPair).length = 12 := by
    rw [List.length_flatMap]
    simp [hexPair]
  have hnul : ((List.ofFn sMac).flatMap hexPair).takeWhile (· ≠ 0) =
      (List.ofFn sMac).flatMap hexPair := by
    refine List.takeWhile_eq_self_iff.mpr fun c hc => decide_eq_true ?_
    obtain ⟨x, -, hx⟩ := List.mem_flatMap.mp hc
    exact (hexPair_digits x).1 c hx
  obtain ⟨hdesc, hlt⟩ := hget.append_nul (hlen.le.trans (by decide))
  rw [hnul] at hdesc hlt
  refine ⟨_, if_pos rfl, ?_, ?_⟩
  · rw [hdesc, length_stringDesc, hlen]
  · rw [hdesc, hostMac, hostString_stringDesc hlt, Option.bind_some, List.length_map, hlen,
      if_pos rfl, hexOctets_flatMap, Option.map_some, octets_ofFn]

end GetString

/-! ### The unique ID -/

theorem upperDigit_nibbleAscii : ∀ n : Fin 16,
    Char.ofNat (256 * 0 + (nibbleAscii (BitVec.ofNat 8 n)).toNat) = upperDigit n := by decide

/-- Shifting a word by one digit. -/
theorem toNat_shiftLeft_four (v : Word) (i : ℕ) :
    (v <<< 4).toNat * 16 ^ i / 2 ^ 28 % 16 = v.toNat * 16 ^ (i + 1) / 2 ^ 28 % 16 := by
  obtain ⟨k, hk⟩ : ∃ k, v.toNat * 16 = 2 ^ 28 * (16 * k) + (v <<< 4).toNat := by
    refine ⟨v.toNat * 16 / 2 ^ 32, ?_⟩
    rw [BitVec.toNat_shiftLeft, Nat.shiftLeft_eq]
    omega
  have hsplit : v.toNat * 16 ^ (i + 1) =
      2 ^ 28 * (16 * (k * 16 ^ i)) + (v <<< 4).toNat * 16 ^ i := by
    rw [pow_succ, mul_comm (16 ^ i) 16, ← mul_assoc, hk]
    ring
  rw [hsplit, Nat.mul_add_div (by decide), Nat.mul_add_mod]

theorem units_intToUnicode (n : ℕ) : ∀ v : Word, units (intToUnicode v n) =
    (List.range n).map fun i => upperDigit (v.toNat * 16 ^ i / 2 ^ 28 % 16) := by
  induction n with
  | zero => intro v; rfl
  | succ n ih =>
    intro v
    have hhead : (v >>> 28).setWidth 8 = BitVec.ofNat 8 (v.toNat / 2 ^ 28) := by
      apply BitVec.eq_of_toNat_eq
      rw [BitVec.toNat_setWidth, BitVec.toNat_ushiftRight, BitVec.toNat_ofNat,
        Nat.shiftRight_eq_div_pow]
    have hlt : v.toNat / 2 ^ 28 < 16 := by omega
    rw [List.range_succ_eq_map, List.map_cons, List.map_map, intToUnicode]
    show Char.ofNat (256 * 0 + (nibbleAscii _).toNat) :: units (intToUnicode (v <<< 4) n) = _
    rw [hhead, upperDigit_nibbleAscii ⟨_, hlt⟩, ih, pow_zero, mul_one, Nat.mod_eq_of_lt hlt]
    refine congrArg _ (List.map_congr_left fun i _ => ?_)
    rw [toNat_shiftLeft_four]
    rfl

theorem units_intToUnicode_eq_hexText (v : Word) {n : ℕ} (hn : n ≤ 8) :
    units (intToUnicode v n) = hexText v n := by
  rw [units_intToUnicode, hexText]
  refine List.map_congr_left fun i hi => ?_
  have hi := List.mem_range.mp hi
  have hpow : 2 ^ 28 = 16 ^ (7 - i) * 16 ^ i := by
    rw [← pow_add, Nat.sub_add_cancel (by omega)]
    rfl
  rw [hpow, Nat.mul_div_mul_right _ _ (by positivity)]

theorem length_intToUnicode (n : ℕ) : ∀ v : Word, (intToUnicode v n).length = 2 * n := by
  induction n with
  | zero => intro v; rfl
  | succ n ih =>
    intro v
    rw [intToUnicode, List.length_cons, List.length_cons, ih]
    omega

theorem units_append (a b : List Byte) (h : a.length % 2 = 0) :
    units (a ++ b) = units a ++ units b := by
  induction a using units.induct with
  | case1 lo hi rest ih =>
    rw [List.length_cons, List.length_cons] at h
    rw [List.cons_append, List.cons_append, units, units, List.cons_append, ih (by omega)]
  | case2 a hne =>
    match a with
    | [] => rfl
    | [x] => simp at h
    | x :: y :: rest => exact absurd rfl (hne x y rest)

/-- The array for strings in `usbd_desc.c`: `USBD_MAX_STR_DESC_SIZ`. -/
def usbdMaxStrDescSiz : ℕ := 64

section Serial

variable (flash : Sector) (uid : ChipUid)

/-- **The host reads the digits of the unique ID.** -/
theorem hostString_getSerialNum :
    hostString (getSerialNum uid usbdStringSerial) = some (uidText uid) ∧
      (getSerialNum uid usbdStringSerial).length = 26 := by
  rw [getSerialNum, uidText]
  split
  · have hdigits : (intToUnicode (uid.d0 + uid.d2) 8 ++ intToUnicode uid.d1 4).length = 24 := by
      rw [List.length_append, length_intToUnicode, length_intToUnicode]
    have hdesc : usbdStringSerial.take 2 ++ intToUnicode (uid.d0 + uid.d2) 8 ++
        intToUnicode uid.d1 4 = 26 :: usbDescTypeString ::
          (intToUnicode (uid.d0 + uid.d2) 8 ++ intToUnicode uid.d1 4) := rfl
    rw [hdesc, hostString, if_pos ⟨by rw [hdigits]; rfl, rfl⟩, List.length_cons, List.length_cons,
      hdigits, units_append _ _ (by rw [length_intToUnicode]),
      units_intToUnicode_eq_hexText _ (by decide), units_intToUnicode_eq_hexText _ (by decide)]
    exact ⟨rfl, rfl⟩
  · exact ⟨by decide, by decide⟩

/-- Whatever has been requested before, the array is filled in the same way. -/
theorem stringSerialAfter_spec (usbdGetString : List Byte → List Byte) (n : ℕ) :
    getSerialNum uid (stringSerialAfter usbdGetString flash uid n) =
        getSerialNum uid usbdStringSerial ∧
      (stringSerialAfter usbdGetString flash uid n).getD 0 0 = 26 := by
  have hagain : getSerialNum uid (getSerialNum uid usbdStringSerial) =
      getSerialNum uid usbdStringSerial := by
    unfold getSerialNum
    split <;> rfl
  have hhead : (getSerialNum uid usbdStringSerial).getD 0 0 = 26 := by
    unfold getSerialNum
    split <;> rfl
  induction n with
  | zero => exact ⟨rfl, rfl⟩
  | succ n ih =>
    rw [stringSerialAfter, ecmSerialStrDescriptor]
    split
    · dsimp only
      split
      · exact ih
      · rw [ih.1]
        exact ⟨hagain, hhead⟩
    · rw [ih.1]
      exact ⟨hagain, hhead⟩

/-- **Which descriptor is returned**: that of the string in the record, or of the unique ID. -/
theorem ecmSerialStrDescriptor_cases {usbdGetString : List Byte → List Byte}
    (hget : GetsStrings usbdGetString) (n : ℕ) :
    let desc := (ecmSerialStrDescriptor usbdGetString flash uid
      (stringSerialAfter usbdGetString flash uid n)).1
    (∃ pi, prodinfoGet flash = some pi ∧ (pi.member .serial).getD 0 0 ≠ 0 ∧
      desc = stringDesc ((pi.member .serial).takeWhile (· ≠ 0)) ∧
        ((pi.member .serial).takeWhile (· ≠ 0)).length ≤ 24) ∨
    ((∀ pi, prodinfoGet flash = some pi → (pi.member .serial).getD 0 0 = 0 ∨
      (pi.member .serial).getD 0 0 = 0xFF) ∧ desc = getSerialNum uid usbdStringSerial) := by
  obtain ⟨hfill, hhead⟩ := stringSerialAfter_spec flash uid usbdGetString n
  have hfallback : (getSerialNum uid (stringSerialAfter usbdGetString flash uid n)).take
      ((stringSerialAfter usbdGetString flash uid n).getD 0 0).toNat =
        getSerialNum uid usbdStringSerial := by
    rw [hfill, hhead]
    exact List.take_of_length_le (hostString_getSerialNum uid).2.le
  intro desc
  cases hpi : prodinfoGet flash with
  | none =>
    refine Or.inr ⟨fun pi h => absurd h (by simp), ?_⟩
    rw [← hfallback]
    simp only [desc, ecmSerialStrDescriptor, hpi]
  | some pi =>
    have hlen : (pi.member .serial).length ≤ 24 := (pi.length_member .serial).le
    by_cases hfirst : (pi.member .serial).getD 0 0 ≠ 0 ∧ (pi.member .serial).getD 0 0 ≠ 0xFF
    · refine Or.inl ⟨pi, rfl, hfirst.1, ?_, (List.takeWhile_prefix _).length_le.trans hlen⟩
      rw [← (hget.append_nul (hlen.trans (by decide))).1]
      simp only [desc, ecmSerialStrDescriptor, hpi]
      rw [if_pos hfirst]
    · refine Or.inr ⟨fun pi' h => ?_, ?_⟩
      · obtain rfl := Option.some.inj h
        by_contra hne
        exact hfirst (not_or.mp hne)
      · rw [← hfallback]
        simp only [desc, ecmSerialStrDescriptor, hpi]
        rw [if_neg hfirst]

theorem takeWhile_eq_nil_iff {l : List Byte} : l.takeWhile (· ≠ 0) = [] ↔ l.getD 0 0 = 0 := by
  cases l with
  | nil => exact iff_of_true rfl rfl
  | cons x l =>
    rw [List.takeWhile_cons, List.getD_cons_zero]
    by_cases hx : x = 0
    · simp [hx]
    · rw [if_pos (decide_eq_true hx)]
      exact iff_of_false (List.cons_ne_nil _ _) hx

/-- What is in a field before the first NUL. -/
theorem takeWhile_padded {n : ℕ} {s : Tool.PyStr} (h : ∀ c ∈ s, c.toNat < 128) :
    (Tool.padded n s).takeWhile (· ≠ 0) = Tool.ascii (s.takeWhile (· ≠ '\x00')) := by
  rw [Tool.padded, List.rightpad]
  generalize n - (Tool.ascii s).length = k
  induction s with
  | nil => cases k <;> rfl
  | cons c s ih =>
    obtain ⟨hc, hs⟩ := List.forall_mem_cons.mp h
    rw [List.takeWhile_cons]
    by_cases hnul : c = '\x00'
    · rw [hnul]
      rfl
    · have hne := Tool.ofNat_toNat_ne_zero hc hnul
      rw [if_pos (decide_eq_true hnul)]
      show ((BitVec.ofNat 8 c.toNat) :: (Tool.ascii s ++ List.replicate k 0)).takeWhile _ = _
      rw [List.takeWhile_cons, if_pos (decide_eq_true hne), ih hs]
      rfl

theorem map_ascii {s : Tool.PyStr} (h : ∀ c ∈ s, c.toNat < 128) :
    (Tool.ascii s).map (fun x => Char.ofNat x.toNat) = s := by
  rw [Tool.ascii, List.map_map]
  have hid : ∀ c ∈ s, _ = id c := fun c hc => by
    have hlt := h c hc
    show Char.ofNat (BitVec.ofNat 8 c.toNat).toNat = c
    rw [BitVec.toNat_ofNat, Nat.mod_eq_of_lt (by omega), Char.ofNat_toNat]
  exact (List.map_congr_left hid).trans s.map_id

/-- The serial number of a record that the tool has built. -/
theorem hostString_built {usbdGetString : List Byte → List Byte} (hget : GetsStrings usbdGetString)
    {mac : List Byte} (hmac : mac.length = 6) {serial batch fwver hwrev date : Tool.PyStr}
    (hrec : Tool.buildRecord mac serial batch fwver hwrev date = .ok flash.bytes)
    (hvalid : prodinfoGet flash = some flash) (n : ℕ) :
    hostString (ecmSerialStrDescriptor usbdGetString flash uid
        (stringSerialAfter usbdGetString flash uid n)).1 =
      some (if serial.takeWhile (· ≠ '\x00') = [] then uidText uid
        else serial.takeWhile (· ≠ '\x00')) := by
  have hascii : ∀ c ∈ serial, c.toNat < 128 := (Tool.buildRecord_eq_ok_iff.mp hrec).1.1.1
  have hmember : flash.member .serial = Tool.padded 24 serial :=
    Tool.member_buildRecord hmac hrec (by simp)
  have hshown : (flash.member .serial).takeWhile (· ≠ 0) =
      Tool.ascii (serial.takeWhile (· ≠ '\x00')) := by
    rw [hmember]
    exact takeWhile_padded hascii
  rcases ecmSerialStrDescriptor_cases flash uid hget n with
    ⟨pi, hpi, hfirst, hdesc, hlen⟩ | ⟨hfirst, hdesc⟩
  · obtain rfl := Option.some.inj (hvalid.symm.trans hpi)
    rw [hshown] at hdesc hlen
    have hne : serial.takeWhile (· ≠ '\x00') ≠ [] := by
      intro hnil
      rw [hnil] at hshown
      exact hfirst (takeWhile_eq_nil_iff.mp hshown)
    rw [if_neg hne, hdesc, hostString_stringDesc (by omega),
      map_ascii fun c hc => hascii c ((List.takeWhile_prefix _).subset hc)]
  · have hzero : (flash.member .serial).getD 0 0 = 0 := by
      refine (hfirst flash hvalid).resolve_right fun hff => ?_
      -- the first byte is that of a character, or of the padding
      rw [hmember] at hff
      cases serial with
      | nil => exact absurd hff (by decide)
      | cons c serial =>
        have hc := hascii c List.mem_cons_self
        have hff : (BitVec.ofNat 8 c.toNat).toNat = 0xFF := congrArg BitVec.toNat hff
        rw [BitVec.toNat_ofNat] at hff
        omega
    have hnil : serial.takeWhile (· ≠ '\x00') = [] := by
      have h := hshown.symm.trans (takeWhile_eq_nil_iff.mpr hzero)
      exact List.map_eq_nil_iff.mp h
    rw [if_pos hnil, hdesc]
    exact (hostString_getSerialNum uid).1

end Serial

/-- **The identity reaches the host.** Whatever is in the flash, the host takes for its own the
address that the host filter is given, and what it is sent fits the arrays. It shows the serial
number of a record of the tool, up to the first NUL, or the digits of the unique ID if there is
none. -/
theorem identity_reaches_host {usbdGetString : List Byte → List Byte}
    (hget : GetsStrings usbdGetString) (flash : Sector) (uid : ChipUid) :
    (∃ desc, ecmGetUsrStrDesc usbdGetString (usbDeviceInit flash uid) cdcEcmMacStringIndex =
      some desc ∧ desc.length = 26 ∧ hostMac desc = some (bspGetMacAddress flash uid.d0 uid.d1)) ∧
    ∀ n, let desc := (ecmSerialStrDescriptor usbdGetString flash uid
        (stringSerialAfter usbdGetString flash uid n)).1
      desc.length ≤ usbdMaxStrDescSiz ∧
      (prodinfoGet flash = none → hostString desc = some (uidText uid)) ∧
      ∀ (u : Tool.Unicode) (s : Tool.PyStr) (mac : List Byte)
          (serial batch fwver hwrev date : Tool.PyStr), Tool.parseMac u s = .ok mac →
        Tool.buildRecord mac serial batch fwver hwrev date = .ok flash.bytes →
        bspGetMacAddress flash uid.d0 uid.d1 =
            (if octets mac = (fun _ => 0) then fallbackMac uid.d0 uid.d1 else octets mac) ∧
          hostString desc = some (if serial.takeWhile (· ≠ '\x00') = [] then uidText uid
            else serial.takeWhile (· ≠ '\x00')) := by
  refine ⟨hostMac_ecmGetUsrStrDesc hget _, fun n => ?_⟩
  intro desc
  refine ⟨?_, fun hnone => ?_, ?_⟩
  · rcases ecmSerialStrDescriptor_cases flash uid hget n with ⟨pi, -, -, hdesc, hlen⟩ | ⟨-, hdesc⟩
    · rw [show desc = _ from hdesc, length_stringDesc, usbdMaxStrDescSiz]
      omega
    · rw [show desc = _ from hdesc, (hostString_getSerialNum uid).2]
      decide
  · rcases ecmSerialStrDescriptor_cases flash uid hget n with ⟨pi, hpi, -⟩ | ⟨-, hdesc⟩
    · rw [hnone] at hpi
      exact absurd hpi (by simp)
    · rw [show desc = _ from hdesc]
      exact (hostString_getSerialNum uid).1
  · intro u s mac serial batch fwver hwrev date hmac hrec
    obtain ⟨hlen, -, hgroup⟩ := Tool.parseMac_eq_ok hmac
    have hvalid : prodinfoValid flash = true := prodinfoValid_of_build hlen hrec
    have hread : flash.mac = octets mac := by
      rw [← octets_member_mac, Tool.member_buildRecord hlen hrec (by simp)]
      rfl
    refine ⟨?_, hostString_built flash uid hget hlen hrec (if_pos hvalid) n⟩
    rw [bspGetMacAddress_of_valid hvalid (by rw [hread]; exact hgroup), hread]

theorem identity_reaches_host_sn0001 : ∃ (usbdGetString : List Byte → List Byte) (flash : Sector),
    GetsStrings usbdGetString ∧
    Tool.buildRecord [0x02, 0x11, 0x22, 0x33, 0x44, 0x55] "SN0001".toList "B2026-08".toList [] [] []
      = .ok flash.bytes ∧
    ∀ uid : ChipUid, (∃ desc,
        ecmGetUsrStrDesc usbdGetString (usbDeviceInit flash uid) cdcEcmMacStringIndex = some desc ∧
          hostMac desc = some (octets [0x02, 0x11, 0x22, 0x33, 0x44, 0x55])) ∧
      hostString (ecmSerialStrDescriptor usbdGetString flash uid usbdStringSerial).1 =
        some "SN0001".toList := by
  obtain ⟨flash, hrec⟩ : ∃ flash : Sector,
      Tool.buildRecord [0x02, 0x11, 0x22, 0x33, 0x44, 0x55] "SN0001".toList "B2026-08".toList [] []
        [] = .ok flash.bytes := Tool.exists_buildRecord _ (by decide)
  have hget : GetsStrings fun a => stringDesc (a.takeWhile (· ≠ 0)) := fun _ _ _ => rfl
  refine ⟨_, flash, hget, hrec, fun uid => ?_⟩
  obtain ⟨⟨desc, hdesc, -, hmac⟩, hserial⟩ := identity_reaches_host hget flash uid
  obtain ⟨haddr, hshown⟩ := (hserial 0).2.2 .ascii "02:11:22:33:44:55".toList _ _ _ _ _ _
    (by decide) hrec
  rw [haddr, if_neg (by decide)] at hmac
  exact ⟨⟨desc, hdesc, hmac⟩, hshown⟩

end Usb2T1L
