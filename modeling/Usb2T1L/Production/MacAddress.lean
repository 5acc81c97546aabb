import Mathlib.Data.List.DropRight
import Usb2T1L.Production.Record

/-!
# The provisioned MAC address

From the string given to the production tool (`parse_mac` of `prodinfo.py`) over the record in
flash to the address the board uses (`bsp_get_mac_address`).  Each end has its own idea of which
addresses are acceptable.

`int(p, 16)` takes spaces around the number, a sign, a prefix `0x` and single underscores, and
decimal digits of any script; what it knows about characters beyond ASCII is a parameter.

## Main definitions

* `Tool.pyInt16`, `Tool.parseMac` — the parser.
* `bspGetMacAddress` — the address the board uses.

## Main results

* `provisioned_mac_used` — **the board uses the MAC of the string** exactly if one of its octets
  is not zero.
-/

namespace Usb2T1L

namespace Tool

/-- What the Unicode database says about a character beyond ASCII. -/
structure Unicode where
  isSpace : Char → Bool
  decimal : Char → Option (Fin 10)

/-- A database that knows no character beyond ASCII. -/
def Unicode.ascii : Unicode := ⟨fun _ => false, fun _ => none⟩

/-- A character as `int` takes it: spaces and decimal digits of any script are those of
ASCII. -/
def Unicode.toAscii (u : Unicode) (c : Char) : Char :=
  if c.toNat < 127 then c
  else if u.isSpace c then ' '
  else
    match u.decimal c with
    | some d => Nat.digitChar d
    | none => '?'

/-- The spaces of ASCII. -/
def isAsciiSpace (c : Char) : Bool := c = ' ' || (9 ≤ c.toNat && c.toNat ≤ 13)

/-- The value of a hexadecimal digit. -/
def hexDigit (c : Char) : Option ℕ :=
  if '0' ≤ c ∧ c ≤ '9' then some (c.toNat - 48)
  else if 'a' ≤ c ∧ c ≤ 'f' then some (c.toNat - 87)
  else if 'A' ≤ c ∧ c ≤ 'F' then some (c.toNat - 55)
  else none

/-- The digits of a literal, in groups separated by single underscores. -/
def hexLiteral (s : PyStr) : Option ℕ :=
  let groups := s.splitOn '_'
  if groups.any List.isEmpty then none
  else (groups.flatten.mapM hexDigit).map fun ds => ds.foldl (fun n d => 16 * n + d) 0

/-- Without the sign. -/
def splitSign : PyStr → Bool × PyStr
  | '-' :: s => (true, s)
  | '+' :: s => (false, s)
  | s => (false, s)

/-- Without the prefix `0x`, and one underscore after it. -/
def dropPrefix : PyStr → PyStr
  | '0' :: 'x' :: '_' :: s | '0' :: 'X' :: '_' :: s => s
  | '0' :: 'x' :: s | '0' :: 'X' :: s => s
  | s => s

/-- `int(s, 16)`. -/
def pyInt16 (u : Unicode) (s : PyStr) : Option ℤ :=
  let body := ((s.map u.toAscii).dropWhile isAsciiSpace).rdropWhile isAsciiSpace
  let signed := splitSign body
  (hexLiteral (dropPrefix signed.2)).map fun n => if signed.1 then -(n : ℤ) else n

/-- An octet: `int(p, 16)`, which `bytes` takes only in its range. -/
def octet (u : Unicode) (p : PyStr) : Except ValueError Byte :=
  match pyInt16 u p with
  | none => .error (.invalidLiteral p)
  | some n => if 0 ≤ n ∧ n < 256 then .ok (BitVec.ofInt 8 n) else .error .notByte

/-- The parts of a MAC string. -/
def macParts (s : PyStr) : List PyStr := (s.map fun c => if c = '-' then ':' else c).splitOn ':'

/-- `parse_mac`. -/
def parseMac (u : Unicode) (s : PyStr) : Except ValueError (List Byte) :=
  if (macParts s).length ≠ 6 then .error .notSixOctets
  else do
    let b ← (macParts s).mapM (octet u)
    if b.getD 0 0 &&& 0x01 ≠ 0 then .error .multicast else .ok b

end Tool

/-! ### The board, `bsp.c` -/

/-- `BOARD_MAC_0` and `BOARD_MAC_1`, and four bytes of the chip UID. -/
def fallbackMac (uid0 uid1 : Word) : Mac :=
  ![0x02, 0x11, uid0.setWidth 8, (uid0 >>> 8).setWidth 8, uid1.setWidth 8, (uid1 >>> 8).setWidth 8]

/-- `bsp_get_mac_address`, on a chip whose UID begins with the two words. -/
def bspGetMacAddress (flash : Sector) (uid0 uid1 : Word) : Mac :=
  match prodinfoGet flash with
  | some pi =>
    -- a real unicast address: not erased, not zero, and the multicast bit clear
    if pi.mac 0 &&& 0x01 = 0 ∧ pi.mac ≠ (fun _ => 0xFF) ∧ pi.mac ≠ (fun _ => 0) then pi.mac
    else fallbackMac uid0 uid1
  | none => fallbackMac uid0 uid1

/-! ### From the string to the board -/

namespace Tool

/-- An octet is the number its part stands for. -/
theorem octet_eq_ok {u : Unicode} {p : PyStr} {b : Byte} (h : octet u p = .ok b) :
    ∃ n : ℤ, pyInt16 u p = some n ∧ 0 ≤ n ∧ n < 256 ∧ b = BitVec.ofInt 8 n := by
  unfold octet at h
  cases hn : pyInt16 u p with
  | none => rw [hn] at h; exact absurd h (by simp)
  | some n =>
    simp only [hn] at h
    split at h
    · next hrange => exact ⟨n, rfl, hrange.1, hrange.2, (Except.ok.inj h).symm⟩
    · exact absurd h (by simp)

theorem octet_eq_zero_iff {u : Unicode} {p : PyStr} {b : Byte} (h : octet u p = .ok b) :
    b = 0 ↔ pyInt16 u p = some 0 := by
  obtain ⟨n, hn, h0, h256, rfl⟩ := octet_eq_ok h
  rw [hn, Option.some.injEq]
  constructor
  · intro hz
    have hz := congrArg BitVec.toNat hz
    rw [BitVec.toNat_ofInt] at hz
    have hz : (n % 256).toNat = 0 := hz
    omega
  · rintro rfl
    rfl

theorem forall₂_of_mapM {f : PyStr → Except ValueError Byte} :
    ∀ {l : List PyStr} {bs : List Byte}, l.mapM f = .ok bs →
      List.Forall₂ (fun p b => f p = .ok b) l bs := by
  intro l
  induction l with
  | nil =>
    intro bs h
    rw [List.mapM_nil] at h
    rw [← Except.ok.inj h]
    exact .nil
  | cons p l ih =>
    intro bs h
    rw [List.mapM_cons] at h
    obtain ⟨b, hb, h⟩ := bind_eq_ok.mp h
    obtain ⟨bs', hbs', h⟩ := bind_eq_ok.mp h
    rw [← Except.ok.inj h]
    exact .cons hb (ih hbs')

/-- **What `parse_mac` accepts**: six octets, with the multicast bit clear. -/
theorem parseMac_eq_ok {u : Unicode} {s : PyStr} {b : List Byte} (h : parseMac u s = .ok b) :
    b.length = 6 ∧ List.Forall₂ (fun p x => octet u p = .ok x) (macParts s) b ∧
      b.getD 0 0 &&& 0x01 = 0 := by
  unfold parseMac at h
  split at h
  · exact absurd h (by simp)
  · next hlen =>
    obtain ⟨b', hb', h⟩ := bind_eq_ok.mp h
    split at h
    · exact absurd h (by simp)
    · next hgroup =>
      obtain rfl := Except.ok.inj h
      have hall := forall₂_of_mapM hb'
      exact ⟨hall.length_eq.symm.trans (not_not.mp hlen), hall, not_not.mp hgroup⟩

/-- The address is zero exactly if every part of the string stands for zero. -/
theorem octets_eq_zero_iff {u : Unicode} {parts : List PyStr} {b : List Byte} (hlen : b.length = 6)
    (h : List.Forall₂ (fun p x => octet u p = .ok x) parts b) :
    octets b = (fun _ => 0) ↔ ∀ p ∈ parts, pyInt16 u p = some 0 := by
  have hall : octets b = (fun _ => 0) ↔ ∀ x ∈ b, x = 0 := by
    rw [funext_iff, List.forall_mem_iff_getElem]
    constructor
    · intro hz i hi
      have hz := hz ⟨i, by omega⟩
      rwa [octets, ← List.getElem_eq_getD (h := hi)] at hz
    · intro hz i
      have hi : (i : ℕ) < b.length := by omega
      rw [octets, ← List.getElem_eq_getD (h := hi)]
      exact hz i hi
  rw [hall]
  clear hall hlen
  induction h with
  | nil => simp
  | cons hp _ ih =>
    rw [List.forall_mem_cons, List.forall_mem_cons, octet_eq_zero_iff hp]
    exact and_congr_right fun _ => ih

end Tool

theorem fallbackMac_ne_zero (uid0 uid1 : Word) : fallbackMac uid0 uid1 ≠ fun _ => 0 := by
  intro h
  have h0 : (0x02 : Byte) = 0 := congrFun h 0
  exact absurd h0 (by decide)

/-- The board takes an address from the record that is neither zero nor a group address. -/
theorem bspGetMacAddress_of_valid {flash : Sector} (h : prodinfoValid flash = true)
    (hgroup : flash.mac 0 &&& 0x01 = 0) (uid0 uid1 : Word) :
    bspGetMacAddress flash uid0 uid1 =
      if flash.mac = (fun _ => 0) then fallbackMac uid0 uid1 else flash.mac := by
  have hget : prodinfoGet flash = some flash := if_pos h
  have herased : flash.mac ≠ fun _ => 0xFF := by
    intro hff
    rw [hff] at hgroup
    exact absurd hgroup (by decide)
  rw [bspGetMacAddress, hget]
  by_cases hzero : flash.mac = fun _ => 0
  · rw [if_pos hzero]
    exact if_neg fun hc => hc.2.2 hzero
  · rw [if_neg hzero]
    exact if_pos ⟨hgroup, herased, hzero⟩

/-- **The board uses the MAC address of the string**, whatever the chip UID, exactly if one of
its parts is not zero. -/
theorem provisioned_mac_used {u : Tool.Unicode} {s serial batch fwver hwrev date : Tool.PyStr}
    {mac rec : List Byte} (hmac : Tool.parseMac u s = .ok mac)
    (hrec : Tool.buildRecord mac serial batch fwver hwrev date = .ok rec) :
    rec.length = prodinfoSize ∧ ∀ flash : Sector, flash.bytes = rec →
      prodinfoGet flash = some flash ∧ ∀ uid0 uid1 : Word,
        (bspGetMacAddress flash uid0 uid1 = octets mac ↔
          ∃ p ∈ Tool.macParts s, Tool.pyInt16 u p ≠ some 0) := by
  obtain ⟨hlen, hoctets, hgroup⟩ := Tool.parseMac_eq_ok hmac
  obtain ⟨serial', batch', fwver', hwrev', date', rfl⟩ := Tool.buildRecord_eq_ok hrec
  obtain ⟨hvalid, hread⟩ := Tool.prodinfoValid_packPrefix hlen serial' batch' fwver' hwrev' date'
  refine ⟨(Sector.ofFields _ (Tool.length_flatten_packPrefix ..)).length_bytes, ?_⟩
  rintro ⟨bytes, hbytes⟩ rfl
  have hvalid : prodinfoValid ⟨_, hbytes⟩ = true := hvalid
  have hread : Sector.mac ⟨_, hbytes⟩ = octets mac := hread
  refine ⟨if_pos hvalid, fun uid0 uid1 => ?_⟩
  rw [bspGetMacAddress_of_valid hvalid (by rw [hread]; exact hgroup), hread]
  have hzero := Tool.octets_eq_zero_iff hlen hoctets
  split
  · next hz =>
    have hne : fallbackMac uid0 uid1 ≠ octets mac := by
      rw [hz]
      exact fallbackMac_ne_zero uid0 uid1
    refine ⟨fun hf => absurd hf hne, ?_⟩
    rintro ⟨p, hp, hne⟩
    exact absurd (hzero.mp hz p hp) hne
  · next hz =>
    refine ⟨fun _ => ?_, fun _ => rfl⟩
    by_contra hall
    push Not at hall
    exact hz (hzero.mpr hall)

theorem provisioned_mac_used_colons : ∃ rec, Tool.buildRecord [0x02, 0x11, 0x22, 0x33, 0x44, 0x55]
      "SN0001".toList "B2026-08".toList [] [] [] = .ok rec ∧
    rec.length = prodinfoSize ∧ ∀ flash : Sector, flash.bytes = rec →
      prodinfoGet flash = some flash ∧ ∀ uid0 uid1 : Word,
        (bspGetMacAddress flash uid0 uid1 = octets [0x02, 0x11, 0x22, 0x33, 0x44, 0x55] ↔
          ∃ p ∈ Tool.macParts "02:11:22:33:44:55".toList, Tool.pyInt16 .ascii p ≠ some 0) :=
  ⟨_, rfl, provisioned_mac_used (by decide)
    (show Tool.buildRecord [0x02, 0x11, 0x22, 0x33, 0x44, 0x55] "SN0001".toList "B2026-08".toList
      [] [] [] = _ from rfl)⟩

/-- The tool writes the zero address, and the board discards it. -/
theorem zero_mac_discarded :
    Tool.parseMac .ascii "00:00:00:00:00:00".toList = .ok (List.replicate 6 0) ∧
      ∃ flash : Sector, Tool.buildRecord (List.replicate 6 0) [] [] [] [] [] = .ok flash.bytes ∧
        prodinfoGet flash = some flash ∧
          ∀ uid0 uid1 : Word, bspGetMacAddress flash uid0 uid1 ≠ octets (List.replicate 6 0) := by
  obtain ⟨rec, hrec⟩ : ∃ rec, Tool.buildRecord (List.replicate 6 0) [] [] [] [] [] = .ok rec :=
    ⟨_, rfl⟩
  obtain ⟨serial, batch, fwver, hwrev, date, rfl⟩ := Tool.buildRecord_eq_ok hrec
  obtain ⟨hvalid, hread⟩ := Tool.prodinfoValid_packPrefix
    (List.length_replicate : (List.replicate 6 (0 : Byte)).length = 6) serial batch fwver hwrev date
  have hzero : octets (List.replicate 6 0) = fun _ => 0 := by decide
  refine ⟨by decide, _, hrec, if_pos hvalid, fun uid0 uid1 => ?_⟩
  rw [bspGetMacAddress_of_valid hvalid (by rw [hread]; decide), hread, if_pos hzero, hzero]
  exact fallbackMac_ne_zero uid0 uid1

end Usb2T1L
