import Usb2T1L.Lib.Detection
import Usb2T1L.Production.MacAddress

/-!
# Damaged records

The record in flash carries its CRC behind it, little-endian and for bits sent least significant
first.  So in that order its 1024 bits are one codeword, and a damage that two valid records differ
by has remainder zero.  A burst of up to 32 bits has not, and two bits have not, since `x` does not
come back to itself by the polynomial within 1024 steps.

## Main definitions

* `Sector.bit`, `flips` — the bits of a record, and those in which two records differ.

## Main results

* `remainder_flips` — two valid records differ by a codeword.
* `damaged_record_rejected` — **a damaged record is rejected**, and the board falls back.
-/

namespace Usb2T1L

/-- A bit of the record, numbered least significant first in each byte. -/
def Sector.bit (s : Sector) (i : ℕ) : Bool := (s.byte (i / 8)).getLsbD (i % 8)

/-- The bits in which two records differ. -/
def flips (s s' : Sector) : List ℕ :=
  (List.range (prodinfoSize * 8)).filter fun i => xor (s.bit i) (s'.bit i)

/-- The polynomial of CRC-32, without its leading term. -/
def crc32Poly : Word := 0x04C11DB7

theorem crc32Poly_order : Crc.noReturn crc32Poly 1023 crc32Poly = true := by
  decide +kernel

/-! ### The record as a codeword -/

/-- The firmware's CRC as a remainder. -/
theorem prodinfoCrc32_remainder (data : List Byte) : prodinfoCrc32 data =
    (Crc.remainder crc32Poly 0xFFFFFFFF (data.flatMap (Crc.lowBits 8))).reverse ^^^ 0xFFFFFFFF :=
  BitVec.eq_of_toNat_eq (prodinfoCrc32_eq data)

namespace Sector

variable (s s' : Sector)

theorem crcBytes_eq_map : s.crcBytes = (List.range (prodinfoSize - 4)).map s.byte := by
  have hlen : 0 + (prodinfoSize - 4) ≤ s.bytes.length := by
    rw [s.length_bytes]
    decide
  have htake := Layout.take_drop_eq_map hlen 0
  simp only [List.drop_zero, Nat.zero_add] at htake
  exact htake

/-- The bits that the CRC is over. -/
theorem flatMap_crcBytes :
    s.crcBytes.flatMap (Crc.lowBits 8) = (List.range ((prodinfoSize - 4) * 8)).map s.bit := by
  rw [crcBytes_eq_map]
  exact Crc.flatMap_lowBits s.byte _

/-- **The stored CRC is the last 32 bits**, in the order of the others. -/
theorem lowBits_crc32 :
    Crc.lowBits 32 s.crc32 = (List.range 32).map fun i => s.bit ((prodinfoSize - 4) * 8 + i) := by
  have hbytes : Crc.lowBits 32 s.crc32 =
      ((List.range 4).map fun k => s.byte (124 + k)).flatMap (Crc.lowBits 8) := by
    have happend : Crc.lowBits (8 + (8 + (8 + 8))) s.crc32 = _ := Crc.lowBits_append _ _
    rw [Crc.lowBits_append, Crc.lowBits_append] at happend
    exact happend
  rw [hbytes, Crc.flatMap_lowBits]
  refine List.map_congr_left fun i _ => ?_
  have hdiv : (124 * 8 + i) / 8 = 124 + i / 8 := by omega
  have hmod : (124 * 8 + i) % 8 = i % 8 := by omega
  rw [bit, show prodinfoSize - 4 = 124 from rfl, hdiv, hmod]

theorem bit_crc32 {i : ℕ} (hi : i < 32) :
    s.bit ((prodinfoSize - 4) * 8 + i) = s.crc32.getLsbD i :=
  (List.map_inj_left.mp s.lowBits_crc32 i (List.mem_range.mpr hi)).symm

end Sector

/-- **Two valid records differ by a codeword.** -/
theorem remainder_flips {s s' : Sector} (h : prodinfoValid s = true)
    (h' : prodinfoValid s' = true) :
    Crc.remainder crc32Poly 0
      ((List.range (prodinfoSize * 8)).map fun i => xor (s.bit i) (s'.bit i)) = 0 := by
  obtain ⟨⟨-, -, hcrc⟩, -⟩ := (prodinfoValid_eq_true_iff s).mp h
  obtain ⟨⟨-, -, hcrc'⟩, -⟩ := (prodinfoValid_eq_true_iff s').mp h'
  have hlinear := Crc.remainder_xor crc32Poly s.bit s'.bit
    (List.range ((prodinfoSize - 4) * 8)) 0xFFFFFFFF 0xFFFFFFFF
  rw [BitVec.xor_self, ← s.flatMap_crcBytes, ← s'.flatMap_crcBytes] at hlinear
  -- start value and complement cancel
  have hcancel : ∀ x y c : Word, (x ^^^ c) ^^^ (y ^^^ c) = x ^^^ y := by
    intro x y c
    rw [BitVec.xor_comm y c, BitVec.xor_assoc, ← BitVec.xor_assoc c, BitVec.xor_self,
      BitVec.zero_xor]
  have hsum : s.crc32 ^^^ s'.crc32 = (Crc.remainder crc32Poly 0#32
      ((List.range ((prodinfoSize - 4) * 8)).map fun i => xor (s.bit i) (s'.bit i))).reverse := by
    rw [hlinear, Crc.reverse_xor, ← hcrc, ← hcrc', prodinfoCrc32_remainder, prodinfoCrc32_remainder,
      hcancel]
  -- the bits of the stored CRCs come last, and are those of the remainder
  have htail : ∀ i ∈ List.range 32, xor (s.bit ((prodinfoSize - 4) * 8 + i))
      (s'.bit ((prodinfoSize - 4) * 8 + i)) = (s.crc32 ^^^ s'.crc32).getLsbD i := by
    intro i hi
    have hi := List.mem_range.mp hi
    rw [s.bit_crc32 hi, s'.bit_crc32 hi, BitVec.getLsbD_xor]
  have hbits : (List.range (prodinfoSize * 8)).map (fun i => xor (s.bit i) (s'.bit i)) =
      (List.range ((prodinfoSize - 4) * 8)).map (fun i => xor (s.bit i) (s'.bit i)) ++
        Crc.highBits (s.crc32 ^^^ s'.crc32).reverse := by
    rw [show prodinfoSize * 8 = (prodinfoSize - 4) * 8 + 32 by rfl, List.range_add, List.map_append,
      List.map_map, Crc.highBits_reverse]
    exact congrArg _ (List.map_congr_left htail)
  rw [hbits]
  refine (Crc.remainder_append_highBits rfl _ _).mpr ?_
  rw [hsum, BitVec.reverse_reverse_eq]

/-! ### Detection -/

/-- **Flash corruption is detected.**  In a record that the firmware accepts some bits are flipped,
all within 32 consecutive ones or exactly two anywhere, bits of the stored CRC included.  Then the
firmware rejects the record, and the board does not use its MAC. -/
theorem damaged_record_rejected {s s' : Sector} (hvalid : prodinfoValid s = true)
    (hne : flips s s' ≠ [])
    (h : (∃ k, ∀ i ∈ flips s s', k ≤ i ∧ i < k + 32) ∨ (flips s s').length = 2) :
    prodinfoValid s' = false ∧ prodinfoGet s' = none ∧
      ∀ uid0 uid1, bspGetMacAddress s' uid0 uid1 = fallbackMac uid0 uid1 := by
  have hinvalid : prodinfoValid s' = false := by
    rw [Bool.eq_false_iff]
    intro hvalid'
    have hzero := remainder_flips hvalid hvalid'
    have hmem : ∀ i, i ∈ flips s s' ↔ i < prodinfoSize * 8 ∧ xor (s.bit i) (s'.bit i) = true := by
      intro i
      rw [flips, List.mem_filter, List.mem_range]
    rcases h with ⟨k, hwin⟩ | htwo
    · obtain ⟨i, hi⟩ := List.exists_mem_of_ne_nil _ hne
      refine Crc.remainder_list_burst_ne_zero rfl (k := k) ?_ ?_ ?_ hzero
      · rw [List.length_map, List.length_range]
        decide
      · exact List.mem_map.mpr ⟨i, List.mem_range.mpr ((hmem i).mp hi).1, ((hmem i).mp hi).2⟩
      · intro j hj
        refine hwin j ((hmem j).mpr ?_)
        by_cases hlt : j < prodinfoSize * 8
        · simpa [hlt] using hj
        · simp [hlt] at hj
    · refine Crc.remainder_two_ne_zero rfl ?_ ?_ hzero
      · intro j hpos hj
        rw [List.length_map, List.length_range] at hj
        exact Crc.remainder_ne_of_noReturn crc32Poly_order j hpos (Nat.le_of_lt_succ hj)
      · rw [Crc.count_map_true]
        exact htwo
  have hget : prodinfoGet s' = none := by
    rw [prodinfoGet, hinvalid]
    rfl
  refine ⟨hinvalid, hget, fun uid0 uid1 => ?_⟩
  rw [bspGetMacAddress, hget]

/-- A record with some bits of one byte flipped. -/
def Sector.damage (s : Sector) (k : ℕ) (x : Byte) : Sector where
  bytes := s.bytes.modify k (· ^^^ x)
  length_bytes := (List.length_modify ..).trans s.length_bytes

/-- The bits that are flipped then. -/
theorem mem_flips_damage (s : Sector) {k : ℕ} (hk : k < prodinfoSize) (x : Byte) (i : ℕ) :
    i ∈ flips s (s.damage k x) ↔ i / 8 = k ∧ x.getLsbD (i % 8) = true := by
  have hbyte : (s.damage k x).byte (i / 8) =
      if k = i / 8 then s.byte (i / 8) ^^^ x else s.byte (i / 8) := by
    rw [Sector.byte, Sector.byte, List.getD_eq_getElem?_getD, List.getD_eq_getElem?_getD]
    show ((s.bytes.modify k (· ^^^ x))[i / 8]?).getD 0 = _
    split
    · next heq =>
      have hlt : k < s.bytes.length := hk.trans_eq s.length_bytes.symm
      rw [← heq, List.getElem?_modify_eq, List.getElem?_eq_getElem hlt]
      rfl
    · next hne => rw [List.getElem?_modify_ne _ _ hne]
  rw [flips, List.mem_filter, List.mem_range, Sector.bit, Sector.bit, hbyte]
  split
  · next heq =>
    have hlt : i < prodinfoSize * 8 := by omega
    simp [hlt, heq]
  · next hne => simp [Ne.symm hne]

/-- A record with nothing but a MAC address. -/
def stamped : Sector := Sector.ofFields
  ([0x50, 0x52, 0x4F, 0x44, 1, 0, 128, 0, 0x02, 0x11, 0x22, 0x33, 0x44, 0x55] ++
    List.replicate 110 0) rfl

/-- Of its MAC address three bits are flipped. -/
theorem damaged_record_rejected_stamped : prodinfoValid (stamped.damage 9 0x86) = false := by
  have hmem := mem_flips_damage stamped (show 9 < prodinfoSize by decide) 0x86
  have hvalid : prodinfoValid stamped = true := (prodinfoValid_eq_true_iff stamped).mpr
    ⟨⟨by decide, by decide, Sector.crc32_ofFields _ _⟩, by decide⟩
  refine (damaged_record_rejected hvalid ?_ (.inl ⟨72, fun i hi => ?_⟩)).1
  · exact List.ne_nil_of_mem ((hmem 73).mpr (by decide))
  · have hi := ((hmem i).mp hi).1
    omega

end Usb2T1L
