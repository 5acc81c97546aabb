import Usb2T1L.Adin2111.Corruption
import Usb2T1L.Lib.Division

/-!
# The CRC of the SPI protocol

Every header and every register value on the bus carries its `adin_crc8`, in both directions.  It
is the remainder of the division by `x^8 + x^2 + x + 1`, and the rest follows from that.

## Main definitions

* `bytesPoly` — the polynomial of a byte string.

## Main results

* `divisor_crcPoly` — the polynomial of the code, with its leading term.
* `decodeHeader_iff`, `decodeData_iff` — **the device's checks, without the driver's function**.
* `adinCrc8_division` — **`adin_crc8` is polynomial division**.
-/

namespace Usb2T1L

open Polynomial

/-- The polynomial of a byte string, most significant bit first. -/
noncomputable def bytesPoly (data : List Byte) : (ZMod 2)[X] :=
  Crc.toPoly (data.flatMap Crc.highBits)

/-- **The polynomial of the code** is the documented one. -/
theorem divisor_crcPoly : Crc.divisor crcPoly = X ^ 8 + X ^ 2 + X + 1 := by
  have hbits : Crc.highBits crcPoly = [false, false, false, false, false, true, true, true] := by
    decide
  rw [Crc.divisor_eq, hbits]
  simp [Crc.coeffOf]
  ring

/-- A message with something behind it. -/
theorem adinCrc8_append (a b : List Byte) :
    adinCrc8 (a ++ b) = Crc.remainder crcPoly (adinCrc8 a) (b.flatMap Crc.highBits) := by
  rw [adinCrc8_eq, adinCrc8_eq, List.flatMap_append, Crc.remainder_append]

theorem bytesPoly_adinCrc8 (m : List Byte) :
    bytesPoly [adinCrc8 m] = bytesPoly m * X ^ 8 %ₘ (X ^ 8 + X ^ 2 + X + 1) := by
  have hzero : Crc.toPoly (Crc.highBits (0 : Byte)) = 0 := Crc.toPoly_highBits_zero
  have hdiv := Crc.toPoly_remainder crcPoly 0 (m.flatMap Crc.highBits)
  rw [hzero, zero_mul, zero_add, ← adinCrc8_eq, divisor_crcPoly] at hdiv
  rw [bytesPoly, bytesPoly, List.flatMap_singleton, hdiv]

/-- A byte is the CRC of a message if it is the remainder. -/
theorem eq_adinCrc8_iff {c : Byte} {m : List Byte} :
    c = adinCrc8 m ↔ bytesPoly [c] = bytesPoly m * X ^ 8 %ₘ (X ^ 8 + X ^ 2 + X + 1) := by
  rw [← bytesPoly_adinCrc8]
  refine ⟨fun h => congrArg (fun x => bytesPoly [x]) h, fun h => ?_⟩
  rw [bytesPoly, bytesPoly, List.flatMap_singleton, List.flatMap_singleton] at h
  exact Crc.toPoly_highBits_inj h

/-- **What the device takes for a header**: the control bit is set, and the third byte is the
remainder of the first two. -/
theorem decodeHeader_iff {b0 b1 c : Byte} {rest : List Byte} {r : Bool × ℕ × List Byte} :
    decodeHeader true (b0 :: b1 :: c :: rest) = some r ↔ b0.getLsbD 7 = true ∧
      bytesPoly [c] = bytesPoly [b0, b1] * X ^ 8 %ₘ (X ^ 8 + X ^ 2 + X + 1) ∧
        r = (b0.getLsbD 5, b0.toNat % 32 * 256 + b1.toNat, rest) := by
  rw [← eq_adinCrc8_iff, decodeHeader]
  cases b0.getLsbD 7 with
  | false => simp
  | true =>
    by_cases hc : c = adinCrc8 [b0, b1]
    · simp [hc, eq_comm]
    · simp [hc]

/-- **What it takes for data**: four bytes, and the remainder of them. -/
theorem decodeData_iff {d3 d2 d1 d0 c : Byte} {val : Word} :
    decodeData true [d3, d2, d1, d0, c] = some val ↔
      bytesPoly [c] = bytesPoly [d3, d2, d1, d0] * X ^ 8 %ₘ (X ^ 8 + X ^ 2 + X + 1) ∧
        val = d3 ++ d2 ++ d1 ++ d0 := by
  rw [← eq_adinCrc8_iff, decodeData]
  by_cases hc : c = adinCrc8 [d3, d2, d1, d0]
  · simp [hc, eq_comm]
  · simp [hc]

/-- **`adin_crc8` is polynomial division**: for messages of every length it is the remainder of
`m(x) * x^8` by `x^8 + x^2 + x + 1`.  So it is linear, what is in front of a message counts only by
its own CRC, and a message with its CRC behind it has the CRC zero. -/
theorem adinCrc8_division :
    (∀ m : List Byte, bytesPoly [adinCrc8 m] = bytesPoly m * X ^ 8 %ₘ (X ^ 8 + X ^ 2 + X + 1)) ∧
    (∀ a b : List Byte, a.length = b.length →
      adinCrc8 (List.zipWith (· ^^^ ·) a b) = adinCrc8 a ^^^ adinCrc8 b) ∧
    (∀ a a' b : List Byte, adinCrc8 a = adinCrc8 a' → adinCrc8 (a ++ b) = adinCrc8 (a' ++ b)) ∧
    ∀ m : List Byte, adinCrc8 (m ++ [adinCrc8 m]) = 0 := by
  refine ⟨fun m => ?_, fun a b h => ?_, fun a a' b h => ?_, fun m => ?_⟩
  · exact bytesPoly_adinCrc8 m
  · rw [adinCrc8_eq, adinCrc8_eq, adinCrc8_eq]
    exact Crc.remainder_zipWith crcPoly h 0 0
  · rw [adinCrc8_append, adinCrc8_append, h]
  · rw [adinCrc8_eq, List.flatMap_append, List.flatMap_singleton]
    exact (Crc.remainder_append_highBits rfl _ _).mpr (adinCrc8_eq m).symm

/-- Two headers, of different registers. -/
theorem adinCrc8_division_headers :
    adinCrc8 (List.zipWith (· ^^^ ·) [0x80, 0x01] [0xA0, 0x31]) =
      adinCrc8 [0x80, 0x01] ^^^ adinCrc8 [0xA0, 0x31] :=
  adinCrc8_division.2.1 _ _ rfl

end Usb2T1L
