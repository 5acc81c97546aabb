import Usb2T1L.Adin2111.Driver
import Usb2T1L.Lib.Crc
import Usb2T1L.Lib.Layout

/-!
# The production record

The 128 bytes in the last flash sector, as the firmware reads them (`prodinfo.c`, over the
packed struct of `prodinfo.h`) and as the production tool writes and reads them
(`tools/prodinfo.py`).  Each side has its own layout, its own checks and its own CRC.

`zlib.crc32` is CRC-32/IEEE: the remainder by `0x04C11DB7` from all ones, the bits of each byte
least significant first, reversed and complemented at the end.

## Main definitions

* `Sector`, `prodinfoCrc32`, `prodinfoValid` — the firmware.
* `Tool.buildRecord`, `Tool.decodeRecord`, `Tool.recordValid` — the tool.

## Main results

* `prodinfoCrc32_eq` — **the two CRCs agree**.
* `Tool.recordValid_decodeRecord`, `prodinfoValid_eq_true_iff` — what each side checks of the same
  bytes.
* `recordValid_agrees` — **the tool's verdict is the firmware's** exactly if the size field is
  right or something else is wrong.
-/

namespace Usb2T1L

/-! ### The firmware, `prodinfo.c` -/

/-- `PRODINFO_SIZE`. -/
abbrev prodinfoSize : ℕ := 128

/-- `PRODINFO_MAGIC`. -/
def prodinfoMagic : Word := 0x444F5250

/-- `PRODINFO_VERSION`. -/
def prodinfoVersion : Byte := 1

/-- One round of the inner loop of `prodinfo_crc32`. -/
def prodinfoCrc32Bit (crc : Word) : Word :=
  if crc &&& 1 ≠ 0 then (crc >>> 1) ^^^ 0xEDB88320 else crc >>> 1

/-- `prodinfo_crc32`. -/
def prodinfoCrc32 (data : List Byte) : Word :=
  data.foldl (fun crc d => prodinfoCrc32Bit^[8] (crc ^^^ d.setWidth 32)) 0xFFFFFFFF ^^^ 0xFFFFFFFF

/-- The production sector, as far as `prodinfo_t` covers it. -/
structure Sector where
  bytes : List Byte
  length_bytes : bytes.length = prodinfoSize

namespace Sector

/-- The byte at an offset. -/
def byte (s : Sector) (off : ℕ) : Byte := s.bytes.getD off 0

/-! The members of `prodinfo_t` that the firmware reads, at their packed offsets. -/

/-- `magic` of `prodinfo_t`. -/
def magic (s : Sector) : Word := Layout.word s.byte 0

/-- `version` of `prodinfo_t`. -/
def version (s : Sector) : Byte := s.byte 4

/-- `size` of `prodinfo_t`: that of the whole record. -/
def size (s : Sector) : BitVec 16 := Layout.half s.byte 6

/-- `mac` of `prodinfo_t`. -/
def mac (s : Sector) : Mac := fun i => s.byte (8 + i)

/-- `crc32` of `prodinfo_t`: over everything before it. -/
def crc32 (s : Sector) : Word := Layout.word s.byte 124

/-- The bytes the CRC is over. -/
def crcBytes (s : Sector) : List Byte := s.bytes.take (prodinfoSize - 4)

end Sector

/-- `prodinfo_valid`. -/
def prodinfoValid (s : Sector) : Bool :=
  if s.magic ≠ prodinfoMagic ∨ s.version ≠ prodinfoVersion ∨ s.size.toNat ≠ prodinfoSize then false
  else decide (prodinfoCrc32 s.crcBytes = s.crc32)

/-- `prodinfo_get`. -/
def prodinfoGet (s : Sector) : Option Sector := if prodinfoValid s then some s else none

/-! ### The tool, `prodinfo.py` -/

namespace Tool

/-- A Python `str`. -/
abbrev PyStr := List Char

/-- `MAGIC`. -/
def magic : ℕ := 0x444F5250

/-- `VERSION`. -/
def version : ℕ := 1

/-- `SIZE`. -/
abbrev size : ℕ := 128

/-- The field sizes of `_PREFIX_FMT`, `<IBBH6s2s24s16s16s8s12s32s`. -/
def prefixFmt : List ℕ := [4, 1, 1, 2, 6, 2, 24, 16, 16, 8, 12, 32]

/-- `zlib.crc32`: CRC-32/IEEE. -/
def zlibCrc32 (data : List Byte) : ℕ :=
  ((Crc.remainder 0x04C11DB7 0xFFFFFFFF (data.flatMap (Crc.lowBits 8))).reverse ^^^
    (0xFFFFFFFF : Word)).toNat

/-- The `ValueError`s of the tool, and of `int`, `bytes` and `str.encode`. -/
inductive ValueError
  | notSixOctets
  | multicast
  | longField (s : PyStr) (n : ℕ)
  | shortRecord (len : ℕ)
  | invalidLiteral (s : PyStr)
  | notByte
  | notAscii (s : PyStr)
  deriving DecidableEq

/-- The texts of those that the tool raises itself. -/
def ValueError.text : ValueError → Option String
  | .notSixOctets => some "MAC must be 6 octets, e.g. 02:11:22:33:44:55"
  | .multicast => some "first octet has the multicast bit set; not a unicast MAC"
  | .longField s n =>
    let shown := String.ofList s
    some s!"'{shown}' is longer than {n} bytes"
  | .shortRecord len => some s!"record is {len} bytes, expected {size}"
  | .invalidLiteral _ | .notByte | .notAscii _ => none

/-- `struct.pack` of a byte string: cut or padded with zeros to its size. -/
def packBytes (n : ℕ) (b : List Byte) : List Byte := b.take n ++ List.replicate (n - b.length) 0

/-- `s.encode("ascii")`. -/
def encodeAscii (s : PyStr) : Except ValueError (List Byte) :=
  if s.all fun c => decide (c.toNat < 128) then .ok (s.map fun c => BitVec.ofNat 8 c.toNat)
  else .error (.notAscii s)

/-- `_field`. -/
def field (s : PyStr) (n : ℕ) : Except ValueError (List Byte) := do
  let data ← encodeAscii s
  if n < data.length then .error (.longField s n) else .ok (data.rightpad n 0)

/-- The fields of the record up to the CRC, packed. -/
def packPrefix (mac serial batch fwver hwrev date : List Byte) : List (List Byte) :=
  [Layout.toLe 4 magic, Layout.toLe 1 version, Layout.toLe 1 0, Layout.toLe 2 size,
    packBytes 6 mac, packBytes 2 [0, 0], packBytes 24 serial, packBytes 16 batch,
    packBytes 16 fwver, packBytes 8 hwrev, packBytes 12 date, packBytes 32 (List.replicate 32 0)]

/-- The fields and their CRC. -/
def withCrc (fields : List Byte) : List Byte :=
  fields ++ Layout.toLe 4 (zlibCrc32 fields &&& 0xFFFFFFFF)

/-- `build_record`. -/
def buildRecord (mac : List Byte) (serial batch fwver hwrev date : PyStr) :
    Except ValueError (List Byte) := do
  let serial ← field serial 24
  let batch ← field batch 16
  let fwver ← field fwver 16
  let hwrev ← field hwrev 8
  let date ← field date 12
  return withCrc (packPrefix mac serial batch fwver hwrev date).flatten

/-- What `decode_record` returns. -/
structure RecordInfo where
  magicOk : Bool
  version : ℕ
  size : ℕ
  mac : PyStr
  serial : PyStr
  batch : PyStr
  fwVersion : PyStr
  hwRev : PyStr
  prodDate : PyStr
  crc : ℕ
  crcOk : Bool
  deriving DecidableEq

/-- The format `02x`. -/
def hexByte (x : Byte) : PyStr :=
  [Nat.digitChar (x.toNat / 16), Nat.digitChar (x.toNat % 16)]

/-- `txt`: what is before the first NUL, decoded as ASCII with replacement characters. -/
def txt (b : List Byte) : PyStr :=
  (b.takeWhile (· ≠ 0)).map fun x => Char.ofNat (if x.toNat < 128 then x.toNat else 0xFFFD)

/-- `decode_record`. -/
def decodeRecord (raw : List Byte) : Except ValueError RecordInfo :=
  if raw.length < size then .error (.shortRecord raw.length)
  else
    let raw := raw.take size
    let fields := Layout.split prefixFmt (raw.take (size - 4))
    let crc := Layout.ofLe (raw.drop (size - 4))
    .ok {
      magicOk := decide (Layout.ofLe (fields.getD 0 []) = magic)
      version := Layout.ofLe (fields.getD 1 [])
      size := Layout.ofLe (fields.getD 3 [])
      mac := [':'].intercalate ((fields.getD 4 []).map hexByte)
      serial := txt (fields.getD 6 [])
      batch := txt (fields.getD 7 [])
      fwVersion := txt (fields.getD 8 [])
      hwRev := txt (fields.getD 9 [])
      prodDate := txt (fields.getD 10 [])
      crc := crc
      crcOk := decide (crc = zlibCrc32 (raw.take (size - 4)) &&& 0xFFFFFFFF) }

/-- `record_valid`. -/
def recordValid (info : RecordInfo) : Bool :=
  info.magicOk && info.crcOk && decide (info.version = version)

end Tool

/-! ### The CRC -/

theorem prodinfoCrc32Bit_eq (crc : Word) :
    prodinfoCrc32Bit crc = Crc.shiftReflected 0xEDB88320 crc := by
  have hbit : crc &&& 1 ≠ 0 ↔ crc.getLsbD 0 = true := by
    rw [show (1 : Word) = 1#32 by rfl, BitVec.and_one_eq_setWidth_ofBool_getLsbD]
    cases crc.getLsbD 0 <;> decide
  rw [prodinfoCrc32Bit, Crc.shiftReflected]
  by_cases h : crc.getLsbD 0 = true
  · rw [if_pos (hbit.mpr h), if_pos h]
  · rw [if_neg (fun hc => h (hbit.mp hc)), if_neg h]

/-- **The firmware's CRC is `zlib.crc32`**, for byte strings of every length. -/
theorem prodinfoCrc32_eq (data : List Byte) : (prodinfoCrc32 data).toNat = Tool.zlibCrc32 data := by
  have hpoly : (0x04C11DB7 : Word).reverse = 0xEDB88320 := by decide +kernel
  have hstart : (0xFFFFFFFF : Word).reverse = 0xFFFFFFFF := by decide +kernel
  have hfold := Crc.foldl_shiftReflected (0x04C11DB7 : Word) (by decide : 8 ≤ 32) data 0xFFFFFFFF
  rw [hpoly, hstart] at hfold
  have hbit : prodinfoCrc32Bit = Crc.shiftReflected 0xEDB88320 := funext prodinfoCrc32Bit_eq
  rw [prodinfoCrc32, Tool.zlibCrc32, hbit, hfold]

theorem Tool.zlibCrc32_and (data : List Byte) :
    Tool.zlibCrc32 data &&& 0xFFFFFFFF = Tool.zlibCrc32 data := by
  rw [show 0xFFFFFFFF = 2 ^ 32 - 1 by rfl, Nat.and_two_pow_sub_one_eq_mod, Tool.zlibCrc32]
  exact Nat.mod_eq_of_lt (BitVec.isLt _)

/-! ### What is checked -/

namespace Sector

theorem length_crcBytes (s : Sector) : s.crcBytes.length = Tool.prefixFmt.sum := by
  rw [crcBytes, List.length_take, s.length_bytes]
  rfl

/-- **The tool's fields are where the firmware reads them.** -/
theorem field (s : Sector) {k n : ℕ} (h : Tool.prefixFmt[k]? = some n) :
    (Layout.split Tool.prefixFmt s.crcBytes).getD k [] =
      (List.range n).map fun i => s.byte (Layout.offset Tool.prefixFmt k + i) := by
  have hle := Layout.offset_add_le h
  rw [← s.length_crcBytes] at hle
  rw [List.getD_eq_getElem?_getD, Layout.getElem?_split, h, Option.map_some, Option.getD_some,
    Layout.take_drop_eq_map hle 0]
  refine List.map_congr_left fun i hi => ?_
  have hi := List.mem_range.mp hi
  have hlt : Layout.offset Tool.prefixFmt k + i < prodinfoSize - 4 := by
    have hlen : s.crcBytes.length = prodinfoSize - 4 := s.length_crcBytes
    omega
  rw [byte, List.getD_eq_getElem?_getD, List.getD_eq_getElem?_getD, crcBytes,
    List.getElem?_take_of_lt hlt]

theorem crcField (s : Sector) :
    s.bytes.drop 124 = [s.byte 124, s.byte 125, s.byte 126, s.byte 127] := by
  have hlen : s.bytes.length = 128 := s.length_bytes
  have hle : 124 + 4 ≤ s.bytes.length := by omega
  have htake : (s.bytes.drop 124).take 4 = s.bytes.drop 124 :=
    List.take_of_length_le (by rw [List.length_drop]; omega)
  rw [← htake, Layout.take_drop_eq_map hle 0]
  rfl

end Sector

/-- What the tool checks of a sector. -/
theorem Tool.recordValid_decodeRecord (s : Sector) : ∃ info, Tool.decodeRecord s.bytes = .ok info ∧
    (Tool.recordValid info = true ↔ s.magic = prodinfoMagic ∧ s.version = prodinfoVersion ∧
      prodinfoCrc32 s.crcBytes = s.crc32) := by
  have hlen : s.bytes.length = Tool.size := s.length_bytes
  have htake : s.bytes.take Tool.size = s.bytes := List.take_of_length_le hlen.le
  have hmagic : Layout.ofLe ((Layout.split Tool.prefixFmt s.crcBytes).getD 0 []) =
      s.magic.toNat := by
    rw [s.field (show Tool.prefixFmt[0]? = some 4 from rfl), Sector.magic, Layout.toNat_word]
    rfl
  have hversion : Layout.ofLe ((Layout.split Tool.prefixFmt s.crcBytes).getD 1 []) =
      s.version.toNat := by
    rw [s.field (show Tool.prefixFmt[1]? = some 1 from rfl)]
    exact Nat.add_zero _
  have hcrc : Layout.ofLe (s.bytes.drop (Tool.size - 4)) = s.crc32.toNat := by
    rw [show Tool.size - 4 = 124 from rfl, s.crcField, Sector.crc32, Layout.toNat_word]
  rw [Tool.decodeRecord, if_neg (by rw [hlen]; exact lt_irrefl _), htake]
  refine ⟨_, rfl, ?_⟩
  rw [Tool.recordValid, Bool.and_eq_true, Bool.and_eq_true, decide_eq_true_iff,
    decide_eq_true_iff, decide_eq_true_iff, Tool.zlibCrc32_and]
  show (Layout.ofLe ((Layout.split Tool.prefixFmt s.crcBytes).getD 0 []) = _ ∧
    Layout.ofLe (s.bytes.drop (Tool.size - 4)) = Tool.zlibCrc32 s.crcBytes) ∧
      Layout.ofLe ((Layout.split Tool.prefixFmt s.crcBytes).getD 1 []) = _ ↔ _
  rw [hmagic, hversion, hcrc, ← prodinfoCrc32_eq]
  constructor
  · rintro ⟨⟨hm, hc⟩, hv⟩
    exact ⟨BitVec.eq_of_toNat_eq hm, BitVec.eq_of_toNat_eq hv, BitVec.eq_of_toNat_eq hc.symm⟩
  · rintro ⟨hm, hv, hc⟩
    rw [hm, hv, hc]
    exact ⟨⟨rfl, rfl⟩, rfl⟩

/-- What the firmware checks of a sector. -/
theorem prodinfoValid_eq_true_iff (s : Sector) :
    prodinfoValid s = true ↔ (s.magic = prodinfoMagic ∧ s.version = prodinfoVersion ∧
      prodinfoCrc32 s.crcBytes = s.crc32) ∧ s.size.toNat = prodinfoSize := by
  unfold prodinfoValid
  split
  · next h => simp only [Bool.false_eq_true, false_iff]; tauto
  · next h =>
    rw [decide_eq_true_iff]
    tauto

/-- The size field is right, or one of the things that both sides check is wrong. -/
def Sector.SizeAgrees (s : Sector) : Prop :=
  s.size.toNat = prodinfoSize ∨ s.magic ≠ prodinfoMagic ∨ s.version ≠ prodinfoVersion ∨
    prodinfoCrc32 s.crcBytes ≠ s.crc32

/-- **The tool's verdict on a sector is the firmware's** exactly if the size field is right, or
the sector is invalid for the tool as well. -/
theorem recordValid_agrees (s : Sector) : ∃ info, Tool.decodeRecord s.bytes = .ok info ∧
    (Tool.recordValid info = prodinfoValid s ↔ s.SizeAgrees) := by
  obtain ⟨info, hinfo, hvalid⟩ := Tool.recordValid_decodeRecord s
  refine ⟨info, hinfo, ?_⟩
  rw [Bool.eq_iff_iff, hvalid, prodinfoValid_eq_true_iff, Sector.SizeAgrees]
  tauto

/-! ### Records with the right CRC -/

/-- The sector that holds some fields and their CRC, as the tool computes it. -/
def Sector.ofFields (fields : List Byte) (h : fields.length = 124) : Sector where
  bytes := Tool.withCrc fields
  length_bytes := by rw [Tool.withCrc, List.length_append, h, Layout.length_toLe]

section OfFields

variable (fields : List Byte) (h : fields.length = 124)

theorem Sector.crcBytes_ofFields : (Sector.ofFields fields h).crcBytes = fields := by
  show (fields ++ _).take (prodinfoSize - 4) = fields
  exact List.take_left' h

/-- **The CRC the tool writes is the one the firmware computes.** -/
theorem Sector.crc32_ofFields :
    prodinfoCrc32 (Sector.ofFields fields h).crcBytes = (Sector.ofFields fields h).crc32 := by
  have hlt : Tool.zlibCrc32 fields < 256 ^ 4 := BitVec.isLt _
  have hdrop : (Sector.ofFields fields h).bytes.drop 124 =
      Layout.toLe 4 (Tool.zlibCrc32 fields &&& 0xFFFFFFFF) := List.drop_left' h
  apply BitVec.eq_of_toNat_eq
  rw [Sector.crcBytes_ofFields, prodinfoCrc32_eq, Sector.crc32, Layout.toNat_word,
    ← Sector.crcField, hdrop, Tool.zlibCrc32_and, Layout.ofLe_toLe hlt]

end OfFields

/-! ### What the tool builds -/

/-- Of two steps that may raise, both have succeeded. -/
theorem Tool.bind_eq_ok {α β : Type} {x : Except ValueError α} {f : α → Except ValueError β}
    {b : β} : (x >>= f) = .ok b ↔ ∃ a, x = .ok a ∧ f a = .ok b := by
  cases x with
  | error e => simp [bind, Except.bind]
  | ok a => simp [bind, Except.bind]

theorem Tool.length_packBytes (n : ℕ) (b : List Byte) : (Tool.packBytes n b).length = n := by
  rw [Tool.packBytes, List.length_append, List.length_take, List.length_replicate]
  omega

theorem Tool.packBytes_of_length {n : ℕ} {b : List Byte} (h : b.length = n) :
    Tool.packBytes n b = b := by
  rw [Tool.packBytes, List.take_of_length_le h.le, h, Nat.sub_self, List.replicate_zero,
    List.append_nil]

/-- Six octets as an address. -/
def octets (b : List Byte) : Mac := fun i => b.getD i 0

/-- The packed fields have their sizes. -/
theorem Tool.map_length_packPrefix (mac serial batch fwver hwrev date : List Byte) :
    (Tool.packPrefix mac serial batch fwver hwrev date).map List.length = Tool.prefixFmt := by
  simp only [Tool.packPrefix, List.map_cons, List.map_nil, Layout.length_toLe,
    Tool.length_packBytes]
  rfl

theorem Tool.length_flatten_packPrefix (mac serial batch fwver hwrev date : List Byte) :
    (Tool.packPrefix mac serial batch fwver hwrev date).flatten.length = 124 := by
  rw [List.length_flatten, Tool.map_length_packPrefix]
  rfl

/-- **Each field, as the firmware finds it, is what was packed.** -/
theorem Sector.field_ofFields {fields : List (List Byte)}
    (hfields : fields.map List.length = Tool.prefixFmt) (h : fields.flatten.length = 124) {k n : ℕ}
    (hk : Tool.prefixFmt[k]? = some n) :
    fields.getD k [] = (List.range n).map fun i =>
      (Sector.ofFields fields.flatten h).byte (Layout.offset Tool.prefixFmt k + i) := by
  have hsplit := Layout.split_flatten hfields []
  rw [List.append_nil] at hsplit
  rw [← Sector.field _ hk, Sector.crcBytes_ofFields, hsplit]

/-- **What the firmware reads of packed fields**: valid, and with the MAC address. -/
theorem Tool.prodinfoValid_packPrefix {mac : List Byte} (hmac : mac.length = 6)
    (serial batch fwver hwrev date : List Byte) :
    let s := Sector.ofFields _ (Tool.length_flatten_packPrefix mac serial batch fwver hwrev date)
    prodinfoValid s = true ∧ s.mac = octets mac := by
  intro s
  have hfield : ∀ {k n : ℕ} (_ : Tool.prefixFmt[k]? = some n),
      (Tool.packPrefix mac serial batch fwver hwrev date).getD k [] =
        (List.range n).map fun i => s.byte (Layout.offset Tool.prefixFmt k + i) :=
    Sector.field_ofFields (Tool.map_length_packPrefix mac serial batch fwver hwrev date) _
  have hmagic : s.magic = prodinfoMagic := by
    apply BitVec.eq_of_toNat_eq
    rw [Sector.magic, Layout.toNat_word]
    exact (congrArg Layout.ofLe (hfield (show Tool.prefixFmt[0]? = some 4 from rfl))).symm
  have hversion : s.version = prodinfoVersion := by
    have h := hfield (show Tool.prefixFmt[1]? = some 1 from rfl)
    exact (List.cons.inj h).1.symm
  have hsize : s.size.toNat = prodinfoSize := by
    rw [Sector.size, Layout.toNat_half]
    exact (congrArg Layout.ofLe (hfield (show Tool.prefixFmt[3]? = some 2 from rfl))).symm
  refine ⟨(prodinfoValid_eq_true_iff s).mpr ⟨⟨hmagic, hversion, Sector.crc32_ofFields _ _⟩, hsize⟩,
    ?_⟩
  funext i
  have h : Tool.packBytes 6 mac = (List.range 6).map fun i => s.byte (8 + i) :=
    hfield (show Tool.prefixFmt[4]? = some 6 from rfl)
  rw [Tool.packBytes_of_length hmac] at h
  rw [octets, h, List.getD_eq_getElem?_getD, List.getElem?_map, List.getElem?_range i.isLt]
  rfl

/-- **What `build_record` returns.** -/
theorem Tool.buildRecord_eq_ok {mac rec : List Byte} {serial batch fwver hwrev date : Tool.PyStr}
    (h : Tool.buildRecord mac serial batch fwver hwrev date = .ok rec) :
    ∃ serial' batch' fwver' hwrev' date' : List Byte,
      rec = Tool.withCrc (Tool.packPrefix mac serial' batch' fwver' hwrev' date').flatten := by
  obtain ⟨serial', -, h⟩ := Tool.bind_eq_ok.mp h
  obtain ⟨batch', -, h⟩ := Tool.bind_eq_ok.mp h
  obtain ⟨fwver', -, h⟩ := Tool.bind_eq_ok.mp h
  obtain ⟨hwrev', -, h⟩ := Tool.bind_eq_ok.mp h
  obtain ⟨date', -, h⟩ := Tool.bind_eq_ok.mp h
  exact ⟨serial', batch', fwver', hwrev', date', (Except.ok.inj h).symm⟩

/-- The fields of a record that is right except for its size field, which is 0. -/
def sizelessFields : List Byte :=
  [0x50, 0x52, 0x4F, 0x44, 1, 0, 0, 0, 0x02, 0x11, 0x22, 0x33, 0x44, 0x55] ++ List.replicate 110 0

/-- A record without a size. -/
def sizeless : Sector := Sector.ofFields sizelessFields rfl

/-- The tool accepts a record without a size, and the firmware does not. -/
theorem recordValid_sizeless :
    (∃ info, Tool.decodeRecord sizeless.bytes = .ok info ∧
      Tool.recordValid info = true) ∧
      prodinfoValid sizeless = false := by
  obtain ⟨info, hinfo, hvalid⟩ := Tool.recordValid_decodeRecord sizeless
  constructor
  · exact ⟨info, hinfo, hvalid.mpr ⟨by decide, by decide, Sector.crc32_ofFields _ _⟩⟩
  · rw [Bool.eq_false_iff]
    intro hfirm
    have hsize := ((prodinfoValid_eq_true_iff _).mp hfirm).2
    exact absurd hsize (by decide)

end Usb2T1L
