import Usb2T1L.Production.MacAddress
import Usb2T1L.Production.Struct

/-!
# Decoding what was built

The tool reads its own records back: a string comes out of its field without the padding, and
the MAC address as the string of which `parse_mac` makes the same six octets again.

## Main definitions

* `Tool.macText` — a MAC address as `decode_record` shows it.

## Main results

* `Tool.decodeRecord_eq` — `decode_record` in terms of the members of the record.
* `Tool.txt_padded`, `Tool.parseMac_macText` — a string and an address, there and back.
* `decode_undoes_build` — **decoding undoes building**, and building raises on exactly the
  strings that do not fit.
-/

namespace Usb2T1L

namespace Tool

/-! ### Strings -/

/-- An ASCII character, there and back. -/
theorem ofNat_toNat_ascii {c : Char} (h : c.toNat < 128) :
    Char.ofNat (if (BitVec.ofNat 8 c.toNat : Byte).toNat < 128 then
      (BitVec.ofNat 8 c.toNat : Byte).toNat else 0xFFFD) = c := by
  have hlt : c.toNat < 2 ^ 8 := by omega
  rw [BitVec.toNat_ofNat, Nat.mod_eq_of_lt hlt, if_pos h]
  exact Char.ofNat_toNat c

/-- Only NUL is encoded as a zero byte. -/
theorem ofNat_toNat_ne_zero {c : Char} (h : c.toNat < 128) (hc : c ≠ '\x00') :
    (BitVec.ofNat 8 c.toNat : Byte) ≠ 0 := by
  intro hz
  have hz := congrArg BitVec.toNat hz
  rw [BitVec.toNat_ofNat, Nat.mod_eq_of_lt (by omega : c.toNat < 2 ^ 8)] at hz
  exact hc (Char.ext (UInt32.toNat_inj.mp hz))

/-- **A string comes out of its field as it went in**, also if it fills the field. -/
theorem txt_padded {n : ℕ} {s : PyStr} (hascii : ∀ c ∈ s, c.toNat < 128) (hnul : '\x00' ∉ s) :
    txt (padded n s) = s := by
  have hbytes : ∀ x ∈ ascii s, decide (x ≠ 0) = true := by
    intro x hx
    obtain ⟨c, hc, rfl⟩ := List.mem_map.mp hx
    exact decide_eq_true (ofNat_toNat_ne_zero (hascii c hc) fun h => hnul (h ▸ hc))
  have hpad : ∀ k, (List.replicate k (0 : Byte)).takeWhile (· ≠ 0) = [] := by
    intro k
    cases k with
    | zero => rfl
    | succ k => rfl
  rw [txt, padded, List.rightpad, List.takeWhile_append_of_pos hbytes, hpad, List.append_nil,
    ascii, List.map_map]
  have hid : ∀ c ∈ s, _ = id c := fun c hc => ofNat_toNat_ascii (hascii c hc)
  exact (List.map_congr_left hid).trans s.map_id

/-! ### The MAC address -/

/-- The MAC address as `decode_record` shows it. -/
def macText (mac : List Byte) : PyStr := [':'].intercalate (mac.map hexByte)

/-- The digits of an octet: hexadecimal, and the same to every Unicode database. -/
theorem hexByte_digits (x : Byte) :
    (∀ c ∈ hexByte x, c ≠ ':' ∧ c ≠ '-' ∧ c.toNat < 127) ∧
      pyInt16 .ascii (hexByte x) = some (x.toNat : ℤ) := by
  have hall : ∀ n : Fin 256, ((hexByte (BitVec.ofFin n)).all fun c =>
      decide (c ≠ ':' ∧ c ≠ '-' ∧ c.toNat < 127)) = true ∧
        pyInt16 .ascii (hexByte (BitVec.ofFin n)) = some ((n : ℕ) : ℤ) := by decide +kernel
  obtain ⟨hdigits, hint⟩ := hall x.toFin
  exact ⟨fun c hc => of_decide_eq_true (List.all_eq_true.mp hdigits c hc), hint⟩

/-- **`int` of the two digits is the octet.** -/
theorem pyInt16_hexByte (u : Unicode) (x : Byte) : pyInt16 u (hexByte x) = some (x.toNat : ℤ) := by
  obtain ⟨hdigits, hint⟩ := hexByte_digits x
  have hmap : ∀ v : Unicode, (hexByte x).map v.toAscii = hexByte x := by
    intro v
    have hid : ∀ c ∈ hexByte x, v.toAscii c = id c := fun c hc => if_pos (hdigits c hc).2.2
    exact (List.map_congr_left hid).trans (List.map_id _)
  rw [pyInt16, hmap] at hint ⊢
  exact hint

theorem octet_hexByte (u : Unicode) (x : Byte) : octet u (hexByte x) = .ok x := by
  have hrange : (0 : ℤ) ≤ x.toNat ∧ (x.toNat : ℤ) < 256 := by have := x.isLt; omega
  rw [octet, pyInt16_hexByte]
  show (if (0 : ℤ) ≤ x.toNat ∧ (x.toNat : ℤ) < 256 then _ else _) = _
  rw [if_pos hrange, BitVec.ofInt_natCast, BitVec.ofNat_toNat, BitVec.setWidth_eq]

theorem mapM_octet_hexByte (u : Unicode) : ∀ mac : List Byte,
    (mac.map hexByte).mapM (octet u) = .ok mac := by
  intro mac
  induction mac with
  | nil => rfl
  | cons x mac ih =>
    rw [List.map_cons, List.mapM_cons, octet_hexByte, ih]
    rfl

theorem ne_dash_of_mem_macText : ∀ mac : List Byte, ∀ c ∈ macText mac, c ≠ '-' := by
  intro mac
  induction mac with
  | nil => intro c hc; exact absurd hc (by simp [macText])
  | cons x mac ih =>
    have hx : ∀ c ∈ hexByte x, c ≠ '-' := fun c hc => ((hexByte_digits x).1 c hc).2.1
    cases mac with
    | nil =>
      rw [macText, List.map_singleton, List.intercalate_singleton]
      exact hx
    | cons y mac =>
      have hcons : macText (x :: y :: mac) = hexByte x ++ [':'] ++ macText (y :: mac) :=
        List.intercalate_cons_cons
      intro c hc
      rw [hcons, List.mem_append, List.mem_append] at hc
      rcases hc with (hc | hc) | hc
      · exact hx c hc
      · rw [List.mem_singleton.mp hc]
        decide
      · exact ih c hc

/-- **The parts of the shown address are its octets.** -/
theorem macParts_macText {mac : List Byte} (h : mac ≠ []) :
    macParts (macText mac) = mac.map hexByte := by
  have hid : ∀ c ∈ macText mac, (if c = '-' then ':' else c) = id c :=
    fun c hc => if_neg (ne_dash_of_mem_macText mac c hc)
  rw [macParts, List.map_congr_left hid, List.map_id, macText, List.splitOn_intercalate]
  · intro p hp hc
    obtain ⟨x, -, rfl⟩ := List.mem_map.mp hp
    exact ((hexByte_digits x).1 ':' hc).1 rfl
  · exact fun hnil => h (List.map_eq_nil_iff.mp hnil)

theorem macText_ne_nil {mac : List Byte} (hlen : mac.length = 6) : macText mac ≠ [] := by
  intro hnil
  have hne : mac ≠ [] := by
    rintro rfl
    exact absurd hlen (by decide)
  have hparts := macParts_macText hne
  rw [hnil] at hparts
  have hone := congrArg List.length hparts
  rw [List.length_map, hlen] at hone
  exact absurd hone (by decide)

/-- **`parse_mac` reads the address that `decode_record` shows**, if it is a unicast one. -/
theorem parseMac_macText (u : Unicode) {mac : List Byte} (hlen : mac.length = 6) :
    parseMac u (macText mac) =
      if mac.getD 0 0 &&& 0x01 ≠ 0 then .error .multicast else .ok mac := by
  have hne : mac ≠ [] := by
    rintro rfl
    exact absurd hlen (by decide)
  have hsix : ¬ (mac.map hexByte).length ≠ 6 := by rw [List.length_map]; exact not_not.mpr hlen
  rw [parseMac, macParts_macText hne, if_neg hsix, mapM_octet_hexByte]
  rfl

/-! ### The record -/

/-- What `decode_record` reports of a sector. -/
def infoOf (s : Sector) : RecordInfo where
  magicOk := decide (s.magic = prodinfoMagic)
  version := s.version.toNat
  size := s.size.toNat
  mac := macText (s.member .mac)
  serial := txt (s.member .serial)
  batch := txt (s.member .batch)
  fwVersion := txt (s.member .fwVersion)
  hwRev := txt (s.member .hwRev)
  prodDate := txt (s.member .prodDate)
  crc := s.crc32.toNat
  crcOk := decide (prodinfoCrc32 s.crcBytes = s.crc32)

/-- **`decode_record` reads the members of the struct.** -/
theorem decodeRecord_eq (s : Sector) : decodeRecord s.bytes = .ok (infoOf s) := by
  have hlen : s.bytes.length = size := s.length_bytes
  have htake : s.bytes.take size = s.bytes := List.take_of_length_le hlen.le
  have hmember : ∀ m, m ≠ Member.crc32 →
      (Layout.split prefixFmt s.crcBytes).getD (prefixFields.idxOf m) [] = s.member m :=
    fun m hm => split_crcBytes s hm
  have hcrc : Layout.ofLe (s.bytes.drop (size - 4)) = s.crc32.toNat := by
    rw [show size - 4 = 124 from rfl, s.crcField, Sector.crc32, Layout.toNat_word]
  have hcalc : zlibCrc32 s.crcBytes &&& 0xFFFFFFFF = (prodinfoCrc32 s.crcBytes).toNat := by
    rw [zlibCrc32_and, prodinfoCrc32_eq]
  rw [decodeRecord, if_neg (by rw [hlen]; exact lt_irrefl _), htake]
  refine congrArg Except.ok ?_
  simp only [infoOf, RecordInfo.mk.injEq]
  refine ⟨?_, ?_, ?_, ?_, ?_, ?_, ?_, ?_, ?_, hcrc, ?_⟩
  · refine decide_eq_decide.mpr ?_
    rw [← BitVec.toNat_inj, ← s.ofLe_magic, ← hmember _ (by decide)]
    rfl
  · rw [← s.ofLe_version, ← hmember _ (by decide)]
    rfl
  · rw [← s.ofLe_size, ← hmember _ (by decide)]
    rfl
  · rw [macText, ← hmember _ (by decide)]
    rfl
  · exact congrArg txt (hmember .serial (by decide))
  · exact congrArg txt (hmember .batch (by decide))
  · exact congrArg txt (hmember .fwVersion (by decide))
  · exact congrArg txt (hmember .hwRev (by decide))
  · exact congrArg txt (hmember .prodDate (by decide))
  · refine decide_eq_decide.mpr ?_
    rw [hcrc]
    show s.crc32.toNat = zlibCrc32 s.crcBytes &&& 0xFFFFFFFF ↔ _
    rw [hcalc, BitVec.toNat_inj]
    exact eq_comm

theorem recordValid_infoOf (s : Sector) : recordValid (infoOf s) = true ↔
    s.magic = prodinfoMagic ∧ s.version = prodinfoVersion ∧ prodinfoCrc32 s.crcBytes = s.crc32 := by
  obtain ⟨info, hinfo, hvalid⟩ := recordValid_decodeRecord s
  obtain rfl := Except.ok.inj (hinfo.symm.trans (decodeRecord_eq s))
  exact hvalid

/-- The five strings of a record, with the sizes of their fields. -/
def strings (serial batch fwver hwrev date : PyStr) : List (PyStr × ℕ) :=
  [(serial, 24), (batch, 16), (fwver, 16), (hwrev, 8), (date, 12)]

theorem allFit_iff {serial batch fwver hwrev date : PyStr} :
    AllFit serial batch fwver hwrev date ↔
      ∀ f ∈ strings serial batch fwver hwrev date, Fits f.2 f.1 := by
  simp only [AllFit, strings, List.forall_mem_cons, List.not_mem_nil, false_implies, implies_true,
    and_true]

/-- **Building raises on exactly the strings that do not fit.** -/
theorem buildRecord_eq_error_iff {mac : List Byte} {serial batch fwver hwrev date : PyStr} :
    (∃ e, buildRecord mac serial batch fwver hwrev date = .error e) ↔
      ∃ f ∈ strings serial batch fwver hwrev date,
        (∃ c ∈ f.1, 128 ≤ c.toNat) ∨ f.2 < f.1.length := by
  have hfit : (∃ f ∈ strings serial batch fwver hwrev date,
      (∃ c ∈ f.1, 128 ≤ c.toNat) ∨ f.2 < f.1.length) ↔
      ¬ AllFit serial batch fwver hwrev date := by
    rw [allFit_iff]
    push Not
    refine exists_congr fun f => and_congr_right fun _ => ?_
    rw [Fits, not_and_or]
    push Not
    rfl
  rw [hfit]
  cases h : buildRecord mac serial batch fwver hwrev date with
  | ok rec =>
    have hall := (buildRecord_eq_ok_iff.mp h).1
    exact ⟨fun ⟨e, he⟩ => absurd he (by simp), fun hn => absurd hall hn⟩
  | error e =>
    refine ⟨fun _ hall => ?_, fun _ => ⟨e, rfl⟩⟩
    rw [buildRecord_of_allFit mac hall] at h
    exact absurd h (by simp)

end Tool

section Built

variable {mac : List Byte} {serial batch fwver hwrev date : Tool.PyStr} {s : Sector}

/-- A record that the tool has built is valid on both sides. -/
theorem prodinfoValid_of_build (hmac : mac.length = 6)
    (h : Tool.buildRecord mac serial batch fwver hwrev date = .ok s.bytes) :
    prodinfoValid s = true := by
  obtain ⟨_, hbytes⟩ := Tool.buildRecord_eq_ok_iff.mp h
  obtain ⟨hvalid, -⟩ := Tool.prodinfoValid_packPrefix hmac (Tool.padded 24 serial)
    (Tool.padded 16 batch) (Tool.padded 16 fwver) (Tool.padded 8 hwrev) (Tool.padded 12 date)
  cases s
  subst hbytes
  exact hvalid

/-- **What the tool reads of a record that it has built.** -/
theorem infoOf_of_build (hmac : mac.length = 6)
    (hstrings : ∀ f ∈ Tool.strings serial batch fwver hwrev date,
      (∀ c ∈ f.1, c.toNat < 128) ∧ '\x00' ∉ f.1 ∧ f.1.length ≤ f.2)
    (h : Tool.buildRecord mac serial batch fwver hwrev date = .ok s.bytes) :
    ((Tool.infoOf s).serial = serial ∧ (Tool.infoOf s).batch = batch ∧
        (Tool.infoOf s).fwVersion = fwver ∧ (Tool.infoOf s).hwRev = hwrev ∧
        (Tool.infoOf s).prodDate = date) ∧
      (Tool.infoOf s).mac = Tool.macText mac ∧
        (Tool.infoOf s).magicOk = true ∧ (Tool.infoOf s).crcOk = true ∧
          (Tool.infoOf s).version = 1 := by
  obtain ⟨⟨hmagic, hversion, hcrc⟩, -⟩ :=
    (prodinfoValid_eq_true_iff s).mp (prodinfoValid_of_build hmac h)
  have htxt : ∀ {m : Member} {n : ℕ} {f : Tool.PyStr},
      (f, n) ∈ Tool.strings serial batch fwver hwrev date → m ≠ .crc32 →
      Tool.packed mac serial batch fwver hwrev date m = Tool.padded n f →
      Tool.txt (s.member m) = f := by
    intro m n f hf hm hpacked
    obtain ⟨hascii, hnul, -⟩ := hstrings _ hf
    rw [Tool.member_buildRecord hmac h hm, hpacked]
    exact Tool.txt_padded hascii hnul
  refine ⟨⟨htxt (n := 24) (by simp [Tool.strings]) (by decide) rfl, ?_, ?_, ?_, ?_⟩, ?_,
    decide_eq_true hmagic, decide_eq_true hcrc, congrArg BitVec.toNat hversion⟩
  · exact htxt (n := 16) (by simp [Tool.strings]) (by decide) rfl
  · exact htxt (n := 16) (by simp [Tool.strings]) (by decide) rfl
  · exact htxt (n := 8) (by simp [Tool.strings]) (by decide) rfl
  · exact htxt (n := 12) (by simp [Tool.strings]) (by decide) rfl
  · exact congrArg Tool.macText (Tool.member_buildRecord hmac h (by decide))

end Built

/-- **Decoding undoes building**: for a unicast address and ASCII strings without NUL that fit
their fields, the tool reads back what it was given, and rebuilding from that gives the same
bytes.  On strings in general building raises exactly if one is not ASCII or does not fit, and
otherwise each string is in its field as a whole. -/
theorem decode_undoes_build :
    (∀ (u : Tool.Unicode) (mac : List Byte) (serial batch fwver hwrev date : Tool.PyStr),
      mac.length = 6 → mac.getD 0 0 &&& 0x01 = 0 →
      (∀ f ∈ Tool.strings serial batch fwver hwrev date,
        (∀ c ∈ f.1, c.toNat < 128) ∧ '\x00' ∉ f.1 ∧ f.1.length ≤ f.2) →
      ∃ rec info, Tool.buildRecord mac serial batch fwver hwrev date = .ok rec ∧
        rec.length = prodinfoSize ∧ Tool.decodeRecord rec = .ok info ∧
        (info.serial = serial ∧ info.batch = batch ∧ info.fwVersion = fwver ∧
          info.hwRev = hwrev ∧ info.prodDate = date) ∧
        Tool.parseMac u info.mac = .ok mac ∧
        info.magicOk = true ∧ info.crcOk = true ∧ info.version = 1 ∧
        (Tool.parseMac u info.mac >>= fun mac' => Tool.buildRecord mac' info.serial info.batch
          info.fwVersion info.hwRev info.prodDate) = .ok rec) ∧
    (∀ (mac : List Byte) (serial batch fwver hwrev date : Tool.PyStr),
      (∃ e, Tool.buildRecord mac serial batch fwver hwrev date = .error e) ↔
        ∃ f ∈ Tool.strings serial batch fwver hwrev date,
          (∃ c ∈ f.1, 128 ≤ c.toNat) ∨ f.2 < f.1.length) ∧
    ∀ (mac : List Byte) (serial batch fwver hwrev date : Tool.PyStr) (s : Sector),
      mac.length = 6 → Tool.buildRecord mac serial batch fwver hwrev date = .ok s.bytes →
      Tool.ascii serial <+: s.member .serial ∧ Tool.ascii batch <+: s.member .batch ∧
        Tool.ascii fwver <+: s.member .fwVersion ∧ Tool.ascii hwrev <+: s.member .hwRev ∧
          Tool.ascii date <+: s.member .prodDate := by
  refine ⟨?_, fun _ _ _ _ _ _ => Tool.buildRecord_eq_error_iff, ?_⟩
  · intro u mac serial batch fwver hwrev date hmac huni hstrings
    have hfit : Tool.AllFit serial batch fwver hwrev date :=
      Tool.allFit_iff.mpr fun f hf => ⟨(hstrings f hf).1, (hstrings f hf).2.2⟩
    obtain ⟨s, hbuild⟩ := Tool.exists_buildRecord mac hfit
    obtain ⟨hread, hmacText, hmagic, hcrc, hversion⟩ :=
      infoOf_of_build hmac hstrings hbuild
    have hparse : Tool.parseMac u (Tool.infoOf s).mac = .ok mac := by
      rw [hmacText, Tool.parseMac_macText u hmac, if_neg (not_not.mpr huni)]
    refine ⟨s.bytes, Tool.infoOf s, hbuild, s.length_bytes, Tool.decodeRecord_eq s, hread, hparse,
      hmagic, hcrc, hversion, ?_⟩
    obtain ⟨hserial, hbatch, hfwver, hhwrev, hdate⟩ := hread
    rw [hparse, hserial, hbatch, hfwver, hhwrev, hdate]
    exact hbuild
  · intro mac serial batch fwver hwrev date s hmac hbuild
    have hmember : ∀ {m : Member}, m ≠ .crc32 →
        s.member m = Tool.packed mac serial batch fwver hwrev date m :=
      fun hm => Tool.member_buildRecord hmac hbuild hm
    rw [hmember (by decide), hmember (by decide), hmember (by decide), hmember (by decide),
      hmember (by decide)]
    exact ⟨List.prefix_append _ _, List.prefix_append _ _, List.prefix_append _ _,
      List.prefix_append _ _, List.prefix_append _ _⟩

/-- Strings that are checked by evaluation. -/
theorem strings_of_all {l : List (Tool.PyStr × ℕ)}
    (h : (l.all fun f => (f.1.all fun c => decide (c.toNat < 128 ∧ c ≠ '\x00')) &&
      decide (f.1.length ≤ f.2)) = true) :
    ∀ f ∈ l, (∀ c ∈ f.1, c.toNat < 128) ∧ '\x00' ∉ f.1 ∧ f.1.length ≤ f.2 := by
  intro f hf
  obtain ⟨hchars, hlen⟩ := Bool.and_eq_true_iff.mp (List.all_eq_true.mp h f hf)
  have hchars : ∀ c ∈ f.1, c.toNat < 128 ∧ c ≠ '\x00' := fun c hc =>
    of_decide_eq_true (List.all_eq_true.mp hchars c hc)
  exact ⟨fun c hc => (hchars c hc).1, fun hc => (hchars _ hc).2 rfl, of_decide_eq_true hlen⟩

/-- One string fills its field, and one is empty. -/
theorem decode_undoes_build_fullHwrev : ∃ rec info,
    Tool.buildRecord [0x02, 0x11, 0x22, 0x33, 0x44, 0x55] "SN0001".toList "B2026-08".toList []
      "A1-full8".toList "2026-08-25".toList = .ok rec ∧
    Tool.decodeRecord rec = .ok info ∧ info.hwRev = "A1-full8".toList ∧ info.fwVersion = [] ∧
      Tool.parseMac .ascii info.mac = .ok [0x02, 0x11, 0x22, 0x33, 0x44, 0x55] := by
  obtain ⟨rec, info, hbuild, -, hdecode, ⟨-, -, hfwver, hhwrev, -⟩, hmac, -⟩ :=
    decode_undoes_build.1 .ascii [0x02, 0x11, 0x22, 0x33, 0x44, 0x55] "SN0001".toList
      "B2026-08".toList [] "A1-full8".toList "2026-08-25".toList rfl (by decide)
      (strings_of_all (by decide))
  exact ⟨rec, info, hbuild, hdecode, hhwrev, hfwver, hmac⟩

end Usb2T1L
