import Usb2T1L.Production.Record

/-!
# The record as a struct

The members of `prodinfo_t` as its declaration lists them, against the fields of the tool's
format string.  The struct is packed, so a member begins where the one before it ends.

## Main definitions

* `Member`, `prodinfoT` — the members of `prodinfo_t`, in order.
* `Sector.member` — the bytes of a member.
* `Tool.padded` — a string as a field holds it.

## Main results

* `Tool.offsetOf_eq` — **the two layouts line up**.
* `Tool.member_buildRecord` — what the firmware finds in each member.
* `Tool.buildRecord_eq_ok_iff` — when the tool builds a record, and which one.
* `built_record_validates` — **every record the tool builds is valid for the firmware**, and
  holds what was put in.
-/

namespace Usb2T1L

/-! ### The struct, `prodinfo.h` -/

/-- The members of `prodinfo_t`. -/
inductive Member
  | magic
  | version
  | flags
  | size
  | mac
  | rsv0
  | serial
  | batch
  | fwVersion
  | hwRev
  | prodDate
  | rsv1
  | crc32
  deriving DecidableEq

/-- `prodinfo_t`: its members, in the order of the declaration. -/
def prodinfoT : List Member :=
  [.magic, .version, .flags, .size, .mac, .rsv0, .serial, .batch, .fwVersion, .hwRev, .prodDate,
    .rsv1, .crc32]

namespace Member

/-- `sizeof`, from the type of the member. -/
def sizeof : Member → ℕ
  | magic | crc32 => 4
  | version | flags => 1
  | size | rsv0 => 2
  | mac => 6
  | serial => 24
  | batch | fwVersion => 16
  | hwRev => 8
  | prodDate => 12
  | rsv1 => 32

/-- `offsetof`, in a packed struct. -/
def offsetof (m : Member) : ℕ := ((prodinfoT.takeWhile (· ≠ m)).map sizeof).sum

end Member

/-- The bytes of a member. -/
def Sector.member (s : Sector) (m : Member) : List Byte :=
  (List.range m.sizeof).map fun i => s.byte (m.offsetof + i)

@[simp] theorem Sector.length_member (s : Sector) (m : Member) :
    (s.member m).length = m.sizeof := by
  rw [member, List.length_map, List.length_range]

/-! The integers that the firmware loads are those of the bytes of the member. -/

theorem Sector.ofLe_magic (s : Sector) : Layout.ofLe (s.member .magic) = s.magic.toNat := by
  rw [magic, Layout.toNat_word]
  rfl

theorem Sector.ofLe_version (s : Sector) : Layout.ofLe (s.member .version) = s.version.toNat :=
  Nat.add_zero _

theorem Sector.ofLe_size (s : Sector) : Layout.ofLe (s.member .size) = s.size.toNat := by
  rw [size, Layout.toNat_half]
  rfl

/-- The bytes of a member are those of its integer. -/
theorem Sector.toLe_member (s : Sector) (m : Member) :
    Layout.toLe m.sizeof (Layout.ofLe (s.member m)) = s.member m := by
  have h := Layout.toLe_ofLe (s.member m)
  rwa [length_member] at h

namespace Tool

/-! ### The tool's layout -/

/-- The fields of `_PREFIX_FMT`, in its order. -/
def prefixFields : List Member :=
  [.magic, .version, .flags, .size, .mac, .rsv0, .serial, .batch, .fwVersion, .hwRev, .prodDate,
    .rsv1]

/-- Where the tool has a field. -/
def offsetOf (m : Member) : ℕ := Layout.offset prefixFmt (prefixFields.idxOf m)

/-- How long the tool's field is. -/
def sizeOf (m : Member) : ℕ := prefixFmt.getD (prefixFields.idxOf m) 0

/-- **The two layouts line up**: each field of the format string has the place and the size of
its member. -/
theorem offsetOf_eq {m : Member} (hm : m ≠ .crc32) :
    offsetOf m = m.offsetof ∧ sizeOf m = m.sizeof := by
  cases m with
  | crc32 => exact absurd rfl hm
  | _ => decide

theorem getElem?_prefixFmt {m : Member} (hm : m ≠ .crc32) :
    prefixFmt[prefixFields.idxOf m]? = some m.sizeof := by
  cases m with
  | crc32 => exact absurd rfl hm
  | _ => decide

/-- **Cutting a record into fields gives its members.** -/
theorem split_crcBytes (s : Sector) {m : Member} (hm : m ≠ .crc32) :
    (Layout.split prefixFmt s.crcBytes).getD (prefixFields.idxOf m) [] = s.member m := by
  have hoffset := (offsetOf_eq hm).1
  rw [offsetOf] at hoffset
  rw [s.field (getElem?_prefixFmt hm), hoffset, Sector.member]

/-- **The members of a packed record are the fields that were packed.** -/
theorem member_ofFields {fields : List (List Byte)} (hfields : fields.map List.length = prefixFmt)
    (h : fields.flatten.length = 124) {m : Member} (hm : m ≠ .crc32) :
    (Sector.ofFields fields.flatten h).member m = fields.getD (prefixFields.idxOf m) [] := by
  have hoffset := (offsetOf_eq hm).1
  rw [offsetOf] at hoffset
  rw [Sector.field_ofFields hfields h (getElem?_prefixFmt hm), hoffset, Sector.member]

/-- The bytes under the CRC are the members up to it. -/
theorem crcBytes_eq_flatten (s : Sector) : s.crcBytes = (prefixFields.map s.member).flatten := by
  have hsplit : Layout.split prefixFmt s.crcBytes = prefixFields.map s.member := by
    apply List.ext_getElem?
    intro k
    rw [Layout.getElem?_split, List.getElem?_map]
    by_cases hk : k < prefixFields.length
    · have hm : prefixFields[k] ≠ .crc32 :=
        (by decide : ∀ m ∈ prefixFields, m ≠ Member.crc32) _ (List.getElem_mem hk)
      have hidx : prefixFields.idxOf prefixFields[k] = k :=
        List.Nodup.idxOf_getElem (by decide) k hk
      have hmember := split_crcBytes s hm
      have hfmt := getElem?_prefixFmt hm
      rw [hidx, List.getD_eq_getElem?_getD, Layout.getElem?_split] at hmember
      rw [hidx] at hfmt
      rw [hfmt] at hmember ⊢
      rw [List.getElem?_eq_getElem hk, Option.map_some, Option.map_some, ← hmember]
      rfl
    · have hle : prefixFmt.length ≤ k := not_lt.mp hk
      rw [List.getElem?_eq_none hle, List.getElem?_eq_none (not_lt.mp hk)]
      rfl
  have htake : s.crcBytes.take prefixFmt.sum = s.crcBytes :=
    List.take_of_length_le s.length_crcBytes.le
  rw [← hsplit, Layout.flatten_split, htake]

/-- **A sector is its members**: two with the same members, the CRC included, are the same. -/
theorem ext_member {s t : Sector} (h : ∀ m, m ≠ Member.crc32 → s.member m = t.member m)
    (hcrc : s.crc32 = t.crc32) : s = t := by
  have hprefix : s.crcBytes = t.crcBytes := by
    rw [crcBytes_eq_flatten, crcBytes_eq_flatten]
    refine congrArg List.flatten (List.map_congr_left fun m hm => h m ?_)
    exact (by decide : ∀ m ∈ prefixFields, m ≠ Member.crc32) m hm
  have hlast : ∀ r : Sector, r.bytes.drop 124 = Layout.toLe 4 r.crc32.toNat := by
    intro r
    have hround := Layout.toLe_ofLe (r.bytes.drop 124)
    rw [r.crcField] at hround ⊢
    rw [Sector.crc32, Layout.toNat_word]
    exact hround.symm
  have hbytes : s.bytes = t.bytes := by
    rw [← List.take_append_drop 124 s.bytes, ← List.take_append_drop 124 t.bytes, hlast, hlast,
      hcrc]
    exact congrArg (· ++ _) hprefix
  cases s
  cases t
  congr

/-! ### Strings in their fields -/

/-- A string that a field of `n` bytes can hold. -/
def Fits (n : ℕ) (s : PyStr) : Prop := (∀ c ∈ s, c.toNat < 128) ∧ s.length ≤ n

-- over the characters of the string, not over all characters
instance (n : ℕ) (s : PyStr) : Decidable (Fits n s) :=
  @instDecidableAnd _ _ (List.decidableBAll _ s) inferInstance

/-- The bytes of an ASCII string. -/
def ascii (s : PyStr) : List Byte := s.map fun c => BitVec.ofNat 8 c.toNat

/-- A string in a field of `n` bytes: followed by NULs. -/
def padded (n : ℕ) (s : PyStr) : List Byte := (ascii s).rightpad n 0

theorem length_padded {n : ℕ} {s : PyStr} (h : s.length ≤ n) : (padded n s).length = n := by
  rw [padded, List.length_rightpad, ascii, List.length_map]
  exact max_eq_left h

theorem all_ascii_iff {s : PyStr} :
    (s.all fun c => decide (c.toNat < 128)) = true ↔ ∀ c ∈ s, c.toNat < 128 := by
  rw [List.all_eq_true]
  exact forall₂_congr fun c _ => decide_eq_true_iff

/-- **`_field` takes what fits, and pads it.** -/
theorem field_of_fits {n : ℕ} {s : PyStr} (h : Fits n s) : field s n = .ok (padded n s) := by
  have hlen : ¬ n < (ascii s).length := by rw [ascii, List.length_map]; exact not_lt.mpr h.2
  rw [field, encodeAscii, if_pos (all_ascii_iff.mpr h.1)]
  exact if_neg hlen

/-- **`_field` raises on everything else.** -/
theorem field_of_not_fits {n : ℕ} {s : PyStr} (h : ¬ Fits n s) : ∃ e, field s n = .error e := by
  rw [field, encodeAscii]
  by_cases hascii : ∀ c ∈ s, c.toNat < 128
  · have hlen : n < (ascii s).length := by
      rw [ascii, List.length_map]
      exact not_le.mp fun hle => h ⟨hascii, hle⟩
    rw [if_pos (all_ascii_iff.mpr hascii)]
    exact ⟨_, if_pos hlen⟩
  · rw [if_neg fun hall => hascii (all_ascii_iff.mp hall)]
    exact ⟨_, rfl⟩

theorem field_eq_ok_iff {n : ℕ} {s : PyStr} {b : List Byte} :
    field s n = .ok b ↔ Fits n s ∧ b = padded n s := by
  by_cases h : Fits n s
  · rw [field_of_fits h, Except.ok.injEq]
    exact ⟨fun hb => ⟨h, hb.symm⟩, fun hb => hb.2.symm⟩
  · obtain ⟨e, he⟩ := field_of_not_fits h
    rw [he]
    exact ⟨fun hb => absurd hb (by simp), fun hb => absurd hb.1 h⟩

/-- The five strings fit their fields. -/
def AllFit (serial batch fwver hwrev date : PyStr) : Prop :=
  Fits 24 serial ∧ Fits 16 batch ∧ Fits 16 fwver ∧ Fits 8 hwrev ∧ Fits 12 date

instance (serial batch fwver hwrev date : PyStr) :
    Decidable (AllFit serial batch fwver hwrev date) :=
  inferInstanceAs (Decidable (_ ∧ _ ∧ _ ∧ _ ∧ _))

/-- **When `build_record` returns, and what.** -/
theorem buildRecord_eq_ok_iff {mac rec : List Byte} {serial batch fwver hwrev date : PyStr} :
    buildRecord mac serial batch fwver hwrev date = .ok rec ↔
      AllFit serial batch fwver hwrev date ∧
        rec = withCrc (packPrefix mac (padded 24 serial) (padded 16 batch) (padded 16 fwver)
          (padded 8 hwrev) (padded 12 date)).flatten := by
  rw [buildRecord, bind_eq_ok]
  constructor
  · rintro ⟨serial', hserial, h⟩
    obtain ⟨batch', hbatch, h⟩ := bind_eq_ok.mp h
    obtain ⟨fwver', hfwver, h⟩ := bind_eq_ok.mp h
    obtain ⟨hwrev', hhwrev, h⟩ := bind_eq_ok.mp h
    obtain ⟨date', hdate, h⟩ := bind_eq_ok.mp h
    obtain ⟨fserial, rfl⟩ := field_eq_ok_iff.mp hserial
    obtain ⟨fbatch, rfl⟩ := field_eq_ok_iff.mp hbatch
    obtain ⟨ffwver, rfl⟩ := field_eq_ok_iff.mp hfwver
    obtain ⟨fhwrev, rfl⟩ := field_eq_ok_iff.mp hhwrev
    obtain ⟨fdate, rfl⟩ := field_eq_ok_iff.mp hdate
    exact ⟨⟨fserial, fbatch, ffwver, fhwrev, fdate⟩, (Except.ok.inj h).symm⟩
  · rintro ⟨⟨hserial, hbatch, hfwver, hhwrev, hdate⟩, rfl⟩
    refine ⟨_, field_of_fits hserial, bind_eq_ok.mpr ⟨_, field_of_fits hbatch, ?_⟩⟩
    refine bind_eq_ok.mpr ⟨_, field_of_fits hfwver, bind_eq_ok.mpr ⟨_, field_of_fits hhwrev, ?_⟩⟩
    exact bind_eq_ok.mpr ⟨_, field_of_fits hdate, rfl⟩

theorem buildRecord_of_allFit (mac : List Byte) {serial batch fwver hwrev date : PyStr}
    (h : AllFit serial batch fwver hwrev date) :
    buildRecord mac serial batch fwver hwrev date =
      .ok (withCrc (packPrefix mac (padded 24 serial) (padded 16 batch) (padded 16 fwver)
        (padded 8 hwrev) (padded 12 date)).flatten) :=
  buildRecord_eq_ok_iff.mpr ⟨h, rfl⟩

/-- **What is built fills the sector's record.** -/
theorem exists_buildRecord (mac : List Byte) {serial batch fwver hwrev date : PyStr}
    (h : AllFit serial batch fwver hwrev date) :
    ∃ s : Sector, buildRecord mac serial batch fwver hwrev date = .ok s.bytes :=
  ⟨Sector.ofFields _ (length_flatten_packPrefix ..), buildRecord_of_allFit mac h⟩

/-- What is packed under a member, for the strings of a record. -/
def packed (mac : List Byte) (serial batch fwver hwrev date : PyStr) : Member → List Byte
  | .magic => Layout.toLe 4 magic
  | .version => Layout.toLe 1 version
  | .flags => [0]
  | .size => Layout.toLe 2 size
  | .mac => mac
  | .rsv0 => [0, 0]
  | .serial => padded 24 serial
  | .batch => padded 16 batch
  | .fwVersion => padded 16 fwver
  | .hwRev => padded 8 hwrev
  | .prodDate => padded 12 date
  | .rsv1 => List.replicate 32 0
  | .crc32 => []

/-- **What the firmware finds in each member of a record that the tool has built.** -/
theorem member_buildRecord {mac : List Byte} (hmac : mac.length = 6)
    {serial batch fwver hwrev date : PyStr} {s : Sector}
    (h : buildRecord mac serial batch fwver hwrev date = .ok s.bytes) {m : Member}
    (hm : m ≠ .crc32) : s.member m = packed mac serial batch fwver hwrev date m := by
  obtain ⟨⟨hserial, hbatch, hfwver, hhwrev, hdate⟩, hbytes⟩ := buildRecord_eq_ok_iff.mp h
  have hs : s = Sector.ofFields _ (length_flatten_packPrefix mac (padded 24 serial)
      (padded 16 batch) (padded 16 fwver) (padded 8 hwrev) (padded 12 date)) := by
    cases s
    subst hbytes
    rfl
  rw [hs, member_ofFields (map_length_packPrefix ..) _ hm]
  cases m with
  | crc32 => exact absurd rfl hm
  | mac => exact packBytes_of_length hmac
  | serial => exact packBytes_of_length (length_padded hserial.2)
  | batch => exact packBytes_of_length (length_padded hbatch.2)
  | fwVersion => exact packBytes_of_length (length_padded hfwver.2)
  | hwRev => exact packBytes_of_length (length_padded hhwrev.2)
  | prodDate => exact packBytes_of_length (length_padded hdate.2)
  | _ => rfl

end Tool

/-- **Every record the tool builds validates on the device**: the CRCs agree on byte strings of
every length, the fields of the format string lie where the struct has its members, and the
firmware accepts what `build_record` returns and finds the MAC address and the strings in it. -/
theorem built_record_validates :
    (∀ data : List Byte, (prodinfoCrc32 data).toNat = Tool.zlibCrc32 data) ∧
    (∀ m : Member, m ≠ .crc32 → Tool.offsetOf m = m.offsetof ∧ Tool.sizeOf m = m.sizeof) ∧
    Tool.prefixFmt.sum = Member.offsetof .crc32 ∧
    ∀ (mac : List Byte) (serial batch fwver hwrev date : Tool.PyStr) (rec : List Byte),
      mac.length = 6 → mac.getD 0 0 &&& 0x01 = 0 →
      Tool.buildRecord mac serial batch fwver hwrev date = .ok rec →
      ∃ flash : Sector, flash.bytes = rec ∧ prodinfoValid flash = true ∧
        flash.mac = octets mac ∧ flash.member .mac = mac ∧
        flash.member .serial = Tool.padded 24 serial ∧
        flash.member .batch = Tool.padded 16 batch ∧
        flash.member .fwVersion = Tool.padded 16 fwver ∧
        flash.member .hwRev = Tool.padded 8 hwrev ∧
        flash.member .prodDate = Tool.padded 12 date := by
  refine ⟨prodinfoCrc32_eq, fun m hm => Tool.offsetOf_eq hm, rfl, ?_⟩
  intro mac serial batch fwver hwrev date rec hmac _ hrec
  obtain ⟨_, rfl⟩ := Tool.buildRecord_eq_ok_iff.mp hrec
  obtain ⟨hvalid, hread⟩ := Tool.prodinfoValid_packPrefix hmac (Tool.padded 24 serial)
    (Tool.padded 16 batch) (Tool.padded 16 fwver) (Tool.padded 8 hwrev) (Tool.padded 12 date)
  exact ⟨Sector.ofFields _ (Tool.length_flatten_packPrefix ..), rfl, hvalid, hread,
    Tool.member_buildRecord hmac hrec (by decide), Tool.member_buildRecord hmac hrec (by decide),
    Tool.member_buildRecord hmac hrec (by decide), Tool.member_buildRecord hmac hrec (by decide),
    Tool.member_buildRecord hmac hrec (by decide), Tool.member_buildRecord hmac hrec (by decide)⟩

theorem built_record_validates_fullBatch :
    ∃ rec, Tool.buildRecord [0x02, 0x11, 0x22, 0x33, 0x44, 0x55] "SN0001".toList
        "B2026-08-16chars".toList "v0.1".toList "A1".toList [] = .ok rec ∧
      ∃ flash : Sector, flash.bytes = rec ∧ prodinfoValid flash = true ∧
        flash.mac = octets [0x02, 0x11, 0x22, 0x33, 0x44, 0x55] := by
  have hrec := Tool.buildRecord_of_allFit [0x02, 0x11, 0x22, 0x33, 0x44, 0x55]
    (by decide : Tool.AllFit "SN0001".toList "B2026-08-16chars".toList "v0.1".toList "A1".toList [])
  obtain ⟨flash, hbytes, hvalid, hmac, -⟩ :=
    built_record_validates.2.2.2 _ _ _ _ _ _ _ rfl (by decide) hrec
  exact ⟨_, hrec, flash, hbytes, hvalid, hmac⟩

end Usb2T1L
