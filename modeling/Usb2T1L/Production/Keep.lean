import Usb2T1L.Production.RoundTrip

/-!
# Rewriting a record

`write --keep` of the production tool: the record on the device is read and decoded, the fields
given on the command line replace the decoded ones, and a record is built from the result.  What
decoding drops is not written back.

The programmer behind `swd_read` and `swd_write`, `st-flash` or OpenOCD, is a pair of operations
on an arbitrary state; what it fails with is the text of the `sys.exit` that follows.

## Main definitions

* `Tool.resolveFields`, `Tool.recordToWrite`, `Tool.cmdWrite` — the subcommand `write`.
* `Tool.Keeps` — every field that is not given stays as it is.
* `Tool.Rebuildable` — decoding loses nothing that is to be kept.

## Main results

* `Tool.recordToWrite_keep` — what is built over a valid record.
* `write_keep_iff` — **`write --keep` keeps what is not given** exactly if decoding loses none
  of it.
-/

namespace Usb2T1L

namespace Tool

/-! ### The subcommand `write` -/

/-- The options of `write`. -/
structure WriteArgs where
  mac : Option PyStr
  serial : Option PyStr
  batch : Option PyStr
  fwver : Option PyStr
  hwrev : Option PyStr
  date : Option PyStr
  keep : Bool
  noVerify : Bool
  dryRun : Bool

/-- How the tool ends before its time: `sys.exit` with a text, or a `ValueError`. -/
inductive Stop
  | exit (text : String)
  | raised (e : ValueError)
  deriving DecidableEq

/-- What `resolve_fields` returns. -/
structure Fields where
  mac : PyStr
  serial : PyStr
  batch : PyStr
  fwver : PyStr
  hwrev : PyStr
  date : PyStr

/-- `pick` of `resolve_fields`. -/
def pick (val : Option PyStr) (base : Option RecordInfo) (key : RecordInfo → PyStr) : PyStr :=
  match val, base with
  | some val, _ => val
  | none, some base => key base
  | none, none => []

/-- `resolve_fields`. -/
def resolveFields (args : WriteArgs) (base : Option RecordInfo) : Except Stop Fields :=
  match args.mac.or (base.map RecordInfo.mac) with
  | none | some [] => .error (.exit "no MAC given and none found on the device — pass --mac")
  | some mac =>
    .ok {
      mac := mac
      serial := pick args.serial base RecordInfo.serial
      batch := pick args.batch base RecordInfo.batch
      fwver := pick args.fwver base RecordInfo.fwVersion
      hwrev := pick args.hwrev base RecordInfo.hwRev
      date := pick args.date base RecordInfo.prodDate }

/-- The record that `cmd_write` takes its base from: what was read, if it is valid. -/
def inherited (existing : Except String (List Byte)) : Except Stop (Option RecordInfo) :=
  match existing with
  | .error text => .error (.exit text)
  | .ok raw =>
    match decodeRecord raw with
    | .error e =>
      let shown := e.text.getD ""
      .error (.exit s!"could not read the existing record: {shown}")
    | .ok info => .ok (if recordValid info then some info else none)

/-- `cmd_write` up to the record that it writes, where `existing` is what `swd_read` gives. -/
def recordToWrite (u : Unicode) (a : WriteArgs) (existing : Except String (List Byte)) :
    Except Stop (List Byte) := do
  let base ← if a.keep then inherited existing else .ok none
  let fields ← resolveFields a base
  Except.mapError Stop.raised do
    let mac ← parseMac u fields.mac
    buildRecord mac fields.serial fields.batch fields.fwver fields.hwrev fields.date

/-- The programmer: reading the sector into a file, and writing a file to it. -/
structure Swd (σ : Type) where
  read : σ → Except String (List Byte) × σ
  write : List Byte → σ → Except String Unit × σ

variable {σ : Type}

/-- `swd_read`. -/
def swdRead (swd : Swd σ) (s : σ) : Except String (List Byte) × σ :=
  match swd.read s with
  | (.error text, s) => (.error text, s)
  | (.ok data, s) =>
    let len := data.length
    if len < size then (.error s!"read back only {len} bytes, expected {size}", s)
    else (.ok (data.take size), s)

/-- `cmd_write` after the record has been built: `swd_write`, and reading it back. -/
def flashRecord (swd : Swd σ) (a : WriteArgs) (rec : List Byte) (s : σ) : Except Stop Unit × σ :=
  if a.dryRun then (.ok (), s)
  else
    match swd.write rec s with
    | (.error text, s) => (.error (.exit text), s)
    | (.ok _, s) =>
      if a.noVerify then (.ok (), s)
      else
        match swdRead swd s with
        | (.error text, s) => (.error (.exit text), s)
        | (.ok got, s) =>
          if got ≠ rec then
            (.error (.exit "VERIFY FAILED — flash content does not match what was written."), s)
          else (.ok (), s)

/-- `cmd_write`. -/
def cmdWrite (swd : Swd σ) (u : Unicode) (a : WriteArgs) (s : σ) : Except Stop Unit × σ :=
  -- without `--keep` nothing is read
  let existing := if a.keep then swdRead swd s else (.ok [], s)
  match recordToWrite u a existing.1 with
  | .error e => (.error e, existing.2)
  | .ok rec => flashRecord swd a rec existing.2

/-- A programmer that works, on the 128 bytes of the record. -/
def workingSwd : Swd Sector where
  read s := (.ok s.bytes, s)
  write rec s := if h : rec.length = prodinfoSize then (.ok (), ⟨rec, h⟩) else (.ok (), s)

/-! ### What decoding loses -/

/-- ASCII characters, then only NULs. -/
def Plain (b : List Byte) : Prop :=
  (∀ x ∈ b.takeWhile (· ≠ 0), x.toNat < 128) ∧ ∀ x ∈ b.dropWhile (· ≠ 0), x = 0

instance (b : List Byte) : Decidable (Plain b) := inferInstanceAs (Decidable (_ ∧ _))

theorem plain_replicate (n : ℕ) : Plain (List.replicate n 0) := by
  cases n with
  | zero => decide
  | succ n =>
    have htake : (List.replicate (n + 1) (0 : Byte)).takeWhile (· ≠ 0) = [] := rfl
    rw [Plain, htake]
    refine ⟨by simp, fun x hx => ?_⟩
    exact List.eq_of_mem_replicate ((List.dropWhile_suffix _).mem hx)

/-- A byte is decoded to an ASCII character exactly if it is one, and then comes back. -/
theorem replaced_iff (x : Byte) :
    ((Char.ofNat (if x.toNat < 128 then x.toNat else 0xFFFD)).toNat < 128 ↔ x.toNat < 128) ∧
      (x.toNat < 128 →
        BitVec.ofNat 8 (Char.ofNat (if x.toNat < 128 then x.toNat else 0xFFFD)).toNat = x) := by
  have hall : ∀ n : Fin 256,
      ((Char.ofNat (if (n : ℕ) < 128 then (n : ℕ) else 0xFFFD)).toNat < 128 ↔ (n : ℕ) < 128) ∧
        ((n : ℕ) < 128 →
          BitVec.ofNat 8 (Char.ofNat (if (n : ℕ) < 128 then (n : ℕ) else 0xFFFD)).toNat =
            BitVec.ofFin n) := by
    decide +kernel
  exact hall x.toFin

theorem ascii_txt {b : List Byte} (h : ∀ x ∈ b.takeWhile (· ≠ 0), x.toNat < 128) :
    ascii (txt b) = b.takeWhile (· ≠ 0) := by
  rw [ascii, txt, List.map_map]
  have hid : ∀ x ∈ b.takeWhile (· ≠ 0), _ = id x := fun x hx => (replaced_iff x).2 (h x hx)
  exact (List.map_congr_left hid).trans (List.map_id _)

theorem fits_txt_iff {n : ℕ} {b : List Byte} (h : b.length = n) :
    Fits n (txt b) ↔ ∀ x ∈ b.takeWhile (· ≠ 0), x.toNat < 128 := by
  have hlen : (txt b).length ≤ n := by
    rw [txt, List.length_map, ← h]
    exact (List.takeWhile_prefix _).length_le
  rw [Fits, and_iff_left hlen, txt, List.forall_mem_map]
  exact forall₂_congr fun x _ => (replaced_iff x).1

/-- **Decoding a field and encoding it again gives the field back** exactly if it is plain. -/
theorem padded_txt_iff {n : ℕ} {b : List Byte} (h : b.length = n) :
    Fits n (txt b) ∧ padded n (txt b) = b ↔ Plain b := by
  rw [fits_txt_iff h, Plain]
  refine and_congr_right fun hascii => ?_
  have hsplit : b.takeWhile (· ≠ 0) ++ b.dropWhile (· ≠ 0) = b := List.takeWhile_append_dropWhile
  have hlen : n - (b.takeWhile (· ≠ 0)).length = (b.dropWhile (· ≠ 0)).length := by
    have := congrArg List.length hsplit
    rw [List.length_append] at this
    omega
  rw [padded, ascii_txt hascii, List.rightpad, hlen]
  generalize b.takeWhile (· ≠ 0) = text at hsplit ⊢
  generalize b.dropWhile (· ≠ 0) = rest at hsplit ⊢
  rw [← hsplit, List.append_cancel_left_eq, eq_comm, List.eq_replicate_iff]
  exact and_iff_right rfl

/-! ### Building over a valid record -/

theorem mapError_eq_ok {ε ε' α : Type} {f : ε → ε'} {x : Except ε α} {b : α} :
    Except.mapError f x = .ok b ↔ x = .ok b := by
  cases x with
  | error e => simp [Except.mapError]
  | ok a => simp [Except.mapError]

section Keep

variable {u : Unicode} {a : WriteArgs} {dev : Sector}

/-- **What is built over a valid record**: from the options, and from the decoded fields. -/
theorem recordToWrite_keep (hkeep : a.keep = true) (hmac : a.mac ≠ some [])
    (hvalid : recordValid (infoOf dev) = true) {rec : List Byte} :
    recordToWrite u a (.ok dev.bytes) = .ok rec ↔
      ∃ mac, parseMac u (a.mac.getD (macText (dev.member .mac))) = .ok mac ∧
        buildRecord mac (a.serial.getD (txt (dev.member .serial)))
          (a.batch.getD (txt (dev.member .batch))) (a.fwver.getD (txt (dev.member .fwVersion)))
          (a.hwrev.getD (txt (dev.member .hwRev))) (a.date.getD (txt (dev.member .prodDate))) =
            .ok rec := by
  have hbase : inherited (.ok dev.bytes) = .ok (some (infoOf dev)) := by
    rw [inherited, decodeRecord_eq]
    exact congrArg Except.ok (if_pos hvalid)
  have hpick : ∀ (val : Option PyStr) (key : RecordInfo → PyStr),
      pick val (some (infoOf dev)) key = val.getD (key (infoOf dev)) := by
    intro val key
    cases val with
    | none => rfl
    | some s => rfl
  have hshown : (infoOf dev).mac ≠ [] := macText_ne_nil (dev.length_member .mac)
  have hfields : resolveFields a (some (infoOf dev)) = .ok {
      mac := a.mac.getD (infoOf dev).mac
      serial := a.serial.getD (infoOf dev).serial
      batch := a.batch.getD (infoOf dev).batch
      fwver := a.fwver.getD (infoOf dev).fwVersion
      hwrev := a.hwrev.getD (infoOf dev).hwRev
      date := a.date.getD (infoOf dev).prodDate } := by
    rw [resolveFields, Option.map_some]
    simp only [hpick]
    cases hgiven : a.mac with
    | none =>
      rw [Option.none_or, Option.getD_none]
      split
      · next h => exact absurd h (by simp)
      · next h => exact absurd (Option.some.inj h) hshown
      · next h => rw [Option.some.inj h]
    | some mac =>
      rw [hgiven] at hmac
      rw [Option.some_or, Option.getD_some]
      split
      · next h => exact absurd h (by simp)
      · next h => exact absurd h hmac
      · next h => rw [Option.some.inj h]
  rw [recordToWrite, if_pos hkeep, hbase]
  show (resolveFields a (some (infoOf dev)) >>= _) = _ ↔ _
  rw [hfields]
  exact mapError_eq_ok.trans bind_eq_ok

/-- The bytes that an option puts into a member. -/
def newValue (u : Unicode) (a : WriteArgs) : Member → Option (List Byte)
  | .mac => a.mac.bind fun mac => (parseMac u mac).toOption
  | .serial => a.serial.map (padded 24)
  | .batch => a.batch.map (padded 16)
  | .fwVersion => a.fwver.map (padded 16)
  | .hwRev => a.hwrev.map (padded 8)
  | .prodDate => a.date.map (padded 12)
  | _ => none

/-- **Every field that is given has its new value, and everything else stays.** -/
def Keeps (u : Unicode) (a : WriteArgs) (dev new : Sector) : Prop :=
  ∀ m, m ≠ Member.crc32 → new.member m = (newValue u a m).getD (dev.member m)

/-- The values that are given are acceptable. -/
structure Acceptable (u : Unicode) (a : WriteArgs) : Prop where
  mac : ∀ mac, a.mac = some mac → ∃ b, parseMac u mac = .ok b
  serial : ∀ s, a.serial = some s → Fits 24 s
  batch : ∀ s, a.batch = some s → Fits 16 s
  fwver : ∀ s, a.fwver = some s → Fits 16 s
  hwrev : ∀ s, a.hwrev = some s → Fits 8 s
  date : ∀ s, a.date = some s → Fits 12 s

theorem Acceptable.mac_ne_nil (h : Acceptable u a) : a.mac ≠ some [] := by
  intro hnil
  obtain ⟨b, hb⟩ := h.mac [] hnil
  have hone : parseMac u [] = .error .notSixOctets := if_pos (by decide)
  exact absurd (hone.symm.trans hb) (by simp)

/-- **Decoding loses nothing that is to be kept**: the flags and the reserved bytes are zero, the
size is right, and each field that is not given is plain, or a unicast address. -/
structure Rebuildable (a : WriteArgs) (dev : Sector) : Prop where
  flags : dev.member .flags = [0]
  size : dev.size.toNat = prodinfoSize
  rsv0 : dev.member .rsv0 = [0, 0]
  rsv1 : dev.member .rsv1 = List.replicate 32 0
  mac : a.mac = none → dev.mac 0 &&& 0x01 = 0
  serial : a.serial = none → Plain (dev.member .serial)
  batch : a.batch = none → Plain (dev.member .batch)
  fwver : a.fwver = none → Plain (dev.member .fwVersion)
  hwrev : a.hwrev = none → Plain (dev.member .hwRev)
  date : a.date = none → Plain (dev.member .prodDate)

/-- A string field, given or decoded, is what it is to be. -/
theorem field_kept_iff {n : ℕ} {given : Option PyStr} {b : List Byte} (hb : b.length = n)
    (hgiven : ∀ s, given = some s → Fits n s) :
    Fits n (given.getD (txt b)) ∧ padded n (given.getD (txt b)) = (given.map (padded n)).getD b ↔
      (given = none → Plain b) := by
  cases given with
  | none =>
    rw [Option.getD_none, Option.map_none, Option.getD_none, padded_txt_iff hb]
    exact ⟨fun h _ => h, fun h => h rfl⟩
  | some s => exact ⟨fun _ h => absurd h (by simp), fun _ => ⟨hgiven s rfl, rfl⟩⟩

/-- The address, given or decoded, is what it is to be. -/
theorem mac_kept_iff (hacc : Acceptable u a) :
    parseMac u (a.mac.getD (macText (dev.member .mac))) =
        .ok ((newValue u a .mac).getD (dev.member .mac)) ↔
      (a.mac = none → dev.mac 0 &&& 0x01 = 0) := by
  have hmac := hacc.mac
  rw [newValue]
  cases hgiven : a.mac with
  | none =>
    rw [Option.getD_none, Option.bind_none, Option.getD_none,
      parseMac_macText u (dev.length_member _)]
    have hoctet : (dev.member .mac).getD 0 0 = dev.mac 0 := rfl
    rw [hoctet]
    by_cases huni : dev.mac 0 &&& 0x01 = 0
    · rw [if_neg (not_not.mpr huni)]
      exact ⟨fun _ _ => huni, fun _ => rfl⟩
    · rw [if_pos huni]
      exact ⟨fun h => absurd h (by simp), fun h => absurd (h rfl) huni⟩
  | some mac =>
    obtain ⟨b, hb⟩ := hmac mac hgiven
    rw [Option.getD_some, Option.bind_some, hb]
    exact ⟨fun _ h => absurd h (by simp), fun _ => rfl⟩

/-- The address that is parsed is the one that is to be there. -/
theorem parseMac_getD {mac : List Byte}
    (h : parseMac u (a.mac.getD (macText (dev.member .mac))) = .ok mac) :
    mac = (newValue u a .mac).getD (dev.member .mac) := by
  rw [newValue]
  cases hgiven : a.mac with
  | none =>
    rw [hgiven, Option.getD_none, parseMac_macText u (dev.length_member _)] at h
    split at h
    · exact absurd h (by simp)
    · exact (Except.ok.inj h).symm
  | some given =>
    rw [hgiven, Option.getD_some] at h
    rw [Option.bind_some, h]
    rfl

/-- A record that keeps everything was rebuilt from fields that decoding does not change. -/
theorem rebuildable_of_keeps (hkeep : a.keep = true) (hacc : Acceptable u a)
    (hvalid : recordValid (infoOf dev) = true) {new : Sector}
    (hnew : recordToWrite u a (.ok dev.bytes) = .ok new.bytes) (h : Keeps u a dev new) :
    Rebuildable a dev := by
  obtain ⟨mac, hparse, hbuild⟩ := (recordToWrite_keep hkeep hacc.mac_ne_nil hvalid).mp hnew
  obtain ⟨⟨hserial, hbatch, hfwver, hhwrev, hdate⟩, -⟩ := buildRecord_eq_ok_iff.mp hbuild
  have hlen : mac.length = 6 := (parseMac_eq_ok hparse).1
  have hmember : ∀ m, m ≠ Member.crc32 →
      packed mac _ _ _ _ _ m = (newValue u a m).getD (dev.member m) :=
    fun m hm => (member_buildRecord hlen hbuild hm).symm.trans (h m hm)
  rw [parseMac_getD hparse] at hparse
  exact {
    flags := (hmember .flags (by decide)).symm
    rsv0 := (hmember .rsv0 (by decide)).symm
    rsv1 := (hmember .rsv1 (by decide)).symm
    size := by
      rw [← dev.ofLe_size]
      exact (congrArg Layout.ofLe (hmember .size (by decide))).symm
    mac := (mac_kept_iff hacc).mp hparse
    serial := (field_kept_iff (dev.length_member _) hacc.serial).mp
      ⟨hserial, hmember .serial (by decide)⟩
    batch := (field_kept_iff (dev.length_member _) hacc.batch).mp
      ⟨hbatch, hmember .batch (by decide)⟩
    fwver := (field_kept_iff (dev.length_member _) hacc.fwver).mp
      ⟨hfwver, hmember .fwVersion (by decide)⟩
    hwrev := (field_kept_iff (dev.length_member _) hacc.hwrev).mp
      ⟨hhwrev, hmember .hwRev (by decide)⟩
    date := (field_kept_iff (dev.length_member _) hacc.date).mp
      ⟨hdate, hmember .prodDate (by decide)⟩ }

/-- What decoding does not change is kept. -/
theorem Rebuildable.keeps (hkeep : a.keep = true) (hacc : Acceptable u a)
    (hvalid : recordValid (infoOf dev) = true) (h : Rebuildable a dev) :
    ∃ new : Sector, recordToWrite u a (.ok dev.bytes) = .ok new.bytes ∧ Keeps u a dev new ∧
      prodinfoValid new = true := by
  have hparse := (mac_kept_iff hacc).mpr h.mac
  have hlen := (parseMac_eq_ok hparse).1
  obtain ⟨hmagic, hversion, -⟩ := (recordValid_infoOf dev).mp hvalid
  obtain ⟨hserial, hserial'⟩ :=
    (field_kept_iff (n := 24) (dev.length_member .serial) hacc.serial).mpr h.serial
  obtain ⟨hbatch, hbatch'⟩ :=
    (field_kept_iff (n := 16) (dev.length_member .batch) hacc.batch).mpr h.batch
  obtain ⟨hfwver, hfwver'⟩ :=
    (field_kept_iff (n := 16) (dev.length_member .fwVersion) hacc.fwver).mpr h.fwver
  obtain ⟨hhwrev, hhwrev'⟩ :=
    (field_kept_iff (n := 8) (dev.length_member .hwRev) hacc.hwrev).mpr h.hwrev
  obtain ⟨hdate, hdate'⟩ :=
    (field_kept_iff (n := 12) (dev.length_member .prodDate) hacc.date).mpr h.date
  obtain ⟨new, hnew⟩ := exists_buildRecord ((newValue u a .mac).getD (dev.member .mac))
    ⟨hserial, hbatch, hfwver, hhwrev, hdate⟩
  refine ⟨new, (recordToWrite_keep hkeep hacc.mac_ne_nil hvalid).mpr ⟨_, hparse, hnew⟩, ?_,
    prodinfoValid_of_build hlen hnew⟩
  intro m hm
  rw [member_buildRecord hlen hnew hm]
  cases m with
  | crc32 => exact absurd rfl hm
  | serial => exact hserial'
  | batch => exact hbatch'
  | fwVersion => exact hfwver'
  | hwRev => exact hhwrev'
  | prodDate => exact hdate'
  | mac => rfl
  | flags => exact h.flags.symm
  | rsv0 => exact h.rsv0.symm
  | rsv1 => exact h.rsv1.symm
  | magic =>
    have hround := dev.toLe_member .magic
    rw [dev.ofLe_magic, hmagic] at hround
    exact hround
  | version =>
    have hround := dev.toLe_member .version
    rw [dev.ofLe_version, hversion] at hround
    exact hround
  | size =>
    have hround := dev.toLe_member .size
    rw [dev.ofLe_size, h.size] at hround
    exact hround

/-- With nothing given, a valid record that keeps everything is the same record. -/
theorem Keeps.eq_of_newValue {new : Sector} (h : Keeps u a dev new)
    (hnone : ∀ m, newValue u a m = none) (hnew : prodinfoValid new = true)
    (hvalid : recordValid (infoOf dev) = true) : new = dev := by
  have hmember : ∀ m, m ≠ Member.crc32 → new.member m = dev.member m := by
    intro m hm
    rw [h m hm, hnone, Option.getD_none]
  obtain ⟨-, -, hcrc⟩ := (recordValid_infoOf dev).mp hvalid
  obtain ⟨⟨-, -, hcrc'⟩, -⟩ := (prodinfoValid_eq_true_iff new).mp hnew
  refine ext_member hmember ?_
  rw [← hcrc, ← hcrc', crcBytes_eq_flatten, crcBytes_eq_flatten]
  refine congrArg (fun l => prodinfoCrc32 (List.flatten l)) (List.map_congr_left fun m hm => ?_)
  exact hmember m ((by decide : ∀ m ∈ prefixFields, m ≠ Member.crc32) m hm)

/-- A programmer that works puts the record on the device. -/
theorem cmdWrite_working (hkeep : a.keep = true) {new : Sector}
    (hnew : recordToWrite u a (.ok dev.bytes) = .ok new.bytes) :
    cmdWrite workingSwd u a dev = (.ok (), if a.dryRun then dev else new) := by
  have hread : ∀ s : Sector, swdRead workingSwd s = (.ok s.bytes, s) := by
    intro s
    have hlen : ¬ s.bytes.length < size := by rw [s.length_bytes]; exact lt_irrefl _
    have htake : s.bytes.take size = s.bytes := List.take_of_length_le s.length_bytes.le
    show (if s.bytes.length < size then _ else _) = _
    rw [if_neg hlen, htake]
  have hwrite : workingSwd.write new.bytes dev = (.ok (), new) := dif_pos new.length_bytes
  rw [cmdWrite, if_pos hkeep, hread]
  simp only [hnew]
  unfold flashRecord
  cases hdry : a.dryRun with
  | true => rfl
  | false =>
    rw [hwrite]
    show (if a.noVerify = true then _ else _) = _
    split
    · rfl
    · rw [hread]
      exact if_neg (not_not.mpr rfl)

end Keep

/-- No field is given. -/
def NothingGiven (a : WriteArgs) : Prop :=
  a.mac = none ∧ a.serial = none ∧ a.batch = none ∧ a.fwver = none ∧ a.hwrev = none ∧ a.date = none

theorem NothingGiven.newValue {a : WriteArgs} (h : NothingGiven a) (u : Unicode) (m : Member) :
    newValue u a m = none := by
  obtain ⟨hmac, hserial, hbatch, hfwver, hhwrev, hdate⟩ := h
  cases m <;> simp only [Tool.newValue, hmac, hserial, hbatch, hfwver, hhwrev, hdate,
    Option.bind_none, Option.map_none]

end Tool

/-- The fields of a record with an address, and a first byte of what is reserved at the end. -/
def reservedFields (x : Byte) : List Byte :=
  [0x50, 0x52, 0x4F, 0x44, 1, 0, 128, 0, 0x02, 0x11, 0x22, 0x33, 0x44, 0x55] ++
    List.replicate 78 0 ++ [x] ++ List.replicate 31 0

/-- A record with nothing but an address. -/
def addressed : Sector := Sector.ofFields (reservedFields 0) rfl

/-- A record with a field of its own among the reserved bytes. -/
def newer : Sector := Sector.ofFields (reservedFields 1) rfl

/-- `write --keep`, with nothing but a serial number. -/
def keepSerial : Tool.WriteArgs where
  mac := none
  serial := some "SN0002".toList
  batch := none
  fwver := none
  hwrev := none
  date := none
  keep := true
  noVerify := false
  dryRun := false

theorem keepSerial_acceptable : Tool.Acceptable .ascii keepSerial :=
  ⟨by simp [keepSerial], by simp [keepSerial]; decide, by simp [keepSerial], by simp [keepSerial],
    by simp [keepSerial], by simp [keepSerial]⟩

/-- **`write --keep` keeps everything that is not given** exactly if decoding loses none of it.
The record built over a valid one then has the new values and the old bytes, it is what a
working programmer leaves on the device, and it is the old record if nothing was given. -/
theorem write_keep_iff (u : Tool.Unicode) (a : Tool.WriteArgs) (dev : Sector)
    (hkeep : a.keep = true) (hacc : Tool.Acceptable u a)
    (hvalid : ∃ info, Tool.decodeRecord dev.bytes = .ok info ∧ Tool.recordValid info = true) :
    (∃ new : Sector, Tool.recordToWrite u a (.ok dev.bytes) = .ok new.bytes ∧
      Tool.cmdWrite Tool.workingSwd u a dev = (.ok (), if a.dryRun then dev else new) ∧
      Tool.Keeps u a dev new ∧ (Tool.NothingGiven a → new = dev)) ↔ Tool.Rebuildable a dev := by
  obtain ⟨info, hinfo, hvalid⟩ := hvalid
  obtain rfl := Except.ok.inj (hinfo.symm.trans (Tool.decodeRecord_eq dev))
  constructor
  · rintro ⟨new, hnew, -, hkeeps, -⟩
    exact Tool.rebuildable_of_keeps hkeep hacc hvalid hnew hkeeps
  · intro h
    obtain ⟨new, hnew, hkeeps, hnewValid⟩ := h.keeps hkeep hacc hvalid
    exact ⟨new, hnew, Tool.cmdWrite_working hkeep hnew, hkeeps,
      fun hnone => hkeeps.eq_of_newValue (hnone.newValue u) hnewValid hvalid⟩

theorem write_keep_iff_addressed : ∃ new : Sector,
    Tool.recordToWrite .ascii keepSerial (.ok addressed.bytes) = .ok new.bytes ∧
      Tool.cmdWrite Tool.workingSwd .ascii keepSerial addressed = (.ok (), new) ∧
      Tool.Keeps .ascii keepSerial addressed new := by
  have hvalid := (Tool.recordValid_infoOf addressed).mpr
    ⟨by decide, by decide, Sector.crc32_ofFields _ _⟩
  have hzero : ∀ m ∈ [Member.batch, .fwVersion, .hwRev, .prodDate],
      Tool.Plain (addressed.member m) := by
    intro m hm
    have hm := (by decide : ∀ m ∈ [Member.batch, .fwVersion, .hwRev, .prodDate],
      addressed.member m = List.replicate m.sizeof 0) m hm
    rw [hm]
    exact Tool.plain_replicate _
  have hplain : Tool.Rebuildable keepSerial addressed :=
    ⟨by decide, by decide, by decide, by decide, fun _ => by decide, fun h => absurd h (by decide),
      fun _ => hzero _ (by decide), fun _ => hzero _ (by decide), fun _ => hzero _ (by decide),
      fun _ => hzero _ (by decide)⟩
  obtain ⟨new, hnew, hwrite, hkeeps, -⟩ := (write_keep_iff .ascii keepSerial addressed rfl
    keepSerial_acceptable ⟨_, Tool.decodeRecord_eq addressed, hvalid⟩).mpr hplain
  exact ⟨new, hnew, hwrite, hkeeps⟩

/-- **What is reserved is not kept**: both sides accept the record, and with a new serial number
its reserved byte is gone. -/
theorem reserved_byte_lost :
    Tool.Acceptable .ascii keepSerial ∧
      (∃ info, Tool.decodeRecord newer.bytes = .ok info ∧ Tool.recordValid info = true) ∧
      prodinfoValid newer = true ∧ newer.member .rsv1 = 1 :: List.replicate 31 0 ∧
      (∃ new : Sector, Tool.recordToWrite .ascii keepSerial (.ok newer.bytes) = .ok new.bytes ∧
        new.member .rsv1 = List.replicate 32 0) ∧
      ¬ ∃ new : Sector, Tool.recordToWrite .ascii keepSerial (.ok newer.bytes) = .ok new.bytes ∧
        Tool.Keeps .ascii keepSerial newer new := by
  have hchecked : newer.magic = prodinfoMagic ∧ newer.version = prodinfoVersion ∧
      prodinfoCrc32 newer.crcBytes = newer.crc32 :=
    ⟨by decide, by decide, Sector.crc32_ofFields _ _⟩
  have hvalid := (Tool.recordValid_infoOf newer).mpr hchecked
  have hacc := keepSerial_acceptable
  have hrsv : newer.member .rsv1 = 1 :: List.replicate 31 0 := by decide
  refine ⟨hacc, ⟨_, Tool.decodeRecord_eq newer, hvalid⟩,
    (prodinfoValid_eq_true_iff newer).mpr ⟨hchecked, by decide⟩, hrsv, ?_, ?_⟩
  · have hparse : Tool.parseMac .ascii (Tool.macText (newer.member .mac)) =
        .ok (newer.member .mac) := (Tool.mac_kept_iff hacc).mpr fun _ => by decide
    obtain ⟨new, hnew⟩ := Tool.exists_buildRecord _ (by decide : Tool.AllFit "SN0002".toList
      (Tool.txt (newer.member .batch)) (Tool.txt (newer.member .fwVersion))
      (Tool.txt (newer.member .hwRev)) (Tool.txt (newer.member .prodDate)))
    exact ⟨new, (Tool.recordToWrite_keep rfl hacc.mac_ne_nil hvalid).mpr ⟨_, hparse, hnew⟩,
      Tool.member_buildRecord (Tool.parseMac_eq_ok hparse).1 hnew (by decide)⟩
  · rintro ⟨new, hnew, hkeeps⟩
    have h := Tool.rebuildable_of_keeps rfl hacc hvalid hnew hkeeps
    exact absurd (hrsv.symm.trans h.rsv1) (by decide)

end Usb2T1L
