/-
  DosMcp.Dos.Install — `ratsr_install.h`, and the record in it on its way from the RA-TSR loader
  to the resident core: `encode_install_environment` of `ratsr_loader.c` and
  `load_install_config` of `ragent.c`.

  The record is packed, so its memory image (`packed`) and it determine each other. The core
  takes the text of an image whose checks hold and nothing else (`loadInstallConfig_eq_some`).
-/

import DosMcp.Dos.MtcpConfig
import DosMcp.Dos.ProtoProofs
import DosMcp.Lib.Block
import DosMcp.Protocol.Damage

namespace DosMcp.Dos

open Lib

def ratsrInstallMagic : UInt16 := 0x5241
def ratsrInstallVersion : UInt16 := 1
def ratsrPathMax : Nat := 127
def ratsrNameMax : Nat := 31

def ratsrInstallRead : UInt8 := 0x01
def ratsrInstallWrite : UInt8 := 0x02
def ratsrInstallAllDrives : UInt8 := 0x04
def ratsrInstallOpenMode : UInt8 := 0x08

structure RatsrInstallConfig where
  magic : UInt16
  version : UInt16
  size : UInt16
  crc16 : UInt16
  key : Block 16
  ip : Block 4
  port : UInt16
  packetInterrupt : UInt8
  flags : UInt8
  rootLength : UInt8
  nameLength : UInt8
  root : Block 128
  name : Block 32
  deriving DecidableEq

/-- `sizeof(ratsr_install_config)`. -/
def ratsrInstallSize : Nat := 194

namespace RatsrInstallConfig

/-- The bytes of the packed record. -/
def bytes (c : RatsrInstallConfig) : Bytes :=
  dmPutU16 c.magic ++ (dmPutU16 c.version ++ (dmPutU16 c.size ++ (dmPutU16 c.crc16 ++ (c.key.val ++ (c.ip.val ++
    (dmPutU16 c.port ++ ([c.packetInterrupt, c.flags, c.rootLength, c.nameLength] ++ (c.root.val ++ c.name.val))))))))

theorem bytes_length (c : RatsrInstallConfig) : c.bytes.length = ratsrInstallSize := by
  simp only [bytes, List.length_append, dmPutU16, List.length_cons, List.length_nil, c.key.property, c.ip.property,
    c.root.property, c.name.property]
  rfl

def image (c : RatsrInstallConfig) : Block ratsrInstallSize := ⟨c.bytes, c.bytes_length⟩

/-- The record at an address. -/
def ofImage (b : Block ratsrInstallSize) : RatsrInstallConfig where
  magic := dmGetU16 b.val 0
  version := dmGetU16 b.val 2
  size := dmGetU16 b.val 4
  crc16 := dmGetU16 b.val 6
  key := b.part 8 16 (Nat.le_of_ble_eq_true rfl)
  ip := b.part 24 4 (Nat.le_of_ble_eq_true rfl)
  port := dmGetU16 b.val 28
  packetInterrupt := byteAt b.val 30
  flags := byteAt b.val 31
  rootLength := byteAt b.val 32
  nameLength := byteAt b.val 33
  root := b.part 34 128 (Nat.le_of_ble_eq_true rfl)
  name := b.part 162 32 (Nat.le_of_ble_eq_true rfl)

/-- `memset(&install_config, 0, sizeof(install_config))`. -/
def zero : RatsrInstallConfig := ofImage (Block.zero _)

end RatsrInstallConfig

/-! ## `encode_install_environment` -/

/-- The environment variable of the record, with its `=`. -/
def installEnv : List Char := "RATSR_CONFIG=".toList

def installDigits : List Char := "0123456789ABCDEF".toList

def hexText (bs : Bytes) : List Char := bs.flatMap fun b : UInt8 =>
  [installDigits.getD (b >>> 4).toNat '0', installDigits.getD (b &&& 0x0F).toNat '0']

def encodeInstallEnvironment (c : RatsrInstallConfig) : List Char := installEnv ++ hexText c.image.val

/-! ## `load_install_config` -/

/-- The value of a variable, a C string in the environment. -/
def getenv (environment : List (List Char)) (name : List Char) : Option (List Char) :=
  environment.findSome? fun entry =>
    if (name ++ ['=']).isPrefixOf entry then some (textString (entry.drop (name.length + 1))) else none

/-- A digit of the text, none other than a capital letter. -/
def nibble? (character : Char) : Option UInt8 :=
  if '0' ≤ character ∧ character ≤ '9' then some (UInt8.ofNat (character.toNat - 0x30))
  else if 'A' ≤ character ∧ character ≤ 'F' then some (UInt8.ofNat (character.toNat - 0x41 + 10))
  else none

/-- `n` bytes, two digits each. -/
def readBytes : (n : Nat) → List Char → Option (Block n)
  | 0, _ => some ⟨[], rfl⟩
  | n + 1, first :: second :: source => do
    let high ← nibble? first
    let low ← nibble? second
    let rest ← readBytes n source
    some (rest.cons ((high <<< 4) ||| low))
  | _ + 1, _ => none

/-- The checks on the fields, but for the CRC. -/
def RatsrInstallConfig.checked (c : RatsrInstallConfig) : Bool :=
  c.magic = ratsrInstallMagic ∧ c.version = ratsrInstallVersion ∧ c.size.toNat = ratsrInstallSize ∧ c.port ≠ 0 ∧
    c.packetInterrupt ≠ 0 ∧ c.rootLength ≠ 0 ∧ c.rootLength.toNat ≤ ratsrPathMax ∧ c.nameLength ≠ 0 ∧
    c.nameLength.toNat ≤ ratsrNameMax ∧ byteAt c.root.val c.rootLength.toNat = 0 ∧ byteAt c.name.val c.nameLength.toNat = 0 ∧
    c.flags &&& ~~~(ratsrInstallRead ||| ratsrInstallWrite ||| ratsrInstallAllDrives ||| ratsrInstallOpenMode) = 0 ∧
    (∀ index < c.rootLength.toNat, byteAt c.root.val index ≠ 0) ∧
    ∀ index < c.nameLength.toNat, 33 ≤ byteAt c.name.val index ∧ byteAt c.name.val index ≤ 126

/-- `none` where it returns -1. -/
def loadInstallConfig (environment : List (List Char)) : Option RatsrInstallConfig := do
  let source ← getenv environment "RATSR_CONFIG".toList
  if source.length ≠ ratsrInstallSize * 2 then none
  else do
    let image ← readBytes ratsrInstallSize source
    let configuration := RatsrInstallConfig.ofImage image
    let expectedCrc := configuration.crc16
    let configuration := { configuration with crc16 := 0 }
    if ¬ configuration.checked ∨ dmCrc16Ccitt configuration.image.val ≠ expectedCrc then none
    else some { configuration with crc16 := expectedCrc }

/-! ## The image -/

theorem dmPutU16_dmGetU16 {bs : Bytes} {i : Nat} (h : i + 2 ≤ bs.length) : dmPutU16 (dmGetU16 bs i) = slice bs i 2 := by
  rw [dmPutU16_eq, dmGetU16_toNat (by omega), leBytes_leNat_slice h]

theorem dmPutU16_inj {a b : UInt16} (h : dmPutU16 a = dmPutU16 b) : a = b := by
  have hvalue := congrArg leNat h
  rw [dmPutU16_eq, dmPutU16_eq, leNat_leBytes a.toNat_lt, leNat_leBytes b.toNat_lt] at hvalue
  exact UInt16.toNat_inj.mp hvalue

namespace RatsrInstallConfig

theorem image_ofImage (b : Block ratsrInstallSize) : (ofImage b).image = b := by
  have hsize : b.val.length = 194 := b.property
  apply Subtype.ext
  show (ofImage b).bytes = b.val
  simp only [bytes, ofImage, Block.part]
  rw [dmPutU16_dmGetU16 (by omega), dmPutU16_dmGetU16 (by omega), dmPutU16_dmGetU16 (by omega), dmPutU16_dmGetU16 (by omega),
    dmPutU16_dmGetU16 (by omega), ← slice_four (by omega)]
  rw [slice_append_slice _ rfl rfl, slice_append_slice _ rfl rfl, slice_append_slice _ rfl rfl, slice_append_slice _ rfl rfl,
    slice_append_slice _ rfl rfl, slice_append_slice _ rfl rfl, slice_append_slice _ rfl rfl, slice_append_slice _ rfl rfl,
    slice_append_slice _ rfl rfl, slice_zero_eq_take, List.take_of_length_le (by omega)]

theorem image_injective {c c' : RatsrInstallConfig} (h : c.image = c'.image) : c = c' := by
  have hbytes : c.bytes = c'.bytes := congrArg Subtype.val h
  obtain ⟨hmagic, h⟩ := List.append_inj hbytes rfl
  obtain ⟨hversion, h⟩ := List.append_inj h rfl
  obtain ⟨hsize, h⟩ := List.append_inj h rfl
  obtain ⟨hcrc, h⟩ := List.append_inj h rfl
  obtain ⟨hkey, h⟩ := List.append_inj h (c.key.property.trans c'.key.property.symm)
  obtain ⟨hip, h⟩ := List.append_inj h (c.ip.property.trans c'.ip.property.symm)
  obtain ⟨hport, h⟩ := List.append_inj h rfl
  obtain ⟨hbyte, h⟩ := List.append_inj h rfl
  obtain ⟨hroot, hname⟩ := List.append_inj h (c.root.property.trans c'.root.property.symm)
  simp only [List.cons.injEq, and_true] at hbyte
  cases c
  cases c'
  simp only [mk.injEq]
  exact ⟨dmPutU16_inj hmagic, dmPutU16_inj hversion, dmPutU16_inj hsize, dmPutU16_inj hcrc, Subtype.ext hkey, Subtype.ext hip,
    dmPutU16_inj hport, hbyte.1, hbyte.2.1, hbyte.2.2.1, hbyte.2.2.2, Subtype.ext hroot, Subtype.ext hname⟩

theorem ofImage_image (c : RatsrInstallConfig) : ofImage c.image = c := image_injective (image_ofImage c.image)

end RatsrInstallConfig

/-! ## The text -/

/-- The two digits of a byte. -/
def hexPair (b : UInt8) : List Char := [installDigits.getD (b >>> 4).toNat '0', installDigits.getD (b &&& 0x0F).toNat '0']

theorem hexText_cons (b : UInt8) (bs : Bytes) : hexText (b :: bs) = hexPair b ++ hexText bs := rfl

theorem hexText_length (bs : Bytes) : (hexText bs).length = bs.length * 2 := by
  induction bs with
  | nil => rfl
  | cons b bs ih =>
    rw [hexText_cons, List.length_append, ih, List.length_cons]
    simp only [hexPair, List.length_cons, List.length_nil]
    omega

theorem nibble?_digit {d : Nat} (h : d < 16) : nibble? (installDigits.getD d '0') = some (UInt8.ofNat d) := by
  revert d
  decide

/-- A digit is the character it is written as. -/
theorem digit_of_nibble? {c : Char} {d : UInt8} (h : nibble? c = some d) : d.toNat < 16 ∧ installDigits.getD d.toNat '0' = c := by
  have hle : ∀ {a b : Char}, a ≤ b → a.toNat ≤ b.toNat := fun h => UInt32.le_iff_toNat_le.mp (Char.le_def.mp h)
  have hdecimal : ∀ k < 10, installDigits.getD k '0' = Char.ofNat (0x30 + k) := by decide
  have hletter : ∀ k < 6, installDigits.getD (k + 10) '0' = Char.ofNat (0x41 + k) := by decide
  unfold nibble? at h
  split at h
  · rename_i hc
    have h0 : 0x30 ≤ c.toNat := hle hc.1
    have h9 : c.toNat ≤ 0x39 := hle hc.2
    cases h
    rw [UInt8.toNat_ofNat_of_lt' (by rw [UInt8.size]; omega), hdecimal _ (by omega), Nat.add_sub_cancel' h0, Char.ofNat_toNat]
    exact ⟨by omega, rfl⟩
  · split at h
    · rename_i hc
      have hA : 0x41 ≤ c.toNat := hle hc.1
      have hF : c.toNat ≤ 0x46 := hle hc.2
      cases h
      rw [UInt8.toNat_ofNat_of_lt' (by rw [UInt8.size]; omega), hletter _ (by omega), Nat.add_sub_cancel' hA, Char.ofNat_toNat]
      exact ⟨by omega, rfl⟩
    · cases h

theorem nibbles_of_byte (b : UInt8) : (b >>> 4).toNat < 16 ∧ (b &&& 0x0F).toNat < 16 ∧ (b >>> 4) <<< 4 ||| (b &&& 0x0F) = b := by
  have h : ∀ n < 256, (UInt8.ofNat n >>> 4).toNat < 16 ∧ (UInt8.ofNat n &&& 0x0F).toNat < 16 ∧
      (UInt8.ofNat n >>> 4) <<< 4 ||| (UInt8.ofNat n &&& 0x0F) = UInt8.ofNat n := by decide +kernel
  have := h b.toNat b.toNat_lt
  rwa [UInt8.ofNat_toNat] at this

theorem byte_of_nibbles {high low : UInt8} (hhigh : high.toNat < 16) (hlow : low.toNat < 16) :
    (high <<< 4 ||| low) >>> 4 = high ∧ (high <<< 4 ||| low) &&& 0x0F = low := by
  have h : ∀ m < 16, ∀ n < 16, (UInt8.ofNat m <<< 4 ||| UInt8.ofNat n) >>> 4 = UInt8.ofNat m ∧
      (UInt8.ofNat m <<< 4 ||| UInt8.ofNat n) &&& 0x0F = UInt8.ofNat n := by decide +kernel
  have := h high.toNat hhigh low.toNat hlow
  rwa [UInt8.ofNat_toNat, UInt8.ofNat_toNat] at this

theorem readBytes_hexText {n : Nat} (b : Block n) : readBytes n (hexText b.val) = some b := by
  obtain ⟨bs, hbs⟩ := b
  induction bs generalizing n with
  | nil =>
    subst hbs
    rfl
  | cons x bs ih =>
    subst hbs
    obtain ⟨hhigh, hlow, hbyte⟩ := nibbles_of_byte x
    simp only [hexText_cons, hexPair, List.cons_append, List.nil_append, List.length_cons, readBytes, nibble?_digit hhigh,
      nibble?_digit hlow, UInt8.ofNat_toNat, Option.bind_eq_bind, Option.bind_some, ih rfl, hbyte]
    rfl

/-- The text of an image is the only one of its length that is read as the image. -/
theorem hexText_of_readBytes {n : Nat} {source : List Char} {b : Block n} (hlength : source.length = n * 2)
    (h : readBytes n source = some b) : hexText b.val = source := by
  induction n generalizing source with
  | zero =>
    cases h
    exact (List.eq_nil_of_length_eq_zero (by omega)).symm
  | succ n ih =>
    match source, hlength with
    | first :: second :: source, hlength =>
      rw [readBytes] at h
      cases hhigh : nibble? first with
      | none =>
        rw [hhigh] at h
        cases h
      | some high =>
        cases hlow : nibble? second with
        | none =>
          rw [hhigh, hlow] at h
          cases h
        | some low =>
          cases hrest : readBytes n source with
          | none =>
            rw [hhigh, hlow, hrest] at h
            cases h
          | some rest =>
            rw [hhigh, hlow, hrest] at h
            cases h
            obtain ⟨hhigh16, hfirst⟩ := digit_of_nibble? hhigh
            obtain ⟨hlow16, hsecond⟩ := digit_of_nibble? hlow
            obtain ⟨hshift, hmask⟩ := byte_of_nibbles hhigh16 hlow16
            simp only [List.length_cons] at hlength
            have htail := ih (by omega) hrest
            show hexPair (high <<< 4 ||| low) ++ hexText rest.val = first :: second :: source
            rw [hexPair, hshift, hmask, hfirst, hsecond, htail]
            rfl

theorem hexText_append (as bs : Bytes) : hexText (as ++ bs) = hexText as ++ hexText bs := List.flatMap_append

theorem hexText_take (bs : Bytes) (k : Nat) : hexText (bs.take k) = (hexText bs).take (k * 2) := by
  by_cases hk : k ≤ bs.length
  · have hlength : (hexText (bs.take k)).length = k * 2 := by rw [hexText_length, List.length_take, Nat.min_eq_left hk]
    conv_rhs => rw [← List.take_append_drop k bs, hexText_append, List.take_left' hlength]
  · rw [List.take_of_length_le (by omega), List.take_of_length_le (by rw [hexText_length]; omega)]

theorem hexText_drop (bs : Bytes) (k : Nat) : hexText (bs.drop k) = (hexText bs).drop (k * 2) := by
  by_cases hk : k ≤ bs.length
  · have hlength : (hexText (bs.take k)).length = k * 2 := by rw [hexText_length, List.length_take, Nat.min_eq_left hk]
    conv_rhs => rw [← List.take_append_drop k bs, hexText_append, List.drop_left' hlength]
  · rw [List.drop_of_length_le (by omega), List.drop_of_length_le (by rw [hexText_length]; omega)]
    rfl

theorem hexText_injective {bs bs' : Bytes} (h : hexText bs = hexText bs') : bs = bs' := by
  have hlength := congrArg List.length h
  rw [hexText_length, hexText_length] at hlength
  have hread := readBytes_hexText (⟨bs, by omega⟩ : Block bs'.length)
  rw [h, readBytes_hexText (⟨bs', rfl⟩ : Block bs'.length)] at hread
  exact (congrArg Subtype.val (Option.some.inj hread)).symm

/-- Texts that differ in one character are those of images that differ in one byte. -/
theorem damaged_of_hexText {n : Nat} {b b' : Block n} {i : Nat} (h : Damaged i 1 (hexText b.val) (hexText b'.val)) :
    Damaged (i / 2) 1 b.val b'.val := by
  refine Damaged.of_take_drop (b.property.trans b'.property.symm) (fun heq => h.differ (congrArg hexText heq)) ?_ ?_
  · apply hexText_injective
    rw [hexText_take, hexText_take]
    exact h.take_eq (by omega)
  · apply hexText_injective
    rw [hexText_drop, hexText_drop]
    exact h.drop_eq (by omega)

/-! ## What the core accepts -/

/-- The CRC field is the CRC of the record with a zero in that field. -/
def RatsrInstallConfig.Sealed (c : RatsrInstallConfig) : Prop := dmCrc16Ccitt { c with crc16 := 0 }.image.val = c.crc16

theorem loadInstallConfig_eq_some {environment : List (List Char)} {c : RatsrInstallConfig} :
    loadInstallConfig environment = some c ↔
      getenv environment "RATSR_CONFIG".toList = some (hexText c.image.val) ∧ c.checked ∧ c.Sealed := by
  unfold loadInstallConfig
  constructor
  · intro h
    cases hvalue : getenv environment "RATSR_CONFIG".toList with
    | none =>
      rw [hvalue] at h
      cases h
    | some source =>
      rw [hvalue] at h
      simp only [Option.bind_eq_bind, Option.bind_some] at h
      split at h
      · cases h
      rename_i hlength
      cases hread : readBytes ratsrInstallSize source with
      | none =>
        rw [hread] at h
        cases h
      | some image =>
        rw [hread] at h
        simp only [Option.bind_some] at h
        split at h
        · cases h
        rename_i hvalid
        simp only [not_or, not_not] at hvalid
        cases h
        refine ⟨?_, hvalid⟩
        rw [← hexText_of_readBytes (not_not.mp hlength) hread, ← RatsrInstallConfig.image_ofImage image]
        rw [RatsrInstallConfig.ofImage_image]
  · rintro ⟨hvalue, hchecked, hsealed⟩
    have hlength : (hexText c.image.val).length = ratsrInstallSize * 2 := by rw [hexText_length, c.image.property]
    rw [hvalue]
    simp only [Option.bind_eq_bind, Option.bind_some, hlength, ne_eq, not_true_eq_false, if_false, readBytes_hexText,
      RatsrInstallConfig.ofImage_image]
    rw [if_neg]
    simp only [not_or, not_not]
    exact ⟨hchecked, hsealed⟩

theorem RatsrInstallConfig.bytes_crc16 (c : RatsrInstallConfig) (crc : UInt16) :
    { c with crc16 := crc }.bytes = c.bytes.take 6 ++ dmPutU16 crc ++ c.bytes.drop 8 := by
  rfl

theorem dmCrc16Ccitt_damaged {i : Nat} {as bs : Bytes} (h : Damaged i 1 as bs) : dmCrc16Ccitt as ≠ dmCrc16Ccitt bs := by
  intro heq
  have hvalue := congrArg UInt16.toNat heq
  rw [dmCrc16Ccitt_toNat, dmCrc16Ccitt_toNat] at hvalue
  exact crc16Ccitt_damaged (by decide) h hvalue

/-- No two sealed records differ in one byte: not outside the CRC field, where the CRC of the
    rest would differ, and not inside it, where it would not. -/
theorem RatsrInstallConfig.Sealed.not_damaged {c c' : RatsrInstallConfig} (h : c.Sealed) (h' : c'.Sealed) (i : Nat) :
    ¬ Damaged i 1 c.image.val c'.image.val := by
  intro hdamaged
  have hunsealed : { c with crc16 := 0 }.image.val = c.bytes.take 6 ++ dmPutU16 0 ++ c.bytes.drop 8 := c.bytes_crc16 0
  have hunsealed' : { c' with crc16 := 0 }.image.val = c'.bytes.take 6 ++ dmPutU16 0 ++ c'.bytes.drop 8 := c'.bytes_crc16 0
  have hfield : ∀ c : RatsrInstallConfig, dmPutU16 c.crc16 = slice c.bytes 6 2 := fun c => rfl
  have hdamaged : Damaged i 1 c.bytes c'.bytes := hdamaged
  by_cases hi : i = 6 ∨ i = 7
  · have htake : c.bytes.take 6 = c'.bytes.take 6 := hdamaged.take_eq (by omega)
    have hdrop : c.bytes.drop 8 = c'.bytes.drop 8 := hdamaged.drop_eq (by omega)
    have hcrc : c.crc16 = c'.crc16 := by rw [← h, ← h', hunsealed, hunsealed', htake, hdrop]
    apply hdamaged.differ
    calc c.bytes = c.bytes.take 6 ++ dmPutU16 c.crc16 ++ c.bytes.drop 8 := c.bytes_crc16 c.crc16
      _ = c'.bytes.take 6 ++ dmPutU16 c'.crc16 ++ c'.bytes.drop 8 := by rw [htake, hcrc, hdrop]
      _ = c'.bytes := (c'.bytes_crc16 c'.crc16).symm
  · have hcrc : c.crc16 = c'.crc16 := by
      apply dmPutU16_inj
      rw [hfield, hfield]
      exact hdamaged.slice_eq (by omega)
    have hspared : 6 + 2 ≤ i ∨ i + 1 ≤ 6 := by omega
    have hwidth : (dmPutU16 0).length = 2 := rfl
    have hrest := hdamaged.replace hspared hwidth (by rw [c.bytes_length]; decide)
    rw [← hunsealed, ← hunsealed'] at hrest
    exact dmCrc16Ccitt_damaged hrest (by rw [h, h', hcrc])

end DosMcp.Dos
