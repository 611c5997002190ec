import NeoRuntime.Ota.Package
import NeoRuntime.Ota.Flash
import Mathlib.Data.List.FinRange

/-!
# The OTA record

The record page of the OTA module (ota_module.h, ota_record_default.c): for every slot its status,
its verify count and where it lies.  The record is packed, with one byte for an enumeration; it is
valid if it starts with the magic number and ends with the CRC of the rest.

`Layout` is the partition of the flash: the record page and one slot, or two with `OTA_IS_DUAL_APP`.
-/

namespace NeoRuntime.Ota

def otaInfoMagic : UInt32 := otaPackageMagic
def otaAppMaxVerifyCount : UInt32 := 3

/-- `ota_app_status_t`, with the bytes that stand for no status. -/
inductive AppStatus where
  | invalid
  | downloading
  | unverified
  | active
  | backup
  | other (b : UInt8) (unknown : 5 ≤ b)
  deriving DecidableEq, Repr

namespace AppStatus

def toByte : AppStatus → UInt8
  | invalid => 0
  | downloading => 1
  | unverified => 2
  | active => 3
  | backup => 4
  | other b _ => b

def ofByte (b : UInt8) : AppStatus :=
  if unknown : 5 ≤ b then other b unknown
  else if b = 0 then invalid
  else if b = 1 then downloading
  else if b = 2 then unverified
  else if b = 3 then active
  else backup

@[simp] theorem ofByte_toByte (s : AppStatus) : ofByte s.toByte = s := by
  cases s with
  | other b unknown => simp [toByte, ofByte, unknown]
  | _ => decide

end AppStatus

/-- `ota_flash_type_t`, with the bytes that stand for no type. -/
inductive FlashType where
  | internal
  | external
  | ram
  | other (b : UInt8) (unknown : 3 ≤ b)
  deriving DecidableEq, Repr

namespace FlashType

def toByte : FlashType → UInt8
  | internal => 0
  | external => 1
  | ram => 2
  | other b _ => b

def ofByte (b : UInt8) : FlashType :=
  if unknown : 3 ≤ b then other b unknown
  else if b = 0 then internal
  else if b = 1 then external
  else ram

@[simp] theorem ofByte_toByte (t : FlashType) : ofByte t.toByte = t := by
  cases t with
  | other b unknown => simp [toByte, ofByte, unknown]
  | _ => decide

end FlashType

/-- `ota_app_info_t`. -/
structure AppInfo where
  status : AppStatus
  verifyCount : UInt32
  flashType : FlashType
  flashAddr : UInt32
  flashSize : UInt32
  deriving DecidableEq, Repr

namespace AppInfo

/-- `sizeof(ota_app_info_t)`. -/
def size : ℕ := 14

def toBytes (a : AppInfo) : List UInt8 :=
  a.status.toByte :: (le32 a.verifyCount ++ a.flashType.toByte :: (le32 a.flashAddr ++ le32 a.flashSize))

def ofBytes (raw : List UInt8) : AppInfo where
  status := .ofByte (raw.getD 0 0)
  verifyCount := readLe32 (raw.drop 1)
  flashType := .ofByte (raw.getD 5 0)
  flashAddr := readLe32 (raw.drop 6)
  flashSize := readLe32 (raw.drop 10)

@[simp] theorem length_toBytes (a : AppInfo) : a.toBytes.length = size := by
  simp [toBytes, size]

end AppInfo

/-- `ota_record_info_t` with `n` OTA slots and no factory slot. -/
structure OtaRecord (n : ℕ) where
  magic : UInt32
  apps : Fin n → AppInfo
  bootYmodemFlag : UInt32
  infoCrc32 : UInt32
  deriving DecidableEq

namespace OtaRecord

variable {n : ℕ}

/-- `sizeof(ota_record_info_t)`. -/
def size (n : ℕ) : ℕ := 12 + n * AppInfo.size

variable (r : OtaRecord n)

def body : List UInt8 :=
  le32 r.magic ++ ((List.ofFn r.apps).flatMap AppInfo.toBytes ++ le32 r.bootYmodemFlag)

def toBytes : List UInt8 := r.body ++ le32 r.infoCrc32

def ofBytes (n : ℕ) (raw : List UInt8) : OtaRecord n where
  magic := readLe32 raw
  apps := fun i => .ofBytes (raw.drop (4 + i * AppInfo.size))
  bootYmodemFlag := readLe32 (raw.drop (4 + n * AppInfo.size))
  infoCrc32 := readLe32 (raw.drop (8 + n * AppInfo.size))

def firstWith (status : AppStatus) : Option (Fin n) :=
  (List.finRange n).find? fun i => (r.apps i).status = status

/-- The record with one slot's status set and its verify count cleared. -/
def setStatus (i : Fin n) (status : AppStatus) : OtaRecord n :=
  { r with apps := fun j =>
      if j = i then { r.apps i with status := status, verifyCount := 0 } else r.apps j }

def chooseTargetOtaSlot : Option (Fin n) :=
  (r.firstWith .downloading).or <| (r.firstWith .invalid).or <| (r.firstWith .backup).or <|
    if single : n = 1 then some ⟨0, by omega⟩ else none

def chooseBootCandidateOtaSlot : Option (Fin n) :=
  (r.firstWith .unverified).or <| (r.firstWith .active).or <| r.firstWith .backup

/-- What `mark_verified_promote_unverified_ota_slot` finds. -/
inductive Promotion (n : ℕ) where
  | store (r : OtaRecord n)
  | unchanged
  | error

def markVerifiedPromoteUnverifiedOtaSlot : Promotion n :=
  match r.firstWith .unverified with
  | none => if (r.firstWith .active).isSome then .unchanged else .error
  | some uv =>
      let apps := fun i =>
        if i = uv then { r.apps i with status := .active, verifyCount := 0 }
        else if (r.apps i).status = .active ∨ (r.apps i).status = .unverified then
          { r.apps i with status := .backup, verifyCount := 0 }
        else r.apps i
      .store { r with apps := apps }

end OtaRecord

/-- A partition of the flash into the record page and the slots, all on sector boundaries. -/
structure Layout where
  count : ℕ
  one_or_two : count = 1 ∨ count = 2
  recordAddr : UInt32
  sectorSize : UInt32
  appAddr : Fin count → UInt32
  appSize : UInt32
  sector_words : sectorSize.toNat % 8 = 0
  record_fits : OtaRecord.size count ≤ sectorSize.toNat
  record_aligned : recordAddr.toNat % sectorSize.toNat = 0
  record_end : recordAddr.toNat + 2 * sectorSize.toNat ≤ 2 ^ 32
  app_aligned : ∀ i, (appAddr i).toNat % sectorSize.toNat = 0
  appSize_aligned : appSize.toNat % sectorSize.toNat = 0
  app_end : ∀ i, (appAddr i).toNat + appSize.toNat + sectorSize.toNat ≤ 2 ^ 32
  record_apart : ∀ i, recordAddr.toNat + sectorSize.toNat ≤ (appAddr i).toNat ∨
    (appAddr i).toNat + appSize.toNat ≤ recordAddr.toNat
  apps_apart : ∀ i j, i ≠ j → (appAddr i).toNat + appSize.toNat ≤ (appAddr j).toNat ∨
    (appAddr j).toNat + appSize.toNat ≤ (appAddr i).toNat

namespace Layout

/-- The layout of ota_module_config.h, with 2 KiB pages. -/
def board : Layout where
  count := 1
  one_or_two := .inl rfl
  recordAddr := 0x08000000 + 56 * 1024
  sectorSize := 2048
  appAddr := fun _ => 0x08000000 + 56 * 1024 + 4 * 1024 + 4 * 1024
  appSize := 448 * 1024
  sector_words := by decide
  record_fits := by decide
  record_aligned := by decide
  record_end := by decide
  app_aligned := by decide
  appSize_aligned := by decide
  app_end := by decide
  record_apart := by decide
  apps_apart := by decide

def slot0 (L : Layout) : Fin L.count := ⟨0, by cases L.one_or_two <;> omega⟩

/-- `sizeof(ota_record_info_t)`. -/
def recordSize (L : Layout) : ℕ := OtaRecord.size L.count

/-- `ota_record_default_info`. -/
def defaultRecord (L : Layout) : OtaRecord L.count where
  magic := otaInfoMagic
  apps := fun i =>
    { status := if i = L.slot0 then .active else .invalid
      verifyCount := 0
      flashType := .internal
      flashAddr := L.appAddr i
      flashSize := L.appSize }
  bootYmodemFlag := 0
  infoCrc32 := 0

end Layout

end NeoRuntime.Ota
