import NeoRuntime.Lib.Bytes

/-!
# The OTA package header

The packed header at the start of an OTA package (boot/ota_module/inc/ota_module.h).
-/

namespace NeoRuntime.Ota

def otaPackageMagic : UInt32 := 0x5441544F
def otaPackageVersionMaxLen : ℕ := 32

/-- `sizeof(ota_package_header_t)`. -/
def packageHeaderSize : ℕ := 56

structure OtaPackageHeader where
  magic : UInt32
  buildTimestamp : UInt32
  appOffset : UInt32
  appSize : UInt32
  appCrc32 : UInt32
  appVersion : Vector UInt8 otaPackageVersionMaxLen
  headerCrc32 : UInt32
  deriving DecidableEq

namespace OtaPackageHeader

variable (h : OtaPackageHeader)

def body : List UInt8 :=
  le32 h.magic ++ le32 h.buildTimestamp ++ le32 h.appOffset ++ le32 h.appSize ++
    le32 h.appCrc32 ++ h.appVersion.toList

def toBytes : List UInt8 := h.body ++ le32 h.headerCrc32

def ofBytes (raw : List UInt8) : OtaPackageHeader where
  magic := readLe32 raw
  buildTimestamp := readLe32 (raw.drop 4)
  appOffset := readLe32 (raw.drop 8)
  appSize := readLe32 (raw.drop 12)
  appCrc32 := readLe32 (raw.drop 16)
  appVersion := Vector.ofFn fun i => raw.getD (20 + i) 0
  headerCrc32 := readLe32 (raw.drop 52)

/-- `app_offset + app_size` in 32 bits. -/
def total : UInt32 := h.appOffset + h.appSize

@[simp] theorem length_body : h.body.length = 52 := by
  simp only [body, List.length_append, length_le32, Vector.length_toList]
  rfl

@[simp] theorem length_toBytes : h.toBytes.length = packageHeaderSize := by
  simp [toBytes, packageHeaderSize]

end OtaPackageHeader

end NeoRuntime.Ota
