import NeoRuntime.Lib.Prog
import NeoRuntime.Lib.Run
import NeoRuntime.Ota.Record

/-!
# The OTA module

The functions of ota_module.c as programs over the platform's flash functions, so that power may be
lost between any two of these calls.  The platform is the STM32G0 port (`portHandler`) with any
CRC-32 function.

A slot is *complete* while it holds the initial image, or after `ota_module_ota_download_finish` has
compared its CRC (`crcMatched`), until it is erased or written.  A jump is recorded with whether its
slot was complete.
-/

namespace NeoRuntime.Ota

open Prog

/-- `ota_module_err_t`. -/
inductive OtaErr where
  | ok
  | invalidArg
  | notInit
  | alreadyInProgress
  | flashOp
  | recordIo
  | recordInvalid
  | packageMagic
  | packageHeaderCrc
  | slotUnavailable
  | flashSize
  | sessionMismatch
  | offsetMismatch
  | sizeMismatch
  | appStatus
  | crcMismatch
  | noBootCandidate
  | jumpFailed
  deriving DecidableEq, Repr

/-- The functions of `ota_module_config_t`.  A failed read is `none`; the slot of a jump and
`crcMatched` are only recorded. -/
inductive FlashOp (L : Layout) : Type → Type where
  | read (type : FlashType) (addr size : UInt32) : FlashOp L (Option (List UInt8))
  | write (type : FlashType) (addr : UInt32) (data : List UInt8) : FlashOp L Bool
  | erase (type : FlashType) (addr size : UInt32) : FlashOp L Bool
  | jump (slot : Fin L.count) (entry : UInt32) : FlashOp L Bool
  | crcMatched (slot : Fin L.count) : FlashOp L Unit

/-- A call of `jump_func`. -/
structure Jump (L : Layout) where
  slot : Fin L.count
  entry : UInt32
  complete : Bool

/-- The platform: the flash, which slots are complete, and the jumps so far. -/
structure World (L : Layout) where
  flash : Flash
  complete : Fin L.count → Bool
  jumps : List (Jump L)

/-- The slot and a range of addresses have a byte in common. -/
def Layout.meets (L : Layout) (i : Fin L.count) (start length : ℕ) : Bool :=
  0 < length ∧ start < (L.appAddr i).toNat + L.appSize.toNat ∧ (L.appAddr i).toNat < start + length

namespace World

variable {L : Layout}

/-- The slots that a write leaves complete; it may program the cached double word as well. -/
def afterWrite (w : World L) (addr size : UInt32) : Fin L.count → Bool := fun i =>
  w.complete i && !L.meets i addr.toNat ((addr + size).toNat - addr.toNat) &&
    !(w.flash.cache.any fun c => L.meets i c.addr 8)

/-- The complete slots that an erase leaves so. -/
def afterErase (w : World L) (addr size : UInt32) : Fin L.count → Bool := fun i =>
  w.complete i &&
    !L.meets i (alignDown addr L.sectorSize).toNat (alignUp size L.sectorSize).toNat

/-- Power is lost: only the flash survives. -/
def powerOff (w : World L) : World L := { w with flash := { w.flash with cache := none } }

end World

/-- The STM32G0 port. -/
def portHandler (L : Layout) : Handler (FlashOp L) (World L) := fun _ op w =>
  match op with
  | .read type addr size =>
      (if size = 0 ∨ type = .internal then some (w.flash.read addr size) else none, w)
  | .write type addr data =>
      if type = .internal then
        ((w.flash.write addr data).1,
          { w with flash := (w.flash.write addr data).2
                   complete := w.afterWrite addr (UInt32.ofNat data.length) })
      else (false, w)
  | .erase type addr size =>
      if type = .internal then
        (true, { w with flash := w.flash.erase L.sectorSize addr size
                        complete := w.afterErase addr size })
      else (false, w)
  | .jump slot entry => (entry ≠ 0, { w with jumps := w.jumps ++ [⟨slot, entry, w.complete slot⟩] })
  | .crcMatched slot => ((), { w with complete := fun i => i = slot || w.complete i })

/-- `ota_download_session_t` while it is started, without the members that are never read. -/
structure Download (L : Layout) where
  target : Fin L.count
  header : OtaPackageHeader
  expectedTotalSize : UInt32
  expectedAppCrc32 : UInt32
  downloadedSize : UInt32

/-- `g_inited` and `g_dl`, which is `none` until a download is started. -/
structure Session (L : Layout) where
  inited : Bool
  dl : Option (Download L)

def Session.off (L : Layout) : Session L := { inited := false, dl := none }

section Functions

variable {L : Layout} (crc32 : List UInt8 → UInt32)

/-- `flash_sector_size[type]` of `ota_module_platform_config`. -/
def Layout.flashSectorSize (L : Layout) (type : FlashType) : UInt32 :=
  if type = .internal then L.sectorSize else 0

/-- The record that the bytes of the record page hold, if its magic number and its CRC are right. -/
def parseRecord (n : ℕ) (raw : List UInt8) : Option (OtaRecord n) :=
  let tmp := OtaRecord.ofBytes n raw
  if tmp.magic ≠ otaInfoMagic then none
  else if crc32 (raw.take (OtaRecord.size n - 4)) ≠ tmp.infoCrc32 then none
  else some tmp

variable (s : Session L)

def recordLoad : Prog (FlashOp L) (OtaErr × OtaRecord L.count) :=
  if !s.inited then ret (.notInit, L.defaultRecord)
  else do
    match ← perform (.read .internal L.recordAddr (UInt32.ofNat L.recordSize)) with
    | none => return (.recordIo, L.defaultRecord)
    | some raw =>
        match parseRecord crc32 L.count raw with
        | none => return (.recordInvalid, L.defaultRecord)
        | some tmp => return (.ok, tmp)

def flashEraseSlot (type : FlashType) (addr size : UInt32) : Prog (FlashOp L) OtaErr :=
  let sector := L.flashSectorSize type
  if sector = 0 then ret .invalidArg
  else do
    let eraseAddr := alignDown addr sector
    let eraseSize := alignUp (addr + size - eraseAddr) sector
    if ← perform (.erase type eraseAddr eraseSize) then return .ok else return .flashOp

def sealRecord {n : ℕ} (r : OtaRecord n) : OtaRecord n :=
  let tmp := { r with magic := otaInfoMagic }
  { tmp with infoCrc32 := crc32 tmp.body }

variable (r : OtaRecord L.count)

def recordStore : Prog (FlashOp L) OtaErr :=
  if !s.inited then ret .notInit
  else do
    let tmp := sealRecord crc32 r
    let rc ← flashEraseSlot .internal L.recordAddr (UInt32.ofNat L.recordSize)
    if rc ≠ .ok then return .flashOp
    if ← perform (.write .internal L.recordAddr tmp.toBytes) then
      let _ ← perform (.write .internal 0 [])
      return .ok
    else return .flashOp

def otaCalcEntryAddrFromHeader (info : AppInfo) : Prog (FlashOp L) UInt32 :=
  if info.flashSize < UInt32.ofNat packageHeaderSize then ret info.flashAddr
  else do
    match ← perform (.read info.flashType info.flashAddr (UInt32.ofNat packageHeaderSize)) with
    | none => return info.flashAddr
    | some raw =>
        let hdr := OtaPackageHeader.ofBytes raw
        if hdr.magic ≠ otaPackageMagic then return info.flashAddr
        else if hdr.headerCrc32 ≠ crc32 hdr.body then return info.flashAddr
        else if hdr.appOffset ≥ info.flashSize then return info.flashAddr
        else return info.flashAddr + hdr.appOffset

def flashCopyBufSize : UInt32 := 256

/-- The loop of `flash_crc32_app_body`: the bytes of which the CRC is taken. -/
def readBody (type : FlashType) : ℕ → UInt32 → UInt32 → Prog (FlashOp L) (Option (List UInt8))
  | 0, _, _ => ret (some [])
  | rounds + 1, addr, remaining =>
      let want := if remaining > flashCopyBufSize then flashCopyBufSize else remaining
      do
        match ← perform (.read type addr want) with
        | none => return none
        | some chunk =>
            let rest ← readBody type rounds (addr + want) (remaining - want)
            return rest.map (chunk ++ ·)

/-- `flash_crc32_app_body`; the CRC of no bytes is 0. -/
def flashCrc32AppBody (info : AppInfo) (hdr : OtaPackageHeader) :
    Prog (FlashOp L) (Except OtaErr UInt32) :=
  if hdr.total > info.flashSize then ret (.error .flashSize)
  else do
    let rounds := (hdr.appSize.toNat + 255) / 256
    match ← readBody info.flashType rounds (info.flashAddr + hdr.appOffset) hdr.appSize with
    | none => return .error .flashOp
    | some body => return .ok (if hdr.appSize = 0 then 0 else crc32 body)

def otaModuleInit : Prog (FlashOp L) (OtaErr × Session L) := do
  let s : Session L := { inited := true, dl := none }
  let (rc, _) ← recordLoad crc32 s
  if rc = .ok then return (.ok, s)
  else
    let rc ← recordStore crc32 s L.defaultRecord
    return (rc, s)

/-- `jump_func(ota_calc_entry_addr_from_header(..))` for a slot. -/
def jumpToSlot (i : Fin L.count) : Prog (FlashOp L) OtaErr := do
  let entry ← otaCalcEntryAddrFromHeader crc32 (r.apps i)
  if ← perform (.jump i entry) then return .ok else return .jumpFailed

/-- The second half of `ota_module_boot_preprocess`. -/
def bootCandidate : Prog (FlashOp L) OtaErr :=
  match r.chooseBootCandidateOtaSlot with
  | some i => jumpToSlot crc32 r i
  | none => ret .noBootCandidate

/-- The record with the slot's verify count increased. -/
def OtaRecord.countBoot {n : ℕ} (r : OtaRecord n) (i : Fin n) : OtaRecord n :=
  { r with apps := fun j =>
      if j = i then { r.apps i with verifyCount := (r.apps i).verifyCount + 1 } else r.apps j }

def otaModuleBootPreprocess : Prog (FlashOp L) OtaErr := do
  let (_, r) ← recordLoad crc32 s
  match r.firstWith .unverified with
  | none => bootCandidate crc32 r
  | some uv =>
      if (r.apps uv).verifyCount + 1 ≥ otaAppMaxVerifyCount then
        let r := r.setStatus uv .invalid
        let rc ← recordStore crc32 s r
        if rc ≠ .ok then return rc else bootCandidate crc32 r
      else
        let r := r.countBoot uv
        let rc ← recordStore crc32 s r
        if rc ≠ .ok then return rc else jumpToSlot crc32 r uv

def otaModuleHasActiveAppRegion : Prog (FlashOp L) Bool :=
  if !s.inited then ret false
  else do
    let (rc, r) ← recordLoad crc32 s
    if rc ≠ .ok then return false else return (r.firstWith .active).isSome

def Download.start (i : Fin L.count) (hdr : OtaPackageHeader) : Download L where
  target := i
  header := hdr
  expectedTotalSize := hdr.total
  expectedAppCrc32 := hdr.appCrc32
  downloadedSize := 0

/-- `ota_module_ota_download_start` after the target has been chosen. -/
def downloadInto (hdr : OtaPackageHeader) (r : OtaRecord L.count)
    (i : Fin L.count) : Prog (FlashOp L) (OtaErr × Session L) :=
  if hdr.appOffset ≥ (r.apps i).flashSize then ret (.flashSize, s)
  else if hdr.total > (r.apps i).flashSize then ret (.flashSize, s)
  else if hdr.appSize > (r.apps i).flashSize then ret (.flashSize, s)
  else do
    let rc ← flashEraseSlot (r.apps i).flashType (r.apps i).flashAddr hdr.total
    if rc ≠ .ok then return (.flashOp, s)
    else
      let rc ← recordStore crc32 s (r.setStatus i .downloading)
      if rc ≠ .ok then
        let _ ← recordStore crc32 s (r.setStatus i .invalid)
        return (rc, s)
      else return (.ok, { s with dl := some (.start i hdr) })

def otaModuleOtaDownloadStart (hdr : OtaPackageHeader) : Prog (FlashOp L) (OtaErr × Session L) :=
  if !s.inited then ret (.notInit, s)
  else if s.dl.isSome then ret (.alreadyInProgress, s)
  else if hdr.magic ≠ otaPackageMagic then ret (.packageMagic, s)
  else if crc32 hdr.body ≠ hdr.headerCrc32 then ret (.packageHeaderCrc, s)
  else do
    let (_, r) ← recordLoad crc32 s
    match r.chooseTargetOtaSlot with
    | none => return (.slotUnavailable, s)
    | some i => downloadInto crc32 s hdr r i

/-- `ota_module_ota_download` after the session and the record have been read. -/
def downloadChunk (dl : Download L) (info : AppInfo) (offset : UInt32)
    (data : List UInt8) : Prog (FlashOp L) (OtaErr × Session L) :=
  let size := UInt32.ofNat data.length
  if info.status ≠ .downloading then ret (.sessionMismatch, s)
  else if offset ≠ dl.downloadedSize then ret (.offsetMismatch, s)
  else if offset + size > dl.expectedTotalSize then ret (.sizeMismatch, s)
  else if size = 0 then ret (.ok, s)
  else
    let dstAddr := info.flashAddr + offset
    if dstAddr + size > info.flashAddr + info.flashSize then ret (.flashSize, s)
    else do
      if ← perform (.write info.flashType dstAddr data) then
        return (.ok, { s with dl := some { dl with downloadedSize := dl.downloadedSize + size } })
      else return (.flashOp, s)

def otaModuleOtaDownload (offset : UInt32) (data : List UInt8) :
    Prog (FlashOp L) (OtaErr × Session L) :=
  if !s.inited then ret (.notInit, s)
  else
    match s.dl with
    | none => ret (.sessionMismatch, s)
    | some dl => do
        let (rc, r) ← recordLoad crc32 s
        if rc ≠ .ok then return (rc, s)
        else downloadChunk s dl (r.apps dl.target) offset data

/-- `ota_module_ota_download_finish` after the session and the record have been read. -/
def finishDownload (dl : Download L) (r : OtaRecord L.count) :
    Prog (FlashOp L) (OtaErr × Session L) :=
  if (r.apps dl.target).status ≠ .downloading then ret (.appStatus, s)
  else if dl.downloadedSize ≠ dl.expectedTotalSize then ret (.sizeMismatch, s)
  else do
    let _ ← perform (.write (r.apps dl.target).flashType 0 [])
    match ← flashCrc32AppBody crc32 (r.apps dl.target) dl.header with
    | .error rc => return (rc, s)
    | .ok flashCrc =>
        if flashCrc ≠ dl.expectedAppCrc32 then
          let rc ← recordStore crc32 s (r.setStatus dl.target .invalid)
          if rc ≠ .ok then return (rc, s) else return (.crcMismatch, { s with dl := none })
        else
          perform (.crcMatched dl.target)
          let rc ← recordStore crc32 s (r.setStatus dl.target .unverified)
          if rc ≠ .ok then return (rc, s) else return (.ok, { s with dl := none })

def otaModuleOtaDownloadFinish : Prog (FlashOp L) (OtaErr × Session L) :=
  if !s.inited then ret (.notInit, s)
  else
    match s.dl with
    | none => ret (.sessionMismatch, s)
    | some dl => do
        let (rc, r) ← recordLoad crc32 s
        if rc ≠ .ok then return (rc, s) else finishDownload crc32 s dl r

def otaModuleOtaDownloadAbort : Prog (FlashOp L) (OtaErr × Session L) :=
  if !s.inited then ret (.notInit, s)
  else do
    let (_, r) ← recordLoad crc32 s
    let target := match s.dl with
      | some dl => some dl.target
      | none => r.firstWith .downloading
    match target with
    | none => return (.slotUnavailable, s)
    | some i =>
        let rc ← recordStore crc32 s (r.setStatus i .invalid)
        if rc ≠ .ok then return (rc, s) else return (.ok, { s with dl := none })

def otaModuleAppMarkVerified : Prog (FlashOp L) OtaErr :=
  if !s.inited then ret .notInit
  else do
    let (rc, r) ← recordLoad crc32 s
    if rc ≠ .ok then return rc
    else
      match r.markVerifiedPromoteUnverifiedOtaSlot with
      | .unchanged => return .ok
      | .error => return .appStatus
      | .store r =>
          let rc ← recordStore crc32 s r
          if rc ≠ .ok then return .flashOp else return .ok

def otaModuleSetBootYmodemFlag (flag : UInt32) : Prog (FlashOp L) OtaErr :=
  if !s.inited then ret .notInit
  else do
    let (_, r) ← recordLoad crc32 s
    recordStore crc32 s { r with bootYmodemFlag := flag }

end Functions

end NeoRuntime.Ota
