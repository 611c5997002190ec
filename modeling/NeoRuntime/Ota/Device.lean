import NeoRuntime.Ota.Module

/-!
# Runs of the OTA module

A device with the OTA module: its platform and its variables.  A run is a list of calls, each of
which is made to its end or is cut by a loss of power after some of its flash operations; then
`ota_module_init` must be called before anything else.
-/

namespace NeoRuntime.Ota

open Prog

inductive Call where
  | init
  | downloadStart (hdr : OtaPackageHeader)
  | download (offset : UInt32) (data : List UInt8)
  | downloadFinish
  | downloadAbort
  | markVerified
  | setBootYmodemFlag (flag : UInt32)
  | bootPreprocess
  deriving DecidableEq

inductive Action where
  | call (c : Call)
  | powerLoss (c : Call) (operations : ℕ)

/-- An operation on the flash, as far as it matters whether power is lost after it. -/
inductive Mark (L : Layout) where
  | erased (addr size : UInt32)
  | written (addr : UInt32)
  | flushed
  | crcMatched (slot : Fin L.count)
  deriving DecidableEq

def mark {L : Layout} : (β : Type) → FlashOp L β → Option (Mark L)
  | _, .erase _ addr size => some (.erased addr size)
  | _, .write _ addr data => some (if data = [] then .flushed else .written addr)
  | _, .crcMatched slot => some (.crcMatched slot)
  | _, _ => none

/-- The port, with the operations that it has made. -/
def markHandler (L : Layout) : Handler (FlashOp L) (World L × List (Mark L)) :=
  logged (portHandler L) mark

structure Device (L : Layout) where
  world : World L
  session : Session L

section Runs

variable {L : Layout} (crc32 : List UInt8 → UInt32)

def Call.program (s : Session L) : Call → Prog (FlashOp L) (OtaErr × Session L)
  | .init => otaModuleInit crc32
  | .downloadStart hdr => otaModuleOtaDownloadStart crc32 s hdr
  | .download offset data => otaModuleOtaDownload crc32 s offset data
  | .downloadFinish => otaModuleOtaDownloadFinish crc32 s
  | .downloadAbort => otaModuleOtaDownloadAbort crc32 s
  | .markVerified => do return (← otaModuleAppMarkVerified crc32 s, s)
  | .setBootYmodemFlag flag => do return (← otaModuleSetBootYmodemFlag crc32 s flag, s)
  | .bootPreprocess => do return (← otaModuleBootPreprocess crc32 s, s)

namespace Device

variable (d : Device L)

/-- The call may be made: the module is initialised, or it is initialised now. -/
def allows (c : Call) : Bool := d.session.inited || c = .init

def after (c : Call) : Device L :=
  let r := run (portHandler L) (c.program crc32 d.session) d.world
  { world := r.2, session := r.1.2 }

def cut (c : Call) (operations : ℕ) : Device L where
  world := (runFor (portHandler L) operations (c.program crc32 d.session) d.world).powerOff
  session := .off L

/-- The operations that the call has made when power is lost. -/
def made (c : Call) (operations : ℕ) : List (Mark L) :=
  (runFor (markHandler L) operations (c.program crc32 d.session) (d.world, [])).2

def step : Action → Option (Device L)
  | .call c => if d.allows c then some (d.after crc32 c) else none
  | .powerLoss c operations => if d.allows c then some (d.cut crc32 c operations) else none

end Device

end Runs

end NeoRuntime.Ota
