import Mathlib.Data.Nat.Notation
import Mathlib.Data.Fintype.Basic

/-!
# The internal flash of the STM32G0

The flash functions of ota_module/platform/stm32/stm32g0xx_port.c on a byte map.  The hardware
programs whole double words; the last, incomplete double word of a write waits in a cache until the
next write completes it or it is flushed.
-/

namespace NeoRuntime.Ota

def erasedByte : UInt8 := 0xFF

abbrev DoubleWord : Type := Fin 8 → UInt8

/-- `flash_dw_cache_t` while it is valid; `mask` tells which bytes a write has given. -/
structure DwCache where
  addr : ℕ
  buf : DoubleWord
  mask : Fin 8 → Bool

/-- The flash and `s_dw_cache`. -/
structure Flash where
  mem : ℕ → UInt8
  cache : Option DwCache

def alignDown (v a : UInt32) : UInt32 := if a = 0 then v else v / a * a

def alignUp (v a : UInt32) : UInt32 := if a = 0 then v else (v + a - 1) / a * a

namespace Flash

variable (f : Flash)

def doubleWord (addr : ℕ) : DoubleWord := fun j => f.mem (addr + j)

def store (mem : ℕ → UInt8) (addr : ℕ) (dw : DoubleWord) : ℕ → UInt8 := fun a =>
  if h : addr ≤ a ∧ a < addr + 8 then dw ⟨a - addr, by omega⟩ else mem a

/-- What a double word holds before a write: the cached bytes, or the flash and no given byte. -/
def base (cur : ℕ) : DoubleWord × (Fin 8 → Bool) :=
  match f.cache with
  | some c => if c.addr = cur then (c.buf, c.mask) else (f.doubleWord cur, fun _ => false)
  | none => (f.doubleWord cur, fun _ => false)

/-- The bytes of the double word at `cur` that a write of `[addr, stop)` gives. -/
def given (addr stop cur : ℕ) (j : Fin 8) : Bool := addr ≤ cur + j ∧ cur + j < stop

/-- `desired_dw` and `local_mask` in the round for `cur`. -/
def desired (addr stop : ℕ) (data : List UInt8) (cur : ℕ) : DoubleWord := fun j =>
  if given addr stop cur j then data.getD (cur + j - addr) 0 else (f.base cur).1 j

@[inherit_doc desired]
def mask (addr stop cur : ℕ) : Fin 8 → Bool := fun j =>
  given addr stop cur j || (f.base cur).2 j

/-- The flash and the double words that `HAL_FLASH_Program` was called for. -/
structure Traced where
  flash : Flash
  programmed : List ℕ := []

namespace Traced

variable (t : Traced)

/-- `HAL_FLASH_Program`: the hardware programs a double word only where the flash is erased. -/
def halProgram (addr : ℕ) (dw : DoubleWord) : Bool × Traced :=
  let called := addr :: t.programmed
  if ∀ j, t.flash.doubleWord addr j = erasedByte then
    (true, { flash := { t.flash with mem := store t.flash.mem addr dw }, programmed := called })
  else (false, { t with programmed := called })

def programDoubleWord (addr : ℕ) (desired : DoubleWord) : Bool × Traced :=
  if t.flash.doubleWord addr = desired then (true, t)
  else if ∃ j, t.flash.doubleWord addr j &&& desired j ≠ desired j then (false, t)
  else t.halProgram addr desired

def setCache (cache : Option DwCache) : Traced := { t with flash := { t.flash with cache } }

/-- `internal_flash_flush_dw_cache`. -/
def flush : Bool × Traced :=
  match t.flash.cache with
  | none => (true, t)
  | some c =>
      let (ok, t) := t.programDoubleWord c.addr c.buf
      (ok, t.setCache none)

/-- `flash_dw_cache_clear` for the double word that has just been programmed. -/
def dropCached (cur : ℕ) : Traced := t.setCache (t.flash.cache.filter fun c => c.addr ≠ cur)

/-- The loop of `internal_flash_program_bytes`; `data` is written at `[addr, stop)`. -/
def programLoop (addr stop lastDw : ℕ) (data : List UInt8) : ℕ → ℕ → Traced → Bool × Traced
  | 0, _, t => (true, t)
  | rounds + 1, cur, t =>
      if cur = lastDw ∧ ¬ ∀ j, t.flash.mask addr stop cur j then
        let cached := { addr := cur, buf := t.flash.desired addr stop data cur
                        mask := t.flash.mask addr stop cur }
        programLoop addr stop lastDw data rounds (cur + 8) (t.setCache (some cached))
      else
        let (ok, t) := t.programDoubleWord cur (t.flash.desired addr stop data cur)
        if ok then programLoop addr stop lastDw data rounds (cur + 8) (t.dropCached cur)
        else (false, t)

/-- `internal_flash_program_bytes` for at least one byte. -/
def programBytes (addr : UInt32) (data : List UInt8) : Bool × Traced :=
  let stop := addr + UInt32.ofNat data.length
  let firstDw := (alignDown addr 8).toNat
  let lastDw := (alignDown (stop - 1) 8).toNat
  let passed : Bool := t.flash.cache.any fun c => firstDw > c.addr
  let (ok, t) := if passed then t.flush else (true, t)
  if ok then
    programLoop addr.toNat stop.toNat lastDw data ((stop.toNat - firstDw + 7) / 8) firstDw t
  else (false, t)

/-- `stm32g0xx_flash_write`; writing nothing flushes the cache. -/
def write (addr : UInt32) (data : List UInt8) : Bool × Traced :=
  if UInt32.ofNat data.length = 0 then t.flush else t.programBytes addr data

end Traced

/-- A result without the trace. -/
def untraced (r : Bool × Traced) : Bool × Flash := (r.1, r.2.flash)

@[inherit_doc Traced.write]
def write (addr : UInt32) (data : List UInt8) : Bool × Flash :=
  untraced (Traced.write { flash := f } addr data)

/-- `stm32g0xx_flash_read`. -/
def read (addr size : UInt32) : List UInt8 :=
  (List.range size.toNat).map fun k => f.mem (addr.toNat + k)

/-- `flash_erase_internal_pages`. -/
def erase (page : UInt32) (f : Flash) (addr size : UInt32) : Flash :=
  if size = 0 then f
  else
    let start := (alignDown addr page).toNat
    let length := (alignUp size page).toNat
    { mem := fun a => if start ≤ a ∧ a < start + length then erasedByte else f.mem a, cache := none }

end Flash

/-! ## The CRC unit -/

/-- Eight steps of the CRC unit, with the polynomial 0x04C11DB7. -/
def crcByte (crc : UInt32) (byte : UInt8) : UInt32 :=
  (List.range 8).foldl (fun crc _ =>
    if crc &&& 0x80000000 = 0 then crc <<< 1 else crc <<< 1 ^^^ 0x04C11DB7)
    (crc ^^^ byte.toUInt32 <<< 24)

/-- `stm32g0xx_crc32` since the last reset of the unit: initial value 0xFFFFFFFF, nothing inverted.
-/
def stm32g0xxCrc32 (data : List UInt8) : UInt32 :=
  if data = [] then 0 else data.foldl crcByte 0xFFFFFFFF

end NeoRuntime.Ota
