import Mathlib.Data.List.DropRight
import Mathlib.Logic.Function.Basic
import NeoRuntime.Lib.Bytes
import NeoRuntime.Lib.Run

/-!
# The factory record

`hal_factory_format.c` (hal_v2/common/devices) keeps the identity of a board in two slots of 128 bytes.
A slot has a header of 16 bytes (magic, version, flags, CRC, sequence number) and a payload with the
fields; the CRC is that of the payload alone.  The valid slot with the greater sequence number is the
active one, and `hal_factory_format_set` writes the other.  `parseMac` stands for `parse_mac`.
-/

namespace NeoRuntime.Hal

inductive FactoryField
  | sn
  | mac
  | pn
  | batch
  | hwrev
  deriving DecidableEq

def FactoryField.off : FactoryField → ℕ
  | .mac => 16
  | .sn => 24
  | .pn => 56
  | .batch => 72
  | .hwrev => 80

def FactoryField.len : FactoryField → ℕ
  | .mac => 6
  | .sn => 32
  | .pn => 16
  | .batch => 8
  | .hwrev => 8

inductive FactoryError
  | invalidArg
  | invalidSize
  | notReady
  | notFound
  | check
  | io
  deriving DecidableEq

/-! ## Slots -/

structure Slot where
  bytes : List UInt8
  size : bytes.length = 128

variable (s : Slot)

def Slot.slice (off len : ℕ) : List UInt8 := (s.bytes.drop off).take len

def Slot.flags : UInt8 := s.bytes.getD 5 0

/-- `rd16(s + K_OFF_CRC)`. -/
def Slot.crc : UInt16 := readLe16 (s.slice 6 2)

def Slot.seq : UInt32 := readLe32 (s.slice 8 4)

def Slot.payload : List UInt8 := s.slice 16 112

def magic : List UInt8 := [0x43, 0x54, 0x46, 0x42]

def crc16CcittFalse (data : List UInt8) : UInt16 := crc16 0xFFFF data

def Slot.valid : Bool :=
  s.slice 0 4 == magic && s.bytes.getD 4 0 == 1 && s.crc == crc16CcittFalse s.payload

inductive Letter
  | a
  | b
  deriving DecidableEq

def Letter.other : Letter → Letter
  | .a => .b
  | .b => .a

structure Eeprom where
  a : Slot
  b : Slot

variable (e : Eeprom)

def Eeprom.slot : Letter → Slot
  | .a => e.a
  | .b => e.b

def Eeprom.write (letter : Letter) (s : Slot) : Eeprom :=
  match letter with
  | .a => { e with a := s }
  | .b => { e with b := s }

/-- `read_active`, where the reads of the slots may fail. -/
def readActive (failA failB : Bool) : Except FactoryError Letter :=
  if failA && failB then .error .notReady
  else
    let va := !failA && e.a.valid
    let vb := !failB && e.b.valid
    if va && vb then .ok (if e.b.seq ≤ e.a.seq then .a else .b)
    else if va then .ok .a
    else if vb then .ok .b
    else .error .notFound

/-! ## Fields as texts -/

def hexByte (b : UInt8) : List UInt8 :=
  let digit : UInt8 → UInt8 := fun n => if n < 10 then 0x30 + n else 0x57 + n
  [digit (b / 16), digit (b % 16)]

def decodeMac (raw : List UInt8) : List UInt8 := List.intercalate [0x3A] (raw.map hexByte)

def isFiller (b : UInt8) : Bool := b == 0xFF || b == 0

def decodeAscii (raw : List UInt8) (outSize : ℕ) : List UInt8 :=
  (raw.rdropWhile isFiller).take (outSize - 1)

def fieldBytes (payload : List UInt8) (field : FactoryField) : List UInt8 :=
  (payload.drop (field.off - 16)).take field.len

def flagMacValid : UInt8 := 2

/-- What `hal_factory_format_read_all` reports for a field. -/
def fieldText (flags : UInt8) (payload : List UInt8) : FactoryField → List UInt8
  | .mac => if flags &&& flagMacValid ≠ 0 then decodeMac (fieldBytes payload .mac) else []
  | field => decodeAscii (fieldBytes payload field) (field.len + 1)

abbrev FactoryTexts := FactoryField → List UInt8

def Slot.texts : FactoryTexts := fieldText s.flags s.payload

structure FactoryInfo where
  texts : FactoryTexts
  activeSlot : Letter
  seq : UInt32

/-- `hal_factory_format_read_all` without faults. -/
def readAll : Except FactoryError FactoryInfo :=
  match readActive e false false with
  | .error err => .error err
  | .ok letter => .ok ⟨(e.slot letter).texts, letter, (e.slot letter).seq⟩

/-! ## Changing a field -/

variable (field : FactoryField)

abbrev FieldRaw := { raw : List UInt8 // raw.length = field.len }

/-- A value with 0xFF up to the end of its field, if it is accepted. -/
def encodeAscii (value : List UInt8) : Except FactoryError (FieldRaw field) :=
  if fits : value.length ≤ field.len then
    .ok ⟨value ++ List.replicate (field.len - value.length) 0xFF, by
      rw [List.length_append, List.length_replicate, Nat.add_sub_cancel' fits]⟩
  else .error .invalidSize

def encodeMac (address : Option (Vector UInt8 6)) : Except FactoryError (FieldRaw .mac) :=
  match address with
  | none => .error .invalidArg
  | some mac => .ok ⟨mac.toList, mac.length_toList⟩

/-- The bytes of the field for a value, if it is accepted. -/
def encodeField (parseMac : List UInt8 → Option (Vector UInt8 6)) (value : List UInt8) :
    (field : FactoryField) → Except FactoryError (FieldRaw field)
  | .mac => encodeMac (parseMac value)
  | .sn => encodeAscii .sn value
  | .pn => encodeAscii .pn value
  | .batch => encodeAscii .batch value
  | .hwrev => encodeAscii .hwrev value

/-- Bytes that fill the payload of a slot. -/
abbrev Payload := { payload : List UInt8 // payload.length = 112 }

theorem Slot.length_payload : s.payload.length = 112 := by
  simp [Slot.payload, Slot.slice, s.size]

def replaceField (payload : Payload) (field : FactoryField) (raw : FieldRaw field) : Payload :=
  ⟨payload.1.take (field.off - 16) ++ raw.1 ++ payload.1.drop (field.off - 16 + field.len), by
    simp only [List.length_append, List.length_take, List.length_drop, payload.2, raw.2]
    cases field <;> rfl⟩

/-- The flags for a payload: a first byte of the address other than 0xFF says that there is one. -/
def newFlags (payload : Payload) : UInt8 := if payload.1.getD 0 0 ≠ 0xFF then 3 else 1

def header (payload : Payload) (seq : UInt32) : List UInt8 :=
  magic ++ [1, newFlags payload] ++ le16 (crc16CcittFalse payload.1) ++ le32 seq ++
    List.replicate 4 0xFF

theorem length_header (payload : Payload) (seq : UInt32) : (header payload seq).length = 16 := by
  simp [header, magic]

def image (payload : Payload) (seq : UInt32) : Slot :=
  ⟨header payload seq ++ payload.1, by rw [List.length_append, length_header, payload.2]⟩

/-- A slot of which the first `k` bytes are written. -/
def tear (k : ℕ) (new old : Slot) : Slot :=
  ⟨new.bytes.take k ++ old.bytes.drop k, by
    rw [List.length_append, List.length_take, List.length_drop, new.size, old.size]
    omega⟩

/-- The failing accesses; a failing write has written some bytes, in ascending order. -/
structure SetFaults where
  readA : Bool := false
  readB : Bool := false
  write : Option ℕ := none
  verify : Bool := false

inductive SetOutcome
  /-- An error before the write. -/
  | refused (err : FactoryError)
  /-- An error of the write or after it. -/
  | failed (err : FactoryError)
  | done
  deriving DecidableEq

/-- The end of `hal_factory_format_set`: the write and the check of what was written. -/
def writeSlot (target : Letter) (new : Slot) (faults : SetFaults) : Eeprom × SetOutcome :=
  match faults.write with
  | some k => (e.write target (tear k new (e.slot target)), .failed .io)
  | none =>
    let written := e.write target new
    if faults.verify then (written, .failed .io)
    else if (written.slot target).valid then (written, .done)
    else (written, .failed .check)

def blankPayload : Payload := ⟨List.replicate 112 0xFF, List.length_replicate⟩

def Slot.payloadOf : Payload := ⟨s.payload, s.length_payload⟩

/-- The slot that replaces `s.other` when a field of `s` changes. -/
def Slot.next (raw : FieldRaw field) : Slot :=
  image (replaceField s.payloadOf field raw) (s.seq + 1)

/-- `hal_factory_format_set`. -/
def setField (parseMac : List UInt8 → Option (Vector UInt8 6)) (e : Eeprom) (field : FactoryField)
    (value : List UInt8) (faults : SetFaults) : Eeprom × SetOutcome :=
  match encodeField parseMac value field with
  | .error err => (e, .refused err)
  | .ok raw =>
    match readActive e faults.readA faults.readB with
    | .ok letter => writeSlot e letter.other ((e.slot letter).next field raw) faults
    | .error .notFound => writeSlot e .a (image (replaceField blankPayload field raw) 1) faults
    | .error err => (e, .refused err)

end NeoRuntime.Hal
