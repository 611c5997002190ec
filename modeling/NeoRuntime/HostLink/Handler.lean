import NeoRuntime.HostLink.Wire
import NeoRuntime.Lib.Run
import NeoRuntime.Lib.Slots

/-!
# The host-link handler

The receiver of `host_link_core.c`: the byte parser (`feed_byte`), the checks of a complete frame
(`deal_one_frame`) and the slots for frames.  Only the thread that feeds bytes touches the fields of
the `Parser`; all threads share the `Tables` under the lock.  Whether the allocation for a byte
succeeds, and the tick, come with the byte (`Port`).
-/

namespace NeoRuntime.HostLink

def hostLinkCfgNotifyDepth : ℕ := 16
def hostLinkCfgAckSlots : ℕ := 8
def hostLinkCfgAsyncMax : ℕ := 4

inductive ParseState where
  | sync0
  | sync1
  | hdr
  | payload
  deriving DecidableEq, Repr

/-- An entry of `async_slot`.  The callback and its user pointer are named by one number. -/
structure AsyncSlot where
  used : Bool
  id : UInt16
  cmd : UInt16
  startedMs : UInt32
  cb : ℕ
  deriving DecidableEq, Repr

structure DoneCall where
  cb : ℕ
  err : HostLinkErr
  data : List UInt8
  deriving DecidableEq, Repr

structure Parser where
  parseState : ParseState
  parseGot : ℕ
  hdrRaw : Vector UInt8 hostLinkHeaderWireLen
  pendHdr : HostLinkHeader
  pendPayload : Option (List UInt8)
  pendPayNeed : ℕ
  deriving DecidableEq, Repr

/-- The fields that the threads share; an empty slot is one whose `is_valid` is not set. -/
structure Tables where
  ready : Bool
  nextFrameId : UInt16
  notifySlot : List (Option HostLinkFrame)
  ackSlot : List (Option HostLinkFrame)
  ackTick : List UInt32
  asyncSlot : List AsyncSlot
  deriving DecidableEq, Repr

structure HostLinkHandler extends Parser, Tables
  deriving DecidableEq, Repr

structure Port where
  mallocOk : Bool
  tickMs : UInt32
  deriving DecidableEq, Repr

/-! ## Slots -/

def findEmptyNotify (t : Tables) : Option ℕ := firstFree t.notifySlot

def findEmptyAck (t : Tables) : Option ℕ := firstFree t.ackSlot

/-- The async slot that waits for the frame, which has to be a response. -/
def findAsync (t : Tables) (f : HostLinkFrame) : Option ℕ :=
  if f.header.type = FrameType.response.toByte then
    t.asyncSlot.findIdx? fun s => s.used && s.id == f.header.frameId && s.cmd == f.header.cmd
  else none

def addNotifyFrameLocked (t : Tables) (f : HostLinkFrame) : HostLinkErr × Tables :=
  match findEmptyNotify t with
  | none => (.noSlot, t)
  | some slot => (.ok, { t with notifySlot := t.notifySlot.set slot (some f) })

/-- The part of `add_ack_frame_locked` that stores the frame. -/
def storeAckFrame (tickMs : UInt32) (t : Tables) (f : HostLinkFrame) : HostLinkErr × Tables :=
  match findEmptyAck t with
  | none => (.noSlot, t)
  | some slot =>
      (.ok, { t with ackSlot := t.ackSlot.set slot (some f),
                     ackTick := t.ackTick.set slot tickMs })

/-- A response completes the request that waits for it, unlocked around the callback; other
acknowledgements are stored. -/
def addAckFrameLocked (tickMs : UInt32) (t : Tables) (f : HostLinkFrame) :
    HostLinkErr × Tables × List DoneCall :=
  match findAsync t f with
  | some i =>
      let slot := t.asyncSlot.getD i ⟨false, 0, 0, 0, 0⟩
      (.ok, { t with asyncSlot := t.asyncSlot.set i { slot with used := false } },
        [⟨slot.cb, .ok, f.payload⟩])
  | none =>
      let (err, t) := storeAckFrame tickMs t f
      (err, t, [])

/-- The checks of `deal_one_frame` before it takes the lock. -/
def checkFrame (f : HostLinkFrame) : HostLinkErr :=
  if hdrCrcOk f.header ≠ .ok then hdrCrcOk f.header
  else if f.header.magic ≠ hostLinkMagic ∨ f.header.version ≠ hostLinkVersionCurrent then .proto
  else payloadCrcOk f.payload f.header.len.toNat f.payloadCrc

def dealOneFrame (tickMs : UInt32) (t : Tables) (f : HostLinkFrame) :
    HostLinkErr × Tables × List DoneCall :=
  if checkFrame f ≠ .ok then (checkFrame f, t, [])
  else if t.ready = false then (.invalidState, t, [])
  else
    match FrameType.ofByte? f.header.type with
    | some .request | some .event =>
        let (err, t) := addNotifyFrameLocked t f
        (err, t, [])
    | some .response | some .eventAck => addAckFrameLocked tickMs t f
    | none => (.proto, t, [])

/-- One call of `deal_one_frame`: its argument, its result, its effect and its callbacks. -/
structure Dealt where
  frame : HostLinkFrame
  found : Tables
  err : HostLinkErr
  left : Tables
  calls : List DoneCall
  deriving DecidableEq, Repr

/-! ## The parser -/

/-- The pending header is not cleared. -/
def parseReset (p : Parser) : Parser :=
  { p with parseState := .sync0, parseGot := 0, pendPayload := none, pendPayNeed := 0,
           hdrRaw := Vector.replicate hostLinkHeaderWireLen 0 }

def feedFinishPayload (port : Port) (h : HostLinkHandler) : HostLinkHandler × List Dealt :=
  let raw := h.pendPayload.getD []
  let l := h.pendHdr.len.toNat
  let wireCrc := readLe16 (raw.drop l)
  if payloadCrcOk raw l wireCrc ≠ .ok then ({ h with toParser := parseReset h.toParser }, [])
  else if 0 < l ∧ port.mallocOk = false then ({ h with toParser := parseReset h.toParser }, [])
  else
    let fr : HostLinkFrame := { header := h.pendHdr, payload := raw.take l, payloadCrc := wireCrc }
    let (err, t, calls) := dealOneFrame port.tickMs h.toTables fr
    ({ h with toParser := parseReset h.toParser, toTables := t }, [⟨fr, h.toTables, err, t, calls⟩])

/-- All header bytes are there: allocate the payload buffer, if the length is acceptable. -/
def feedFinishHeader (port : Port) (p : Parser) : Parser :=
  let p := { p with pendHdr := HostLinkHeader.ofBytes p.hdrRaw.toList }
  if p.pendHdr.len.toNat > hostLinkCfgMaxPayload then parseReset p
  else
    let need := (p.pendHdr.len.toNat + 2) % 2 ^ 16
    if (need = 2 ∧ p.pendHdr.len = 0) ∨ 0 < p.pendHdr.len.toNat then
      if port.mallocOk then
        { p with pendPayNeed := need, pendPayload := some (List.replicate need 0), parseGot := 0,
                 parseState := .payload }
      else parseReset { p with pendPayNeed := need }
    else parseReset { p with pendPayNeed := need }

def feedByte (port : Port) (h : HostLinkHandler) (b : UInt8) : HostLinkHandler × List Dealt :=
  match h.parseState with
  | .sync0 => (if b = 0x48 then { h with parseState := .sync1 } else h, [])
  | .sync1 =>
      (if b = 0x4C then
        { h with hdrRaw := (h.hdrRaw.set 0 0x48 (by decide)).set 1 0x4C (by decide),
                 parseGot := 2, parseState := .hdr }
      else if b = 0x48 then { h with parseState := .sync1 }
      else { h with parseState := .sync0 }, [])
  | .hdr =>
      let h := if free : h.parseGot < hostLinkHeaderWireLen then
          { h with hdrRaw := h.hdrRaw.set h.parseGot b free, parseGot := h.parseGot + 1 }
        else h
      (if h.parseGot = hostLinkHeaderWireLen then
        { h with toParser := feedFinishHeader port h.toParser } else h, [])
  | .payload =>
      let h := match h.pendPayload with
        | some buf =>
            if h.parseGot < h.pendPayNeed then
              { h with pendPayload := some (buf.set h.parseGot b), parseGot := h.parseGot + 1 }
            else h
        | none => h
      if h.pendPayNeed ≤ h.parseGot then feedFinishPayload port h else (h, [])

/-- The bytes of one chunk, each with the port's answers, until the handler is shut down. -/
def hostLinkFeed (h : HostLinkHandler) : List (UInt8 × Port) → HostLinkHandler × List Dealt
  | [] => (h, [])
  | (b, port) :: data =>
      if h.ready then
        let (h, dealt) := feedByte port h b
        let (h, rest) := hostLinkFeed h data
        (h, dealt ++ rest)
      else (h, [])

def Parser.init : Parser where
  parseState := .sync0
  parseGot := 0
  hdrRaw := Vector.replicate hostLinkHeaderWireLen 0
  pendHdr := ⟨0, 0, 0, 0, 0, 0, 0, 0, 0⟩
  pendPayload := none
  pendPayNeed := 0

def Tables.init : Tables where
  ready := true
  nextFrameId := 0
  notifySlot := List.replicate hostLinkCfgNotifyDepth none
  ackSlot := List.replicate hostLinkCfgAckSlots none
  ackTick := List.replicate hostLinkCfgAckSlots 0
  asyncSlot := List.replicate hostLinkCfgAsyncMax ⟨false, 0, 0, 0, 0⟩

def hostLinkInit : HostLinkHandler where
  toParser := Parser.init
  toTables := Tables.init

/-! ## Runs -/

/-- A chunk is fed, or other threads change the shared fields. -/
inductive Input where
  | feed (data : List (UInt8 × Port))
  | others (tables : Tables)

/-- A handler that is no longer ready never becomes ready again. -/
def hostLinkStep (h : HostLinkHandler) : Input → HostLinkHandler × List Dealt
  | .feed data => hostLinkFeed h data
  | .others t => ({ h with toTables := { t with ready := h.ready && t.ready } }, [])

/-- Any sequence of chunks, with anything that the other threads do in between. -/
def hostLinkRun : HostLinkHandler → List Input → HostLinkHandler × List Dealt :=
  runLog hostLinkStep

def streamOf (inputs : List Input) : List UInt8 :=
  inputs.flatMap fun
    | .feed data => data.map Prod.fst
    | .others _ => []

end NeoRuntime.HostLink
