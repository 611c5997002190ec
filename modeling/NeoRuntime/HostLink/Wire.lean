import NeoRuntime.Lib.Crc

/-!
# Host-link wire format

The header, the CRCs and the encoder of the MCU link (hal_v2/common/host_link/host_link_proto.h and
host_link_core.c; the MCU build has the same source).  A frame on the wire is a 14-byte
little-endian header, the payload and the payload's CRC.
-/

namespace NeoRuntime.HostLink

def hostLinkMagic : UInt16 := 0x4C48
def hostLinkVersionCurrent : UInt8 := 1
def hostLinkHdrCrcLen : ℕ := 12
def hostLinkHeaderWireLen : ℕ := 14
def hostLinkCfgMaxPayload : ℕ := 512

inductive HostLinkErr where
  | ok
  | invalidArg
  | invalidState
  | invalidSize
  | noMem
  | noSlot
  | timeout
  | crc
  | send
  | proto
  deriving DecidableEq, Repr

/-- `host_link_frame_type_t`. -/
inductive FrameType where
  | request
  | response
  | event
  | eventAck
  deriving DecidableEq, Repr

def FrameType.toByte : FrameType → UInt8
  | .request => 0
  | .response => 1
  | .event => 2
  | .eventAck => 3

def FrameType.ofByte? (b : UInt8) : Option FrameType :=
  if b = 0 then some .request
  else if b = 1 then some .response
  else if b = 2 then some .event
  else if b = 3 then some .eventAck
  else none

/-- `host_link_header_t`, packed. -/
structure HostLinkHeader where
  magic : UInt16
  version : UInt8
  reserved : UInt8
  frameId : UInt16
  type : UInt8
  reserved2 : UInt8
  cmd : UInt16
  len : UInt16
  hdrCrc : UInt16
  deriving DecidableEq, Repr

variable (h : HostLinkHeader)

def HostLinkHeader.body : List UInt8 :=
  le16 h.magic ++ [h.version, h.reserved] ++ le16 h.frameId ++ [h.type, h.reserved2] ++
    le16 h.cmd ++ le16 h.len

def HostLinkHeader.toBytes : List UInt8 := h.body ++ le16 h.hdrCrc

def HostLinkHeader.ofBytes (raw : List UInt8) : HostLinkHeader where
  magic := readLe16 raw
  version := raw.getD 2 0
  reserved := raw.getD 3 0
  frameId := readLe16 (raw.drop 4)
  type := raw.getD 6 0
  reserved2 := raw.getD 7 0
  cmd := readLe16 (raw.drop 8)
  len := readLe16 (raw.drop 10)
  hdrCrc := readLe16 (raw.drop 12)

@[simp] theorem HostLinkHeader.length_body : h.body.length = hostLinkHdrCrcLen := by
  simp [body, hostLinkHdrCrcLen]

@[simp] theorem HostLinkHeader.length_toBytes : h.toBytes.length = hostLinkHeaderWireLen := by
  simp [toBytes, hostLinkHdrCrcLen, hostLinkHeaderWireLen]

theorem le16_eq_pair (v : UInt16) : ∃ lo hi, le16 v = [lo, hi] := ⟨_, _, rfl⟩

theorem HostLinkHeader.ofBytes_toBytes : ofBytes h.toBytes = h := by
  obtain ⟨m₀, m₁, hm⟩ := le16_eq_pair h.magic
  obtain ⟨i₀, i₁, hi⟩ := le16_eq_pair h.frameId
  obtain ⟨c₀, c₁, hc⟩ := le16_eq_pair h.cmd
  obtain ⟨l₀, l₁, hl⟩ := le16_eq_pair h.len
  obtain ⟨r₀, r₁, hr⟩ := le16_eq_pair h.hdrCrc
  have word {v : UInt16} {lo hi : UInt8} (hv : le16 v = [lo, hi]) (rest : List UInt8) :
      readLe16 (lo :: hi :: rest) = v := by
    have := readLe16_le16_append v rest
    rwa [hv] at this
  cases h
  simp only [toBytes, body, ofBytes, hm, hi, hc, hl, hr, List.cons_append, List.nil_append,
    List.drop_succ_cons, List.drop_zero, List.getD_cons_succ, List.getD_cons_zero,
    word hm, word hi, word hc, word hl, word hr]

theorem HostLinkHeader.toBytes_ofBytes {raw : List UInt8}
    (h : raw.length = hostLinkHeaderWireLen) : (ofBytes raw).toBytes = raw := by
  obtain ⟨b₀, b₁, b₂, b₃, b₄, b₅, b₆, b₇, b₈, b₉, b₁₀, b₁₁, b₁₂, b₁₃, rfl⟩ :
      ∃ b₀ b₁ b₂ b₃ b₄ b₅ b₆ b₇ b₈ b₉ b₁₀ b₁₁ b₁₂ b₁₃,
        raw = [b₀, b₁, b₂, b₃, b₄, b₅, b₆, b₇, b₈, b₉, b₁₀, b₁₁, b₁₂, b₁₃] := by
    rw [hostLinkHeaderWireLen] at h
    simp only [List.length_eq_succ_iff, List.length_eq_zero_iff] at h
    grind
  simp only [toBytes, body, ofBytes, List.drop_succ_cons, List.drop_zero, List.getD_cons_succ,
    List.getD_cons_zero, le16_readLe16, List.cons_append, List.nil_append]

/-! ## CRCs -/

def hostLinkCrc16 (data : List UInt8) : UInt16 := crc16 0xFFFF data

def hdrCrcOk : HostLinkErr :=
  if hostLinkCrc16 (h.toBytes.take hostLinkHdrCrcLen) = h.hdrCrc then .ok else .crc

def payloadCrcOk (pay : List UInt8) (len : ℕ) (expectCrc : UInt16) : HostLinkErr :=
  if hostLinkCrc16 (pay.take len) = expectCrc then .ok else .crc

/-- An odd number of changed bits, or changes inside sixteen bits, change the CRC, and a header
changed so is rejected. -/
theorem crc_detects {a b : List UInt8} (same : a.length = b.length) (altered : Altered a b) :
    hostLinkCrc16 a ≠ hostLinkCrc16 b ∧
      ∀ h h' : HostLinkHeader, h.toBytes.take hostLinkHdrCrcLen = a →
        h'.toBytes.take hostLinkHdrCrcLen = b → hdrCrcOk h = .ok → h'.hdrCrc = h.hdrCrc →
        hdrCrcOk h' = .crc := by
  have differ : hostLinkCrc16 a ≠ hostLinkCrc16 b := crc16_ne_of_altered same altered 0xFFFF
  refine ⟨differ, fun h h' before after ok crc => if_neg ?_⟩
  have fits : hostLinkCrc16 a = h.hdrCrc := by
    by_contra bad
    rw [hdrCrcOk, before, if_neg bad] at ok
    cases ok
  rw [after, crc, ← fits]
  exact differ.symm

def pingHeader (len : UInt16) : HostLinkHeader :=
  ⟨hostLinkMagic, hostLinkVersionCurrent, 0, 7, 0, 0, 0x0101, len, 0x1CD4⟩

def pingBody (len : UInt16) : List UInt8 := (pingHeader len).toBytes.take hostLinkHdrCrcLen

/-- Two bits of the length are changed. -/
theorem pingBody_altered : Altered (pingBody 0) (pingBody 0x8001) := by
  have size : (bitDiff (pingBody 0) (pingBody 0x8001)).length = 96 := by decide +kernel
  have window : ∀ i < 96, (bitDiff (pingBody 0) (pingBody 0x8001))[i]? = some true →
      80 ≤ i ∧ i < 80 + 16 := by decide +kernel
  refine .inr ⟨by decide +kernel, 80, fun i set => window i ?_ set⟩
  rw [← size]
  exact (List.getElem?_eq_some_iff.1 set).1

theorem crc_detects_len : hdrCrcOk (pingHeader 0) = .ok ∧ hdrCrcOk (pingHeader 0x8001) = .crc := by
  have ok : hdrCrcOk (pingHeader 0) = .ok := by decide +kernel
  have detects := crc_detects (a := pingBody 0) (b := pingBody 0x8001) (by decide +kernel)
    pingBody_altered
  exact ⟨ok, detects.2 (pingHeader 0) (pingHeader 0x8001) rfl rfl ok rfl⟩

/-- `host_link_frame_t`.  A null payload is the empty one; `is_valid` is kept with the slot. -/
structure HostLinkFrame where
  header : HostLinkHeader
  payload : List UInt8
  payloadCrc : UInt16
  deriving DecidableEq, Repr

/-- `send_wire` up to `send_fn`: the completed header and the buffer handed over. -/
def sendWire (hdr : HostLinkHeader) (payload : List UInt8) : HostLinkHeader × List UInt8 :=
  let hdr := { hdr with hdrCrc := hostLinkCrc16 (hdr.toBytes.take hostLinkHdrCrcLen) }
  (hdr, hdr.toBytes ++ payload ++ le16 (hostLinkCrc16 payload))

/-- The header every sender of the module fills in before it calls `send_wire`. -/
def newHeader (frameId : UInt16) (type : FrameType) (cmd : UInt16) (payload : List UInt8) :
    HostLinkHeader where
  magic := hostLinkMagic
  version := hostLinkVersionCurrent
  reserved := 0
  frameId := frameId
  type := type.toByte
  reserved2 := 0
  cmd := cmd
  len := UInt16.ofNat payload.length
  hdrCrc := 0

end NeoRuntime.HostLink
