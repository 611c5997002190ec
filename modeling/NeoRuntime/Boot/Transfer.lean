import NeoRuntime.Boot.Ymodem
import NeoRuntime.Ota.Streaming

/-!
# A Ymodem transfer

A sender in front of the receiver, with the OTA module behind it.  The sender transmits the packet
with the file name and then the file in blocks, numbered modulo 256; it goes on to the next block when
an ACK arrives, and repeats the current one otherwise.
-/

namespace NeoRuntime.Boot

open NeoRuntime.Ota

/-! ## The OTA module behind the receiver -/

/-- The device, and the arguments of every call of `ota_module_ota_download`. -/
structure Host (L : Layout) where
  device : Device L
  downloads : List (UInt32 × List UInt8)

section Module

variable {L : Layout} (crc32 : List UInt8 → UInt32)

def Host.call (c : Call) (h : Host L) : Bool × Host L :=
  (h.device.result crc32 c = .ok, { h with device := h.device.after crc32 c })

def moduleApi : OtaApi (Host L) where
  downloadStart := fun bytes => Host.call crc32 (.downloadStart (.ofBytes bytes))
  download := fun offset data h =>
    Host.call crc32 (.download offset data) { h with downloads := h.downloads ++ [(offset, data)] }
  downloadFinish := Host.call crc32 .downloadFinish
  downloadAbort := fun h => (h.call crc32 .downloadAbort).2
  setBootYmodemFlag := fun flag h => (h.call crc32 (.setBootYmodemFlag flag)).2
  bootPreprocess := Host.call crc32 .bootPreprocess
  hasActiveAppRegion := fun h =>
    (Prog.run (portHandler L) (otaModuleHasActiveAppRegion crc32 h.device.session) h.device.world).1

end Module

/-- Each call continues where the one before it ended, from offset `n` on. -/
def Contiguous : ℕ → List (UInt32 × List UInt8) → Prop
  | _, [] => True
  | n, (offset, data) :: rest => offset = UInt32.ofNat n ∧ Contiguous (n + data.length) rest

/-! ## The sender -/

structure Block where
  data : List UInt8
  sized : data.length = 128 ∨ data.length = 1024

/-- The packet on the wire, with its CRC high byte first. -/
def Block.frame (b : Block) (seq : UInt8) : List UInt8 :=
  let crc := ymodemCrc16 b.data
  (if b.data.length = 128 then ymSoh else ymStx) :: seq :: (255 - seq) ::
    (b.data ++ [(crc >>> 8).toUInt8, crc.toUInt8])

section Link

variable {ω : Type} (api : OtaApi ω) (u : Uart)

/-- The machine goes on until it has nothing to do. -/
def Machine.settle : ℕ → Machine ω → Machine ω
  | 0, m => m
  | fuel + 1, m => if m.tasks = [] then m else settle fuel (m.step api .quiet).1

def Machine.receive (m : Machine ω) (data : Chunk) : Machine ω :=
  let m := if m.polling then m else (m.step api .quiet).1
  let m := (m.step api (.chunk u data)).1
  m.settle api ((m.state.held u).length + 3)

def joined (chunks : List Chunk) : List UInt8 := chunks.flatMap fun chunk => chunk.val

/-- The chunks in which a packet is received, and whether the answer to it arrives. -/
structure Transmission where
  split : List UInt8 → List Chunk
  whole : ∀ bytes, joined (split bytes) = bytes
  ackArrives : Bool

/-- A receiver and a sender that has the packets `left` to send, numbered from `number` on. -/
structure Link (ω : Type) where
  receiver : Machine ω
  number : ℕ
  left : List Block

def Link.transmit (l : Link ω) (t : Transmission) : Link ω :=
  match l.left with
  | [] => l
  | b :: rest =>
      let m := (t.split (b.frame (UInt8.ofNat l.number))).foldl (Machine.receive api u) l.receiver
      let answer := m.state.sent.drop l.receiver.state.sent.length
      if t.ackArrives ∧ (u, ymAck) ∈ answer then
        { receiver := m, number := l.number + 1, left := rest }
      else { l with receiver := m }

end Link

end NeoRuntime.Boot
