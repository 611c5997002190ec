import NeoRuntime.Ota.Package
import NeoRuntime.Lib.Run

/-!
# The Ymodem receiver of the bootloader

The receive path of boot_ymodem.c.  `handle_eot` drains the chunk queue and parses again from inside
`try_consume_frame`, so the call stack is part of the state: `Machine.tasks` lists what is still to
do, and one step is one round of a loop.  The OTA module is any `OtaApi`.  Every `memmove`, every
return of `append_stream` and every overflow of the assembly buffer is recorded (`Event`).
-/

namespace NeoRuntime.Boot

open NeoRuntime.Ota

def ymSoh : UInt8 := 0x01
def ymStx : UInt8 := 0x02
def ymEot : UInt8 := 0x04
def ymAck : UInt8 := 0x06
def ymNak : UInt8 := 0x15
def ymCan : UInt8 := 0x18
def ymC : UInt8 := 0x43
/-- The letter sent after the closing frame. -/
def ymO : UInt8 := 0x4F

def rxDmaBuf : ℕ := 2048
def streamMax : ℕ := 4096
def nakRetries : ℕ := 20
def ymCancelBurst : ℕ := 8

def Chunk : Type := { data : List UInt8 // data.length ≤ rxDmaBuf }

inductive Uart where
  | uart1
  | uart2
  deriving DecidableEq, Repr

/-- The calls of the OTA module, on its state.  `bootPreprocess` tells whether it jumped. -/
structure OtaApi (ω : Type) where
  downloadStart : List UInt8 → ω → Bool × ω
  download : UInt32 → List UInt8 → ω → Bool × ω
  downloadFinish : ω → Bool × ω
  downloadAbort : ω → ω
  setBootYmodemFlag : UInt32 → ω → ω
  bootPreprocess : ω → Bool × ω
  hasActiveAppRegion : ω → Bool

/-- The static variables.  `held` are the bytes of `s_sb` up to `s_sl`; `s_locked` is set exactly
while `s_active` is.  `sent` is what has been transmitted. -/
structure YmodemState (ω : Type) where
  held : Uart → List UInt8
  active : Option Uart
  inFilenamePhase : Bool
  expectedSeq : UInt8
  lastAckedSeq : UInt8
  eotCount : ℕ
  hdrAccum : List UInt8
  hdrDone : Bool
  otaOffset : UInt32
  expectedTotal : UInt32
  otaSession : Bool
  canCount : ℕ
  wireTailDiscard : Bool
  nakStreak : ℕ
  sent : List (Uart × UInt8)
  ota : ω

/-- The length of a `memmove` and the bytes held, what `append_stream` leaves, and an overflow. -/
inductive Event where
  | memmove (len : ℤ) (held : ℕ)
  | appendReturned (held : ℕ)
  | streamOverflow
  deriving DecidableEq, Repr

section Receiver

variable {ω : Type} (api : OtaApi ω) (s : YmodemState ω) (u : Uart)

namespace YmodemState

def setHeld (bytes : List UInt8) : YmodemState ω :=
  { s with held := fun v => if v = u then bytes else s.held v }

/-- `tx_byte(s_active, b)`. -/
def tx (b : UInt8) : YmodemState ω :=
  { s with sent := s.sent ++ (s.active.map fun u => (u, b)).toList }

def sendYmodemCancelOn : YmodemState ω :=
  { s with sent := s.sent ++ List.replicate ymCancelBurst (u, ymCan) }

/-- `send_ymodem_cancel`, to the active UART if there is one. -/
def sendYmodemCancel : YmodemState ω :=
  s.active.elim s s.sendYmodemCancelOn

def sendCDiscovery : YmodemState ω :=
  if s.active = none then { s with sent := s.sent ++ [(.uart1, ymC), (.uart2, ymC)] } else s.tx ymC

def otaFailAbort : YmodemState ω :=
  if s.otaSession then { s with ota := api.downloadAbort s.ota, otaSession := false } else s

/-- `full_reset`, with `session_vars_clear` in it. -/
def fullReset : YmodemState ω :=
  let s := otaFailAbort api s
  { s with held := fun _ => [], active := none, inFilenamePhase := false, expectedSeq := 0,
           lastAckedSeq := 255, eotCount := 0, hdrAccum := [], hdrDone := false, otaOffset := 0,
           expectedTotal := 0, canCount := 0, wireTailDiscard := false, nakStreak := 0 }

def lockPorts : YmodemState ω :=
  { s with active := some u, held := fun v => if v = u then s.held v else [], expectedSeq := 0,
           inFilenamePhase := true, eotCount := 0 }

def lockIfFree : YmodemState ω :=
  if s.active = none then s.lockPorts u else s

def shouldListen : Bool := s.active = none ∨ s.active = some u

end YmodemState

/-! ## File data -/

/-- The rounds of `append_file_payload` after the header: one call, which takes all it can. -/
def appendBody (p : List UInt8) : YmodemState ω :=
  let remain := if s.otaOffset ≤ s.expectedTotal then s.expectedTotal - s.otaOffset else 0
  if p = [] ∨ remain = 0 then s
  else
    let data := p.take remain.toNat
    let (ok, ota) := api.download s.otaOffset data s.ota
    if ok then { s with ota := ota, otaOffset := s.otaOffset + UInt32.ofNat data.length }
    else { s with ota := ota, nakStreak := nakRetries }

/-- `append_file_payload`.  The round that collects the header is made at most once. -/
def appendFilePayload (p : List UInt8) : YmodemState ω :=
  if s.hdrDone then appendBody api s p
  else
    let need := packageHeaderSize - s.hdrAccum.length
    let s := { s with hdrAccum := s.hdrAccum ++ p.take need }
    if s.hdrAccum.length < packageHeaderSize then s
    else
      let (ok, ota) := api.downloadStart s.hdrAccum s.ota
      if ok then
        let s := { s with ota := ota, otaSession := true }
        let (ok, ota) := api.download 0 s.hdrAccum s.ota
        if ok then
          appendBody api { s with
            ota := ota, hdrDone := true, otaOffset := UInt32.ofNat packageHeaderSize,
            expectedTotal := (OtaPackageHeader.ofBytes s.hdrAccum).total } (p.drop need)
        else { s with ota := ota, nakStreak := nakRetries }
      else { s with ota := ota, nakStreak := nakRetries }

def handleDataBlock (seq : UInt8) (payload : List UInt8) : YmodemState ω :=
  if seq ≠ s.expectedSeq then
    if seq = s.lastAckedSeq then s.tx ymAck
    else
      let s := s.tx ymNak
      let s := { s with nakStreak := s.nakStreak + 1 }
      if s.nakStreak > nakRetries then (s.sendYmodemCancel).fullReset api else s
  else if s.inFilenamePhase then
    let s := { s with inFilenamePhase := false, expectedSeq := 1, lastAckedSeq := seq }
    { s.tx ymAck with nakStreak := 0 }
  else
    let s := appendFilePayload api s payload
    if s.nakStreak ≥ nakRetries then (s.sendYmodemCancel).fullReset api
    else
      let s := { s with lastAckedSeq := seq, expectedSeq := seq + 1 }
      { s.tx ymAck with nakStreak := 0 }

/-! ## Parsing -/

def isFrameByte (b : UInt8) : Bool := b = ymSoh ∨ b = ymStx ∨ b = ymEot ∨ b = ymCan

def ymodemCrc16 (data : List UInt8) : UInt16 := crc16 0 data

/-- `memmove(buf, buf + k, *plen - k); *plen -= k`. -/
def shift (k : ℕ) : YmodemState ω × Event :=
  (s.setHeld u ((s.held u).drop k), .memmove ((s.held u).length - k) (s.held u).length)

/-- How a round of `try_consume_frame` ends: the next round, a return, or the long part of
`handle_eot`. -/
inductive Flow where
  | again
  | done
  | eot
  deriving DecidableEq, Repr

def dataLen (st : UInt8) : ℕ := if st = ymSoh then 128 else 1024

def frameLen (st : UInt8) : ℕ := dataLen st + 5

variable (buf : List UInt8)

/-- `buf[0]`, `buf[1]` and `buf[2]` of a frame. -/
def startOf : UInt8 := buf.getD 0 0
def seqOf : UInt8 := buf.getD 1 0
def nseqOf : UInt8 := buf.getD 2 0

/-- The bytes at `pay`. -/
def payOf : List UInt8 := (buf.drop 3).take (dataLen (startOf buf))

/-- `crc_rx`: the two bytes after the data, high byte first. -/
def crcRxOf : UInt16 :=
  (buf.getD (3 + dataLen (startOf buf)) 0).toUInt16 <<< 8 |||
    (buf.getD (3 + dataLen (startOf buf) + 1) 0).toUInt16

/-- The test for the frame that closes a batch. -/
def isClosing : Bool :=
  startOf buf = ymSoh ∧ seqOf buf = 0 ∧ (payOf buf).getD 0 0 = 0 ∧ s.hdrDone ∧ s.eotCount ≥ 2

/-- The part of a round for a buffer that starts with SOH or STX. -/
def consumeData (s : YmodemState ω) : YmodemState ω × List Event × Flow :=
  let buf := s.held u
  let frlen := frameLen (startOf buf)
  if buf.length < frlen then (s, [], .done)
  else if seqOf buf + nseqOf buf ≠ 255 then
    let (s, moved) := shift s u 1
    (s.tx ymNak, [moved], .again)
  else if crcRxOf buf ≠ ymodemCrc16 (payOf buf) then
    let (s, moved) := shift s u 1
    if s.active = none then (s, [moved], .again)
    else
      let s := s.tx ymNak
      let s := { s with nakStreak := s.nakStreak + 1 }
      (if s.nakStreak > nakRetries then (s.sendYmodemCancel).fullReset api else s, [moved], .again)
  else if isClosing s buf then
    let (s, moved) := shift ((s.lockIfFree u).tx ymAck) u frlen
    (s, [moved], .again)
  else
    let (s, moved) := shift (handleDataBlock api (s.lockIfFree u) (seqOf buf) (payOf buf)) u frlen
    (s, [moved], .again)

/-- `handle_eot` up to the second EOT's drain. -/
def handleEot : YmodemState ω × Flow :=
  if s.active = none then (s, .again)
  else if s.eotCount = 0 then ({ s.tx ymNak with eotCount := 1 }, .again)
  else if s.eotCount ≥ 2 then (s, .again)
  else (({ s with eotCount := 2 }.tx ymAck).sendCDiscovery, .eot)

/-- The part of a round for a buffer that starts with EOT. -/
def consumeEot (s : YmodemState ω) : YmodemState ω × List Event × Flow :=
  let (s, moved) := shift s u 1
  if s.wireTailDiscard then (s, [moved], .again)
  else ((handleEot s).1, [moved], (handleEot s).2)

/-- The part of a round for a buffer that starts with CAN. -/
def consumeCan (s : YmodemState ω) : YmodemState ω × List Event × Flow :=
  if s.wireTailDiscard then
    let (s, moved) := shift s u 1
    (s, [moved], .again)
  else
    let (s, moved) := shift { s with canCount := s.canCount + 1 } u 1
    (if s.canCount ≥ 2 then s.fullReset api else s, [moved], .again)

/-- The part of a round after the bytes before the first frame byte are dropped. -/
def consumeFrame (s : YmodemState ω) : YmodemState ω × List Event × Flow :=
  match s.held u with
  | [] => (s, [], .done)
  | b :: _ =>
      if s.active ≠ none ∧ s.active ≠ some u then (s.setHeld u [], [], .done)
      else if b = ymCan then consumeCan api u s
      else if b = ymEot then consumeEot u { s with canCount := 0 }
      else if b ≠ ymSoh ∧ b ≠ ymStx then ({ s with canCount := 0 }, [], .done)
      else consumeData api u { s with canCount := 0 }

/-- One round of the loop of `try_consume_frame`. -/
def tryConsumeFrame (s : YmodemState ω) : YmodemState ω × List Event × Flow :=
  let noise := ((s.held u).takeWhile fun b => !isFrameByte b).length
  if noise = 0 then consumeFrame api u s
  else
    let (s, moved) := shift s u noise
    let (s, events, flow) := consumeFrame api u s
    (s, moved :: events, flow)

/-! ## The machine -/

/-- What is still to do on the call stack; `returned` is the end of `append_stream`. -/
inductive Task where
  | consume (u : Uart)
  | returned (u : Uart)
  | drainChunks
  | drainLoop
  | eotTail
  | eotFinish
  deriving DecidableEq, Repr

/-- The rest of `handle_eot` after the second EOT's ACK. -/
def eotTasks : List Task :=
  [.drainChunks, .consume u, .eotTail, .drainChunks, .consume u, .eotFinish]

/-- `polling` is set while the outermost `drain_chunks` runs; `halted` after a `memmove` out of
range, a jump and a reset. -/
structure Machine (ω : Type) where
  state : YmodemState ω
  tasks : List Task
  polling : Bool
  halted : Bool

/-- The next chunk of the queue, its overflow flag, or one of the timeouts of `boot_ymodem_poll`. -/
inductive Env where
  | quiet
  | chunk (u : Uart) (data : Chunk)
  | chunkOverflow (u : Uart)
  | discovery
  | rxIdle

/-- Whether the length of a `memmove` is in range. -/
def Event.inRange : Event → Bool
  | .memmove len held => 0 ≤ len ∧ len ≤ held
  | _ => true

/-- `append_stream` up to the call of `try_consume_frame`. -/
def appendStream (data : Chunk) (s : YmodemState ω) : YmodemState ω × List Event × List Task :=
  if (s.held u).length + data.val.length > streamMax then
    ((s.sendYmodemCancelOn (s.active.getD u)).fullReset api, [.streamOverflow], [.returned u])
  else (s.setHeld u (s.held u ++ data.val), [], [.consume u, .returned u])

/-- The branch of `drain_chunks` for a queue that has overflowed. -/
def dropChunks (s : YmodemState ω) : YmodemState ω :=
  (s.sendYmodemCancelOn (s.active.getD u)).fullReset api

/-- The end of `handle_eot`; whether the boot jumped. -/
def eotFinish : YmodemState ω × Bool :=
  if s.otaSession ∧ s.hdrDone then
    let (ok, ota) := api.downloadFinish s.ota
    if ok then
      let (jumped, ota) := api.bootPreprocess (api.setBootYmodemFlag 0 ota)
      let s := { s with ota := ota, otaSession := false }
      if jumped then (s, true) else (s.fullReset api, false)
    else ({ s with ota := api.downloadAbort ota, otaSession := false }.fullReset api, false)
  else (s.fullReset api, false)

variable (m : Machine ω)

def Machine.poll (env : Env) : Machine ω × List Event :=
  match m.polling, env with
  | true, .chunk u data =>
      if m.state.shouldListen u then
        let (s, events, tasks) := appendStream api u data m.state
        ({ m with state := s, tasks := tasks }, events)
      else (m, [])
  | true, _ => ({ m with polling := false }, [])
  | false, .chunkOverflow u => ({ m with state := dropChunks api u m.state }, [])
  | false, .discovery =>
      ({ m with state := if m.state.active = none then m.state.sendCDiscovery else m.state }, [])
  | false, .rxIdle =>
      let s := m.state.sendYmodemCancel
      if api.hasActiveAppRegion s.ota then ({ m with state := s, halted := true }, [])
      else ({ m with state := s.fullReset api }, [])
  | false, _ => ({ m with polling := true }, [])

def Machine.perform (env : Env) (tasks : List Task) : Task → Machine ω × List Event
  | .consume u =>
      let (s, events, flow) := tryConsumeFrame api u m.state
      let tasks := match flow with
        | .again => .consume u :: tasks
        | .done => tasks
        | .eot => eotTasks u ++ .consume u :: tasks
      ({ m with state := s, tasks := tasks, halted := !events.all Event.inRange }, events)
  | .returned u => ({ m with tasks := tasks }, [.appendReturned (m.state.held u).length])
  | .drainChunks =>
      match env with
      | .chunkOverflow u => ({ m with state := dropChunks api u m.state, tasks := tasks }, [])
      | _ => ({ m with tasks := .drainLoop :: tasks }, [])
  | .drainLoop =>
      match env with
      | .chunk u data =>
          if m.state.shouldListen u then
            let (s, events, new) := appendStream api u data m.state
            ({ m with state := s, tasks := new ++ .drainLoop :: tasks }, events)
          else (m, [])
      | _ => ({ m with tasks := tasks }, [])
  | .eotTail =>
      let s := { m.state.tx ymO with canCount := 0, wireTailDiscard := true }
      ({ m with state := s, tasks := tasks }, [])
  | .eotFinish =>
      let (s, jumped) := eotFinish api m.state
      ({ m with state := s, tasks := tasks, halted := jumped }, [])

def Machine.step (env : Env) : Machine ω × List Event :=
  if m.halted then (m, [])
  else
    match m.tasks with
    | [] => m.poll api env
    | task :: tasks => m.perform api env tasks task

def Machine.trace (envs : List Env) : List Event :=
  (runLog (Machine.step api) m envs).2

/-- `boot_ymodem_init`. -/
def Machine.init (ota : ω) : Machine ω where
  state :=
    { held := fun _ => [], active := none, inFilenamePhase := false, expectedSeq := 0,
      lastAckedSeq := 255, eotCount := 0, hdrAccum := [], hdrDone := false, otaOffset := 0,
      expectedTotal := 0, otaSession := false, canCount := 0, wireTailDiscard := false,
      nakStreak := 0, sent := [(.uart1, ymC), (.uart2, ymC)], ota := ota }
  tasks := []
  polling := false
  halted := false

end Receiver

end NeoRuntime.Boot
