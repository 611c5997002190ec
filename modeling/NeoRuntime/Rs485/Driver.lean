import Mathlib.Data.Finset.Basic
import NeoRuntime.Lib.Run

/-!
# The RS485 driver

A task stores each frame that the interrupt announces in a mailbox for one frame, and
`rs485_driver_recv` takes it from there; `rs485_driver_txrx` sends a request first.  They meet in
one event group.  A bit is cleared by the tasks that it wakes; one that nobody waits for stays.
Interrupts ask the timer task to set their bits.  The mutexes are always obtained.
-/

namespace NeoRuntime.Rs485

/-- RS485_RX_BUFFER_SIZE -/
def rxBufferSize : ℕ := 512

/-- RS485_TX_BUFFER_SIZE -/
def txBufferSize : ℕ := 512

/-- The bits of `s_events`. -/
inductive EventBit
  | rxComplete
  | rxError
  | txComplete
  | rxNotify
  | rxFrame
  deriving DecidableEq, Repr

structure Frame where
  bytes : List UInt8
  /-- The number of receive interrupts when the task read its length, the last one its own. -/
  received : ℕ
  deriving DecidableEq, Repr

/-- Where `rs485_rx_task` is. -/
inductive RxTask
  | start
  /-- About to wait for its bits. -/
  | loop
  | waiting
  | woken (ev : Finset EventBit)
  /-- The length is read, and the mutex not yet taken. -/
  | store (n received : ℕ)
  /-- The mutex is given back, and the bits are not yet set. -/
  | announce
  deriving DecidableEq

/-- A call of `rs485_driver_txrx`, if it transmits, or of `rs485_driver_recv`. -/
structure Request where
  transmits : Bool
  dataLen : ℕ
  deriving DecidableEq

/-- The two waits of the caller. -/
inductive Wait
  | transmission
  | frame
  deriving DecidableEq

@[grind] def Wait.mask : Wait → Finset EventBit
  | .transmission => {.txComplete}
  | .frame => {.rxFrame, .rxError}

@[grind] def taskMask : Finset EventBit := {.rxNotify, .rxError}

inductive Caller
  | idle
  /-- The bit is cleared, and the transmission not yet started. -/
  | transmit (r : Request)
  | look (r : Request)
  | wait (r : Request) (w : Wait)
  | blocked (r : Request) (w : Wait)
  | woken (r : Request) (w : Wait) (ev : Finset EventBit)
  /-- Told that there is a frame. -/
  | take (r : Request)
  deriving DecidableEq

structure Driver where
  rxBuf : List UInt8 := []
  rxLen : ℕ := 0
  /-- `s_rx_frame`, when `s_rx_frame_ready`. -/
  mailbox : Option Frame := none
  bits : Finset EventBit := ∅
  /-- The bits that the timer task was asked to set, the oldest first. -/
  deferred : List EventBit := []
  task : RxTask := .start
  caller : Caller := .idle
  receptions : ℕ := 0
  /-- Their number when the last transmission ended, if none is going on. -/
  sentAt : Option ℕ := some 0
  /-- The last wait of the caller expired. -/
  expired : Bool := false
  /-- A frame was stored since the last wait of the caller began. -/
  storedInWait : Bool := false
  deriving DecidableEq

inductive Output
  | stored (f : Frame)
  /-- A call returns SYS_OK and the data, after a transmission that ended at `sentAt`. -/
  | ok (r : Request) (f : Frame) (data : List UInt8) (sentAt : Option ℕ)
  /-- A call returns SYS_ERR_TIMEOUT. -/
  | timeout (expired storedInWait : Bool)
  | hal
  | invalidArg
  deriving DecidableEq

def Meets (bits mask : Finset EventBit) : Prop := ∃ b ∈ mask, b ∈ bits

instance (bits mask : Finset EventBit) : Decidable (Meets bits mask) :=
  inferInstanceAs (Decidable (∃ b ∈ mask, b ∈ bits))

section Meets

variable {bits : Finset EventBit}

@[simp, grind =] theorem meets_transmission :
    Meets bits Wait.transmission.mask ↔ .txComplete ∈ bits := by simp [Meets, Wait.mask]

@[simp, grind =] theorem meets_frame :
    Meets bits Wait.frame.mask ↔ .rxFrame ∈ bits ∨ .rxError ∈ bits := by simp [Meets, Wait.mask]

@[simp, grind =] theorem meets_taskMask :
    Meets bits taskMask ↔ .rxNotify ∈ bits ∨ .rxError ∈ bits := by simp [Meets, taskMask]

end Meets

@[grind] def RxTask.wake (bits : Finset EventBit) : RxTask → RxTask
  | .waiting => if Meets bits taskMask then .woken bits else .waiting
  | task => task

@[grind] def RxTask.clears : RxTask → Finset EventBit
  | .waiting => taskMask
  | _ => ∅

@[grind] def Caller.wake (bits : Finset EventBit) : Caller → Caller
  | .blocked r w => if Meets bits w.mask then .woken r w bits else .blocked r w
  | caller => caller

@[grind =] theorem Caller.wake_eq_take {caller : Caller} {bits : Finset EventBit} {r : Request} :
    caller.wake bits = .take r ↔ caller = .take r := by
  cases caller <;> grind

@[grind =] theorem Caller.wake_eq_woken {caller : Caller} {bits ev : Finset EventBit} {r : Request}
    {w : Wait} : caller.wake bits = .woken r w ev ↔
      caller = .woken r w ev ∨ caller = .blocked r w ∧ Meets bits w.mask ∧ bits = ev := by
  cases caller <;> grind

@[grind =] theorem Caller.wake_eq_blocked {caller : Caller} {bits : Finset EventBit} {r : Request}
    {w : Wait} : caller.wake bits = .blocked r w ↔ caller = .blocked r w ∧ ¬ Meets bits w.mask := by
  cases caller <;> grind

@[grind] def Caller.clears : Caller → Finset EventBit
  | .blocked _ w => w.mask
  | _ => ∅

variable (s : Driver)

/-- `xEventGroupSetBits` -/
@[grind] def setBits (given : Finset EventBit) : Driver :=
  { s with
    bits := (s.bits ∪ given) \ (s.task.clears ∪ s.caller.clears)
    task := s.task.wake (s.bits ∪ given)
    caller := s.caller.wake (s.bits ∪ given) }

/-- The next step of `rs485_rx_task`; `armed` is the outcome of its first start of a reception. -/
def taskStep (armed : Bool) : Driver × List Output :=
  match s.task with
  | .start =>
    ({ (if armed then s else setBits s {.rxError}) with task := .loop }, [])
  | .loop =>
    if Meets s.bits taskMask then
      ({ s with task := .woken s.bits, bits := s.bits \ taskMask }, [])
    else ({ s with task := .waiting }, [])
  | .waiting => (s, [])
  | .woken ev =>
    if .rxError ∈ ev then ({ s with task := .loop }, [])
    else if .rxNotify ∈ ev then
      ({ s with task := .store (min s.rxLen rxBufferSize) s.receptions }, [])
    else ({ s with task := .loop }, [])
  | .store n received =>
    let f : Frame := ⟨s.rxBuf.take n, received⟩
    ({ s with mailbox := some f, storedInWait := true, task := .announce }, [.stored f])
  | .announce => ({ setBits s {.rxFrame, .rxComplete} with task := .loop }, [])

/-- The start of `rs485_driver_recv`, up to the mutex. -/
def recvStart (r : Request) : Driver × List Output :=
  if r.dataLen = 0 then ({ s with caller := .idle }, [.invalidArg])
  else ({ s with caller := .look r }, [])

def deliver (r : Request) (f : Frame) : Driver × List Output :=
  ({ s with mailbox := none, caller := .idle }, [.ok r f (f.bytes.take r.dataLen) s.sentAt])

def timeout : Driver × List Output :=
  ({ s with caller := .idle }, [.timeout s.expired s.storedInWait])

/-- The next step of the call; `started` is the outcome of the start of the transmission. -/
def callerStep (started : Bool) : Driver × List Output :=
  match s.caller with
  | .idle => (s, [])
  | .transmit r =>
    if started then ({ s with caller := .wait r .transmission, sentAt := none }, [])
    else ({ s with caller := .idle }, [.hal])
  | .look r =>
    match s.mailbox with
    | some f => deliver s r f
    | none => ({ s with caller := .wait r .frame }, [])
  | .wait r w =>
    let s := { s with expired := false, storedInWait := false }
    if Meets s.bits w.mask then
      ({ s with caller := .woken r w s.bits, bits := s.bits \ w.mask }, [])
    else ({ s with caller := .blocked r w }, [])
  | .blocked _ _ => (s, [])
  | .woken r .transmission ev =>
    if .txComplete ∈ ev then recvStart s r
    -- HAL_UART_AbortTransmit ends the transmission.
    else timeout { s with sentAt := some (s.sentAt.getD s.receptions) }
  | .woken r .frame ev =>
    if .rxError ∈ ev then ({ s with caller := .idle }, [.hal])
    else if .rxFrame ∈ ev then ({ s with caller := .take r }, [])
    else timeout s
  | .take r =>
    match s.mailbox with
    | some f => deliver s r f
    | none => timeout s

inductive Event
  /-- The receive interrupt, with what the DMA has written. -/
  | receive (buf : List UInt8) (size : ℕ)
  /-- The transmission is complete. -/
  | sent
  | lineError
  | timer
  | task (armed : Bool)
  | recv (dataLen : ℕ)
  | txrx (txLen dataLen : ℕ)
  | caller (started : Bool)
  | expire
  deriving DecidableEq

/-- One step of a party; one that cannot make its step stays where it is. -/
def step : Event → Driver × List Output
  | .receive buf size =>
    ({ s with rxBuf := buf, rxLen := size, receptions := s.receptions + 1,
              deferred := s.deferred ++ [.rxNotify] }, [])
  | .sent =>
    if s.sentAt = none then
      ({ s with sentAt := some s.receptions, deferred := s.deferred ++ [.txComplete] }, [])
    else (s, [])
  | .lineError => ({ s with deferred := s.deferred ++ [.rxError] }, [])
  | .timer =>
    match s.deferred with
    | [] => (s, [])
    | b :: deferred => (setBits { s with deferred } {b}, [])
  | .task armed => taskStep s armed
  | .recv dataLen => if s.caller = .idle then recvStart s ⟨false, dataLen⟩ else (s, [])
  | .txrx txLen dataLen =>
    if s.caller = .idle then
      if txLen = 0 ∨ txLen > txBufferSize then (s, [.invalidArg])
      else ({ s with caller := .transmit ⟨true, dataLen⟩, bits := s.bits \ {.txComplete} }, [])
    else (s, [])
  | .caller started => callerStep s started
  | .expire =>
    match s.caller with
    | .blocked r w =>
      ({ s with caller := .woken r w s.bits, bits := s.bits \ w.mask, expired := true }, [])
    | _ => (s, [])

def storedFrames (log : List Output) : List Frame :=
  log.filterMap fun
    | .stored f => some f
    | _ => none

/-- The data that calls returned, in order, with the room they had. -/
def returnedData (log : List Output) : List (ℕ × List UInt8) :=
  log.filterMap fun
    | .ok r _ data _ => some (r.dataLen, data)
    | _ => none

end NeoRuntime.Rs485
