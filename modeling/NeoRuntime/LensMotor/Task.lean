import NeoRuntime.LensMotor.Driver

/-!
# The motor task of the lens driver

`ms41908m_motor_task_handler` waits for event bits, which it reads without clearing them.  Under the
lock it stops axes that take too long, arms the reset state machine, handles finished batches,
outputs the pulse for the next ones, clears the `PLS` bits and drives the state machine.  The calls
of the application take the same lock.
-/

namespace NeoRuntime.LensMotor

def notifyCap : ℕ := 8

variable (s : Side)

namespace Side

def clearCapture : Side := { s with piEvent := false, completedEvent := false }

def clearCompleted : Side := { s with completedEvent := false }

def approached : Side := { s with approaching := s.approaching + 1 }

def admitted : Side := { s with approaching := s.approaching - 1 }

def requested : Side :=
  { s with requesting := s.requesting - 1, requestEvent := true }

def resetEnded (homed : Bool) (result : Result) : Side :=
  { s.clearCapture with
    position := if homed then 0 else s.position
    isRZero := homed
    state := .stopped
    rstLastResult := result }

/-- A reset is refused because the limits make no sense. -/
def refused : Side := { s with state := .stopped, rstLastResult := .invalidState }

def acknowledged : Side := { s with plsRcvd := true }

/-- The position follows the batch that was in the register. -/
def advanced : Side :=
  { s with position := s.position + signed s.runConfig.direction s.runConfig.loadPsum }

/-- The next batch is as large as the one before. -/
def continued : Side :=
  { s with runConfig := { s.runConfig with
      unloadPsum := s.runConfig.unloadPsum - s.runConfig.loadPsum } }

/-- The last batch is smaller. -/
def lastLoaded : Side :=
  { s with runConfig := { s.runConfig with
      loadPsum := s.runConfig.unloadPsum, unloadPsum := 0 } }

def reloaded : Side :=
  { s with register := { s.register with psum := s.runConfig.loadPsum } }

def failed : Side := { s with state := .error, isRZero := false }

end Side

variable (w : World) (a : Axis)

namespace World

def queueNotice (notice : Notice) : World :=
  if w.queue.length < notifyCap then { w with queue := w.queue ++ [notice] } else w

def notifyCompleted (result : Result) : World :=
  (w.upd a fun s => { s with completedEvent := true }).queueNotice (.completed a result)

def notifyDone (result : Result) : World :=
  (w.upd a fun s => { s with doneEvent := true }).queueNotice (.resetDone a result)

/-! ## The reset state machine -/

def setPhase (phase : Phase) : World := { w with rst := { w.rst with phase := phase } }

def disarm : World :=
  { w with rst := { w.rst with phase := .idle, abortRequested := false } }

/-- `pi_irq_enable` and `pi_irq_disable`, which both clear the bits of the light barriers. -/
def setPiIrq (enabled : Bool) : World :=
  { w with piIrq := enabled, sides := fun a => { w.sides a with piEvent := false } }

def completeReset (homed : Bool) (result : Result) : World :=
  let a := w.rst.axis
  let w := if (w.sides a).state = .running then (w.stopImpl a).1 else w
  let w := w.upd a fun s => s.resetEnded homed result
  (w.disarm.setPiIrq false).notifyDone a result

def completeOk : World := w.completeReset true .ok

def completeErr (err : Result) : World := w.completeReset false err

def travelMargin : ℤ := 400

def spanZeroToMin : ℤ := max (-s.posMin) 0 + travelMargin

def spanZeroToMax : ℤ := max s.posMax 0 + travelMargin

/-- Out of the shade of the light barrier, which is at the minimum for zoom. -/
def stepsToClearPi : Axis → ℤ
  | .zoom => spanZeroToMin (w.sides .zoom)
  | .focus => -spanZeroToMax (w.sides .focus)

def stepsToHomeEdge : Axis → ℤ
  | .zoom => -spanZeroToMax (w.sides .zoom)
  | .focus => spanZeroToMin (w.sides .focus)

def arm (piHigh : Bool) : World :=
  let w := w.upd a fun s => s.clearCapture.unzeroed
  let phase := if piHigh then .captureStart else .exitLowStart
  { w.setPiIrq true with rst := { phase := phase, axis := a } }

def tryArm (piHigh : Bool) : World :=
  let s := w.sides a
  if w.smActive then w
  else if s.state ≠ .resetZero then w
  else if s.posMax ≤ s.posMin ∨ 0 < s.posMin ∨ s.posMax < 0 then
    (w.upd a Side.refused).notifyDone a .invalidState
  else w.arm a piHigh

/-- `reset_sm_step_once_locked`, given what its reads of the light barrier return. -/
def resetStep (piHigh piHighAtEnd : Bool) : World :=
  let a := w.rst.axis
  let s := w.sides a
  match w.rst.phase with
  | .idle => w
  | .exitLowStart =>
      if w.rst.abortRequested then w.completeErr .notFinished
      else if piHigh then w.setPhase .captureStart
      else
        let start := w.startImpl a 1200 (w.stepsToClearPi a)
        if start.2 = .ok then start.1.setPhase .exitLowWait else start.1.completeErr start.2
  | .exitLowWait =>
      if w.rst.abortRequested then w.completeErr .notFinished
      else if piHigh then
        ((w.stopImpl a).1.upd a Side.clearCapture).setPhase .captureStart
      else
        let w := w.upd a Side.clearCompleted
        if s.state = .running then w
        else if piHighAtEnd then w.setPhase .captureStart
        else w.completeErr .timeout
  | .captureStart =>
      if w.rst.abortRequested then w.completeErr .notFinished
      else
        let w := w.upd a Side.clearCapture
        let start := w.startImpl a 400 (w.stepsToHomeEdge a)
        if start.2 = .ok then start.1.setPhase .captureWait else start.1.completeErr start.2
  | .captureWait =>
      if w.rst.abortRequested then w.completeErr .notFinished
      else if s.piEvent then
        let w := (w.stopImpl a).1.upd a Side.clearCapture
        completeOk { w with rst := { w.rst with piTriggered := true } }
      else if s.completedEvent then
        let w := w.upd a Side.clearCompleted
        if s.state ≠ .running ∧ ¬ w.rst.piTriggered then w.completeErr .timeout else w
      else w

/-! ## Finished batches -/

/-- The next batch of a move; `ok` is the return code of the last access of this iteration. -/
def nextBatch (ok : Bool) : World × Bool :=
  let config := (w.sides a).runConfig
  if config.loadPsum ≤ config.unloadPsum then (w.upd a Side.continued, ok)
  else
    let w := w.upd a Side.lastLoaded
    if w.answers a 2 then ((w.spent a 2).upd a Side.reloaded, true)
    else (w.spent a 2, false)

/-- The axis is stopped, as far as SPI allows, and left in the error state. -/
def forceStop : World := (w.stopImpl a).1.upd a Side.failed

def complete : World :=
  let w := (w.stopImpl a).1
  if w.armed a then w.upd a fun s => { s with completedEvent := true }
  else w.notifyCompleted a .ok

/-- The handling of a `PLS` bit of a running axis. -/
def handlePls (ok : Bool) : World × Bool :=
  let w := w.upd a Side.acknowledged
  if (w.sides a).runConfig.isValid then
    let w := w.upd a Side.advanced
    if 0 < (w.sides a).runConfig.unloadPsum then
      let next := w.nextBatch a ok
      if next.2 then next else (next.1.forceStop a, false)
    else (w.complete a, ok)
  else (w, ok)

def handlePlsOf (bits : Bits) (a : Axis) (ok : Bool) : World × Bool :=
  if bits.pls a ∧ (w.sides a).state = .running then w.handlePls a ok else (w, ok)

/-- Both axes, then one pulse when all running axes are ready. -/
def handleBatches (bits : Bits) : World :=
  let focus := w.handlePlsOf bits .focus true
  let both := focus.1.handlePlsOf bits .zoom focus.2
  if both.1.canFire ∧ both.1.anyRunning then both.1.fire else both.1

/-- The guard for an axis that runs too long. -/
def guardTimeout (expired : Bool) : World :=
  if (w.sides a).state = .running ∧ expired then (w.forceStop a).notifyCompleted a .timeout else w

def consumeRequest (bits : Bits) (a : Axis) (piHigh : Bool) : World :=
  if bits.request a then (w.tryArm a piHigh).upd a fun s => { s with requestEvent := false } else w

end World

def Bits.anyPls (bits : Bits) : Bool := bits.pls .focus || bits.pls .zoom

namespace World

/-- One iteration of the task under the lock, up to the clearing of the `PLS` bits. -/
def handle (bits : Bits) (expired piHigh : Axis → Bool) : World :=
  let w := if w.smActive then w
    else (w.guardTimeout .focus (expired .focus)).guardTimeout .zoom (expired .zoom)
  let w := w.consumeRequest bits .zoom (piHigh .zoom)
  let w := w.consumeRequest bits .focus (piHigh .focus)
  if bits.anyPls then w.handleBatches bits else w

def clearPls (bits : Bits) : World :=
  if bits.anyPls then { w with sides := fun a => { w.sides a with plsEvent := false } } else w

end World

/-! ## The system -/

inductive Event
  | run (a : Axis) (pps : ℕ) (steps : ℤ) (spi : Axis → List Bool)
  /-- `run_to_position` finds the axis homed, which it asks for without the lock. -/
  | approach (a : Axis)
  | runToPosition (a : Axis) (pps : ℕ) (position : ℤ) (spi : Axis → List Bool)
  | zfSyncRun (zmPps : ℕ) (zm : ℤ) (fsPps : ℕ) (fs : ℤ) (spi : Axis → List Bool)
  | stop (a : Axis) (spi : Axis → List Bool)
  | motorConfig (common : List Bool) (spi : Axis → List Bool)
  | setPositionLimit (a : Axis) (posMin posMax : ℤ)
  | resetZero (a : Axis)
  | setRequest (a : Axis)
  /-- `wait_for_completion` and `wait_reset_done` consume their bit. -/
  | awaitCompletion (a : Axis)
  | awaitResetDone (a : Axis)
  | wake
  | lockFails
  | handle (expired piHigh : Axis → Bool) (spi : Axis → List Bool)
  | clear
  | resetStep (piHigh piHighAtEnd : Bool) (spi : Axis → List Bool)
  /-- It releases the lock and hands the queued notices to the application. -/
  | unlock
  | finish (a : Axis)
  | piFalls (a : Axis)

namespace World

def lockFree : Bool :=
  match w.task with
  | .waiting | .woken _ => true
  | .handled _ | .resetting _ => false

def bits : Bits where
  pls a := (w.sides a).plsEvent
  request a := (w.sides a).requestEvent

def isWaiting : Bool :=
  match w.task with
  | .waiting => true
  | _ => false

def wokenBits : Option Bits :=
  match w.task with
  | .woken bits => some bits
  | _ => none

def handledBits : Option Bits :=
  match w.task with
  | .handled bits => some bits
  | _ => none

def guardLeft : Option ℕ :=
  match w.task with
  | .resetting guard => some guard
  | _ => none

/-- A call of the application, which needs the lock. -/
def call (spi : Axis → List Bool) (f : World → World × Result) : Option World :=
  if w.lockFree then some (f { w with spi := spi }).1 else none

def finishBatch : Option Side := do
  let _ ← s.executing
  some { s with executing := none, plsEvent := true }

/-- The bit is only set while the interrupts of the light barriers are enabled. -/
def piFalls : World :=
  if w.piIrq then w.upd a fun s => { s with piEvent := true } else w

def step : Event → Option World
  | .run a pps steps spi => w.call spi fun w => w.run a pps steps
  | .approach a =>
      if (w.sides a).state ≠ .noCfg ∧ (w.sides a).isRZero then
        some (w.upd a Side.approached)
      else none
  | .runToPosition a pps position spi =>
      if 0 < (w.sides a).approaching then
        (w.upd a Side.admitted).call spi fun w => w.runToPosition a pps position
      else none
  | .zfSyncRun zmPps zm fsPps fs spi => w.call spi fun w => w.zfSyncRun zmPps zm fsPps fs
  | .stop a spi => w.call spi fun w => w.stop a
  | .motorConfig common spi => w.call spi fun w => w.motorConfig common
  | .setPositionLimit a posMin posMax => some (w.setPositionLimit a posMin posMax).1
  | .resetZero a => if w.lockFree then some (w.resetZero a).1 else none
  | .setRequest a =>
      if 0 < (w.sides a).requesting then
        some (w.upd a Side.requested)
      else none
  | .awaitCompletion a => some (w.upd a Side.clearCompleted)
  | .awaitResetDone a => some (w.upd a fun s => { s with doneEvent := false })
  | .wake => if w.isWaiting then some { w with task := .woken w.bits } else none
  | .lockFails => w.wokenBits.map fun _ => { w with task := .waiting }
  | .handle expired piHigh spi => do
      let bits ← w.wokenBits
      some { { w with spi := spi }.handle bits expired piHigh with task := .handled bits }
  | .clear => do
      let bits ← w.handledBits
      some { w.clearPls bits with task := .resetting 32 }
  | .resetStep piHigh piHighAtEnd spi => do
      let guard ← w.guardLeft
      if w.smActive ∧ 0 < guard then
        some { { w with spi := spi }.resetStep piHigh piHighAtEnd with
          task := .resetting (guard - 1) }
      else none
  | .unlock => do
      let guard ← w.guardLeft
      if w.smActive ∧ 0 < guard then none
      else some { w with queue := [], task := .waiting }
  | .finish a => do
      let s ← finishBatch (w.sides a)
      some (w.upd a fun _ => s)
  | .piFalls a => some (w.piFalls a)

end World

end NeoRuntime.LensMotor
