import Mathlib.Algebra.Order.Ring.Int
import Mathlib.Logic.Function.Basic
import NeoRuntime.Lib.Run

/-!
# The lens motor driver

`ms41908m.c` moves the focus and the zoom motor through one chip.  Each axis has a register with the
steps of a batch (`PSUM`); a pulse on the shared `VD_FZ` line starts both batches, and an axis that
has finished raises its `PLS` interrupt.  A long move is a chain of batches, kept in the
`run_config` of the axis.  Every SPI access may fail, and then leaves its register.  The PPS
registers, which set the speed, are left out.
-/

namespace NeoRuntime.LensMotor

inductive Axis
  | focus
  | zoom
  deriving DecidableEq

instance Axis.decidableForall (P : Axis → Prop) [DecidablePred P] : Decidable (∀ a, P a) :=
  decidable_of_iff (P .focus ∧ P .zoom)
    ⟨fun both a => by cases a; exacts [both.1, both.2], fun all => ⟨all _, all _⟩⟩

inductive MotorState
  | noCfg
  | stopped
  | running
  | resetZero
  | error
  deriving DecidableEq

/-- The `SYS_` codes that the driver returns. -/
inductive Result
  | ok
  | invalidArg
  | invalidState
  | busy
  | outOfRange
  | timeout
  | notFinished
  | hal
  deriving DecidableEq

/-- The batches of a move: `loadPsum` steps in the register, `unloadPsum` still to come. -/
structure RunConfig where
  isValid : Bool := false
  direction : Bool := false
  intct : ℕ := 0
  loadPsum : ℕ := 0
  unloadPsum : ℕ := 0
  deriving DecidableEq

structure StepRegister where
  psum : ℕ := 0
  ccw : Bool := false
  deriving DecidableEq

structure Side where
  state : MotorState := .noCfg
  isRZero : Bool := false
  position : ℤ := 0
  posMin : ℤ := 0
  posMax : ℤ := 0
  runConfig : RunConfig := {}
  batchActive : Bool := false
  plsRcvd : Bool := false
  /-- `s_zoom_rst_last_result`, `s_focus_rst_last_result`. -/
  rstLastResult : Result := .invalidState
  /-- The event bits of the axis. -/
  plsEvent : Bool := false
  piEvent : Bool := false
  completedEvent : Bool := false
  requestEvent : Bool := false
  doneEvent : Bool := false
  /-- The chip: its step register and the batch that it executes. -/
  register : StepRegister := {}
  executing : Option ℤ := none
  /-- Calls of `run_to_position` that have found `is_r_zero` set and wait for the lock. -/
  approaching : ℕ := 0
  /-- Calls of `reset_zero` that have released the lock and not yet set their request bit. -/
  requesting : ℕ := 0
  deriving DecidableEq

inductive Phase
  | idle
  | exitLowStart
  | exitLowWait
  | captureStart
  | captureWait
  deriving DecidableEq

/-- `s_rst`. -/
structure ResetSm where
  phase : Phase := .idle
  axis : Axis := .focus
  piTriggered : Bool := false
  abortRequested : Bool := false
  deriving DecidableEq

inductive Notice
  | completed (a : Axis) (result : Result)
  | resetDone (a : Axis) (result : Result)
  deriving DecidableEq

structure Bits where
  pls : Axis → Bool
  request : Axis → Bool

inductive TaskPc
  | waiting
  | woken (bits : Bits)
  /-- It has handled the bits and not yet cleared them. -/
  | handled (bits : Bits)
  /-- It may make so many more steps of the reset state machine. -/
  | resetting (guard : ℕ)

structure World where
  sides : Axis → Side := fun _ => {}
  rst : ResetSm := {}
  piIrq : Bool := false
  /-- `s_app_notify_ev` and `s_app_notify_res`. -/
  queue : List Notice := []
  task : TaskPc := .waiting
  /-- The outcomes of the next SPI accesses to the registers of an axis; all others succeed. -/
  spi : Axis → List Bool := fun _ => []
  /-- The axes at every pulse of `VD_FZ` so far. -/
  pulses : List (Axis → Side) := []

def signed (direction : Bool) (steps : ℕ) : ℤ := if direction then steps else -steps

/-! ## Batches -/

def intctFromPps (pps : ℕ) : ℕ := 27000000 / (pps * 24) % 65536

/-- `CALC_INTCT_FROM_PSUM`, and `CALC_PSUM_FROM_INTCT`, in 16 bits. -/
def perVd (n : ℕ) : ℕ := 27000000 / (n * 16 * 24) % 65536

def validMove (pps : ℕ) (steps : ℤ) : Bool :=
  24 ≤ pps && pps ≤ 8000 && 1 ≤ steps.natAbs && steps.natAbs ≤ 65535

def batches (intct psum : ℕ) (steps : ℤ) : RunConfig where
  isValid := true
  direction := 0 ≤ steps
  intct := intct
  loadPsum := psum
  unloadPsum := steps.natAbs - psum

/-- The batches of `motor_start_impl`. -/
def startConfig (pps : ℕ) (steps : ℤ) : RunConfig :=
  let intct := max 1 (intctFromPps pps)
  let psum := min (max 1 (min 255 (perVd intct))) steps.natAbs
  batches intct psum steps

/-- The batches of `zf_sync_run`, which derives the speed from the size of the batch. -/
def syncConfig (pps : ℕ) (steps : ℤ) : RunConfig :=
  let psum := max 1 (min 255 (min (perVd (intctFromPps pps)) steps.natAbs))
  batches (max 1 (perVd psum)) psum steps

namespace Side

variable (s : Side)

/-- The registers of a move are written, and the axis is marked as running. -/
def configure (config : RunConfig) : Side :=
  { s with
    runConfig := config
    register := { psum := config.loadPsum, ccw := !config.direction }
    completedEvent := false
    state := .running }

def unbatched : Side := { s with batchActive := false, plsRcvd := false }

def invalidated : Side :=
  { s with runConfig := { s.runConfig with isValid := false } }

/-- The move is given up, with the step register as it is. -/
def dropped : Side := { s.invalidated with state := .stopped }

/-- `PSUM` is 0 and the batches that were left are dropped. -/
def halted (state : MotorState) : Side :=
  { s.unbatched with
    register := { s.register with psum := 0 }
    runConfig := { s.runConfig with isValid := false, unloadPsum := 0 }
    state := state }

/-- A batch was started and its `PLS` was not handled. -/
def pending : Bool := s.batchActive && !s.plsRcvd

def marked : Side :=
  if s.state = .running then { s with batchActive := true, plsRcvd := false } else s

/-- The chip at a pulse.  `PLS` is high during the rotation, so there is none for a `PSUM` of 0. -/
def pulsed : Side :=
  { s with executing :=
      if s.register.psum = 0 then none else some (signed (!s.register.ccw) s.register.psum) }

/-- The batches were computed, but an access failed. -/
def misfired (config : RunConfig) : Side :=
  { s with runConfig := { config with isValid := false } }

def unzeroed : Side := { s with isRZero := false }

/-- The step register as `write_motor_config` writes it. -/
def blanked : Side := { s with register := {} }

def ready : Side :=
  { s with state := if s.state = .noCfg ∨ s.state = .error then .stopped else s.state }

def homing : Side :=
  { s with
    doneEvent := false
    isRZero := false
    state := .resetZero
    requesting := s.requesting + 1 }

def limited (posMin posMax : ℤ) : Side := { s with posMin := posMin, posMax := posMax }

end Side

/-- `n` SPI accesses one after the other, up to the first that fails. -/
def accesses : ℕ → List Bool → Bool × List Bool
  | 0, script => (true, script)
  | _ + 1, [] => (true, [])
  | n + 1, ok :: script => if ok then accesses n script else (false, script)

namespace World

variable (w : World) (a : Axis)

def upd (f : Side → Side) : World :=
  { w with sides := Function.update w.sides a (f (w.sides a)) }

/-- The next `n` SPI accesses to the registers of an axis succeed. -/
def answers (n : ℕ) : Bool := (accesses n (w.spi a)).1

def spent (n : ℕ) : World :=
  { w with spi := Function.update w.spi a (accesses n (w.spi a)).2 }

def smActive : Bool := w.rst.phase ≠ .idle

/-- The reset state machine runs for this axis. -/
def armed : Bool := w.smActive && w.rst.axis = a

def canFire : Bool := !(w.sides .focus).pending && !(w.sides .zoom).pending

def anyRunning : Bool :=
  (w.sides .focus).state = .running || (w.sides .zoom).state = .running

/-- All running axes are marked and the pulse is output. -/
def fire : World :=
  { w with
    pulses := w.pulses ++ [fun a => (w.sides a).marked]
    sides := fun a => (w.sides a).marked.pulsed }

def fireWhenReady : World := if w.canFire then w.fire else w

/-- The axis runs, and starts now if no other batch is executed. -/
def started (config : RunConfig) : World :=
  (w.upd a fun s => (s.configure config).unbatched).fireWhenReady

def misfired (config : RunConfig) : World :=
  w.upd a fun s => s.misfired config

def startImpl (pps : ℕ) (steps : ℤ) : World × Result :=
  let s := w.sides a
  if ¬ validMove pps steps then (w, .invalidArg)
  else if s.state = .noCfg then (w, .invalidState)
  else if s.state = .running then (w, .busy)
  else if s.state ≠ .stopped ∧ s.state ≠ .resetZero then (w, .invalidState)
  else if s.isRZero ∧ s.posMin < s.posMax ∧
      (s.position + steps < s.posMin ∨ s.posMax < s.position + steps) then (w, .outOfRange)
  else
    let config := startConfig pps steps
    -- The step register is read, then the PPS register and the step register are written.
    if w.answers a 3 then ((w.spent a 3).started a config, .ok)
    else ((w.spent a 3).misfired a config, .hal)

/-- The step register of the axis was cleared. -/
def halt : World :=
  (w.upd a fun s => s.halted (if w.armed a then .resetZero else .stopped)).fireWhenReady

def stopImpl : World × Result :=
  if (w.sides a).state = .noCfg then (w, .ok)
  else if w.answers a 2 then ((w.spent a 2).halt a, .ok)
  else (w.spent a 2, .hal)

/-! ## The calls -/

/-- `zoom_run` and `focus_run` find the axis occupied. -/
def occupied : Bool :=
  (w.sides a).state = .running || (w.sides a).state = .resetZero || w.smActive

def run (pps : ℕ) (steps : ℤ) : World × Result :=
  if steps = 0 then (w, .ok)
  else if (w.sides a).state = .noCfg then (w, .invalidState)
  else if w.occupied a then (w, .busy)
  else w.startImpl a pps steps

/-- `run_to_position` once it has the lock. -/
def runToPosition (pps : ℕ) (position : ℤ) : World × Result :=
  if w.occupied a then (w, .busy)
  else if position - (w.sides a).position = 0 then (w, .ok)
  else w.startImpl a pps (position - (w.sides a).position)

def abort : World :=
  if w.armed a then { w with rst := { w.rst with abortRequested := true } } else w

def stop : World × Result :=
  let stopped := (w.abort a).stopImpl a
  if stopped.2 = .ok ∧ (w.sides a).state = .running then (stopped.1.upd a Side.unzeroed, .ok)
  else stopped

/-- One axis of `zf_sync_run`, up to its first failing access. -/
def syncAxis (pps : ℕ) (steps : ℤ) : World × Bool :=
  if steps = 0 then (w, true)
  else
    let config := syncConfig pps steps
    if w.answers a 3 then ((w.spent a 3).upd a fun s => s.configure config, true)
    else ((w.spent a 3).upd a fun s => { s with runConfig := config }, false)

def syncErr : World :=
  { w with sides := fun a =>
      let s := (w.sides a).invalidated
      { s with state := if s.state = .noCfg then .noCfg else .stopped } }

def zfSyncRun (zmPps : ℕ) (zm : ℤ) (fsPps : ℕ) (fs : ℤ) : World × Result :=
  if (w.sides .zoom).state = .noCfg ∨ (w.sides .focus).state = .noCfg then (w, .invalidState)
  else if w.occupied .zoom ∨ w.occupied .focus then (w, .busy)
  else if zm ≠ 0 ∧ ¬ validMove zmPps zm then (w, .invalidArg)
  else
    let zoom := w.syncAxis .zoom zmPps zm
    if ¬ zoom.2 then (zoom.1.syncErr, .hal)
    else if fs ≠ 0 ∧ ¬ validMove fsPps fs then
      (if zm ≠ 0 then zoom.1.upd .zoom Side.dropped else zoom.1, .invalidArg)
    else
      let both := zoom.1.syncAxis .focus fsPps fs
      if ¬ both.2 then (both.1.syncErr, .hal)
      else if both.1.anyRunning then (both.1.fire, .ok)
      else (both.1, .ok)

/-- The registers of one axis in `write_motor_config`; its third access writes the step register. -/
def writeAxisConfig : World × Bool :=
  if w.answers a 3 then
    let w := (w.spent a 3).upd a Side.blanked
    (w.spent a 1, w.answers a 1)
  else (w.spent a 3, false)

/-- `motor_config`, where `common` are the outcomes of the accesses for both axes. -/
def motorConfig (common : List Bool) : World × Result :=
  if w.smActive then (w, .busy)
  else if ¬ (accesses 4 common).1 then (w, .hal)
  else
    let focus := w.writeAxisConfig .focus
    if ¬ focus.2 then (focus.1, .hal)
    else
      let both := focus.1.writeAxisConfig .zoom
      if ¬ both.2 then (both.1, .hal)
      else ({ both.1 with sides := fun a => (both.1.sides a).ready }, .ok)

def setPositionLimit (posMin posMax : ℤ) : World × Result :=
  if posMax ≤ posMin then (w, .invalidArg)
  else if 0 < posMin ∨ posMax < 0 then (w, .invalidArg)
  else (w.upd a fun s => s.limited posMin posMax, .ok)

/-- `reset_zero` up to the release of the lock. -/
def resetZero : World × Result :=
  if (w.sides a).state = .noCfg then (w, .invalidState)
  else if w.anyRunning ∨ (w.sides a).state = .resetZero ∨ w.smActive then (w, .busy)
  else (w.upd a Side.homing, .ok)

end World

end NeoRuntime.LensMotor
