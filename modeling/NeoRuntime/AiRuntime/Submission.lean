import NeoRuntime.Lib.Run

/-!
# The execution of an inference request

A worker of `InferenceScheduler` (platform/ai-runtime/src/inference_scheduler.cpp) gives a request
to `run_async` with a shared callback state, or executes it itself.  The backend may call back
before `run_async` returns; `AsyncSubmissionGate` (include/async_submission_gate.h) decides who
completes the request.  Each step is one access to the shared state.
-/

namespace NeoRuntime.AiRuntime

inductive Phase
  | submitting
  | submitted
  | callbackDeferred
  | completing
  | cancelled
  deriving DecidableEq

/-- A request, and what the worker will find when it executes it. -/
structure Inference where
  /-- The request has an `on_complete`. -/
  onComplete : Bool
  ownsOutputs : Bool
  /-- `on_complete` records the inference, as that of the `Infer` RPC does for the session that it
  found. -/
  records : Bool
  /-- `acquire_model_snapshot` finds the model. -/
  modelFound : Bool
  /-- `get_session` finds the session. -/
  sessionFound : Bool
  hasAsync : Bool
  /-- The callback state can be allocated. -/
  allocates : Bool
  /-- `run_async` returns `HAL_OK`; otherwise it returns an error or throws. -/
  accepts : Bool
  callsBack : Bool
  deriving DecidableEq

inductive Stage
  | onComplete
  | cleanup
  | release
  deriving DecidableEq

inductive WorkerPc
  | taken
  | notFound
  | acquired
  | allocating
  /-- In `run_async`. -/
  | running
  /-- Before the first compare-exchange of `on_return`. -/
  | returned
  /-- Before the second. -/
  | returnedAgain
  | awaitCallback
  | completing (stage : Stage)
  | releaseSubmitter
  | rollback
  | releaseUnused
  | releaseRejected
  | infer
  | record
  | complete
  | cleanup
  | done
  deriving DecidableEq

inductive CallbackPc
  | idle
  /-- Before it writes the status. -/
  | invoked
  /-- Before the first compare-exchange of `on_callback`. -/
  | first
  | second
  | completing (stage : Stage)
  | done
  deriving DecidableEq

structure Call where
  config : Inference
  worker : WorkerPc
  callback : CallbackPc
  phase : Phase
  owners : ℕ
  alive : Bool
  inState : Bool
  /-- Freed memory was used, or a request that was moved away. -/
  fault : Bool
  /-- How often `on_complete` ran. -/
  completed : ℕ
  acquired : ℕ
  released : ℕ
  /-- What was added to and subtracted from `async_in_flight_`. -/
  incremented : ℕ
  decremented : ℕ
  submitterReleases : ℕ
  callbackReleases : ℕ
  /-- How often `record_inference` ran for the session. -/
  recorded : ℕ
  deriving DecidableEq

def Call.start (config : Inference) : Call :=
  { config, worker := .taken, callback := .idle, phase := .submitting, owners := 0, alive := false,
    inState := false, fault := false, completed := 0, acquired := 0, released := 0, incremented := 0,
    decremented := 0, submitterReleases := 0, callbackReleases := 0, recorded := 0 }

variable (c : Call)

def Call.touch : Call := { c with fault := c.fault || !c.alive }

def Call.useRequest (inState : Bool) : Call := { c with fault := c.fault || c.inState != inState }

def Call.runOnComplete : Call :=
  if c.config.onComplete then
    { c with
      completed := c.completed + 1
      recorded := c.recorded + if c.config.records then 1 else 0 }
  else c

def Call.releaseModel : Call :=
  if c.config.ownsOutputs then c else { c with released := c.released + 1 }

def Call.releaseOwner : Call :=
  let c := c.touch
  if c.owners = 1 then { c with owners := 0, alive := false, decremented := c.decremented + 1 }
  else { c with owners := c.owners - 1 }

def Call.completeAsync : Stage → Call
  | .onComplete => (c.touch.useRequest true).runOnComplete
  | .cleanup => (c.touch.useRequest true).releaseModel
  | .release => { c.releaseOwner with callbackReleases := c.callbackReleases + 1 }

def workerStep : Option Call :=
  match c.worker with
  | .taken =>
    if c.config.modelFound then some { c with worker := .acquired, acquired := c.acquired + 1 }
    else some { c with worker := .notFound }
  | .notFound => some { (c.useRequest false).runOnComplete with worker := .done }
  | .acquired => some { c with worker := if c.config.hasAsync then .allocating else .infer }
  | .allocating =>
    if c.config.allocates then
      some { c.useRequest false with
        worker := .running, phase := .submitting, owners := 2, alive := true, inState := true
        incremented := c.incremented + 1 }
    else some { c with worker := .infer }
  | .running =>
    -- on a failing return the callback has already completed, or it never starts
    if c.config.accepts || c.callback = (if c.config.callsBack then .done else .idle) then
      some { c with worker := .returned }
    else none
  | .returned =>
    let c := c.touch
    if c.phase = .submitting then
      if c.config.accepts then some { c with phase := .submitted, worker := .awaitCallback }
      else some { c with phase := .cancelled, worker := .rollback }
    else some { c with worker := .returnedAgain }
  | .returnedAgain =>
    let c := c.touch
    if c.phase = .callbackDeferred then
      some { c with phase := .completing, worker := .completing .onComplete }
    else some { c with worker := .awaitCallback }
  | .awaitCallback =>
    some { c.releaseOwner with worker := .done, submitterReleases := c.submitterReleases + 1 }
  | .completing .onComplete => some { c.completeAsync .onComplete with worker := .completing .cleanup }
  | .completing .cleanup => some { c.completeAsync .cleanup with worker := .completing .release }
  | .completing .release => some { c.completeAsync .release with worker := .releaseSubmitter }
  | .releaseSubmitter =>
    some { c.releaseOwner with worker := .done, submitterReleases := c.submitterReleases + 1 }
  | .rollback => some { c.touch.useRequest true with worker := .releaseUnused, inState := false }
  | .releaseUnused =>
    some { c.releaseOwner with worker := .releaseRejected, callbackReleases := c.callbackReleases + 1 }
  | .releaseRejected =>
    some { c.releaseOwner with worker := .infer, submitterReleases := c.submitterReleases + 1 }
  | .infer => some { c.useRequest false with worker := .record }
  | .record =>
    some { c with worker := .complete, recorded := c.recorded + if c.config.sessionFound then 1 else 0 }
  | .complete => some { (c.useRequest false).runOnComplete with worker := .cleanup }
  | .cleanup => some { (c.useRequest false).releaseModel with worker := .done }
  | .done => none

/-- `run_async` has returned. -/
def Call.hasReturned : Bool :=
  match c.worker with
  | .returned | .returnedAgain | .awaitCallback | .completing _ | .releaseSubmitter | .rollback
  | .releaseUnused | .releaseRejected => true
  | .done => 0 < c.incremented
  | _ => false

def callbackStep : Option Call :=
  match c.callback with
  | .idle =>
    if c.config.callsBack && (c.worker = .running || c.config.accepts && c.hasReturned) then
      some { c with callback := .invoked }
    else none
  | .invoked => some { c.touch with callback := .first }
  | .first =>
    let c := c.touch
    if c.phase = .submitting then some { c with phase := .callbackDeferred, callback := .done }
    else some { c with callback := .second }
  | .second =>
    let c := c.touch
    if c.phase = .submitted then some { c with phase := .completing, callback := .completing .onComplete }
    else some { c with callback := .done }
  | .completing .onComplete => some { c.completeAsync .onComplete with callback := .completing .cleanup }
  | .completing .cleanup => some { c.completeAsync .cleanup with callback := .completing .release }
  | .completing .release => some { c.completeAsync .release with callback := .done }
  | .done => none

inductive Actor
  | worker
  | callback
  deriving DecidableEq

def callStep : Actor → Option Call
  | .worker => workerStep c
  | .callback => callbackStep c

end NeoRuntime.AiRuntime
