import NeoRuntime.AiRuntime.Submission

/-!
# Every request is completed once

The execution of a request is an automaton with few states (`Mode`), each of which determines all
counters (`Mode.call`).  The steps of worker and callback are exactly its steps (`workerStep_call`,
`callbackStep_call`), so what holds in every mode holds in every execution.
-/

namespace NeoRuntime.AiRuntime

/-! ## The automaton -/

inductive Early
  | idle
  | invoked
  | first
  deriving DecidableEq

inductive Late
  | early (callback : Early)
  | second

inductive SyncPart
  | infer
  | record
  | complete
  | cleanup
  | done

inductive Mode
  | taken
  | notFound
  | refused
  | acquired
  | allocating
  | running (callback : Early)
  | runningDeferred
  | returned (callback : Early)
  | returnedDeferred
  | retrying
  /-- The callback will complete the request; the worker may have left. -/
  | submitted (gone : Bool) (callback : Late)
  | calledBack (gone : Bool) (stage : Stage)
  | calledBackDone (gone : Bool)
  /-- The worker completes the request for the callback. -/
  | completing (stage : Stage)
  | leaving
  | left
  | rollback
  | releaseUnused
  | releaseRejected
  /-- The worker executes the request, after a rejection or at once. -/
  | sync (rejected : Bool) (part : SyncPart)

namespace Inference

/-- The request is given to the backend. -/
def submits (config : Inference) : Bool := config.modelFound && config.hasAsync && config.allocates

/-- Without an asynchronous backend, without memory for the callback state, or after a rejection
without a callback. -/
def RunsSync (config : Inference) : Prop :=
  config.modelFound = true ∧
    (config.hasAsync = false ∨ config.allocates = false ∨
      config.accepts = false ∧ config.callsBack = false)

instance (config : Inference) : Decidable config.RunsSync := by
  unfold RunsSync
  infer_instance

end Inference

section

variable (config : Inference)

def Mode.Valid : Mode → Prop
  | taken => True
  | notFound | refused => config.modelFound = false
  | acquired => config.modelFound = true
  | allocating => config.modelFound = true ∧ config.hasAsync = true
  | running callback => config.submits = true ∧ (callback ≠ .idle → config.callsBack = true)
  | returned callback =>
    config.submits = true ∧ (callback ≠ .idle → config.callsBack = true) ∧
      (config.accepts = false → callback = .idle ∧ config.callsBack = false)
  | runningDeferred | returnedDeferred | retrying | completing _ | leaving | left =>
    config.submits = true ∧ config.callsBack = true
  | submitted _ callback =>
    config.submits = true ∧ config.accepts = true ∧
      (callback ≠ .early .idle → config.callsBack = true)
  | calledBack _ _ | calledBackDone _ =>
    config.submits = true ∧ config.accepts = true ∧ config.callsBack = true
  | rollback | releaseUnused | releaseRejected | sync true _ =>
    config.submits = true ∧ config.accepts = false ∧ config.callsBack = false
  | sync false _ => config.modelFound = true ∧ (config.hasAsync = true → config.allocates = false)

def Early.pc : Early → CallbackPc
  | idle => .idle
  | invoked => .invoked
  | first => .first

def Late.pc : Late → CallbackPc
  | early callback => callback.pc
  | second => .second

def SyncPart.pc : SyncPart → WorkerPc
  | infer => .infer
  | record => .record
  | complete => .complete
  | cleanup => .cleanup
  | done => .done

/-- A counter that is counted by `on_complete`. -/
def Inference.once : ℕ := if config.onComplete then 1 else 0

def Inference.recordsOnce : ℕ := if config.onComplete && config.records then 1 else 0

def Inference.releasesOnce : ℕ := if config.ownsOutputs then 0 else 1

def Call.flying : Call :=
  { Call.start config with acquired := 1, owners := 2, alive := true, inState := true, incremented := 1 }

def Call.completedTo (c : Call) : Stage → Call
  | .onComplete => c
  | .cleanup => { c with completed := c.config.once, recorded := c.config.recordsOnce }
  | .release =>
    { c with
      completed := c.config.once, recorded := c.config.recordsOnce, released := c.config.releasesOnce }

/-- What the two owners do at the end, if the first was the given number of owners. -/
def Call.retired (c : Call) (owners submitter callback : ℕ) : Call :=
  { c with
    owners, alive := owners != 0, decremented := if owners = 0 then 1 else 0
    submitterReleases := submitter, callbackReleases := callback }

def Call.syncTo (c : Call) (part : SyncPart) : Call :=
  let base := if c.config.sessionFound then 1 else 0
  match part with
  | .infer | .record => c
  | .complete => { c with recorded := base }
  | .cleanup => { c with recorded := base + c.config.recordsOnce, completed := c.config.once }
  | .done =>
    { c with
      recorded := base + c.config.recordsOnce, completed := c.config.once
      released := c.config.releasesOnce }

def Mode.call : Mode → Call
  | taken => Call.start config
  | notFound => { Call.start config with worker := .notFound }
  | refused =>
    { Call.start config with
      worker := .done, completed := config.once, recorded := config.recordsOnce }
  | acquired => { Call.start config with worker := .acquired, acquired := 1 }
  | allocating => { Call.start config with worker := .allocating, acquired := 1 }
  | running callback => { Call.flying config with worker := .running, callback := callback.pc }
  | runningDeferred =>
    { Call.flying config with worker := .running, callback := .done, phase := .callbackDeferred }
  | returned callback => { Call.flying config with worker := .returned, callback := callback.pc }
  | returnedDeferred =>
    { Call.flying config with worker := .returned, callback := .done, phase := .callbackDeferred }
  | retrying =>
    { Call.flying config with worker := .returnedAgain, callback := .done, phase := .callbackDeferred }
  | submitted gone callback =>
    { (Call.flying config).retired (if gone then 1 else 2) (if gone then 1 else 0) 0 with
      worker := if gone then .done else .awaitCallback, callback := callback.pc, phase := .submitted }
  | calledBack gone stage =>
    { ((Call.flying config).completedTo stage).retired (if gone then 1 else 2) (if gone then 1 else 0) 0 with
      worker := if gone then .done else .awaitCallback, callback := .completing stage
      phase := .completing }
  | calledBackDone gone =>
    { ((Call.flying config).completedTo .release).retired (if gone then 0 else 1)
        (if gone then 1 else 0) 1 with
      worker := if gone then .done else .awaitCallback, callback := .done, phase := .completing }
  | completing stage =>
    { (Call.flying config).completedTo stage with
      worker := .completing stage, callback := .done, phase := .completing }
  | leaving =>
    { ((Call.flying config).completedTo .release).retired 1 0 1 with
      worker := .releaseSubmitter, callback := .done, phase := .completing }
  | left =>
    { ((Call.flying config).completedTo .release).retired 0 1 1 with
      worker := .done, callback := .done, phase := .completing }
  | rollback => { Call.flying config with worker := .rollback, phase := .cancelled }
  | releaseUnused =>
    { Call.flying config with worker := .releaseUnused, phase := .cancelled, inState := false }
  | releaseRejected =>
    { (Call.flying config).retired 1 0 1 with
      worker := .releaseRejected, phase := .cancelled, inState := false }
  | sync rejected part =>
    if rejected then
      { ((Call.flying config).retired 0 1 1).syncTo part with
        worker := part.pc, phase := .cancelled, inState := false }
    else { { Call.start config with acquired := 1 }.syncTo part with worker := part.pc }

def Mode.worker : Mode → Option Mode
  | taken => some (if config.modelFound then acquired else notFound)
  | notFound => some refused
  | refused => none
  | acquired => some (if config.hasAsync then allocating else sync false .infer)
  | allocating => some (if config.allocates then running .idle else sync false .infer)
  | running callback =>
    if config.accepts || (callback = .idle && !config.callsBack) then some (returned callback) else none
  | runningDeferred => some returnedDeferred
  | returned callback =>
    some (if config.accepts then submitted false (.early callback) else rollback)
  | returnedDeferred => some retrying
  | retrying => some (completing .onComplete)
  | submitted gone callback => if gone then none else some (submitted true callback)
  | calledBack gone stage => if gone then none else some (calledBack true stage)
  | calledBackDone gone => if gone then none else some (calledBackDone true)
  | completing .onComplete => some (completing .cleanup)
  | completing .cleanup => some (completing .release)
  | completing .release => some leaving
  | leaving => some left
  | left => none
  | rollback => some releaseUnused
  | releaseUnused => some releaseRejected
  | releaseRejected => some (sync true .infer)
  | sync rejected .infer => some (sync rejected .record)
  | sync rejected .record => some (sync rejected .complete)
  | sync rejected .complete => some (sync rejected .cleanup)
  | sync rejected .cleanup => some (sync rejected .done)
  | sync _ .done => none

def Mode.callback : Mode → Option Mode
  | running .idle => if config.callsBack then some (running .invoked) else none
  | running .invoked => some (running .first)
  | running .first => some runningDeferred
  | returned .idle => if config.callsBack then some (returned .invoked) else none
  | returned .invoked => some (returned .first)
  | returned .first => some returnedDeferred
  | submitted gone (.early .idle) =>
    if config.callsBack then some (submitted gone (.early .invoked)) else none
  | submitted gone (.early .invoked) => some (submitted gone (.early .first))
  | submitted gone (.early .first) => some (submitted gone .second)
  | submitted gone .second => some (calledBack gone .onComplete)
  | calledBack gone .onComplete => some (calledBack gone .cleanup)
  | calledBack gone .cleanup => some (calledBack gone .release)
  | calledBack gone .release => some (calledBackDone gone)
  | _ => none

end

section Simulation

variable {config : Inference} {mode mode' : Mode}

theorem workerStep_call (valid : mode.Valid config) :
    workerStep (mode.call config) = (mode.worker config).map (Mode.call config) := by
  obtain ⟨onComplete, ownsOutputs, records, modelFound, sessionFound, hasAsync, allocates, accepts,
    callsBack⟩ := config
  cases mode with
  | taken => cases modelFound <;> rfl
  | notFound => cases onComplete <;> cases records <;> rfl
  | refused => rfl
  | acquired => cases hasAsync <;> rfl
  | allocating => cases allocates <;> rfl
  | running callback => cases callback <;> cases accepts <;> cases callsBack <;> rfl
  | runningDeferred =>
    obtain rfl : callsBack = true := valid.2
    cases accepts <;> rfl
  | returned callback =>
    cases accepts with
    | true => cases callback <;> rfl
    | false =>
      obtain rfl : callback = .idle := (valid.2.2 rfl).1
      rfl
  | returnedDeferred => rfl
  | retrying => rfl
  | submitted gone callback => cases gone <;> rfl
  | calledBack gone stage => cases gone <;> cases stage <;> rfl
  | calledBackDone gone => cases gone <;> rfl
  | completing stage =>
    cases stage with
    | onComplete => cases onComplete <;> cases records <;> rfl
    | cleanup => cases ownsOutputs <;> rfl
    | release => rfl
  | leaving => rfl
  | left => rfl
  | rollback => rfl
  | releaseUnused => rfl
  | releaseRejected => rfl
  | sync rejected part =>
    cases part with
    | infer => cases rejected <;> rfl
    | record => cases rejected <;> cases sessionFound <;> rfl
    | complete => cases rejected <;> cases sessionFound <;> cases onComplete <;> cases records <;> rfl
    | cleanup => cases rejected <;> cases ownsOutputs <;> rfl
    | done => cases rejected <;> rfl

theorem callbackStep_call (valid : mode.Valid config) :
    callbackStep (mode.call config) = (mode.callback config).map (Mode.call config) := by
  obtain ⟨onComplete, ownsOutputs, records, modelFound, sessionFound, hasAsync, allocates, accepts,
    callsBack⟩ := config
  cases mode with
  | running callback => cases callback <;> cases callsBack <;> rfl
  | returned callback =>
    cases callback with
    | idle =>
      cases accepts with
      | true => cases callsBack <;> rfl
      | false =>
        obtain rfl : callsBack = false := (valid.2.2 rfl).2
        rfl
    | invoked => rfl
    | first => rfl
  | submitted gone callback =>
    obtain rfl : accepts = true := valid.2.1
    cases callback with
    | early callback => cases gone <;> cases callback <;> cases callsBack <;> rfl
    | second => cases gone <;> rfl
  | calledBack gone stage =>
    cases stage with
    | onComplete => cases gone <;> cases onComplete <;> cases records <;> rfl
    | cleanup => cases gone <;> cases ownsOutputs <;> rfl
    | release => cases gone <;> rfl
  | calledBackDone gone => cases gone <;> rfl
  | rollback | releaseUnused | releaseRejected =>
    obtain rfl : callsBack = false := valid.2.2
    rfl
  | sync rejected part =>
    cases rejected with
    | true =>
      obtain rfl : callsBack = false := valid.2.2
      cases part <;> rfl
    | false => cases callsBack <;> cases accepts <;> cases part <;> rfl
  | taken | notFound | refused | acquired | allocating => cases callsBack <;> cases accepts <;> rfl
  | runningDeferred | returnedDeferred | retrying | completing _ | leaving | left => rfl

def Mode.step (config : Inference) (mode : Mode) : Actor → Option Mode
  | .worker => mode.worker config
  | .callback => mode.callback config

theorem callStep_call (valid : mode.Valid config) (actor : Actor) :
    callStep (mode.call config) actor = (mode.step config actor).map (Mode.call config) := by
  cases actor with
  | worker => exact workerStep_call valid
  | callback => exact callbackStep_call valid

/-- How many steps there may still be. -/
def Early.rank : Early → ℕ
  | idle => 2
  | invoked => 1
  | first => 0

def Late.rank : Late → ℕ
  | early callback => callback.rank + 5
  | second => 4

def Stage.rank : Stage → ℕ
  | onComplete => 2
  | cleanup => 1
  | release => 0

def SyncPart.rank : SyncPart → ℕ
  | infer => 4
  | record => 3
  | complete => 2
  | cleanup => 1
  | done => 0

def Mode.rank : Mode → ℕ
  | taken => 16
  | acquired => 15
  | allocating => 14
  | running callback => callback.rank + 11
  | returned callback => callback.rank + 8
  | submitted gone callback => (if gone then 0 else 1) + callback.rank
  | calledBack gone stage => (if gone then 0 else 1) + stage.rank + 1
  | calledBackDone gone => if gone then 0 else 1
  | runningDeferred => 7
  | returnedDeferred => 6
  | retrying => 5
  | completing stage => stage.rank + 2
  | leaving => 1
  | left => 0
  | rollback => 7
  | releaseUnused => 6
  | releaseRejected => 5
  | sync _ part => part.rank
  | notFound => 1
  | refused => 0

theorem Mode.worker_spec (valid : mode.Valid config) (step : mode.worker config = some mode') :
    mode'.Valid config ∧ mode'.rank < mode.rank := by
  cases mode with
  | refused | left => cases step
  | taken =>
    obtain rfl := Option.some.inj step
    split_ifs with found
    · exact ⟨found, by decide⟩
    · exact ⟨eq_false_of_ne_true found, by decide⟩
  | acquired =>
    obtain rfl := Option.some.inj step
    split_ifs with async
    · exact ⟨⟨valid, async⟩, by decide⟩
    · exact ⟨⟨valid, fun has => absurd has async⟩, by decide⟩
  | allocating =>
    obtain rfl := Option.some.inj step
    split_ifs with room
    · refine ⟨⟨?_, fun other => absurd rfl other⟩, by decide⟩
      rw [Inference.submits, valid.1, valid.2, room]
      rfl
    · exact ⟨⟨valid.1, fun _ => eq_false_of_ne_true room⟩, by decide⟩
  | running callback =>
    rw [Mode.worker] at step
    split_ifs at step with ready
    obtain rfl := Option.some.inj step
    refine ⟨⟨valid.1, valid.2, fun rejects => ?_⟩, Nat.add_lt_add_left (by decide) _⟩
    simpa [rejects] using ready
  | returned callback =>
    obtain rfl := Option.some.inj step
    split_ifs with accepts
    · refine ⟨⟨valid.1, accepts, fun other => valid.2.1 fun idle => other (idle ▸ rfl)⟩, ?_⟩
      cases callback <;> decide
    · have rejects : config.accepts = false := eq_false_of_ne_true accepts
      obtain ⟨rfl, silent⟩ := valid.2.2 rejects
      exact ⟨⟨valid.1, rejects, silent⟩, by decide⟩
  | submitted gone callback =>
    cases gone with
    | true => cases step
    | false =>
      obtain rfl := Option.some.inj step
      exact ⟨valid, Nat.add_lt_add_right (by decide) _⟩
  | calledBack gone stage =>
    cases gone with
    | true => cases step
    | false =>
      obtain rfl := Option.some.inj step
      exact ⟨valid, Nat.add_lt_add_right (Nat.add_lt_add_right (by decide) _) _⟩
  | calledBackDone gone =>
    cases gone with
    | true => cases step
    | false =>
      obtain rfl := Option.some.inj step
      exact ⟨valid, by decide⟩
  | completing stage =>
    cases stage with
    | _ =>
      obtain rfl := Option.some.inj step
      exact ⟨valid, by decide⟩
  | sync rejected part =>
    cases part with
    | done => cases step
    | _ =>
      obtain rfl := Option.some.inj step
      cases rejected <;> exact ⟨valid, by decide⟩
  | _ =>
    obtain rfl := Option.some.inj step
    exact ⟨valid, by decide⟩

theorem Mode.callback_spec (valid : mode.Valid config) (step : mode.callback config = some mode') :
    mode'.Valid config ∧ mode'.rank < mode.rank := by
  cases mode with
  | running callback =>
    cases callback with
    | idle =>
      rw [Mode.callback] at step
      split_ifs at step with back
      obtain rfl := Option.some.inj step
      exact ⟨⟨valid.1, fun _ => back⟩, by decide⟩
    | invoked =>
      obtain rfl := Option.some.inj step
      exact ⟨⟨valid.1, fun _ => valid.2 (by decide)⟩, by decide⟩
    | first =>
      obtain rfl := Option.some.inj step
      exact ⟨⟨valid.1, valid.2 (by decide)⟩, by decide⟩
  | returned callback =>
    cases callback with
    | idle =>
      rw [Mode.callback] at step
      split_ifs at step with back
      obtain rfl := Option.some.inj step
      refine ⟨⟨valid.1, fun _ => back, fun rejects => ?_⟩, by decide⟩
      exact absurd back (by simp [(valid.2.2 rejects).2])
    | invoked =>
      obtain rfl := Option.some.inj step
      refine ⟨⟨valid.1, fun _ => valid.2.1 (by decide), fun rejects => ?_⟩, by decide⟩
      exact absurd (valid.2.2 rejects).1 (by decide)
    | first =>
      obtain rfl := Option.some.inj step
      exact ⟨⟨valid.1, valid.2.1 (by decide)⟩, by decide⟩
  | submitted gone callback =>
    cases callback with
    | early callback =>
      cases callback with
      | idle =>
        rw [Mode.callback] at step
        split_ifs at step with back
        obtain rfl := Option.some.inj step
        exact ⟨⟨valid.1, valid.2.1, fun _ => back⟩, Nat.add_lt_add_left (by decide) _⟩
      | invoked | first =>
        obtain rfl := Option.some.inj step
        exact ⟨⟨valid.1, valid.2.1, fun _ => valid.2.2 (by simp)⟩, Nat.add_lt_add_left (by decide) _⟩
    | second =>
      obtain rfl := Option.some.inj step
      refine ⟨⟨valid.1, valid.2.1, valid.2.2 (by simp)⟩, ?_⟩
      cases gone <;> decide
  | calledBack gone stage =>
    cases stage with
    | _ =>
      obtain rfl := Option.some.inj step
      refine ⟨valid, ?_⟩
      cases gone <;> decide
  | _ => cases step

end Simulation

/-! ## Executions -/

variable {config : Inference} {mode mode' : Mode} {c : Call} {actors : List Actor}

theorem Mode.step_spec (valid : mode.Valid config) {actor : Actor}
    (step : mode.step config actor = some mode') : mode'.Valid config ∧ mode'.rank < mode.rank := by
  cases actor with
  | worker => exact mode.worker_spec valid step
  | callback => exact mode.callback_spec valid step

/-- Every execution is in a mode, and each step uses up some of the rank. -/
theorem call_run_from (valid : mode.Valid config)
    (run : actors.foldlM callStep (mode.call config) = some c) :
    ∃ mode' : Mode, mode'.Valid config ∧ c = mode'.call config ∧
      actors.length + mode'.rank ≤ mode.rank := by
  induction actors generalizing mode with
  | nil =>
    obtain rfl : mode.call config = c := by simpa using run
    exact ⟨mode, valid, rfl, Nat.le_of_eq (Nat.zero_add _)⟩
  | cons actor actors ih =>
    obtain ⟨m, first, rest⟩ := foldlM_cons_eq_some.1 run
    rw [callStep_call valid, Option.map_eq_some_iff] at first
    obtain ⟨mode', step, rfl⟩ := first
    obtain ⟨valid', less⟩ := Mode.step_spec valid step
    obtain ⟨last, validLast, eq, ranks⟩ := ih valid' rest
    exact ⟨last, validLast, eq, by rw [List.length_cons]; omega⟩

theorem call_run (run : actors.foldlM callStep (Call.start config) = some c) :
    ∃ mode : Mode, mode.Valid config ∧ c = mode.call config ∧ actors.length + mode.rank ≤ 16 :=
  @call_run_from config .taken c actors trivial run

structure Call.Safe (c : Call) : Prop where
  noFault : c.fault = false
  completed : c.completed ≤ 1
  submitter : c.submitterReleases ≤ 1
  callback : c.callbackReleases ≤ 1
  incremented : c.incremented ≤ 1
  decremented : c.decremented ≤ c.incremented
  released : c.released ≤ c.acquired

structure Call.Finished (c : Call) : Prop where
  completed : c.completed = if c.config.onComplete then 1 else 0
  submitter : c.submitterReleases = if c.config.submits then 1 else 0
  callback : c.callbackReleases = if c.config.submits then 1 else 0
  incremented : c.incremented = if c.config.submits then 1 else 0
  decremented : c.decremented = if c.config.submits then 1 else 0
  freed : c.alive = false
  released : c.config.ownsOutputs = false → c.released = c.acquired

theorem once_le (config : Inference) : config.once ≤ 1 := by
  unfold Inference.once
  split_ifs <;> decide

theorem releasesOnce_le (config : Inference) : config.releasesOnce ≤ 1 := by
  unfold Inference.releasesOnce
  split_ifs <;> decide

theorem Mode.safe (mode : Mode) (config : Inference) : (mode.call config).Safe := by
  have once := once_le config
  have releases := releasesOnce_le config
  have le : ∀ {m n : ℕ}, m.ble n = true → m ≤ n := Nat.le_of_ble_eq_true
  cases mode with
  | submitted gone callback =>
    cases gone <;> exact ⟨rfl, le rfl, le rfl, le rfl, le rfl, le rfl, le rfl⟩
  | calledBack gone stage =>
    cases stage with
    | onComplete =>
      cases gone <;> exact ⟨rfl, le rfl, le rfl, le rfl, le rfl, le rfl, le rfl⟩
    | cleanup => cases gone <;> exact ⟨rfl, once, le rfl, le rfl, le rfl, le rfl, le rfl⟩
    | release => cases gone <;> exact ⟨rfl, once, le rfl, le rfl, le rfl, le rfl, releases⟩
  | calledBackDone gone =>
    cases gone <;> exact ⟨rfl, once, le rfl, le rfl, le rfl, le rfl, releases⟩
  | completing stage =>
    cases stage with
    | onComplete => exact ⟨rfl, le rfl, le rfl, le rfl, le rfl, le rfl, le rfl⟩
    | cleanup => exact ⟨rfl, once, le rfl, le rfl, le rfl, le rfl, le rfl⟩
    | release => exact ⟨rfl, once, le rfl, le rfl, le rfl, le rfl, releases⟩
  | leaving | left => exact ⟨rfl, once, le rfl, le rfl, le rfl, le rfl, releases⟩
  | refused => exact ⟨rfl, once, le rfl, le rfl, le rfl, le rfl, le rfl⟩
  | sync rejected part =>
    cases part with
    | cleanup =>
      cases rejected <;> exact ⟨rfl, once, le rfl, le rfl, le rfl, le rfl, le rfl⟩
    | done => cases rejected <;> exact ⟨rfl, once, le rfl, le rfl, le rfl, le rfl, releases⟩
    | _ =>
      cases rejected <;> exact ⟨rfl, le rfl, le rfl, le rfl, le rfl, le rfl, le rfl⟩
  | _ => exact ⟨rfl, le rfl, le rfl, le rfl, le rfl, le rfl, le rfl⟩

/-- The modes in which an execution can end, if every accepted request is called back. -/
theorem Mode.settled (valid : mode.Valid config) (called : config.accepts = true → config.callsBack = true)
    (settled : ∀ actor, mode.step config actor = none) :
    mode = .refused ∨ mode = .calledBackDone true ∨ mode = .left ∨ ∃ rejected, mode = .sync rejected .done := by
  have worker : mode.worker config = none := settled .worker
  have callback : mode.callback config = none := settled .callback
  cases mode with
  | refused => exact .inl rfl
  | left => exact .inr (.inr (.inl rfl))
  | calledBackDone gone =>
    cases gone with
    | true => exact .inr (.inl rfl)
    | false => cases worker
  | running callback_ =>
    cases callback_ with
    | idle =>
      rw [Mode.worker] at worker
      rw [Mode.callback] at callback
      split_ifs at worker callback with ready back
      simp [back] at ready
    | _ => cases callback
  | submitted gone callback_ =>
    cases callback_ with
    | early callback_ =>
      cases callback_ with
      | idle =>
        rw [Mode.callback, if_pos (called valid.2.1)] at callback
        cases callback
      | _ => cases callback
    | second => cases callback
  | calledBack gone stage => cases stage <;> cases callback
  | completing stage => cases stage <;> cases worker
  | sync rejected part =>
    cases part with
    | done => exact .inr (.inr (.inr ⟨rejected, rfl⟩))
    | _ => cases worker
  | _ => cases worker

theorem submits_of_notFound (missing : config.modelFound = false) : config.submits = false := by
  rw [Inference.submits, missing]
  rfl

theorem submits_of_sync (direct : config.hasAsync = true → config.allocates = false) :
    config.submits = false := by
  rw [Inference.submits]
  cases has : config.hasAsync with
  | true => rw [direct has, Bool.and_false]
  | false => rw [Bool.and_false, Bool.false_and]

theorem Call.Finished.of_submitted (submits : c.config.submits = true) (completed : c.completed = c.config.once)
    (submitter : c.submitterReleases = 1) (callback : c.callbackReleases = 1)
    (incremented : c.incremented = 1) (decremented : c.decremented = 1) (freed : c.alive = false)
    (released : c.released = c.config.releasesOnce) (acquired : c.acquired = 1) : c.Finished := by
  refine ⟨completed, ?_, ?_, ?_, ?_, freed, fun owns => ?_⟩
  · rw [submits, submitter, if_pos rfl]
  · rw [submits, callback, if_pos rfl]
  · rw [submits, incremented, if_pos rfl]
  · rw [submits, decremented, if_pos rfl]
  · rw [released, acquired, Inference.releasesOnce, owns, if_neg Bool.false_ne_true]

theorem Call.Finished.of_direct (direct : c.config.submits = false) (completed : c.completed = c.config.once)
    (submitter : c.submitterReleases = 0) (callback : c.callbackReleases = 0)
    (incremented : c.incremented = 0) (decremented : c.decremented = 0) (freed : c.alive = false)
    (released : c.config.ownsOutputs = false → c.released = c.acquired) : c.Finished := by
  refine ⟨completed, ?_, ?_, ?_, ?_, freed, released⟩
  · rw [direct, submitter, if_neg Bool.false_ne_true]
  · rw [direct, callback, if_neg Bool.false_ne_true]
  · rw [direct, incremented, if_neg Bool.false_ne_true]
  · rw [direct, decremented, if_neg Bool.false_ne_true]

theorem Mode.finished (valid : mode.Valid config) (called : config.accepts = true → config.callsBack = true)
    (settled : ∀ actor, mode.step config actor = none) : (mode.call config).Finished := by
  obtain rfl | rfl | rfl | ⟨rejected, rfl⟩ := mode.settled valid called settled
  · exact .of_direct (submits_of_notFound valid) rfl rfl rfl rfl rfl rfl fun _ => rfl
  · exact .of_submitted valid.1 rfl rfl rfl rfl rfl rfl rfl rfl
  · exact .of_submitted valid.1 rfl rfl rfl rfl rfl rfl rfl rfl
  · cases rejected with
    | true => exact .of_submitted valid.1 rfl rfl rfl rfl rfl rfl rfl rfl
    | false =>
      refine .of_direct (submits_of_sync valid.2) rfl rfl rfl rfl rfl rfl fun owns => ?_
      exact if_neg (Bool.not_eq_true _ ▸ owns)

/-- In any order of the steps of worker and callback, nothing freed is used and nothing is counted
twice; the execution ends; and then, if the backend has called back what it accepted, `on_complete`
ran once and everything is released, the model as often as it was acquired unless `on_complete` does
it. -/
theorem inference_completes_once (run : actors.foldlM callStep (Call.start config) = some c) :
    c.Safe ∧ actors.length ≤ 16 ∧
    ((∀ actor, callStep c actor = none) → (config.accepts = true → config.callsBack = true) →
      c.Finished) := by
  obtain ⟨mode, valid, rfl, ranks⟩ := call_run run
  refine ⟨mode.safe config, by omega, fun settled called => ?_⟩
  refine mode.finished valid called fun actor => ?_
  have stuck := settled actor
  rwa [callStep_call valid, Option.map_eq_none_iff] at stuck

def calledBackAndRejected : Inference :=
  { onComplete := true, ownsOutputs := false, records := true, modelFound := true, sessionFound := true,
    hasAsync := true, allocates := true, accepts := false, callsBack := true }

def inlineCallback : List Actor :=
  [.worker, .worker, .worker, .callback, .callback, .callback, .worker, .worker, .worker, .worker, .worker,
    .worker, .worker]

def stateAtEnd (config : Inference) (actors : List Actor) : Call :=
  (actors.foldlM callStep (Call.start config)).getD (Call.start config)

theorem inference_completes_once_inline :
    (stateAtEnd calledBackAndRejected inlineCallback).Finished :=
  (inference_completes_once
    (show inlineCallback.foldlM callStep (Call.start calledBackAndRejected) =
      some (stateAtEnd calledBackAndRejected inlineCallback) by decide +kernel)).2.2
    (by intro actor; cases actor <;> decide +kernel) (by decide)

end NeoRuntime.AiRuntime
