import Mathlib.Algebra.Order.BigOperators.Group.List
import Mathlib.Algebra.Order.Ring.Nat
import NeoRuntime.AiRuntime.SubmissionProof

/-!
# The inference count of a session

`record_inference` (platform/ai-runtime/src/session_manager.cpp) is called by the completion
callback of the `Infer` RPC (src/grpc_service.cpp), and by the worker when it executes a request
itself.  So a request counts once if the backend executes it (`recorded_of_async`) and twice
otherwise (`recorded_of_sync`).
-/

namespace NeoRuntime.AiRuntime

/-- A request of the `Infer` RPC, whose session exists for the RPC and for the worker. -/
def Inference.OfInfer (config : Inference) : Prop :=
  config.onComplete = true ∧ config.records = true ∧ config.sessionFound = true

instance (config : Inference) : Decidable config.OfInfer := by
  unfold Inference.OfInfer
  infer_instance

inductive InferEvent
  | take (config : Inference)
  | step (index : ℕ) (actor : Actor)

def inferStep (calls : List Call) : InferEvent → Option (List Call)
  | .take config => some (calls ++ [Call.start config])
  | .step index actor => do
    let c ← calls[index]?
    let c' ← callStep c actor
    return calls.set index c'

/-- The counter `infer_count`, which only `record_inference` changes. -/
def inferCount (calls : List Call) : ℕ := (calls.map Call.recorded).sum

def completedCount (calls : List Call) : ℕ := (calls.map Call.completed).sum

/-! ## One request -/

variable {config : Inference} {mode : Mode} {c : Call}

/-- An execution by the backend, or without a model, records what it completes. -/
theorem recorded_of_async (infer : config.OfInfer) (async : ¬ config.RunsSync) (valid : mode.Valid config) :
    (mode.call config).recorded = (mode.call config).completed := by
  obtain ⟨complete, records, -⟩ := infer
  have same : config.recordsOnce = config.once := by
    rw [Inference.recordsOnce, Inference.once, complete, records]
    rfl
  cases mode with
  | sync rejected part =>
    refine absurd ?_ async
    cases rejected with
    | true =>
      have submits := valid.1
      rw [Inference.submits, Bool.and_eq_true, Bool.and_eq_true] at submits
      exact ⟨submits.1.1, .inr (.inr valid.2)⟩
    | false =>
      refine ⟨valid.1, ?_⟩
      cases has : config.hasAsync with
      | true => exact .inr (.inl (valid.2 has))
      | false => exact .inl rfl
  | calledBack gone stage => cases stage <;> first | rfl | exact same
  | completing stage => cases stage <;> first | rfl | exact same
  | calledBackDone _ | leaving | left | refused => exact same
  | _ => rfl

theorem recorded_of_sync (infer : config.OfInfer) (sync : config.RunsSync) (valid : mode.Valid config)
    (called : config.accepts = true → config.callsBack = true)
    (settled : ∀ actor, mode.step config actor = none) :
    (mode.call config).recorded = 2 ∧ (mode.call config).completed = 1 := by
  obtain ⟨complete, records, session⟩ := infer
  obtain ⟨found, direct⟩ := sync
  have submitted : config.submits = true → config.accepts = false ∧ config.callsBack = false := by
    intro submits
    rw [Inference.submits, found, Bool.true_and, Bool.and_eq_true] at submits
    obtain none_ | none_ | rejects := direct
    · rw [none_] at submits
      cases submits.1
    · rw [none_] at submits
      cases submits.2
    · exact rejects
  obtain rfl | rfl | rfl | ⟨rejected, rfl⟩ := mode.settled valid called settled
  · rw [Mode.Valid, found] at valid
    cases valid
  · exact absurd valid.2.2 (by rw [(submitted valid.1).2]; exact Bool.false_ne_true)
  · exact absurd valid.2 (by rw [(submitted valid.1).2]; exact Bool.false_ne_true)
  · have counts : (if config.sessionFound then 1 else 0) + config.recordsOnce = 2 ∧ config.once = 1 := by
      rw [Inference.recordsOnce, Inference.once, complete, records, session]
      exact ⟨rfl, rfl⟩
    cases rejected <;> exact counts

/-! ## All requests of a session -/

variable {calls : List Call} {events : List InferEvent}

def Call.Reached (c : Call) : Prop := ∃ mode : Mode, mode.Valid c.config ∧ c = mode.call c.config

theorem Mode.call_config (mode : Mode) (config : Inference) : (mode.call config).config = config := by
  cases mode with
  | calledBack gone stage => cases stage <;> rfl
  | completing stage => cases stage <;> rfl
  | sync rejected part => cases rejected <;> cases part <;> rfl
  | _ => rfl

theorem Mode.reached (valid : mode.Valid config) : (mode.call config).Reached := by
  refine ⟨mode, ?_⟩
  rw [mode.call_config]
  exact ⟨valid, rfl⟩

theorem Call.Reached.step {c' : Call} {actor : Actor} (reached : c.Reached)
    (step : callStep c actor = some c') : c'.Reached := by
  obtain ⟨mode, valid, eq⟩ := reached
  rw [eq, callStep_call valid, Option.map_eq_some_iff] at step
  obtain ⟨mode', next, rfl⟩ := step
  exact Mode.reached (Mode.step_spec valid next).1

theorem inferStep_reached {calls' : List Call} {event : InferEvent} (reached : ∀ c ∈ calls, c.Reached)
    (step : inferStep calls event = some calls') : ∀ c ∈ calls', c.Reached := by
  cases event with
  | take config =>
    obtain rfl := Option.some.inj step
    refine List.forall_mem_append.2 ⟨reached, List.forall_mem_singleton.2 ?_⟩
    exact @Mode.reached config .taken trivial
  | step index actor =>
    rw [inferStep, Option.bind_eq_bind, Option.bind_eq_some_iff] at step
    obtain ⟨c, there, step⟩ := step
    rw [Option.bind_eq_some_iff] at step
    obtain ⟨c', next, step⟩ := step
    obtain rfl := Option.some.inj step
    intro other mem
    obtain old | rfl := List.mem_or_eq_of_mem_set mem
    · exact reached other old
    · exact (reached c (List.mem_of_getElem? there)).step next

theorem calls_reached (run : events.foldlM inferStep [] = some calls) : ∀ c ∈ calls, c.Reached :=
  foldlM_inv (fun calls => ∀ c ∈ calls, c.Reached) (fun _ _ _ reached step => inferStep_reached reached step)
    (by simp) run

theorem Call.Reached.recorded (reached : c.Reached) (infer : c.config.OfInfer)
    (called : c.config.accepts = true → c.config.callsBack = true)
    (settled : ∀ actor, callStep c actor = none) :
    c.completed = 1 ∧ c.recorded = c.completed + if c.config.RunsSync then 1 else 0 := by
  obtain ⟨mode, valid, eq⟩ := reached
  have stuck : ∀ actor, mode.step c.config actor = none := by
    intro actor
    have none_ := settled actor
    rwa [eq, callStep_call valid, Option.map_eq_none_iff] at none_
  have finished := mode.finished valid called stuck
  rw [← eq] at finished
  have completed : c.completed = 1 := by
    rw [finished.completed, infer.1]
    rfl
  refine ⟨completed, ?_⟩
  split_ifs with sync
  · have twice := (recorded_of_sync infer sync valid called stuck).1
    rw [← eq] at twice
    rw [twice, completed]
  · have same := recorded_of_async infer sync valid
    rwa [← eq] at same

/-- When all requests have ended, each was counted once, and the count is right, exactly if the
worker executed none itself. -/
theorem inferCount_eq_iff (run : events.foldlM inferStep [] = some calls)
    (infer : ∀ c ∈ calls, c.config.OfInfer) :
    ((∀ c ∈ calls, ¬ c.config.RunsSync) → inferCount calls = completedCount calls) ∧
    ((∀ c ∈ calls, ∀ actor, callStep c actor = none) →
      (∀ c ∈ calls, c.config.accepts = true → c.config.callsBack = true) →
      ((∀ c ∈ calls, c.recorded = 1) ↔ ∀ c ∈ calls, ¬ c.config.RunsSync) ∧
      (inferCount calls = completedCount calls ↔ ∀ c ∈ calls, ¬ c.config.RunsSync)) := by
  have reached := calls_reached run
  refine ⟨fun all => ?_, fun settled called => ?_⟩
  · rw [inferCount, completedCount]
    refine congrArg List.sum (List.map_congr_left fun c mem => ?_)
    obtain ⟨mode, valid, eq⟩ := reached c mem
    have same := recorded_of_async (infer c mem) (all c mem) valid
    rwa [← eq] at same
  · have counts : ∀ c ∈ calls,
        c.completed = 1 ∧ c.recorded = c.completed + if c.config.RunsSync then 1 else 0 :=
      fun c mem => (reached c mem).recorded (infer c mem) (called c mem) (settled c mem)
    refine ⟨forall₂_congr fun c mem => ?_, ?_⟩
    · obtain ⟨completed, recorded⟩ := counts c mem
      rw [recorded, completed]
      split_ifs with sync <;> simp [sync]
    · rw [inferCount, completedCount, List.map_congr_left fun c mem => (counts c mem).2,
        List.sum_map_add, Nat.add_eq_left, List.sum_eq_zero_iff]
      simp only [List.forall_mem_map, ite_eq_right_iff, Nat.one_ne_zero, imp_false]

def acceptedInfer : Inference :=
  { onComplete := true, ownsOutputs := true, records := true, modelFound := true, sessionFound := true,
    hasAsync := true, allocates := true, accepts := true, callsBack := true }

def servedByBackend : List InferEvent :=
  .take acceptedInfer :: [Actor.worker, .worker, .worker, .worker, .callback, .worker, .callback, .worker,
    .callback, .callback, .callback, .callback, .callback].map (InferEvent.step 0)

def servedByWorker : List InferEvent :=
  .take { acceptedInfer with hasAsync := false } ::
    [Actor.worker, .worker, .worker, .worker, .worker, .worker].map (InferEvent.step 0)

def callsAfter (events : List InferEvent) : List Call := (events.foldlM inferStep []).getD []

theorem inferCount_eq_iff_backend :
    inferCount (callsAfter servedByBackend) = completedCount (callsAfter servedByBackend) :=
  ((inferCount_eq_iff
    (show servedByBackend.foldlM inferStep [] = some (callsAfter servedByBackend) by decide +kernel)
    (by decide +kernel)).2
    (by
      have stuck : ∀ c ∈ callsAfter servedByBackend,
          callStep c .worker = none ∧ callStep c .callback = none := by decide +kernel
      intro c mem actor
      cases actor with
      | worker => exact (stuck c mem).1
      | callback => exact (stuck c mem).2)
    (by decide +kernel)).2.2 (by decide +kernel)

/-- A request without an asynchronous backend is completed once and counted twice. -/
theorem infer_counted_twice :
    servedByWorker.foldlM inferStep [] = some (callsAfter servedByWorker) ∧
    (∀ c ∈ callsAfter servedByWorker, c.config.OfInfer) ∧
    completedCount (callsAfter servedByWorker) = 1 ∧ inferCount (callsAfter servedByWorker) = 2 := by
  decide +kernel

end NeoRuntime.AiRuntime
