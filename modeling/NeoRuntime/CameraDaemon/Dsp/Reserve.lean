import NeoRuntime.CameraDaemon.Dsp.RetentionProof

/-!
# The reservation for deferred releases

`park_or_free_locked` pushes buffers into `pending_release_` on paths that must not throw, so
`DspService::start` (platform/camera-daemon/src/dsp_service.cpp) reserves room for 1024 of them.
`drain_pending_releases` swaps the vector with a fresh one, and the reservation goes with it.
-/

namespace NeoRuntime.CameraDaemon.Dsp

/-- The retention of the service and the capacity of `pending_release_`. -/
structure Deferred where
  retention : Retention
  capacity : ℕ

def reserved : ℕ := 1024

def Deferred.started : Deferred := ⟨{ Retention.empty with running := true }, reserved⟩

inductive DeferredEvent
  /-- A section under `buffers_mu_`, or a change of `running_`. -/
  | retention (event : RetentionEvent)
  /-- The swap in `drain_pending_releases`. -/
  | drain

structure Push where
  size : ℕ
  capacity : ℕ
  deriving DecidableEq

/-- Pushes, one after the other, into a vector that grows when it is full. -/
def pushes (grow : ℕ → ℕ) : ℕ → ℕ → ℕ → ℕ × List Push
  | 0, _, capacity => (capacity, [])
  | count + 1, size, capacity =>
    let rest := pushes grow count (size + 1) (if size < capacity then capacity else grow size)
    (rest.1, ⟨size, capacity⟩ :: rest.2)

variable (cfg : RetentionConfig)

/-- One step and its pushes; `grow` is the capacity that a full vector gets. -/
def deferredStep (grow : ℕ → ℕ) (s : Deferred) : DeferredEvent → Deferred × List Push
  | .retention event =>
    let next := (retentionStep cfg s.retention event).1
    match event with
    | .start => (⟨next, max s.capacity reserved⟩, [])
    | .park _ _ _ _ =>
      let size := s.retention.pendingRelease.length
      let pushed := pushes grow (next.pendingRelease.length - size) size s.capacity
      (⟨next, pushed.1⟩, pushed.2)
    | _ => (⟨next, s.capacity⟩, [])
  | .drain => (⟨{ s.retention with pendingRelease := [] }, 0⟩, [])

/-- A push that needs no memory. -/
def Push.hasRoom (push : Push) : Prop := push.size < push.capacity

instance (push : Push) : Decidable push.hasRoom := inferInstanceAs (Decidable (_ < _))

/-! ## What one call pushes -/

variable (s : Retention)

theorem evictGeometry_length (victim : Geometry) :
    (evictGeometry s victim).pendingRelease.length + (evictGeometry s victim).parkedFbs.length =
      s.pendingRelease.length + s.parkedFbs.length := by
  unfold evictGeometry
  cases found : s.parked.lookup victim with
  | none => rfl
  | some q =>
    have total := sum_values_of_lookup (·.bufs.length) found
    dsimp only
    split
    · rename_i empty
      simp only [length_parkedFbs, total, List.isEmpty_iff.mp empty, List.length_nil, Nat.zero_add]
    · simp only [length_parkedFbs, total, List.length_append, List.length_map]
      omega

theorem evict_length (cap : ℕ) : ∀ (fuel : ℕ) (s : Retention),
    (evict cap fuel s).pendingRelease.length + (evict cap fuel s).parkedFbs.length =
      s.pendingRelease.length + s.parkedFbs.length
  | 0, _ => rfl
  | fuel + 1, s => by
    unfold evict
    split
    · rfl
    · split
      · rfl
      · rw [evict_length cap fuel, evictGeometry_length]
        rfl

theorem addParked_length (g : Geometry) (buf : ParkedBuffer) :
    (addParked s g buf).pendingRelease.length + (addParked s g buf).parkedFbs.length =
      s.pendingRelease.length + s.parkedFbs.length + 1 := by
  unfold addParked
  cases found : s.parked.lookup g with
  | none =>
    simp only [length_parkedFbs, Dict.values_insert, Dict.values_erase_of_lookup found, List.map_cons,
      List.sum_cons, List.length_singleton]
    omega
  | some q =>
    simp only [length_parkedFbs, Dict.values_insert, sum_values_of_lookup (·.bufs.length) found,
      List.map_cons, List.sum_cons, List.length_append, List.length_singleton]
    omega

theorem length_parkOrFree (g : Geometry) (fb chunkBytes now : ℕ) :
    (parkOrFree cfg s g fb chunkBytes now).pendingRelease.length +
        (parkOrFree cfg s g fb chunkBytes now).parkedFbs.length =
      s.pendingRelease.length + s.parkedFbs.length + 1 := by
  unfold parkOrFree
  split
  · rw [evict_length, addParked_length]
  · simp only [List.length_append, List.length_singleton, length_parkedFbs]
    omega

/-- A buffer that is parked within the cap, with nothing evicted. -/
def ParksWithin (g : Geometry) (chunkBytes : ℕ) : Prop :=
  Parks cfg s chunkBytes ∧
    s.footprint + (if s.parked.lookup g = none then chunkBytes else 0) ≤ cfg.poolRetentionMaxBytes

theorem pendingRelease_of_parksWithin {cfg : RetentionConfig} {s : Retention} {g : Geometry}
    {chunkBytes : ℕ} (within : ParksWithin cfg s g chunkBytes) (fb now : ℕ) :
    (parkOrFree cfg s g fb chunkBytes now).pendingRelease = s.pendingRelease := by
  obtain ⟨parks, fits⟩ := within
  have stops : ∀ (fuel : ℕ) (s : Retention), s.footprint ≤ cfg.poolRetentionMaxBytes →
      evict cfg.poolRetentionMaxBytes fuel s = s := by
    intro fuel s small
    cases fuel with
    | zero => rfl
    | succ fuel => simp only [evict, small, if_true]
  simp only [parkOrFree, parks, if_true]
  unfold addParked
  cases found : s.parked.lookup g with
  | none =>
    rw [stops]
    simp only [found, if_true] at fits
    exact Nat.le_trans (Nat.mod_le _ _) fits
  | some q =>
    rw [stops]
    simpa [found] using fits

/-! ## Room for the pushes -/

theorem hasRoom_of_fits (grow : ℕ → ℕ) {count size capacity : ℕ} (fits : size + count ≤ capacity) :
    ∀ push ∈ (pushes grow count size capacity).2, push.hasRoom := by
  induction count generalizing size with
  | zero => simp [pushes]
  | succ count ih =>
    have room : size < capacity := by omega
    simp only [pushes, room, if_true, List.forall_mem_cons]
    exact ⟨room, ih (by omega)⟩

/-- The reservation of `start` has room for the buffer and all parked ones, or none is evicted. -/
def Covered (s : Deferred) : DeferredEvent → Prop
  | .retention (.park g _ chunkBytes _) =>
    (reserved ≤ s.capacity ∧
        s.retention.pendingRelease.length + s.retention.parkedFbs.length < reserved) ∨
      ParksWithin cfg s.retention g chunkBytes
  | _ => True

instance (cfg : RetentionConfig) (s : Retention) (g : Geometry) (chunkBytes : ℕ) :
    Decidable (ParksWithin cfg s g chunkBytes) :=
  inferInstanceAs (Decidable (_ ∧ _ ≤ _))

instance Covered.decidable (cfg : RetentionConfig) (s : Deferred) (event : DeferredEvent) :
    Decidable (Covered cfg s event) := by
  unfold Covered
  split <;> infer_instance

theorem deferredStep_hasRoom {cfg : RetentionConfig} (grow : ℕ → ℕ) {s : Deferred}
    {event : DeferredEvent} (covered : Covered cfg s event) :
    ∀ push ∈ (deferredStep cfg grow s event).2, push.hasRoom := by
  cases event with
  | drain => simp [deferredStep]
  | retention event =>
    cases event with
    | park g fb chunkBytes now =>
      simp only [deferredStep, retentionStep]
      obtain ⟨reservation, fits⟩ | within := covered
      · have conserved := length_parkOrFree cfg s.retention g fb chunkBytes now
        exact hasRoom_of_fits grow (by omega)
      · rw [pendingRelease_of_parksWithin within, Nat.sub_self]
        simp [pushes]
    | _ => simp [deferredStep]

/-- If all calls of `park_or_free_locked` are covered, every push finds the size below the capacity.
-/
theorem pushes_have_room (cfg : RetentionConfig) (grow : ℕ → ℕ) (events : List DeferredEvent)
    (along : AlongLog (deferredStep cfg grow) (Covered cfg) .started events) :
    ∀ push ∈ (runLog (deferredStep cfg grow) .started events).2, push.hasRoom :=
  along.forall_mem (fun _ => True) (fun _ _ _ covered => deferredStep_hasRoom grow covered)
    (fun _ _ _ _ => trivial) trivial

def coveredRun : List DeferredEvent :=
  [.retention (.park (640, 480, 0) 1 300 0), .drain, .retention (.park (320, 240, 0) 2 50 1),
    .retention (.park (320, 240, 0) 3 50 2), .drain]

theorem pushes_have_room_coveredRun :
    (runLog (deferredStep ⟨1000, 200⟩ (· + 1)) .started coveredRun).2 = [⟨0, 1024⟩] ∧
      ∀ push ∈ (runLog (deferredStep ⟨1000, 200⟩ (· + 1)) .started coveredRun).2, push.hasRoom :=
  ⟨by decide +kernel, pushes_have_room ⟨1000, 200⟩ (· + 1) coveredRun (by decide +kernel)⟩

/-- Without retention every release drains, and the second push finds no capacity. -/
theorem push_after_drain : (runLog (deferredStep ⟨0, 0⟩ (· + 1)) .started
      [.retention (.park (640, 480, 0) 1 300 0), .drain, .retention (.park (640, 480, 0) 2 300 1)]).2 =
      [⟨0, 1024⟩, ⟨0, 0⟩] ∧ ¬ (⟨0, 0⟩ : Push).hasRoom := by
  decide +kernel

end NeoRuntime.CameraDaemon.Dsp
