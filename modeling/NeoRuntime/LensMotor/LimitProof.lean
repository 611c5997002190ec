import NeoRuntime.LensMotor.Invariant

/-!
# The soft limits

Once an axis is homed, `motor_start_impl` accepts only moves that end inside its limits, and the
position then advances batch by batch towards that end.  `zf_sync_run` does not ask for the limits.
-/

namespace NeoRuntime.LensMotor

def Side.target (s : Side) : ℤ :=
  s.position + signed s.runConfig.direction (s.runConfig.loadPsum + s.runConfig.unloadPsum)

def Side.Within (s : Side) (position : ℤ) : Prop := s.posMin ≤ position ∧ position ≤ s.posMax

/-- A homed axis is inside its limits, and so is the end of its move. -/
structure Inside (armed : Bool) (s : Side) : Prop where
  zero : s.Within 0
  armable : armed = true → s.posMin < s.posMax
  limits : s.isRZero = true → s.posMin < s.posMax
  position : s.isRZero = true → s.Within s.position
  target : s.isRZero = true → s.state = .running → s.runConfig.isValid = true → s.Within s.target

theorem signed_add (direction : Bool) (m n : ℕ) :
    signed direction (m + n) = signed direction m + signed direction n := by
  cases direction
  · simp only [signed, Bool.false_eq_true, if_false]
    omega
  · simp only [signed, if_true]
    omega

theorem signed_natAbs (steps : ℤ) : signed (0 ≤ steps) steps.natAbs = steps := by
  by_cases positive : 0 ≤ steps
  · simp only [signed, positive, decide_true, if_true]
    omega
  · simp only [signed, positive, decide_false, Bool.false_eq_true, if_false]
    omega

/-- What a batch is part of, it does not overshoot. -/
theorem within_of_batch {s : Side} {position : ℤ} (direction : Bool) (load rest : ℕ)
    (start : s.Within position) (finish : s.Within (position + signed direction (load + rest))) :
    s.Within (position + signed direction load) := by
  obtain ⟨lower, upper⟩ := start
  obtain ⟨lower', upper'⟩ := finish
  cases direction <;> simp only [signed, if_true, Bool.false_eq_true, if_false] at lower' upper' ⊢ <;>
    constructor <;> omega

theorem startConfig_total (pps : ℕ) {steps : ℤ} :
    (startConfig pps steps).loadPsum + (startConfig pps steps).unloadPsum = steps.natAbs := by
  simp only [startConfig, batches]
  omega

theorem syncConfig_total (pps : ℕ) {steps : ℤ} (moves : steps ≠ 0) :
    (syncConfig pps steps).loadPsum + (syncConfig pps steps).unloadPsum = steps.natAbs := by
  simp only [syncConfig, batches]
  omega

theorem configure_target (s : Side) {config : RunConfig} {steps : ℤ}
    (direction : config.direction = (0 ≤ steps : Bool))
    (total : config.loadPsum + config.unloadPsum = steps.natAbs) :
    (s.configure config).target = s.position + steps := by
  simp only [Side.target, Side.configure, direction, total, signed_natAbs]

theorem Inside.configure {x : Bool} {s : Side} (inside : Inside x s) {config : RunConfig} {steps : ℤ}
    (direction : config.direction = (0 ≤ steps : Bool))
    (total : config.loadPsum + config.unloadPsum = steps.natAbs)
    (accepted : s.isRZero = true → s.Within (s.position + steps)) :
    Inside x (s.configure config) where
  zero := inside.zero
  armable := inside.armable
  limits := inside.limits
  position := inside.position
  target homed _ _ := by
    rw [configure_target s direction total]
    exact accepted homed

theorem Inside.still {x : Bool} {s s' : Side} (inside : Inside x s)
    (limits : s'.posMin = s.posMin ∧ s'.posMax = s.posMax)
    (position : s'.isRZero = true → s.isRZero = true ∧ s'.position = s.position)
    (still : s'.isRZero = true → s'.state = .running → s'.runConfig.isValid = false) :
    Inside x s' where
  zero := by
    rw [Side.Within, limits.1, limits.2]
    exact inside.zero
  armable := by
    rw [limits.1, limits.2]
    exact inside.armable
  limits homed' := by
    rw [limits.1, limits.2]
    exact inside.limits (position homed').1
  position homed' := by
    rw [Side.Within, limits.1, limits.2, (position homed').2]
    exact inside.position (position homed').1
  target homed' running valid := by
    rw [still homed' running] at valid
    cases valid

theorem Inside.unhomed {x : Bool} {s s' : Side} (inside : Inside x s)
    (limits : s'.posMin = s.posMin ∧ s'.posMax = s.posMax) (unhomed : s'.isRZero = false) :
    Inside x s' :=
  inside.still limits (by simp [unhomed]) (by simp [unhomed])

theorem inside_closed : Closed Inside where
  same {_ s s'} same inside := by
    simp only [Side.core, Prod.mk.injEq] at same
    obtain ⟨state, homed, position, posMin, posMax, config, -⟩ := same
    constructor
    all_goals simp only [Side.Within, Side.target, state, homed, position, posMin, posMax, config]
    · exact inside.zero
    · exact inside.armable
    · exact inside.limits
    · exact inside.position
    · exact inside.target
  start inside startable :=
    inside.configure rfl (startConfig_total _) fun homed =>
      startable.inside homed (inside.limits homed)
  misfire inside _ := inside.still ⟨rfl, rfl⟩ (fun homed => ⟨homed, rfl⟩) fun _ _ => rfl
  halt inside := inside.still ⟨rfl, rfl⟩ (fun homed => ⟨homed, rfl⟩) fun _ _ => rfl
  resume {x s} inside running valid smaller := by
    have total : s.advanced.continued.target = s.target := by
      simp only [Side.target, Side.advanced, Side.continued]
      rw [Nat.add_sub_cancel' smaller, signed_add]
      omega
    refine ⟨inside.zero, inside.armable, inside.limits, fun homed => ?_, fun homed _ _ => ?_⟩
    · exact within_of_batch _ _ _ (inside.position homed) (inside.target homed running valid)
    · rw [total]
      exact inside.target homed running valid
  reload {x s} inside running valid larger := by
    have total : s.advanced.lastLoaded.reloaded.target = s.target := by
      simp only [Side.target, Side.advanced, Side.lastLoaded, Side.reloaded]
      rw [Nat.add_zero, signed_add]
      omega
    refine ⟨inside.zero, inside.armable, inside.limits, fun homed => ?_, fun homed _ _ => ?_⟩
    · exact within_of_batch _ _ _ (inside.position homed) (inside.target homed running valid)
    · rw [total]
      exact inside.target homed running valid
  finish {x s} inside running valid last := by
    refine ⟨inside.zero, inside.armable, inside.limits, fun homed => ?_, fun _ _ valid => by cases valid⟩
    exact within_of_batch _ _ _ (inside.position homed) (inside.target homed running valid)
  unzero inside := inside.unhomed ⟨rfl, rfl⟩ rfl
  blank inside := ⟨inside.zero, inside.armable, inside.limits, inside.position, inside.target⟩
  ready {x s} inside := by
    refine ⟨inside.zero, inside.armable, inside.limits, inside.position, fun homed running => ?_⟩
    refine inside.target homed ?_
    simp only [Side.ready] at running
    split at running
    · cases running
    · exact running
  fail inside _ := inside.unhomed ⟨rfl, rfl⟩ rfl
  request inside _ := inside.unhomed ⟨rfl, rfl⟩ rfl
  refuse inside _ :=
    inside.still ⟨rfl, rfl⟩ (fun homed => ⟨homed, rfl⟩) fun _ running => by cases running
  arm {s} inside limits := by
    have unhomed : Inside false s.unzeroed := inside.unhomed ⟨rfl, rfl⟩ rfl
    exact { unhomed with armable := fun _ => limits }
  resetEnd {s} homed result inside _ := by
    refine ⟨inside.zero, by simp, fun _ => inside.armable rfl, fun isHomed => ?_,
      by simp [Side.resetEnded]⟩
    obtain rfl : homed = true := isHomed
    exact inside.zero

/-! ## Runs -/

/-- SPI succeeds in the motor task and in `zf_sync_run`, and the limits of a homed axis stay. -/
def Steady (a : Axis) (w : World) : Event → Prop
  | .zfSyncRun _ _ _ _ spi | .handle _ _ spi | .resetStep _ _ spi => Flawless spi
  | .setPositionLimit b _ _ => b = a → (w.sides a).isRZero = false
  | _ => True

/-- `zf_sync_run` moves the axis, if it is homed, to a place inside the limits. -/
def SyncsInside (a : Axis) (w : World) : Event → Prop
  | .zfSyncRun _ zm _ fs _ =>
      let steps := if a = .zoom then zm else fs
      (w.sides a).isRZero = true → steps ≠ 0 → (w.sides a).Within ((w.sides a).position + steps)
  | _ => True

instance Steady.decidable (a : Axis) (w : World) : DecidablePred (Steady a w) := fun event => by
  cases event <;> unfold Steady <;> infer_instance

instance SyncsInside.decidable (a : Axis) (w : World) : DecidablePred (SyncsInside a w) :=
  fun event => by cases event <;> unfold SyncsInside Side.Within <;> infer_instance

def InsideOf (a b : Axis) (armed : Bool) (s : Side) : Prop := b = a → Inside armed s

theorem insideOf_closed (a b : Axis) : Closed (InsideOf a b) := by
  by_cases same : b = a
  · have : InsideOf a b = Inside := by
      funext armed s
      simp [InsideOf, same]
    rw [this]
    exact inside_closed
  · have : ∀ armed s, InsideOf a b armed s := fun _ _ equal => absurd equal same
    constructor <;> intros <;> exact this _ _

theorem inside_step {a : Axis} {w w' : World} {event : Event} (all : All (InsideOf a) w)
    (steady : Steady a w event) (syncs : SyncsInside a w event) (step : w.step event = some w') :
    All (InsideOf a) w' := by
  refine all.step (insideOf_closed a) ?_ ?_ ?_ step
  · intro spi task
    cases event with
    | handle | resetStep =>
      obtain rfl : _ = spi := Option.some_inj.mp task
      exact steady
    | _ => cases task
  · rintro zmPps zm fsPps fs spi rfl
    have start : Smooth (InsideOf a) { w with spi := spi } := ⟨⟨all.now, all.pulses⟩, steady⟩
    refine start.zfSyncRun (insideOf_closed a) zmPps zm fsPps fs ?_ ?_ ?_
    · rintro - moves - rfl
      refine (all.now .zoom rfl).configure rfl (syncConfig_total _ moves) fun homed => ?_
      exact syncs homed moves
    · rintro - moves - rfl
      refine (all.now .focus rfl).configure rfl (syncConfig_total _ moves) fun homed => ?_
      exact syncs homed moves
    · rintro - - - - inside rfl
      exact (inside rfl).still ⟨rfl, rfl⟩ (fun homed => ⟨homed, rfl⟩) fun _ _ => rfl
  · rintro b posMin posMax rfl
    rw [World.setPositionLimit]
    split_ifs with empty outside
    · exact all
    · exact all
    · dsimp only
      refine All.upd all ?_
      rintro rfl
      have unhomed := steady rfl
      refine ⟨⟨by simp only [Side.limited]; omega, by simp only [Side.limited]; omega⟩, ?_, ?_, ?_, ?_⟩
      all_goals simp only [Side.limited, unhomed]
      · omega
      all_goals simp

theorem inside_initial (a : Axis) : All (InsideOf a) {} where
  now b _ := by constructor <;> simp [Side.Within, World.armed, World.smActive]
  pulses _ none := by simp at none

/-- A homed axis stays inside its limits if `zf_sync_run` does not leave them. -/
theorem position_inside_limits {a : Axis} {events : List Event} {w : World}
    (run : events.foldlM World.step {} = some w)
    (along : Along World.step (fun w event => Steady a w event ∧ SyncsInside a w event) {} events)
    (homed : (w.sides a).isRZero = true) :
    (w.sides a).posMin ≤ (w.sides a).position ∧ (w.sides a).position ≤ (w.sides a).posMax := by
  have all : All (InsideOf a) w :=
    foldlM_inv_along _ (fun _ _ _ all cond step => inside_step all cond.1 cond.2 step)
      (inside_initial a) along run
  exact (all.now a rfl).position homed

def zoomHomed : List Event :=
  [.motorConfig [] fun _ => [], .setPositionLimit .zoom (-100) 100, .resetZero .zoom,
   .setRequest .zoom, .wake, .handle (fun _ => false) (fun _ => true) fun _ => [], .clear,
   .resetStep true true fun _ => [], .piFalls .zoom, .resetStep false false fun _ => [], .unlock]

def zoomBatch : List Event :=
  [.finish .zoom, .wake, .handle (fun _ => false) (fun _ => true) fun _ => [], .clear, .unlock]

def limitedMoves : List Event :=
  zoomHomed ++ .run .zoom 800 (-100) (fun _ => []) :: (zoomBatch ++ zoomBatch ++
    [.zfSyncRun 800 60 0 0 fun _ => [], .run .zoom 800 400 fun _ => []] ++ zoomBatch)

theorem limitedMoves_runs : (limitedMoves.foldlM World.step {}).isSome := by decide +kernel

theorem position_inside_limits_limitedMoves :
    ∃ w, limitedMoves.foldlM World.step {} = some w ∧ (w.sides .zoom).isRZero = true ∧
      (w.sides .zoom).position = -50 ∧
      (w.sides .zoom).posMin ≤ (w.sides .zoom).position ∧
      (w.sides .zoom).position ≤ (w.sides .zoom).posMax :=
  ⟨_, (Option.some_get limitedMoves_runs).symm, by decide +kernel, by decide +kernel,
    position_inside_limits (Option.some_get limitedMoves_runs).symm (by decide +kernel)
      (by decide +kernel)⟩

def unlimitedSync : List Event :=
  zoomHomed ++ .zfSyncRun 8000 255 0 0 (fun _ => []) :: zoomBatch

theorem unlimitedSync_runs : (unlimitedSync.foldlM World.step {}).isSome := by decide +kernel

/-- The move is completed outside the limits, and zoom is still taken to be homed. -/
theorem sync_leaves_limits :
    ∃ w, unlimitedSync.foldlM World.step {} = some w ∧ (w.sides .zoom).isRZero = true ∧
      (w.sides .zoom).posMax = 100 ∧ (w.sides .zoom).position = 255 :=
  ⟨_, (Option.some_get unlimitedSync_runs).symm, by decide +kernel, by decide +kernel,
    by decide +kernel⟩

end NeoRuntime.LensMotor
