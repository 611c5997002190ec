import NeoRuntime.LensMotor.Driver

/-!
# Dead reckoning of the FG2009 lens

`LensHalService` (platform/camera-daemon/src/lens_hal_service.cpp) rams both axes into their hard
stops, takes this as the origin, and adds every accepted move to the positions that it reports
(hal_v2/common/devices/hal_lens_fg2009.c).  The state also has the places of the axes and the
unfinished moves.  Step rates are left out; the tables are any functions (`Lookup`).
-/

namespace NeoRuntime.CameraDaemon.Fg2009

open LensMotor (Axis)

/-! ## The lens -/

/-- `HAL_LENS_FG2009_ZOOM_TRAVEL_STEPS`, `HAL_LENS_FG2009_FOCUS_TRAVEL_STEPS`. -/
def travel : Axis → ℤ
  | .zoom => 2463
  | .focus => 2453

variable (a : Axis) (position physical : ℤ)

/-- Where an executed move leads, in curve coordinates: the hard stops end it. -/
def shift : ℤ := max 0 (min (travel a) (position - physical))

structure Motor where
  position : ℤ
  /-- The physical steps still to be made of each accepted move, the running one first. -/
  moves : List ℤ := []

variable (m : Motor)

namespace Motor

/-- Where the axis stands once all its moves are made. -/
def arrival : ℤ := m.moves.foldl (shift a) m.position

/-- A relative move is accepted; one of no steps starts nothing. -/
def command (physical : ℤ) : Motor :=
  if physical = 0 then m else { m with moves := m.moves ++ [physical] }

def tick : Option Motor :=
  match m.moves with
  | [] => none
  | d :: rest =>
    some { position := shift a m.position d.sign
           moves := if d = d.sign then rest else (d - d.sign) :: rest }

def halt : Motor := { m with moves := [] }

def finish : Motor := { position := m.arrival a }

end Motor

/-! ## The service -/

def int32 (n : ℤ) : ℤ := n.bmod (2 ^ 32)

/-- `hal_lens_fg2009_clamp_zoom_curve`, `hal_lens_fg2009_clamp_focus_curve`. -/
def clampCurve (steps : ℤ) : ℤ :=
  if steps < 0 then 0 else if steps > travel a then travel a else steps

structure Params where
  ramSteps : ℤ
  parkSteps : Axis → ℤ
  fixedLens : Bool := false

/-- `hal_lens_fg2009_params_init_defaults`. -/
def defaultParams : Params where
  ramSteps := 2500
  parkSteps
    | .zoom => 2400
    | .focus => 2164

/-- `hal_lens_fg2009_ratio_to_steps`, `hal_lens_fg2009_focus_level_to_steps` and `focus_for_zoom`,
negative without a tracking curve. -/
structure Lookup (ρ : Type) where
  ratioToSteps : ρ → ℤ
  focusLevelToSteps : ρ → ℤ
  focusForZoom : ℤ → ℤ

structure Service where
  initialized : Bool := false
  anchored : Bool := false
  curve : Axis → ℤ := fun _ => 0
  consecutiveErrors : ℕ := 0
  motor : Axis → Motor

/-- What the bridge answers during a reinitialisation. -/
structure Reinit where
  stop : Axis → Bool := fun _ => true
  lensInit : Bool := true
  lensInitRetry : Bool := true
  lensConfig : Bool := true
  profileSet : Bool := true
  ram : Bool := true
  /-- Both motors are seen stopped in time. -/
  ramStops : Bool := true
  park : Bool := true
  parkStops : Bool := true

variable (s : Service) (p : Params)

namespace Service

variable (physical : Axis → ℤ)

/-- `dual_rel`, which is `zoom_rel` or `focus_rel` if the other axis has no steps. -/
def command : Service :=
  { s with motor := fun a => (s.motor a).command (physical a) }

/-- `zoom_stop` and `focus_stop`, for the axes that obey. -/
def halt (stopped : Axis → Bool) : Service :=
  { s with motor := fun a => if stopped a then (s.motor a).halt else s.motor a }

/-- `wait_fg2009_motors_locked`, if it sees both motors stopped. -/
def settle : Service := { s with motor := fun a => (s.motor a).finish a }

def applyPhysical : Service :=
  { s with curve := fun a => clampCurve a (int32 (s.curve a - physical a)) }

/-- `hal_lens_fg2009_zoom_physical_delta`, `hal_lens_fg2009_focus_physical_delta`. -/
def physicalDelta (a : Axis) (target : ℤ) : ℤ :=
  if s.anchored then int32 (s.curve a - clampCurve a target) else 0

def ready : Bool := !p.fixedLens && s.initialized && s.anchored

/-- What the five functions that move the lens share: an accepted move is added at once. -/
def moveLocked (executed : Bool) : Bool × Service :=
  if !s.ready p then (false, s)
  else if ∀ a, physical a = 0 then (true, s)
  else if !executed then (false, s)
  else (true, (s.command physical).applyPhysical physical)

end Service

def only (physical : ℤ) : Axis → ℤ := fun b => if b = a then physical else 0

namespace Service

def absLocked (target : ℤ) (executed : Bool) : Bool × Service :=
  s.moveLocked p (only a (s.physicalDelta a target)) executed

def relLocked (steps : ℤ) (executed : Bool) : Bool × Service :=
  let target := clampCurve a (int32 (s.curve a - steps))
  s.moveLocked p (only a (int32 (s.curve a - target))) executed

def zoomAbsLocked := absLocked .zoom

def focusAbsLocked := absLocked .focus

def zoomRelLocked := relLocked .zoom

def focusRelLocked := relLocked .focus

def dualAbsLocked (target : Axis → ℤ) (executed : Bool) : Bool × Service :=
  s.moveLocked p (fun a => s.physicalDelta a (target a)) executed

/-- `finish_init_fg2009_locked`. -/
def finishInit (r : Reinit) : Bool × Service :=
  let s := { s with initialized := false, anchored := false, curve := fun _ => 0 }
  if !r.profileSet then (false, s)
  else if !r.ram then (false, s)
  else
    let s := s.command fun _ => -p.ramSteps
    if !r.ramStops then (false, s)
    else
      let s := { s.settle with anchored := true, curve := travel }
      if !r.park then (false, s)
      else
        let s := s.command p.parkSteps
        if !r.parkStops then (false, s)
        else (true, { s.settle.applyPhysical p.parkSteps with initialized := true })

def tryAutoReinit (r : Reinit) : Service :=
  let s := { s.halt r.stop with consecutiveErrors := 0 }
  if !(r.lensInit || r.lensInitRetry) then { s with initialized := false }
  else if !r.lensConfig then { s with initialized := false }
  else (s.finishInit p r).2

end Service

inductive Call (ρ : Type)
  | zoomRun (steps : ℤ)
  | zoomAbs (position : ℤ)
  | focusRun (steps : ℤ)
  | focusAbs (position : ℤ)
  | zoomGotoRatio (ratio : ρ)
  | focusGotoLevel (level : ρ)
  | zoomMoveRel (steps : ℤ)
  | focusMoveRel (steps : ℤ)

variable {ρ : Type}

namespace Service

/-- The return value of the call's move, and the state after it. -/
def motion (l : Lookup ρ) (c : Call ρ) (executed : Bool) : Bool × Service :=
  match c with
  | .zoomRun steps | .zoomMoveRel steps => s.zoomRelLocked p steps executed
  | .focusRun steps | .focusMoveRel steps => s.focusRelLocked p steps executed
  | .zoomAbs position => s.zoomAbsLocked p position executed
  | .focusAbs position => s.focusAbsLocked p position executed
  | .focusGotoLevel level => s.focusAbsLocked p (l.focusLevelToSteps level) executed
  | .zoomGotoRatio ratio =>
    let target := l.ratioToSteps ratio
    let focusTarget := l.focusForZoom target
    if focusTarget ≥ 0 then
      s.dualAbsLocked p (fun | .zoom => target | .focus => focusTarget) executed
    else s.zoomAbsLocked p target executed

/-- A motion call; the third failure in a row reinitialises the lens. -/
def request (l : Lookup ρ) (c : Call ρ) (executed : Bool) (r : Reinit) : Service :=
  let (done, s') := s.motion p l c executed
  if done then { s' with consecutiveErrors := 0 }
  else if s'.consecutiveErrors + 1 ≥ 3 then s'.tryAutoReinit p r
  else { s' with consecutiveErrors := s'.consecutiveErrors + 1 }

end Service

inductive Event (ρ : Type)
  | request (c : Call ρ) (executed : Bool) (reinit : Reinit)
  /-- `ZoomStop`, `FocusStop`. -/
  | stop (a : Axis) (executed : Bool)
  | stopAll (stopped : Axis → Bool)
  | tick (a : Axis)

def step (l : Lookup ρ) (s : Service) : Event ρ → Option Service
  | .request c executed r => some (s.request p l c executed r)
  | .stop a executed => some (s.halt fun b => executed && b = a)
  | .stopAll stopped => some (s.halt stopped)
  | .tick a =>
    ((s.motor a).tick a).map fun m => { s with motor := fun b => if b = a then m else s.motor b }

def rammed : Service where
  motor a := { position := travel a }

def initialised : Service := (rammed.finishInit p {}).2

/-! ## Moves -/

theorem travel_nonneg : 0 ≤ travel a := by cases a <;> decide

theorem travel_le : travel a ≤ 2463 := by cases a <;> decide

def Inside (position : ℤ) : Prop := 0 ≤ position ∧ position ≤ travel a

theorem inside_shift : Inside a (shift a position physical) := by
  have := travel_nonneg a
  unfold Inside shift
  omega

theorem shift_eq {a : Axis} {position physical : ℤ} (lands : Inside a (position - physical)) :
    shift a position physical = position - physical := by
  unfold Inside at lands
  unfold shift
  omega

theorem inside_clampCurve (steps : ℤ) : Inside a (clampCurve a steps) := by
  have := travel_nonneg a
  unfold Inside clampCurve
  split_ifs <;> omega

theorem clampCurve_eq_shift : clampCurve a (position - physical) = shift a position physical := by
  have := travel_nonneg a
  unfold clampCurve shift
  split_ifs <;> omega

theorem int32_eq {n : ℤ} (low : -2 ^ 31 ≤ n) (high : n < 2 ^ 31) : int32 n = n := by
  unfold int32
  rw [Int.bmod_eq_of_le] <;> omega

/-- The difference of two positions does not overflow. -/
theorem int32_sub {a : Axis} {m n : ℤ} (hm : Inside a m) (hn : Inside a n) :
    int32 (m - n) = m - n := by
  have := travel_le a
  unfold Inside at hm hn
  exact int32_eq (by omega) (by omega)

theorem shift_sign {a : Axis} {position d : ℤ} (inside : Inside a position) :
    shift a (shift a position d.sign) (d - d.sign) = shift a position d := by
  unfold Inside at inside
  unfold shift
  obtain neg | rfl | pos := lt_trichotomy d 0
  · rw [Int.sign_eq_neg_one_of_neg neg]
    omega
  · rw [Int.sign_zero]
    omega
  · rw [Int.sign_eq_one_of_pos pos]
    omega

namespace Motor

theorem inside_arrival {a : Axis} {m : Motor} (inside : Inside a m.position) :
    Inside a (m.arrival a) := by
  obtain ⟨position, moves⟩ := m
  induction moves generalizing position with
  | nil => exact inside
  | cons d rest ih => exact ih _ (inside_shift a position d)

theorem arrival_command {a : Axis} {m : Motor} (inside : Inside a m.position) (d : ℤ) :
    (m.command d).arrival a = shift a (m.arrival a) d := by
  unfold command
  split_ifs with none
  · have there : Inside a (m.arrival a - 0) := by simpa using inside_arrival inside
    rw [none, shift_eq there, sub_zero]
  · simp [arrival]

theorem arrival_tick {a : Axis} {m m' : Motor} (inside : Inside a m.position)
    (ticks : m.tick a = some m') : Inside a m'.position ∧ m'.arrival a = m.arrival a := by
  obtain ⟨position, moves⟩ := m
  cases moves with
  | nil => simp [tick] at ticks
  | cons d rest =>
    obtain rfl := Option.some.inj ticks
    refine ⟨inside_shift _ _ _, ?_⟩
    simp only [arrival]
    by_cases last : d = d.sign
    · rw [if_pos last, ← last]
      rfl
    · rw [if_neg last, List.foldl_cons, shift_sign inside, List.foldl_cons]

@[simp] theorem position_command (d : ℤ) : (m.command d).position = m.position := by
  unfold command
  split_ifs <;> rfl

theorem arrival_ram {a : Axis} {m : Motor} (inside : Inside a m.position) {ram : ℤ}
    (covers : 2463 ≤ ram) : (m.command (-ram)).arrival a = travel a := by
  have low := (inside_arrival inside).1
  have := travel_le a
  have := travel_nonneg a
  rw [arrival_command inside]
  unfold shift
  omega

end Motor

/-! ## The service follows the lens -/

/-- The reported position of each axis is the one that its moves lead to. -/
structure Follows (s : Service) : Prop where
  inside : ∀ a, Inside a (s.motor a).position
  arrives : ∀ a, (s.motor a).arrival a = s.curve a

/-- The ram reaches the hard stops, and the park offsets can be subtracted. -/
structure Params.Sound (p : Params) : Prop where
  covers : 2463 ≤ p.ramSteps
  fits : ∀ a, 2463 - 2 ^ 31 < p.parkSteps a ∧ p.parkSteps a < 2 ^ 31

namespace Follows

variable {s : Service} {p : Params} {l : Lookup ρ} (follows : Follows s)

include follows

theorem inside_curve : Inside a (s.curve a) :=
  follows.arrives a ▸ Motor.inside_arrival (follows.inside a)

theorem of_move {physical : Axis → ℤ}
    (fits : ∀ a, int32 (s.curve a - physical a) = s.curve a - physical a) :
    Follows ((s.command physical).applyPhysical physical) where
  inside a := by simpa [Service.command, Service.applyPhysical] using follows.inside a
  arrives a := by
    change ((s.motor a).command (physical a)).arrival a = clampCurve a (int32 (s.curve a - _))
    rw [Motor.arrival_command (follows.inside a), follows.arrives a, fits a, clampCurve_eq_shift]

theorem moveLocked {physical : Axis → ℤ}
    (lands : ∀ a, Inside a (s.curve a - physical a)) (executed : Bool) :
    Follows (s.moveLocked p physical executed).2 := by
  unfold Service.moveLocked
  split_ifs
  · exact follows
  · exact follows
  · exact follows
  · refine follows.of_move fun a => int32_eq ?_ ?_ <;>
    · have := lands a
      have := travel_le a
      unfold Inside at *
      omega

theorem lands_only {a : Axis} {physical : ℤ} (lands : Inside a (s.curve a - physical)) (b : Axis) :
    Inside b (s.curve b - only a physical b) := by
  by_cases same : b = a
  · subst same
    simpa [only] using lands
  · simpa [only, same] using follows.inside_curve b

/-- The target of a move is where the curve position ends. -/
theorem lands_target (target : ℤ) :
    Inside a (s.curve a - int32 (s.curve a - clampCurve a target)) := by
  rw [int32_sub (follows.inside_curve a) (inside_clampCurve a target), sub_sub_cancel]
  exact inside_clampCurve a target

theorem lands_delta (target : ℤ) : Inside a (s.curve a - s.physicalDelta a target) := by
  unfold Service.physicalDelta
  split_ifs
  · exact follows.lands_target a target
  · simpa using follows.inside_curve a

theorem absLocked (target : ℤ) (executed : Bool) : Follows (s.absLocked a p target executed).2 :=
  follows.moveLocked (follows.lands_only (follows.lands_delta a target)) executed

theorem relLocked (steps : ℤ) (executed : Bool) : Follows (s.relLocked a p steps executed).2 :=
  follows.moveLocked (follows.lands_only (follows.lands_target a _)) executed

theorem motion (c : Call ρ) (executed : Bool) : Follows (s.motion p l c executed).2 := by
  cases c with
  | zoomRun steps | zoomMoveRel steps => exact follows.relLocked .zoom steps executed
  | focusRun steps | focusMoveRel steps => exact follows.relLocked .focus steps executed
  | zoomAbs position => exact follows.absLocked .zoom position executed
  | focusAbs position => exact follows.absLocked .focus position executed
  | focusGotoLevel level => exact follows.absLocked .focus _ executed
  | zoomGotoRatio ratio =>
    simp only [Service.motion]
    split_ifs
    · exact follows.moveLocked (fun a => follows.lands_delta a _) executed
    · exact follows.absLocked .zoom _ executed

theorem halt {stopped : Axis → Bool}
    (still : ∀ a, stopped a = true → (s.motor a).moves = []) : Follows (s.halt stopped) where
  inside a := by
    by_cases stops : stopped a <;> simpa [Service.halt, stops, Motor.halt] using follows.inside a
  arrives a := by
    refine Eq.trans ?_ (follows.arrives a)
    by_cases stops : stopped a
    · simp [Service.halt, stops, Motor.arrival, still a stops, Motor.halt]
    · simp [Service.halt, stops]

end Follows

/-! ## Initialisation -/

/-- The ram is made to its end, and so is the park if it is begun. -/
def Reinit.Anchors (r : Reinit) : Prop :=
  r.profileSet ∧ r.ram ∧ r.ramStops ∧ (r.park → r.parkStops)

instance (r : Reinit) : Decidable r.Anchors :=
  inferInstanceAs (Decidable (_ ∧ _ ∧ _ ∧ (_ → _)))

/-- The lens does not come back to life, and the reported positions stay. -/
def Reinit.GivesUp (r : Reinit) : Prop := !(r.lensInit || r.lensInitRetry) ∨ !r.lensConfig

instance (r : Reinit) : Decidable r.GivesUp :=
  inferInstanceAs (Decidable (_ ∨ _))

namespace Follows

variable {s : Service} {p : Params} {l : Lookup ρ}

theorem finishInit (sound : p.Sound) {r : Reinit} (anchors : r.Anchors)
    (inside : ∀ a, Inside a (s.motor a).position) : Follows (s.finishInit p r).2 := by
  obtain ⟨profileSet, ram, ramStops, parks⟩ := anchors
  have rammed : Follows
      { ({ s with initialized := false, anchored := false, curve := fun _ => 0 }.command
          fun _ => -p.ramSteps).settle with anchored := true, curve := travel } :=
    { inside := fun a => Motor.inside_arrival (by simpa [Service.command] using inside a)
      arrives := fun a => Motor.arrival_ram (inside a) sound.covers }
  unfold Service.finishInit
  simp only [profileSet, ram, ramStops, Bool.not_true, Bool.false_eq_true, if_false]
  by_cases park : r.park = true
  · have parked := @Follows.of_move _ rammed p.parkSteps fun a => int32_eq
      (by have := sound.fits a; have := travel_nonneg a; change _ ≤ travel a - _; omega)
      (by have := sound.fits a; have := travel_le a; change travel a - _ < _; omega)
    simp only [park, parks park, Bool.not_true, Bool.false_eq_true, if_false]
    exact ⟨fun a => Motor.inside_arrival (parked.inside a), parked.arrives⟩
  · simpa only [Bool.not_eq_true, park, Bool.not_false, if_true] using rammed

theorem initialised (sound : p.Sound) : Follows (initialised p) :=
  finishInit sound (by decide) fun a => ⟨travel_nonneg a, le_refl _⟩

theorem tryAutoReinit (sound : p.Sound) (follows : Follows s) {r : Reinit}
    (safe : r.Anchors ∨ r.GivesUp)
    (still : r.GivesUp → ∀ a, r.stop a = true → (s.motor a).moves = []) :
    Follows (s.tryAutoReinit p r) := by
  unfold Service.tryAutoReinit
  dsimp only
  by_cases dead : (!(r.lensInit || r.lensInitRetry)) = true
  · rw [if_pos dead]
    exact ⟨(follows.halt (still (.inl dead))).1, (follows.halt (still (.inl dead))).2⟩
  rw [if_neg dead]
  by_cases config : (!r.lensConfig) = true
  · rw [if_pos config]
    exact ⟨(follows.halt (still (.inr config))).1, (follows.halt (still (.inr config))).2⟩
  rw [if_neg config]
  have anchors : r.Anchors := safe.resolve_right fun gaveUp => gaveUp.elim dead config
  refine finishInit sound anchors fun a => ?_
  by_cases stops : r.stop a <;> simpa [Service.halt, stops, Motor.halt] using follows.inside a

end Follows

/-! ## Runs -/

/-- A stop finds the axis at rest; a reinitialisation anchors the lens again, or gives up before it
touches the reported positions. -/
def Undisturbed (s : Service) : Event ρ → Prop
  | .request _ executed r =>
    2 ≤ s.consecutiveErrors → (s.ready p && executed) = false →
      (r.Anchors ∨ r.GivesUp) ∧ (r.GivesUp → ∀ a, r.stop a = true → (s.motor a).moves = [])
  | .stop a executed => executed = true → (s.motor a).moves = []
  | .stopAll stopped => ∀ a, stopped a = true → (s.motor a).moves = []
  | .tick _ => True

instance (p : Params) (s : Service) (e : Event ρ) : Decidable (Undisturbed p s e) := by
  cases e <;> unfold Undisturbed <;> infer_instance

theorem moveLocked_failed {s : Service} {p : Params} {physical : Axis → ℤ} {executed : Bool}
    (failed : (s.moveLocked p physical executed).1 = false) :
    (s.ready p && executed) = false ∧ (s.moveLocked p physical executed).2 = s := by
  unfold Service.moveLocked at failed ⊢
  split_ifs at failed ⊢ <;> simp_all

theorem motion_failed {s : Service} {p : Params} {l : Lookup ρ} {c : Call ρ} {executed : Bool}
    (failed : (s.motion p l c executed).1 = false) :
    (s.ready p && executed) = false ∧ (s.motion p l c executed).2 = s := by
  cases c with
  | zoomGotoRatio ratio =>
    simp only [Service.motion] at failed ⊢
    split_ifs at failed ⊢
    · exact moveLocked_failed failed
    · exact moveLocked_failed failed
  | _ => exact moveLocked_failed failed

namespace Follows

variable {s s' : Service} {p : Params} {l : Lookup ρ}

theorem request (sound : p.Sound) (follows : Follows s) {c : Call ρ} {executed : Bool}
    {r : Reinit} (kept : Undisturbed p s (.request c executed r)) :
    Follows (s.request p l c executed r) := by
  have moved : Follows (s.motion p l c executed).2 := follows.motion c executed
  unfold Service.request
  dsimp only
  by_cases done : (s.motion p l c executed).1 = true
  · rw [if_pos done]
    exact ⟨moved.inside, moved.arrives⟩
  · obtain ⟨refused, same⟩ := motion_failed (Bool.not_eq_true _ ▸ done)
    rw [if_neg done, same]
    by_cases third : s.consecutiveErrors + 1 ≥ 3
    · obtain ⟨safe, still⟩ := kept (by omega) refused
      rw [if_pos third]
      exact tryAutoReinit sound follows safe still
    · rw [if_neg third]
      exact ⟨follows.inside, follows.arrives⟩

theorem tick (follows : Follows s) {a : Axis} {m : Motor} (ticks : (s.motor a).tick a = some m) :
    Follows { s with motor := fun b => if b = a then m else s.motor b } := by
  obtain ⟨inside, arrives⟩ := Motor.arrival_tick (follows.inside a) ticks
  refine ⟨fun b => ?_, fun b => ?_⟩
  all_goals
    by_cases same : b = a
    · subst same
      simp only [if_true, inside, arrives, follows.arrives]
    · simp only [if_neg same, follows.inside, follows.arrives]

theorem step (sound : p.Sound) (follows : Follows s) {e : Event ρ} (kept : Undisturbed p s e)
    (next : step p l s e = some s') : Follows s' := by
  cases e with
  | request c executed r =>
    obtain rfl := Option.some.inj next
    exact follows.request sound kept
  | stop a executed =>
    obtain rfl := Option.some.inj next
    refine follows.halt fun b stops => ?_
    obtain ⟨obeyed, rfl⟩ : executed = true ∧ b = a := by simpa using stops
    exact kept obeyed
  | stopAll stopped =>
    obtain rfl := Option.some.inj next
    exact follows.halt kept
  | tick a =>
    obtain ⟨m, ticks, rfl⟩ := Option.map_eq_some_iff.mp next
    exact follows.tick ticks

end Follows

/-- An axis at rest is where the service reports it. -/
theorem reported_position {p : Params} (sound : p.Sound) {l : Lookup ρ} {events : List (Event ρ)}
    (along : Along (step p l) (Undisturbed p) (initialised p) events) {s : Service}
    (run : events.foldlM (step p l) (initialised p) = some s) {a : Axis}
    (stopped : (s.motor a).moves = []) : s.curve a = (s.motor a).position := by
  have follows : Follows s := foldlM_inv_along Follows
    (fun _ _ _ inv kept next => inv.step sound kept next) (.initialised sound) along run
  rw [← follows.arrives a, Motor.arrival, stopped, List.foldl_nil]

def sampleLookup : Lookup ℤ where
  ratioToSteps ratio := clampCurve .zoom ratio
  focusLevelToSteps level := clampCurve .focus level
  focusForZoom _ := -1

theorem defaultParams_sound : defaultParams.Sound := ⟨by decide, by decide⟩

def zoomTwoSteps : List (Event ℤ) :=
  [.request (.zoomAbs 65) true {}, .tick .zoom, .tick .zoom]

theorem zoomTwoSteps_runs :
    (zoomTwoSteps.foldlM (step defaultParams sampleLookup) (initialised defaultParams)).isSome := by
  decide +kernel

theorem reported_position_zoomTwoSteps : ∃ s,
    zoomTwoSteps.foldlM (step defaultParams sampleLookup) (initialised defaultParams) = some s ∧
      s.curve .zoom = 65 ∧ s.curve .zoom = (s.motor .zoom).position :=
  ⟨_, (Option.some_get zoomTwoSteps_runs).symm, by decide +kernel,
    reported_position defaultParams_sound (by decide +kernel)
      (Option.some_get zoomTwoSteps_runs).symm (by decide +kernel)⟩

/-- A stop after the first of 37 steps: the service goes on to report the target. -/
theorem stop_cuts_move_short : ∃ s,
    [.request (.zoomAbs 100) true {}, .tick .zoom, .stop .zoom true].foldlM
        (step defaultParams sampleLookup) (initialised defaultParams) = some s ∧
      (∀ a, (s.motor a).moves = []) ∧ s.curve .zoom = 100 ∧ (s.motor .zoom).position = 64 :=
  ⟨_, (Option.some_get (by decide +kernel)).symm, by decide +kernel, by decide +kernel,
    by decide +kernel⟩

end NeoRuntime.CameraDaemon.Fg2009
