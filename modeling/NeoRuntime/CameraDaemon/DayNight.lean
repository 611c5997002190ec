import Mathlib.Algebra.Order.Ring.Int
import NeoRuntime.CameraDaemon.ImagingMode

/-!
# Automatic day and night

`evaluate` (platform/camera-daemon/src/daynight_policy.cpp) turns the readings of the light sensor
into switches, and `CameraDaemon::light_monitor_loop` carries them out.  An iteration of the loop
waits, applies a switch that the readings confirm, or applies one that a lens operation has deferred
(`monitorIteration_cases`).
-/

namespace NeoRuntime.CameraDaemon

inductive LightMode
  | day
  | night
  deriving DecidableEq, Repr

def LightMode.opposite : LightMode → LightMode
  | .day => .night
  | .night => .day

structure LightSensorConfig where
  nightEnter : ℤ := 25
  dayEnter : ℤ := 80
  stableSamples : ℤ := 3
  minHoldMs : ℤ := 15000

structure LightSample where
  valid : Bool
  percent : ℤ

inductive LightSwitchDecision
  | none
  | toDay
  | toNight
  | deferPending
  | held
  deriving DecidableEq

structure DayNightPolicyState where
  mode : LightMode := .day
  stableCount : ℤ := 0
  accumTarget : LightMode := .day
  hasPending : Bool := false
  pendingTarget : LightMode := .day
  lastSwitchMs : UInt64 := 0
  deriving DecidableEq

/-! ## The policy -/

variable (cfg : LightSensorConfig)

def candidate (sample : LightSample) : Option LightMode :=
  if !sample.valid then none
  else if sample.percent ≤ cfg.nightEnter then some .night
  else if sample.percent ≥ cfg.dayEnter then some .day
  else none

variable (p : DayNightPolicyState)

namespace DayNightPolicyState

/-- One more reading that proposes the target. -/
def accumulate (target : LightMode) : DayNightPolicyState :=
  if target = p.accumTarget ∧ p.stableCount > 0 then { p with stableCount := p.stableCount + 1 }
  else { p with accumTarget := target, stableCount := 1 }

/-- It is too soon after the last applied switch. -/
def Dwelling (nowMs : UInt64) : Prop :=
  p.lastSwitchMs ≠ 0 ∧ p.lastSwitchMs ≤ nowMs ∧
    (nowMs - p.lastSwitchMs).toNat < cfg.minHoldMs.toNat

instance (cfg : LightSensorConfig) (p : DayNightPolicyState) (nowMs : UInt64) :
    Decidable (Dwelling cfg p nowMs) := inferInstanceAs (Decidable (_ ∧ _ ∧ _))

def evaluate (sample : LightSample)
    (lensOpActive : Bool) (nowMs : UInt64) : DayNightPolicyState × LightSwitchDecision :=
  match candidate cfg sample with
  | none => ({ p with stableCount := 0 }, .none)
  | some target =>
    if target = p.mode then ({ p with stableCount := 0, hasPending := false }, .none)
    else
      let p := p.accumulate target
      if p.stableCount < cfg.stableSamples then (p, .none)
      else if p.Dwelling cfg nowMs then (p, .held)
      else if lensOpActive then
        ({ p with hasPending := true, pendingTarget := target, stableCount := 0 }, .deferPending)
      else
        ({ p with mode := target, stableCount := 0, hasPending := false
                  lastSwitchMs := if nowMs ≠ 0 then nowMs else 1 },
          if target = .day then .toDay else .toNight)

/-- A deferred switch may be applied. -/
def PendingDue (lensActive : Bool) (nowMs : UInt64) : Prop :=
  p.hasPending = true ∧ lensActive = false ∧
    (p.lastSwitchMs = 0 ∨ cfg.minHoldMs.toNat ≤ (nowMs - p.lastSwitchMs).toNat)

instance (cfg : LightSensorConfig) (p : DayNightPolicyState) (lensActive : Bool) (nowMs : UInt64) :
    Decidable (PendingDue cfg p lensActive nowMs) := inferInstanceAs (Decidable (_ ∧ _ ∧ _))

end DayNightPolicyState

structure LightTick where
  sample : LightSample
  lensActive : Bool
  nowMs : UInt64
  /-- Whether `set_imaging_mode` succeeds, if it is called. -/
  succeeds : Bool := true

/-- An iteration of `light_monitor_loop`, with the switch that it applies. -/
def monitorIteration (t : LightTick) : DayNightPolicyState × Option LightMode :=
  match p.evaluate cfg t.sample t.lensActive t.nowMs with
  | (p, .toDay) | (p, .toNight) => (p, some p.mode)
  | (p, .held) => (p, none)
  | (p, .none) | (p, .deferPending) =>
    if p.PendingDue cfg t.lensActive t.nowMs then
      ({ p with hasPending := false, mode := p.pendingTarget, stableCount := 0
                lastSwitchMs := t.nowMs }, some p.pendingTarget)
    else (p, none)

/-! ## Runs -/

/-- `set_selected_mode("auto")`. -/
def selectAuto (mode : LightMode) (nowMs : UInt64) : DayNightPolicyState :=
  { p with mode, stableCount := 0, hasPending := false, lastSwitchMs := nowMs }

/-- An iteration, with the time and the target of the switch that it applies. -/
def monitorStep (t : LightTick) : DayNightPolicyState × List (UInt64 × LightMode) :=
  let r := monitorIteration cfg p t
  (r.1, r.2.toList.map fun mode => (t.nowMs, mode))

def LightMode.imaging : LightMode → ImagingMode
  | .day => .day
  | .night => .infrared

structure AutoState where
  policy : DayNightPolicyState
  controller : ImagingMode
  deriving DecidableEq

/-- A call of `set_imaging_mode`, and whether it succeeds. -/
structure SwitchCall where
  nowMs : UInt64
  target : LightMode
  succeeds : Bool
  deriving DecidableEq

namespace AutoState

/-- Automatic mode is selected: the policy starts with the mode of the controller. -/
def select (controller : ImagingMode) (nowMs : UInt64) : AutoState where
  policy := selectAuto p (if controller = .infrared then .night else .day) nowMs
  controller := controller

/-- An iteration with its call of `set_imaging_mode`; one that fails leaves the controller in day
mode. -/
def iterate (s : AutoState) (t : LightTick) : AutoState × List SwitchCall :=
  let r := monitorIteration cfg s.policy t
  ({ policy := r.1
     controller := match r.2 with
       | none => s.controller
       | some mode => if t.succeeds then mode.imaging else .day },
    r.2.toList.map fun target => ⟨t.nowMs, target, t.succeeds⟩)

end AutoState

/-! ## What an iteration does -/

section Iteration

variable {cfg : LightSensorConfig} {p : DayNightPolicyState} {t : LightTick}

open DayNightPolicyState

/-- The reading is valid and beyond the threshold of the mode. -/
def Beyond (cfg : LightSensorConfig) (mode : LightMode) (sample : LightSample) : Prop :=
  sample.valid = true ∧ match mode with
    | .day => cfg.dayEnter ≤ sample.percent
    | .night => sample.percent ≤ cfg.nightEnter

theorem beyond_of_candidate {mode : LightMode} (proposes : candidate cfg t.sample = some mode) :
    Beyond cfg mode t.sample := by
  unfold candidate at proposes
  split_ifs at proposes with invalid dark bright
  · cases proposes
    exact ⟨by simpa using invalid, dark⟩
  · cases proposes
    exact ⟨by simpa using invalid, bright⟩

theorem candidate_of_beyond (ordered : cfg.nightEnter < cfg.dayEnter) {mode : LightMode}
    (beyond : Beyond cfg mode t.sample) : candidate cfg t.sample = some mode := by
  obtain ⟨valid, far⟩ := beyond
  cases mode with
  | day =>
    have bright : ¬ t.sample.percent ≤ cfg.nightEnter := by
      change cfg.dayEnter ≤ t.sample.percent at far
      omega
    simp only [candidate, valid, bright, Bool.not_true, Bool.false_eq_true, if_false]
    exact if_pos far
  | night =>
    simp only [candidate, valid, Bool.not_true, Bool.false_eq_true, if_false]
    exact if_pos far

theorem candidate_night (dark : Beyond cfg .night t.sample) :
    candidate cfg t.sample = some .night := by
  simp only [candidate, dark.1, Bool.not_true, Bool.false_eq_true, if_false]
  exact if_pos dark.2

theorem ne_iff_eq_opposite {a b : LightMode} : a ≠ b ↔ a = b.opposite := by
  cases a <;> cases b <;> simp [LightMode.opposite]

/-- What is left of the pending switch and of the count when an iteration applies none. -/
inductive Waits (cfg : LightSensorConfig) (p : DayNightPolicyState) (t : LightTick) :
    DayNightPolicyState → Prop
  | silent : candidate cfg t.sample = none → Waits cfg p t { p with stableCount := 0 }
  | reached : candidate cfg t.sample = some p.mode →
      Waits cfg p t { p with stableCount := 0, hasPending := false }
  | counts (target : LightMode) : candidate cfg t.sample = some target → target ≠ p.mode →
      ((p.accumulate target).stableCount < cfg.stableSamples ∨ p.Dwelling cfg t.nowMs) →
      Waits cfg p t (p.accumulate target)
  | defers (target : LightMode) : candidate cfg t.sample = some target → target ≠ p.mode →
      cfg.stableSamples ≤ (p.accumulate target).stableCount → t.lensActive = true →
      Waits cfg p t { p.accumulate target with
        hasPending := true, pendingTarget := target, stableCount := 0 }

inductive Switches (cfg : LightSensorConfig) (p : DayNightPolicyState) (t : LightTick) :
    DayNightPolicyState → LightMode → Prop
  | confirmed (target : LightMode) : candidate cfg t.sample = some target → target ≠ p.mode →
      cfg.stableSamples ≤ (p.accumulate target).stableCount → ¬ p.Dwelling cfg t.nowMs →
      t.lensActive = false →
      Switches cfg p t { p.accumulate target with
        mode := target, stableCount := 0, hasPending := false
        lastSwitchMs := if t.nowMs ≠ 0 then t.nowMs else 1 } target
  | deferred (p' : DayNightPolicyState) : Waits cfg p t p' → p'.PendingDue cfg t.lensActive t.nowMs →
      Switches cfg p t { p' with
        hasPending := false, mode := p'.pendingTarget, stableCount := 0, lastSwitchMs := t.nowMs }
        p'.pendingTarget

theorem dwelling_accumulate (target : LightMode) (nowMs : UInt64) :
    (p.accumulate target).Dwelling cfg nowMs ↔ p.Dwelling cfg nowMs := by
  unfold accumulate
  split <;> rfl

theorem monitorIteration_cases : (∃ p', Waits cfg p t p' ∧ monitorIteration cfg p t = (p', none)) ∨
      ∃ p' mode, Switches cfg p t p' mode ∧ monitorIteration cfg p t = (p', some mode) := by
  have pending {p' : DayNightPolicyState} {d : LightSwitchDecision} (waits : Waits cfg p t p')
      (eval : p.evaluate cfg t.sample t.lensActive t.nowMs = (p', d))
      (none : d = .none ∨ d = .deferPending) :
      (∃ p', Waits cfg p t p' ∧ monitorIteration cfg p t = (p', Option.none)) ∨
        ∃ p' mode, Switches cfg p t p' mode ∧ monitorIteration cfg p t = (p', some mode) := by
    by_cases due : p'.PendingDue cfg t.lensActive t.nowMs
    · refine .inr ⟨_, _, .deferred p' waits due, ?_⟩
      obtain rfl | rfl := none <;> simp only [monitorIteration, eval, if_pos due]
    · refine .inl ⟨p', waits, ?_⟩
      obtain rfl | rfl := none <;> simp only [monitorIteration, eval, if_neg due]
  cases proposes : candidate cfg t.sample with
  | none => exact pending (.silent proposes) (by simp only [evaluate, proposes]) (.inl rfl)
  | some target =>
    by_cases same : target = p.mode
    · subst same
      exact pending (.reached proposes) (by simp only [evaluate, proposes, if_true]) (.inl rfl)
    by_cases few : (p.accumulate target).stableCount < cfg.stableSamples
    · exact pending (.counts target proposes same (.inl few))
        (by simp only [evaluate, proposes, if_neg same, if_pos few]) (.inl rfl)
    by_cases dwelling : p.Dwelling cfg t.nowMs
    · refine .inl ⟨_, .counts target proposes same (.inr dwelling), ?_⟩
      have held := (dwelling_accumulate target t.nowMs).mpr dwelling
      simp only [monitorIteration, evaluate, proposes, if_neg same, if_neg few, if_pos held]
    have past := mt (dwelling_accumulate target t.nowMs).mp dwelling
    cases lens : t.lensActive with
    | true =>
      refine pending (.defers target proposes same (not_lt.mp few) lens) ?_ (.inr rfl)
      simp only [evaluate, proposes, if_neg same, if_neg few, if_neg past, lens, if_true]
    | false =>
      refine .inr ⟨_, target, .confirmed target proposes same (not_lt.mp few) dwelling lens, ?_⟩
      cases target <;> simp only [monitorIteration, evaluate, proposes, if_neg same, if_neg few,
        if_neg past, lens, Bool.false_eq_true, if_false, if_true, reduceCtorEq]

end Iteration

end NeoRuntime.CameraDaemon
