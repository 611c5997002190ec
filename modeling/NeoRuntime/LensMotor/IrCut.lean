import Mathlib.Data.UInt
import NeoRuntime.Lib.Run

/-!
# The IR-cut filter

`lens_controller.c` (mcu_board_prj/app/Custom/Components/lens) switches the IR-cut filter of the lens
and keeps a profile's minimum interval between two switches, by the tick of the last one.  The tick
counter wraps; `Clocked.now` counts on.  Initialisation, deinitialisation and the selection of a
profile, also one that is rolled back, forget the last switch.
-/

namespace NeoRuntime.LensController

inductive LensModel
  | af0832
  | fg2009
  deriving DecidableEq

/-- What the filter needs of a `lens_profile_t`. -/
structure LensProfile where
  supportsIrcut : Bool
  ircutDayLevel : UInt8
  ircutNightLevel : UInt8
  ircutMinIntervalMs : UInt16

def lensProfile : LensModel → LensProfile
  | .af0832 => ⟨true, 1, 0, 0⟩
  | .fg2009 => ⟨true, 0, 1, 2000⟩

inductive IrcutMode
  | unknown
  | day
  | night
  deriving DecidableEq

def LensProfile.ircutMode (p : LensProfile) (level : UInt8) : IrcutMode :=
  if level = p.ircutDayLevel then .day else if level = p.ircutNightLevel then .night else .unknown

structure Controller where
  ircutMode : IrcutMode := .unknown
  ircutLevel : UInt8 := 0
  ircutLevelValid : Bool := false
  ircutActionSeen : Bool := false
  ircutLastTick : UInt32 := 0
  initialized : Bool := false
  configured : Bool := false
  /-- `s_active_profile`. -/
  model : LensModel := .af0832

structure Clocked where
  controller : Controller := {}
  now : ℕ

/-- A call of `bsp_ctrl_set_ir_cut`, which always succeeds. -/
structure Switch where
  time : ℕ
  model : LensModel
  level : UInt8
  deriving DecidableEq

/-- The calls, with the outcomes of the motor driver's functions. -/
inductive LensCall
  | setRawLevel (level : UInt8)
  | setDay
  | setNight
  | init (motorInit : Bool)
  | deinit
  | configure (ok : Bool)
  /-- `busy` tells whether a motor moves; the last two are for the roll-back. -/
  | selectProfile (model : LensModel) (busy motorInit configure backInit backConfigure : Bool)

def tickFreq : ℕ := 1000

def elapsedMs (start now : UInt32) : ℕ := ((now - start).toNat * 1000 / tickFreq) % 2 ^ 32

section

variable (profile : LensModel → LensProfile) (c : Controller)

namespace Controller

def resetRuntimeState : Controller :=
  { c with
    ircutMode := .unknown, ircutLevel := 0, ircutLevelValid := false, ircutActionSeen := false
    ircutLastTick := 0 }

/-- The interval of the active profile has passed since the last switch. -/
def intervalPassed (tick : UInt32) : Bool :=
  (profile c.model).ircutMinIntervalMs.toNat ≤ elapsedMs c.ircutLastTick tick

/-- `lens_ircut_set_raw_level_locked`: the level that is set, if any. -/
def setRawLevelLocked (level : UInt8) (tick : UInt32) : Controller × Option UInt8 :=
  let p := profile c.model
  let level : UInt8 := if level ≠ 0 then 1 else 0
  if !p.supportsIrcut then (c, none)
  else if c.ircutLevelValid && c.ircutLevel = level then (c, none)
  else if c.ircutActionSeen && 0 < p.ircutMinIntervalMs && !c.intervalPassed profile tick then (c, none)
  else
    ({ c with
      ircutLevel := level, ircutLevelValid := true, ircutActionSeen := true, ircutLastTick := tick
      ircutMode := p.ircutMode level }, some level)

/-- `lens_controller_select_profile` for an initialised controller whose motors are at rest. -/
def reselect (model : LensModel) (motorInit configure backInit backConfigure : Bool) : Controller :=
  if motorInit && (!c.configured || configure) then { c with model := model }
  else { c with initialized := backInit, configured := backInit && c.configured && backConfigure }

def selectProfile (model : LensModel)
    (busy motorInit configure backInit backConfigure : Bool) : Controller :=
  if c.model = model then c
  else if !c.initialized then { c with model := model }.resetRuntimeState
  else if busy then c
  else (c.reselect model motorInit configure backInit backConfigure).resetRuntimeState

end Controller

def Controller.forgets : LensCall → Bool
  | .init _ => !c.initialized
  | .deinit => true
  | .selectProfile model busy _ _ _ _ => c.model ≠ model && (!c.initialized || !busy)
  | _ => false

def Controller.init (motorInit : Bool) : Controller :=
  if c.initialized then c
  else if motorInit then { c.resetRuntimeState with initialized := true, configured := false }
  else c.resetRuntimeState

def Controller.call (tick : UInt32) : LensCall → Controller × Option UInt8
  | .setRawLevel level => c.setRawLevelLocked profile level tick
  | .setDay => c.setRawLevelLocked profile (profile c.model).ircutDayLevel tick
  | .setNight => c.setRawLevelLocked profile (profile c.model).ircutNightLevel tick
  | .init motorInit => (c.init motorInit, none)
  | .deinit => ({ c with initialized := false, configured := false }.resetRuntimeState, none)
  | .configure ok => ({ c with configured := c.configured || c.initialized && ok }, none)
  | .selectProfile model busy motorInit configure backInit backConfigure =>
    (c.selectProfile model busy motorInit configure backInit backConfigure, none)

def Clocked.step (s : Clocked) (input : ℕ × LensCall) : Clocked × List Switch :=
  let now := s.now + input.1
  let r := s.controller.call profile (UInt32.ofNat now) input.2
  (⟨r.1, now⟩, (r.2.map fun level => ⟨now, s.controller.model, level⟩).toList)

/-- The interval has passed when the last switch is forgotten. -/
def Clocked.Patient (s : Clocked) (input : ℕ × LensCall) : Prop :=
  s.controller.forgets input.2 = true → s.controller.ircutActionSeen = true →
    s.controller.intervalPassed profile (UInt32.ofNat (s.now + input.1)) = true

instance (s : Clocked) (input : ℕ × LensCall) : Decidable (s.Patient profile input) :=
  inferInstanceAs (Decidable (_ → _ → _))

/-! ## What a call does -/

variable {profile}

theorem elapsedMs_ofNat {start now : ℕ} (order : start ≤ now) (near : now - start < 2 ^ 32) :
    elapsedMs (UInt32.ofNat start) (UInt32.ofNat now) = now - start := by
  have diff : (UInt32.ofNat now - UInt32.ofNat start).toNat = now - start := by
    rw [← UInt32.ofNat_sub order, UInt32.toNat_ofNat_of_lt' near]
  rw [elapsedMs, diff, tickFreq, Nat.mul_div_cancel _ (by decide), Nat.mod_eq_of_lt near]

theorem Controller.setRawLevelLocked_cases (level : UInt8) (tick : UInt32) :
    c.setRawLevelLocked profile level tick = (c, none) ∨
      ∃ c' level', c.setRawLevelLocked profile level tick = (c', some level') ∧
        c'.ircutActionSeen = true ∧ c'.ircutLastTick = tick ∧ c'.model = c.model ∧
        (c.ircutActionSeen = true → c.intervalPassed profile tick = true) := by
  unfold setRawLevelLocked
  extract_lets p level'
  split_ifs with unsupported same early
  · exact .inl rfl
  · exact .inl rfl
  · exact .inl rfl
  · refine .inr ⟨_, level', rfl, rfl, rfl, rfl, fun seen => ?_⟩
    by_contra soon
    -- An interval of 0 has always passed.
    have pos : 0 < p.ircutMinIntervalMs := by
      rw [UInt16.pos_iff_ne_zero]
      intro zero
      exact soon (decide_eq_true (by rw [show (profile c.model).ircutMinIntervalMs = 0 from zero]; simp))
    exact early (by simp [seen, pos, soon])

/-- What a call does to the memory of the last switch. -/
inductive Effect (profile : LensModel → LensProfile) (c : Controller) (tick : UInt32)
    (call : LensCall) : Controller × Option UInt8 → Prop
  | switched {c' : Controller} (level : UInt8) (seen : c'.ircutActionSeen = true)
      (last : c'.ircutLastTick = tick) (model : c'.model = c.model)
      (passed : c.ircutActionSeen = true → c.intervalPassed profile tick = true) :
      Effect profile c tick call (c', some level)
  | forgot {c' : Controller} (forgets : c.forgets call = true)
      (unseen : c'.ircutActionSeen = false) : Effect profile c tick call (c', none)
  | kept {c' : Controller} (seen : c'.ircutActionSeen = c.ircutActionSeen)
      (last : c'.ircutLastTick = c.ircutLastTick) (model : c'.model = c.model) :
      Effect profile c tick call (c', none)

theorem Controller.call_effect (profile : LensModel → LensProfile) (c : Controller) (tick : UInt32)
    (call : LensCall) : Effect profile c tick call (c.call profile tick call) := by
  have set (level : UInt8) : Effect profile c tick call (c.setRawLevelLocked profile level tick) := by
    obtain eq | ⟨c', level', eq, seen, last, model, passed⟩ := c.setRawLevelLocked_cases level tick
    · rw [eq]
      exact .kept rfl rfl rfl
    · rw [eq]
      exact .switched level' seen last model passed
  cases call with
  | setRawLevel level => exact set level
  | setDay => exact set _
  | setNight => exact set _
  | init motorInit =>
    simp only [Controller.call, Controller.init]
    split_ifs with again
    · exact .kept rfl rfl rfl
    · exact .forgot (by simpa [forgets] using again) rfl
    · exact .forgot (by simpa [forgets] using again) rfl
  | deinit => exact .forgot rfl rfl
  | configure ok => exact .kept rfl rfl rfl
  | selectProfile model busy motorInit configure backInit backConfigure =>
    simp only [Controller.call, Controller.selectProfile]
    split_ifs with same uninitialised moving
    · exact .kept rfl rfl rfl
    · exact .forgot (by simp_all [forgets]) rfl
    · exact .kept rfl rfl rfl
    · exact .forgot (by simp_all [forgets]) rfl

/-! ## Whole runs -/

/-- Switches from `ready` on are late enough; `start` is the beginning of the run. -/
def Clocked.Ready (profile : LensModel → LensProfile) (s : Clocked) (start ready : ℕ) : Prop :=
  start ≤ s.now ∧
    if s.controller.ircutActionSeen = true then
      ∃ last, start ≤ last ∧ last ≤ s.now ∧ s.controller.ircutLastTick = UInt32.ofNat last ∧
        ready ≤ last + (profile s.controller.model).ircutMinIntervalMs.toNat
    else ready ≤ s.now

theorem Clocked.Ready.le {s : Clocked} {start ready now : ℕ} (inv : s.Ready profile start ready)
    (later : s.now ≤ now) (near : now < start + 2 ^ 32)
    (passed : s.controller.ircutActionSeen = true →
      s.controller.intervalPassed profile (UInt32.ofNat now) = true) : ready ≤ now := by
  obtain ⟨-, inv⟩ := inv
  split at inv
  next seen =>
    obtain ⟨last, after, before, tick, bound⟩ := inv
    have interval := of_decide_eq_true (passed seen)
    rw [tick, elapsedMs_ofNat (before.trans later) (by omega)] at interval
    omega
  · omega

theorem Clocked.Ready.run {s : Clocked} {start ready : ℕ} (inv : s.Ready profile start ready)
    {calls : List (ℕ × LensCall)} (near : s.now + (calls.map Prod.fst).sum < start + 2 ^ 32)
    (patient : AlongLog (Clocked.step profile) (Clocked.Patient profile) s calls) :
    ((runLog (Clocked.step profile) s calls).2.Pairwise fun a b =>
        a.time + (profile a.model).ircutMinIntervalMs.toNat ≤ b.time) ∧
      ∀ b ∈ (runLog (Clocked.step profile) s calls).2, ready ≤ b.time := by
  induction calls generalizing s ready with
  | nil => exact ⟨.nil, by simp⟩
  | cons input calls ih =>
    obtain ⟨forget, patient⟩ := patient
    have effect := s.controller.call_effect profile (UInt32.ofNat (s.now + input.1)) input.2
    rw [List.map_cons, List.sum_cons] at near
    rw [runLog_cons]
    unfold Clocked.step at patient ⊢
    unfold Clocked.Patient at forget
    dsimp only at patient ⊢
    generalize s.controller.call profile (UInt32.ofNat (s.now + input.1)) input.2 = r
      at effect patient ⊢
    have start_le : start ≤ s.now + input.1 := Nat.le_add_right_of_le inv.1
    have near' : s.now + input.1 + (calls.map Prod.fst).sum < start + 2 ^ 32 := by omega
    cases effect with
    | @switched c' level seen last model passed =>
      have here : ready ≤ s.now + input.1 := inv.le (by omega) (by omega) passed
      have next : Clocked.Ready profile ⟨c', s.now + input.1⟩ start
          (s.now + input.1 + (profile s.controller.model).ircutMinIntervalMs.toNat) := by
        refine ⟨start_le, ?_⟩
        rw [if_pos seen, model]
        exact ⟨_, start_le, Nat.le_refl _, last, Nat.le_refl _⟩
      obtain ⟨spaced, later⟩ := ih next near' patient
      refine ⟨List.pairwise_cons.mpr ⟨later, spaced⟩, List.forall_mem_cons.mpr ⟨here, ?_⟩⟩
      intro b mem
      exact here.trans ((Nat.le_add_right _ _).trans (later b mem))
    | forgot forgets unseen =>
      have here : ready ≤ s.now + input.1 := inv.le (by omega) (by omega) (forget forgets)
      refine ih ⟨start_le, ?_⟩ near' patient
      rw [if_neg (by simp [unseen])]
      exact here
    | kept seen last model =>
      refine ih ⟨start_le, ?_⟩ near' patient
      obtain ⟨-, inv⟩ := inv
      rw [seen, last, model]
      split at inv
      next was =>
        obtain ⟨time, after, before, tick, bound⟩ := inv
        rw [if_pos was]
        exact ⟨time, after, Nat.le_add_right_of_le before, tick, bound⟩
      next was =>
        rw [if_neg was]
        exact Nat.le_add_right_of_le inv

end

/-- In a run of less than 2³² ticks that forgets a switch only after its interval, two switches are
an interval of the first one's profile apart. -/
theorem switches_spaced (profile : LensModel → LensProfile) (start : ℕ)
    (calls : List (ℕ × LensCall)) (span : (calls.map Prod.fst).sum < 2 ^ 32)
    (patient : AlongLog (Clocked.step profile) (Clocked.Patient profile) { now := start } calls) :
    (runLog (Clocked.step profile) { now := start } calls).2.Pairwise fun a b =>
      a.time + (profile a.model).ircutMinIntervalMs.toNat ≤ b.time := by
  have ready : Clocked.Ready profile { now := start } start start :=
    ⟨Nat.le_refl _, by rw [if_neg (by simp)]⟩
  exact (ready.run (by simpa using Nat.add_lt_add_left span start) patient).1

/-- The profile FG2009 is selected, and later left and selected again; the ticks wrap meanwhile. -/
theorem switches_spaced_reselected : (runLog (Clocked.step lensProfile) { now := 2 ^ 32 - 1000 }
      [(0, .selectProfile .fg2009 false true true true true), (0, .setDay), (1500, .setNight),
        (500, .setNight), (2000, .selectProfile .af0832 false true true true true),
        (0, .selectProfile .fg2009 false true true true true), (0, .setDay)]).2.Pairwise
      fun a b => a.time + (lensProfile a.model).ircutMinIntervalMs.toNat ≤ b.time :=
  switches_spaced lensProfile _ _ (by decide) (by decide +kernel)

/-- The controller is deinitialised right after a switch, and switches again at once. -/
theorem deinit_forgets_switch : (runLog (Clocked.step lensProfile) { now := 0 }
      [(0, .selectProfile .fg2009 false true true true true), (5000, .setDay), (1, .deinit),
        (1, .setNight)]).2 = [⟨5000, .fg2009, 0⟩, ⟨5002, .fg2009, 1⟩] := by
  decide +kernel

end NeoRuntime.LensController
