import Mathlib.Data.Int.Notation
import Mathlib.Tactic.Common
import NeoRuntime.Lib.Run

/-!
# Switching the imaging mode

`CameraDaemon::set_imaging_mode` (platform/camera-daemon/src/camera_daemon.cpp) switches the media
profile, the IR-cut filter and the LEDs.  If a step fails it rolls back to day mode, also when the
call was to leave infrared mode, with `switch_profile_internal`, which refuses a second switch
within five seconds.  When the parts agree after a call is said by `Keeps`.
-/

namespace NeoRuntime.CameraDaemon

inductive ImagingMode
  | day
  | infrared
  deriving DecidableEq, Repr

inductive ImagingModeTransition
  | idle
  | switching
  | failed
  deriving DecidableEq, Repr

inductive MediaError
  | restricted
  | invalid
  | other (ret : ℤ)

inductive SwitchOutcome
  | done
  | refused (error : MediaError)
  /-- The switch is reported as done, but no frames arrive. -/
  | noFrames (metadataOnly rollbackVerified : Bool)

structure Imaging where
  mode : ImagingMode
  transition : ImagingModeTransition
  ircutNight : Bool
  profile : String
  dayProfileBeforeInfrared : String
  lastSwitchStart : Option ℕ

/-- A call, with the times of its profile switches, and what becomes of its steps. -/
structure ModeCall where
  mode : ImagingMode
  forwardAt : ℕ
  backAt : ℕ
  switch : SwitchOutcome
  ircutOk : Bool
  ledOk : Bool
  stableOk : Bool

abbrev ModeAnswer := Bool × String

/-! ## The profile switch -/

def MediaError.message (name : String) : MediaError → String
  | .restricted => "thermal restricted: AI Denoise gated off; cool device to FULL_PERFORMANCE " ++
      "or pick a denoise-off profile"
  | .invalid => "profile '" ++ name ++ "' failed validation"
  | .other ret => "switch to '" ++ name ++ "' failed (ret=" ++ toString ret ++ ")"

def noFramesMessage (name previous : String) (metadataOnly rollbackVerified : Bool) : String :=
  let what := if metadataOnly then "' produced no coded video (metadata-only packets, no keyframe) within "
    else "' produced no video frames within "
  let start := "profile '" ++ name ++ what ++ "5s"
  if previous = "" then start
  else if rollbackVerified then start ++ "; rolled back to '" ++ previous ++ "'"
  else start ++ "; rolled back to '" ++ previous ++
    "' but it is also producing no frames; pipeline may need a manual restart"

/-- The last switch was started less than five seconds ago. -/
def tooSoon (s : Imaging) (now : ℕ) : Bool := s.lastSwitchStart.any fun t => now - t < 5000

/-- `switch_profile_internal`; the roll-back of the media layer succeeds. -/
def switchProfileInternal (s : Imaging) (name : String) (now : ℕ) (outcome : SwitchOutcome) :
    ModeAnswer × Imaging :=
  if name = s.profile then ((true, "profile already active"), s)
  else if tooSoon s now then ((false, "profile switching too fast, please wait a moment"), s)
  else
    let s := { s with lastSwitchStart := some now }
    match outcome with
    | .done => ((true, ""), { s with profile := name })
    | .refused error => ((false, error.message name), s)
    | .noFrames metadataOnly rollbackVerified =>
      ((false, noFramesMessage name s.profile metadataOnly rollbackVerified),
        if s.profile = "" then { s with profile := name } else s)

/-! ## The mode switch -/

section Mode

variable (infraredProfile : String) (s : Imaging) (c : ModeCall)

def toInfrared : ModeAnswer × Imaging :=
  let previous := s.profile
  let ((ok, error), s) := switchProfileInternal { s with mode := .day } infraredProfile c.forwardAt c.switch
  if !ok || !c.ircutOk then ((false, error), s)
  else
    let s := { s with ircutNight := true, mode := .infrared }
    if !c.ledOk then ((false, "infrared PWM update failed"), s)
    else if !c.stableOk then ((false, error), s)
    else ((true, error), { s with
      dayProfileBeforeInfrared :=
        if previous ≠ infraredProfile then previous else s.dayProfileBeforeInfrared })

def dayProfile : String :=
  if s.dayProfileBeforeInfrared = "" ∨ s.dayProfileBeforeInfrared = infraredProfile
  then "Daylight_Basic" else s.dayProfileBeforeInfrared

def toDay : ModeAnswer × Imaging :=
  if !c.ircutOk then ((false, ""), { s with mode := .day })
  else
    let ((ok, error), s) := switchProfileInternal { s with mode := .day, ircutNight := false }
      (dayProfile infraredProfile s) c.forwardAt c.switch
    ((ok && c.stableOk, error), s)

def forward : ModeAnswer × Imaging :=
  if c.mode = .infrared then toInfrared infraredProfile s c else toDay infraredProfile s c

variable (previous : String)

def rollBack (c : ModeCall) : Imaging :=
  let s := { s with mode := .day, ircutNight := false }
  let s := if previous ≠ "" ∧ s.profile ≠ previous
    then (switchProfileInternal s previous c.backAt .done).2 else s
  { s with transition := .failed }

def ProfileMatches (mode : ImagingMode) : Prop :=
  if mode = .infrared then s.profile = infraredProfile else s.profile ≠ infraredProfile

instance (s : Imaging) (mode : ImagingMode) : Decidable (ProfileMatches infraredProfile s mode) := by
  unfold ProfileMatches
  infer_instance

def setImagingMode : ModeAnswer × Imaging :=
  if s.transition = .switching then ((false, "imaging mode switch already active"), s)
  else if s.mode = c.mode ∧ s.transition = .idle ∧ ProfileMatches infraredProfile s c.mode ∧
      s.ircutNight = decide (c.mode = .infrared) then ((true, ""), s)
  else
    let ((ok, error), s') := forward infraredProfile s c
    if ok then ((true, ""), { s' with transition := .idle })
    else ((false, if error = "" then "imaging mode switch failed" else error),
      rollBack s' s.profile c)

def modeStep : Imaging × List Imaging :=
  ((setImagingMode infraredProfile s c).2, [(setImagingMode infraredProfile s c).2])

/-- The controller, the filter and the profile agree. -/
def Agrees : Prop :=
  (s.mode = .infrared ↔ s.ircutNight = true) ∧ (s.mode = .infrared ↔ s.profile = infraredProfile)

instance : DecidablePred (Agrees infraredProfile) := fun _ => inferInstanceAs (Decidable (_ ∧ _))

/-! ## When the parts agree again -/

/-- The conditions under which a call keeps the agreement. -/
def Keeps : Prop :=
  s.transition = .switching ∨
  match c.mode, s.mode with
  | .infrared, .infrared => s.transition = .failed → c.ircutOk ∧ c.ledOk ∧ c.stableOk
  | .infrared, .day =>
    tooSoon s c.forwardAt ∨
    match c.switch with
    | .refused _ => True
    | .noFrames _ _ => s.profile ≠ ""
    | .done => (c.ircutOk ∧ c.ledOk ∧ c.stableOk) ∨ s.profile ≠ "" ∧ 5000 ≤ c.backAt - c.forwardAt
  | .day, .infrared =>
    c.ircutOk ∧ dayProfile infraredProfile s ≠ infraredProfile ∧ tooSoon s c.forwardAt = false ∧
    match c.switch with
    | .refused _ => False
    | .noFrames _ _ => infraredProfile = ""
    | .done => c.stableOk ∨ infraredProfile = "" ∨ c.backAt - c.forwardAt < 5000
  | .day, .day =>
    s.transition = .idle ∨ !c.ircutOk ∨ dayProfile infraredProfile s ≠ infraredProfile ∨
    tooSoon s c.forwardAt ∨
    match c.switch with
    | .refused _ => True
    | .noFrames _ _ => s.profile ≠ ""
    | .done => !c.stableOk ∧ s.profile ≠ "" ∧ 5000 ≤ c.backAt - c.forwardAt

instance (s : Imaging) (c : ModeCall) : Decidable (Keeps infraredProfile s c) := by
  unfold Keeps
  cases c.mode <;> cases s.mode <;> cases c.switch <;> infer_instance

section Proof

variable {infraredProfile} {s : Imaging} {c : ModeCall}

/-- A switch changes the profile and the time of the last switch, and nothing else. -/
theorem switchProfileInternal_rest (s : Imaging) (name : String) (now : ℕ) (outcome : SwitchOutcome) :
    let s' := (switchProfileInternal s name now outcome).2
    s'.mode = s.mode ∧ s'.ircutNight = s.ircutNight ∧ s'.transition = s.transition := by
  unfold switchProfileInternal
  split_ifs
  · exact ⟨rfl, rfl, rfl⟩
  · exact ⟨rfl, rfl, rfl⟩
  · cases outcome with
    | noFrames => dsimp only; split <;> exact ⟨rfl, rfl, rfl⟩
    | _ => exact ⟨rfl, rfl, rfl⟩

/-- After the roll-back the parts agree exactly if the profile is not that of infrared mode. -/
theorem agrees_rollBack_iff : Agrees infraredProfile (rollBack s previous c) ↔
      (rollBack s previous c).profile ≠ infraredProfile := by
  obtain ⟨mode, ircut⟩ : (rollBack s previous c).mode = .day ∧
      (rollBack s previous c).ircutNight = false := by
    unfold rollBack
    dsimp only
    split_ifs
    · obtain ⟨mode, ircut, -⟩ := switchProfileInternal_rest { s with mode := .day, ircutNight := false }
        previous c.backAt .done
      exact ⟨mode, ircut⟩
    · exact ⟨rfl, rfl⟩
  simp [Agrees, mode, ircut]

/-- The profile after the roll-back, `t` being the start of the last switch. -/
theorem rollBack_profile : (rollBack s previous c).profile =
      if previous ≠ "" ∧ tooSoon s c.backAt = false then previous else s.profile := by
  unfold rollBack switchProfileInternal
  dsimp only
  by_cases empty : previous = ""
  · simp [empty]
  by_cases same : s.profile = previous
  · simp [same]
  · have other : previous ≠ s.profile := Ne.symm same
    cases soon : tooSoon s c.backAt <;> simp_all [tooSoon]

theorem agrees_forward_iff {r : ModeAnswer × Imaging} (idle : s.transition ≠ .switching)
    (go : ¬ (s.mode = c.mode ∧ s.transition = .idle ∧ ProfileMatches infraredProfile s c.mode ∧
      s.ircutNight = decide (c.mode = .infrared)))
    (steps : forward infraredProfile s c = r) :
    Agrees infraredProfile (setImagingMode infraredProfile s c).2 ↔
      if r.1.1 then Agrees infraredProfile r.2
      else (if s.profile ≠ "" ∧ tooSoon r.2 c.backAt = false then s.profile else r.2.profile) ≠
        infraredProfile := by
  obtain ⟨⟨ok, error⟩, s'⟩ := r
  rw [← rollBack_profile, ← agrees_rollBack_iff]
  simp only [setImagingMode, if_neg idle, if_neg go, steps]
  cases ok <;> rfl

variable (agrees : Agrees infraredProfile s)

include agrees

section

variable (idle : s.transition ≠ .switching)

include idle

theorem agrees_toInfrared_iff
    (day : s.mode = .day) (mode : c.mode = .infrared) :
    Agrees infraredProfile (setImagingMode infraredProfile s c).2 ↔ Keeps infraredProfile s c := by
  have other : s.profile ≠ infraredProfile := by simpa [Agrees, day] using agrees.2
  rw [agrees_forward_iff idle (by simp [day, mode]) (if_pos mode)]
  simp only [Keeps, idle, day, mode, false_or, toInfrared, switchProfileInternal, if_neg other.symm,
    tooSoon]
  cases s.lastSwitchStart.any fun t => decide (c.forwardAt - t < 5000) with
  | true => simp [other]
  | false =>
    cases c.switch with
    | refused error => simp [other]
    | noFrames metadataOnly rollbackVerified =>
      by_cases empty : s.profile = "" <;> simp [empty, other]
    | done =>
      cases c.ircutOk <;> cases c.ledOk <;> cases c.stableOk <;> simp [Agrees, other]

/-- From infrared to infrared mode: only a call after a failed one does anything. -/
theorem agrees_stayInfrared_iff
    (infrared : s.mode = .infrared) (mode : c.mode = .infrared) :
    Agrees infraredProfile (setImagingMode infraredProfile s c).2 ↔ Keeps infraredProfile s c := by
  have night : s.ircutNight = true := agrees.1.1 infrared
  have same : s.profile = infraredProfile := agrees.2.1 infrared
  cases at_ : s.transition with
  | switching => exact absurd at_ idle
  | idle =>
    have at_once : (setImagingMode infraredProfile s c).2 = s := by
      simp [setImagingMode, ProfileMatches, at_, infrared, mode, night, same]
    simp [at_once, agrees, Keeps, mode, infrared, at_]
  | failed =>
    rw [agrees_forward_iff idle (by simp [at_]) (if_pos mode)]
    simp only [Keeps, at_, infrared, mode, toInfrared, switchProfileInternal, if_pos same.symm]
    cases c.ircutOk <;> cases c.ledOk <;> cases c.stableOk <;> simp [Agrees, same]

/-- From infrared to day mode: the roll-back returns to the profile of infrared mode. -/
theorem agrees_toDay_iff
    (infrared : s.mode = .infrared) (mode : c.mode = .day) :
    Agrees infraredProfile (setImagingMode infraredProfile s c).2 ↔ Keeps infraredProfile s c := by
  have same : s.profile = infraredProfile := agrees.2.1 infrared
  rw [agrees_forward_iff idle (by simp [infrared, mode]) (if_neg (by simp [mode]))]
  simp only [Keeps, idle, infrared, mode, false_or, toDay, switchProfileInternal, same, tooSoon]
  cases c.ircutOk with
  | false => simp
  | true =>
    by_cases stays : dayProfile infraredProfile s = infraredProfile
    · cases c.stableOk <;> simp [stays, Agrees]
    simp only [if_neg stays]
    cases s.lastSwitchStart.any fun t => decide (c.forwardAt - t < 5000) with
    | true => simp
    | false =>
      cases c.switch with
      | refused error => simp
      | noFrames metadataOnly rollbackVerified =>
        by_cases empty : infraredProfile = ""
        · rw [empty] at stays
          simp [empty, stays]
        · simp [empty]
      | done =>
        cases c.stableOk with
        | true => simp [Agrees, stays]
        | false =>
          by_cases empty : infraredProfile = ""
          · rw [empty] at stays
            simp [empty, stays]
          · by_cases late : c.backAt - c.forwardAt < 5000
            · simp [late, stays]
            · simp [empty, late]

theorem agrees_stayDay_iff
    (day : s.mode = .day) (mode : c.mode = .day) :
    Agrees infraredProfile (setImagingMode infraredProfile s c).2 ↔ Keeps infraredProfile s c := by
  have out : s.ircutNight = false := by simpa [Agrees, day] using agrees.1
  have other : s.profile ≠ infraredProfile := by simpa [Agrees, day] using agrees.2
  cases at_ : s.transition with
  | switching => exact absurd at_ idle
  | idle =>
    have at_once : (setImagingMode infraredProfile s c).2 = s := by
      simp [setImagingMode, ProfileMatches, at_, day, mode, out, other]
    simp [at_once, agrees, Keeps, mode, day, at_]
  | failed =>
    rw [agrees_forward_iff idle (by simp [at_]) (if_neg (by simp [mode]))]
    simp only [Keeps, at_, day, mode, toDay, switchProfileInternal, tooSoon]
    cases c.ircutOk with
    | false => simp [other]
    | true =>
      by_cases stays : dayProfile infraredProfile s = s.profile
      · cases c.stableOk <;> simp [stays, Agrees, other]
      simp only [if_neg stays]
      cases s.lastSwitchStart.any fun t => decide (c.forwardAt - t < 5000) with
      | true => simp [other]
      | false =>
        cases c.switch with
        | refused error => simp [other]
        | noFrames metadataOnly rollbackVerified =>
          by_cases empty : s.profile = "" <;> simp [empty, other]
        | done =>
          cases c.stableOk with
          | true => simp [Agrees]
          | false =>
            by_cases empty : s.profile = ""
            · simp [empty]
            · by_cases late : c.backAt - c.forwardAt < 5000
              · simp [late, Nat.not_le.2 late]
              · simp [empty, late, other, Nat.not_lt.1 late]

end

/-- What one call does to the agreement. -/
theorem agrees_setImagingMode_iff (c : ModeCall) :
    Agrees infraredProfile (setImagingMode infraredProfile s c).2 ↔ Keeps infraredProfile s c := by
  by_cases busy : s.transition = .switching
  · simp [setImagingMode, busy, agrees, Keeps]
  cases before : s.mode with
  | day =>
    cases after : c.mode with
    | day => exact agrees_stayDay_iff agrees busy before after
    | infrared => exact agrees_toInfrared_iff agrees busy before after
  | infrared =>
    cases after : c.mode with
    | day => exact agrees_toDay_iff agrees busy before after
    | infrared => exact agrees_stayInfrared_iff agrees busy before after

end Proof

/-- The parts agree after every call of a run exactly if every call keeps the agreement. -/
theorem imaging_parts_agree_iff (s : Imaging) (agrees : Agrees infraredProfile s)
    (calls : List ModeCall) :
    (∀ s' ∈ (runLog (modeStep infraredProfile) s calls).2, Agrees infraredProfile s') ↔
      AlongLog (modeStep infraredProfile) (Keeps infraredProfile) s calls := by
  refine runLog_forall_iff (Agrees infraredProfile) (fun s c agrees => ?_)
    (fun s c agrees keeps => (agrees_setImagingMode_iff agrees c).2 keeps) agrees calls
  rw [← agrees_setImagingMode_iff agrees c]
  exact List.forall_mem_singleton

end Mode

def dayImaging : Imaging :=
  { mode := .day, transition := .idle, ircutNight := false, profile := "Daylight_Basic"
    dayProfileBeforeInfrared := "", lastSwitchStart := none }

def modeCall (mode : ImagingMode) (forwardAt backAt : ℕ) : ModeCall :=
  { mode, forwardAt, backAt, switch := .done, ircutOk := true, ledOk := true, stableOk := true }

/-- To infrared mode and back, with a failure that is rolled back after the cooldown. -/
theorem imaging_parts_agree_at_night :
    List.Forall (Agrees "Infrared") (runLog (modeStep "Infrared") dayImaging
      [{ modeCall .infrared 0 6000 with stableOk := false }, modeCall .infrared 12000 13000,
        modeCall .day 20000 21000]).2 :=
  List.forall_iff_forall_mem.2 ((imaging_parts_agree_iff "Infrared" dayImaging (by decide) _).2
    (by decide +kernel))

/-- The cooldown refuses the roll-back: day mode with the infrared profile. -/
theorem infrared_profile_in_day_mode : Agrees "Infrared" dayImaging ∧
    ¬ List.Forall (Agrees "Infrared") (runLog (modeStep "Infrared") dayImaging
      [{ modeCall .infrared 0 100 with ircutOk := false }]).2 := by
  decide +kernel

end NeoRuntime.CameraDaemon
