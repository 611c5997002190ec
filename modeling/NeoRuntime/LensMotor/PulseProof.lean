import NeoRuntime.LensMotor.Invariant

/-!
# The axes that a pulse moves

A pulse of `VD_FZ` starts both axes with what their step registers hold.  A register that still holds
steps must therefore belong to an axis that counts them.
-/

namespace NeoRuntime.LensMotor

/-- Steps in the register are those of the current batch of a running move. -/
def Accounted (s : Side) : Prop :=
  s.register.psum ≠ 0 →
    s.state = .running ∧ s.runConfig.isValid = true ∧ s.runConfig.loadPsum = s.register.psum

instance Accounted.decidable : DecidablePred Accounted := fun _ => inferInstanceAs (Decidable (_ → _))

theorem Accounted.psum_eq_zero {s : Side} (accounted : Accounted s) (still : s.state ≠ .running) :
    s.register.psum = 0 :=
  Classical.byContradiction fun steps => still (accounted steps).1

theorem accounted_of_psum {s : Side} (empty : s.register.psum = 0) : Accounted s :=
  fun steps => absurd empty steps

theorem accounted_configure (s : Side) (config : RunConfig) (valid : config.isValid = true) :
    Accounted (s.configure config) := fun _ => ⟨rfl, valid, rfl⟩

theorem accounted_closed : Closed fun _ => Accounted where
  same {_ s s'} same accounted := by
    simp only [Side.core, Prod.mk.injEq] at same
    obtain ⟨state, -, -, -, -, config, register⟩ := same
    rw [Accounted, state, config, register]
    exact accounted
  start _ _ := accounted_configure _ _ rfl
  misfire accounted startable := by
    refine accounted_of_psum (accounted.psum_eq_zero ?_)
    rcases startable.state with state | state <;> simp [state]
  halt _ := accounted_of_psum rfl
  resume accounted _ _ _ := accounted
  reload _ running valid _ _ := ⟨running, valid, rfl⟩
  finish _ _ _ _ := accounted_of_psum rfl
  unzero accounted := accounted
  blank _ := accounted_of_psum rfl
  ready {_ s} accounted := by
    by_cases running : s.state = .running
    · rw [Side.ready, if_neg (by simp [running])]
      exact accounted
    · exact accounted_of_psum (accounted.psum_eq_zero running)
  fail accounted still := accounted_of_psum (accounted.psum_eq_zero still)
  request accounted still := accounted_of_psum (accounted.psum_eq_zero still)
  refuse accounted homing := accounted_of_psum (accounted.psum_eq_zero (by simp [homing]))
  arm accounted _ := accounted
  resetEnd _ _ accounted still := accounted_of_psum (accounted.psum_eq_zero still)

/-! ## Failing accesses -/

/-- SPI succeeds in the motor task and in `zf_sync_run`, whose arguments are not invalid for focus
alone. -/
def Sheltered : Event → Prop
  | .zfSyncRun zmPps zm fsPps fs spi =>
      Flawless spi ∧ ¬ (zm ≠ 0 ∧ validMove zmPps zm = true ∧ fs ≠ 0 ∧ validMove fsPps fs = false)
  | .handle _ _ spi | .resetStep _ _ spi => Flawless spi
  | _ => True

instance Sheltered.decidable : DecidablePred Sheltered
  | .zfSyncRun _ _ _ _ _ => inferInstanceAs (Decidable (_ ∧ _))
  | .handle _ _ spi | .resetStep _ _ spi => inferInstanceAs (Decidable (Flawless spi))
  | .run _ _ _ _ | .approach _ | .runToPosition _ _ _ _ | .stop _ _ | .motorConfig _ _
  | .setPositionLimit _ _ _ | .resetZero _ | .setRequest _ | .awaitCompletion _
  | .awaitResetDone _ | .wake | .lockFails | .clear | .unlock | .finish _ | .piFalls _ => isTrue trivial

def Event.common : Event → List Bool
  | .motorConfig common _ => common
  | _ => []

def mend (script : List Bool) : List Bool := script.map fun _ => true

def Event.mended : Event → Event
  | .run a pps steps spi => .run a pps steps fun b => mend (spi b)
  | .runToPosition a pps position spi => .runToPosition a pps position fun b => mend (spi b)
  | .zfSyncRun zmPps zm fsPps fs spi => .zfSyncRun zmPps zm fsPps fs fun b => mend (spi b)
  | .stop a spi => .stop a fun b => mend (spi b)
  | .motorConfig common spi => .motorConfig (mend common) fun b => mend (spi b)
  | .handle expired piHigh spi => .handle expired piHigh fun b => mend (spi b)
  | .resetStep piHigh piHighAtEnd spi => .resetStep piHigh piHighAtEnd fun b => mend (spi b)
  | event => event

theorem mend_eq {script : List Bool} (flawless : ∀ ok ∈ script, ok = true) : mend script = script := by
  have same := List.map_congr_left fun ok mem => (flawless ok mem).symm
  exact same.trans (List.map_id script)

theorem mend_flawless (spi : Axis → List Bool) : Flawless fun b => mend (spi b) := by
  intro b ok mem
  obtain ⟨-, -, rfl⟩ := List.mem_map.mp mem
  rfl

/-- What a failing access must not change in the other axis. -/
def Side.report (s : Side) : MotorState × RunConfig × ℤ := (s.state, s.runConfig, s.position)

theorem Side.report_of_core {s s' : Side} (same : s'.core = s.core) : s'.report = s.report := by
  simp only [Side.core, Prod.mk.injEq] at same
  obtain ⟨state, -, position, -, -, config, -⟩ := same
  rw [Side.report, Side.report, state, config, position]

namespace World

variable {w v : World} {a b : Axis}

theorem fireWhenReady_core (b : Axis) : (w.fireWhenReady.sides b).core = (w.sides b).core := by
  rw [fireWhenReady]
  split
  · exact Side.marked_core _
  · rfl

theorem startImpl_ne (distinct : b ≠ a) (pps : ℕ) (steps : ℤ) :
    ((w.startImpl a pps steps).1.sides b).core = (w.sides b).core := by
  obtain ⟨r, -, refused⟩ | ⟨-, -, accepted⟩ | ⟨-, -, failed⟩ := startImpl_cases w a pps steps
  · rw [refused]
  · rw [accepted, started, fireWhenReady_core, upd_ne distinct, spent_sides]
  · rw [failed, misfired, upd_ne distinct, spent_sides]

theorem stopImpl_ne (distinct : b ≠ a) : ((w.stopImpl a).1.sides b).core = (w.sides b).core := by
  obtain ⟨-, kept⟩ | ⟨-, halted⟩ | ⟨-, failed⟩ := stopImpl_cases w a
  · rw [kept]
  · rw [halted, halt, fireWhenReady_core, upd_ne distinct, spent_sides]
  · rw [failed, spent_sides]

/-- Worlds that differ at most in the outcomes for the other axis. -/
structure Alike (a : Axis) (w v : World) : Prop where
  sides : v.sides = w.sides
  rst : v.rst = w.rst
  spi : v.spi a = w.spi a

theorem alike_mended (w : World) (spi : Axis → List Bool) (own : ∀ ok ∈ spi a, ok = true) :
    Alike a { w with spi := fun b => mend (spi b) } { w with spi := spi } :=
  ⟨rfl, rfl, (mend_eq own).symm⟩

theorem fireWhenReady_alike (alike : v.sides = w.sides) :
    v.fireWhenReady.sides = w.fireWhenReady.sides := by
  have ready : v.canFire = w.canFire := by simp only [canFire, alike]
  cases fires : w.canFire with
  | true => simp only [fireWhenReady, ready, fires, if_true, fire, alike]
  | false => simp only [fireWhenReady, ready, fires, Bool.false_eq_true, if_false, alike]

theorem startImpl_alike (alike : Alike a w v) (pps : ℕ) (steps : ℤ) :
    (v.startImpl a pps steps).1.sides = (w.startImpl a pps steps).1.sides := by
  have answers : v.answers a 3 = w.answers a 3 := by rw [World.answers, World.answers, alike.spi]
  simp only [startImpl, alike.sides, answers]
  split_ifs
  · exact alike.sides
  · exact alike.sides
  · exact alike.sides
  · exact alike.sides
  · apply fireWhenReady_alike
    simp only [upd, spent_sides, alike.sides]
  · simp only [misfired, upd, spent_sides, alike.sides]
  · exact alike.sides

theorem stopImpl_alike (alike : Alike a w v) :
    (v.stopImpl a).1.sides = (w.stopImpl a).1.sides ∧ (v.stopImpl a).2 = (w.stopImpl a).2 := by
  have answers : v.answers a 2 = w.answers a 2 := by rw [World.answers, World.answers, alike.spi]
  have armed : v.armed a = w.armed a := by simp only [World.armed, smActive, alike.rst]
  simp only [stopImpl, alike.sides, answers]
  split_ifs
  · exact ⟨alike.sides, rfl⟩
  · refine ⟨fireWhenReady_alike ?_, rfl⟩
    simp only [upd, spent_sides, spent_armed, alike.sides, armed]
    rfl
  · exact ⟨alike.sides, rfl⟩

theorem run_alike (alike : Alike a w v) (pps : ℕ) (steps : ℤ) :
    (v.run a pps steps).1.sides = (w.run a pps steps).1.sides := by
  have occupied : v.occupied a = w.occupied a := by
    simp only [World.occupied, smActive, alike.sides, alike.rst]
  simp only [run, alike.sides, occupied]
  split_ifs
  · exact alike.sides
  · exact alike.sides
  · exact alike.sides
  · exact startImpl_alike alike pps steps

theorem runToPosition_alike (alike : Alike a w v) (pps : ℕ) (position : ℤ) :
    (v.runToPosition a pps position).1.sides = (w.runToPosition a pps position).1.sides := by
  have occupied : v.occupied a = w.occupied a := by
    simp only [World.occupied, smActive, alike.sides, alike.rst]
  simp only [runToPosition, alike.sides, occupied]
  split_ifs
  · exact alike.sides
  · exact alike.sides
  · exact startImpl_alike alike pps _

theorem stop_alike (alike : Alike a w v) : (v.stop a).1.sides = (w.stop a).1.sides := by
  have asked : Alike a (w.abort a) (v.abort a) := by
    have armed : v.armed a = w.armed a := by simp only [World.armed, smActive, alike.rst]
    simp only [abort, armed]
    split
    · exact ⟨alike.sides, by rw [alike.rst], alike.spi⟩
    · exact alike
  obtain ⟨sides, result⟩ := stopImpl_alike asked
  simp only [stop, alike.sides, result]
  split_ifs
  · simp only [upd, sides]
  · exact sides

/-! The calls for an axis do not change the other. -/

theorem run_ne (distinct : b ≠ a) (pps : ℕ) (steps : ℤ) :
    ((w.run a pps steps).1.sides b).core = (w.sides b).core := by
  rw [run]
  split_ifs
  · rfl
  · rfl
  · rfl
  · exact startImpl_ne distinct pps steps

theorem runToPosition_ne (distinct : b ≠ a) (pps : ℕ) (position : ℤ) :
    ((w.runToPosition a pps position).1.sides b).core = (w.sides b).core := by
  rw [runToPosition]
  split_ifs
  · rfl
  · rfl
  · exact startImpl_ne distinct pps _

theorem stop_ne (distinct : b ≠ a) : ((w.stop a).1.sides b).core = (w.sides b).core := by
  have asked : (w.abort a).sides = w.sides := by
    rw [abort]
    split <;> rfl
  have stopped := stopImpl_ne (w := w.abort a) distinct
  rw [asked] at stopped
  simp only [stop]
  split_ifs
  · rw [upd_ne distinct]
    exact stopped
  · exact stopped

theorem writeAxisConfig_report (a b : Axis) :
    ((w.writeAxisConfig a).1.sides b).report = (w.sides b).report := by
  rw [writeAxisConfig]
  split
  · by_cases same : b = a
    · subst same
      rw [spent_sides, upd_self]
      rfl
    · rw [spent_sides, upd_ne same, spent_sides]
  · rfl

theorem report_ready {s s' : Side} (same : s'.report = s.report) : s'.ready.report = s.ready.report := by
  simp only [Side.report, Prod.mk.injEq] at same
  obtain ⟨state, config, position⟩ := same
  simp only [Side.report, Side.ready, state, config, position]

/-- `motor_config` leaves the axes as they are, or makes both of them ready. -/
theorem motorConfig_report (w : World) (common : List Bool) (b : Axis) :
    ((w.motorConfig common).1.sides b).report = (w.sides b).report ∨
    w.smActive = false ∧ ((w.motorConfig common).1.sides b).report = (w.sides b).ready.report := by
  have focus := writeAxisConfig_report (w := w) .focus b
  have both := (writeAxisConfig_report (w := (w.writeAxisConfig .focus).1) .zoom b).trans focus
  rw [motorConfig]
  split
  · exact .inl rfl
  split
  · exact .inl rfl
  dsimp only
  split
  · exact .inl focus
  split
  · exact .inl both
  · exact .inr ⟨Bool.eq_false_iff.mpr ‹_›, report_ready both⟩

theorem writeAxisConfig_flawless (flawless : Flawless w.spi) (a : Axis) :
    (w.writeAxisConfig a).2 = true ∧ Flawless (w.writeAxisConfig a).1.spi := by
  have written : Flawless ((w.spent a 3).upd a Side.blanked).spi := spent_flawless flawless a 3
  rw [writeAxisConfig, if_pos (answers_of_flawless flawless a 3)]
  exact ⟨answers_of_flawless written a 1, spent_flawless written a 1⟩

theorem motorConfig_flawless {common : List Bool} (shared : ∀ ok ∈ common, ok = true)
    (flawless : Flawless w.spi) (idle : w.smActive = false) (b : Axis) :
    ((w.motorConfig common).1.sides b).report = (w.sides b).ready.report := by
  obtain ⟨focusOk, focusFlawless⟩ := writeAxisConfig_flawless flawless .focus
  obtain ⟨zoomOk, -⟩ := writeAxisConfig_flawless focusFlawless .zoom
  have focus := writeAxisConfig_report (w := w) .focus b
  have both := (writeAxisConfig_report (w := (w.writeAxisConfig .focus).1) .zoom b).trans focus
  rw [motorConfig, if_neg (by simp [idle]), if_neg (by simp [(accesses_flawless 4 shared).1])]
  simp only [focusOk, zoomOk, not_true, if_false]
  exact report_ready both

theorem call_eq {spi : Axis → List Bool} {f : World → World × Result} {w' : World}
    (step : w.call spi f = some w') : w.lockFree = true ∧ w' = (f { w with spi := spi }).1 := by
  rw [call] at step
  split at step
  · cases step
    exact ⟨‹_›, rfl⟩
  · cases step

theorem call_of_lockFree (spi : Axis → List Bool) (f : World → World × Result)
    (free : w.lockFree = true) : w.call spi f = some (f { w with spi := spi }).1 := by
  rw [call, if_pos free]

/-- An axis whose own accesses succeed is left as it is, or as it would be if none failed. -/
theorem step_spares {event : Event} {w' : World} (sheltered : Sheltered event)
    (step : w.step event = some w') (own : ∀ ok ∈ event.spi b, ok = true)
    (shared : ∀ ok ∈ event.common, ok = true) :
    (w'.sides b).report = (w.sides b).report ∨
    ∃ v, w.step event.mended = some v ∧ (w'.sides b).report = (v.sides b).report := by
  have unmended : event.mended = event →
      ∃ v, w.step event.mended = some v ∧ (w'.sides b).report = (v.sides b).report :=
    fun same => ⟨w', by rw [same]; exact step, rfl⟩
  have mended : ∀ {spi : Axis → List Bool}, Flawless spi → (fun b => mend (spi b)) = spi :=
    fun flawless => funext fun b => mend_eq (flawless b)
  cases event with
  | run a pps steps spi =>
    simp only [World.step, Event.mended] at step ⊢
    obtain ⟨free, rfl⟩ := call_eq step
    by_cases same : b = a
    · subst same
      refine .inr ⟨_, call_of_lockFree _ _ free, ?_⟩
      rw [run_alike (alike_mended w spi own)]
    · exact .inl (Side.report_of_core (run_ne same pps steps))
  | runToPosition a pps position spi =>
    simp only [World.step, Event.mended] at step ⊢
    by_cases approaches : 0 < (w.sides a).approaching
    swap
    · rw [if_neg approaches] at step
      cases step
    rw [if_pos approaches] at step ⊢
    obtain ⟨free, rfl⟩ := call_eq step
    by_cases same : b = a
    · subst same
      refine .inr ⟨_, call_of_lockFree _ _ free, ?_⟩
      rw [runToPosition_alike (alike_mended _ spi own)]
    · left
      rw [Side.report_of_core (runToPosition_ne same pps position)]
      simp only [upd_ne same]
  | stop a spi =>
    simp only [World.step, Event.mended] at step ⊢
    obtain ⟨free, rfl⟩ := call_eq step
    by_cases same : b = a
    · subst same
      refine .inr ⟨_, call_of_lockFree _ _ free, ?_⟩
      rw [stop_alike (alike_mended w spi own)]
    · exact .inl (Side.report_of_core (stop_ne same))
  | motorConfig common spi =>
    simp only [World.step, Event.mended] at step ⊢
    obtain ⟨free, rfl⟩ := call_eq step
    rcases motorConfig_report { w with spi := spi } common b with kept | ⟨idle, ready⟩
    · exact .inl kept
    · refine .inr ⟨_, call_of_lockFree _ _ free, ready.trans ?_⟩
      have shared := mend_flawless (fun _ => common) .focus
      exact (motorConfig_flawless (w := { w with spi := _ }) shared (mend_flawless spi) idle b).symm
  | zfSyncRun zmPps zm fsPps fs spi => exact .inr (unmended (by rw [Event.mended, mended sheltered.1]))
  | handle expired piHigh spi => exact .inr (unmended (by rw [Event.mended, mended sheltered]))
  | resetStep piHigh piHighAtEnd spi => exact .inr (unmended (by rw [Event.mended, mended sheltered]))
  | _ => exact .inr (unmended rfl)

end World

theorem accounted_step {w w' : World} {event : Event} (all : All (fun _ _ => Accounted) w)
    (sheltered : Sheltered event) (step : w.step event = some w') :
    All (fun _ _ => Accounted) w' := by
  refine all.step (fun _ => accounted_closed) ?_ ?_ ?_ step
  · intro spi task
    cases event with
    | handle | resetStep =>
      obtain rfl : _ = spi := Option.some_inj.mp task
      exact sheltered
    | _ => cases task
  · rintro zmPps zm fsPps fs spi rfl
    have start : Smooth (fun _ _ => Accounted) { w with spi := spi } :=
      ⟨⟨all.now, all.pulses⟩, sheltered.1⟩
    refine start.zfSyncRun (fun _ => accounted_closed) zmPps zm fsPps fs ?_ ?_ ?_
    · exact fun _ _ _ => accounted_configure _ _ rfl
    · exact fun _ _ _ => accounted_configure _ _ rfl
    · exact fun moves valid moves' invalid _ => absurd ⟨moves, valid, moves', invalid⟩ sheltered.2
  · rintro a posMin posMax rfl
    rw [World.setPositionLimit]
    split_ifs
    · exact all
    · exact all
    · dsimp only
      refine All.upd all ?_
      exact all.now a

theorem accounted_initial : All (fun _ _ => Accounted) {} where
  now _ := accounted_of_psum rfl
  pulses _ none := by simp at none

/-- If SPI succeeds in the motor task and in `zf_sync_run`, which does not give up halfway, every
pulse moves only axes that count the steps, and no failing access changes the other axis. -/
theorem pulses_accounted {events : List Event} {w : World}
    (run : events.foldlM World.step {} = some w) (sheltered : ∀ event ∈ events, Sheltered event) :
    (∀ p ∈ w.pulses, ∀ a, Accounted (p a)) ∧
    ∀ event w' b, Sheltered event → w.step event = some w' →
      (∀ ok ∈ event.spi b, ok = true) → (∀ ok ∈ event.common, ok = true) →
      (w'.sides b).report = (w.sides b).report ∨
      ∃ v, w.step event.mended = some v ∧ (w'.sides b).report = (v.sides b).report := by
  have along : Along World.step (fun _ => Sheltered) {} events :=
    Along.of_forall fun event mem _ => sheltered event mem
  have all : All (fun _ _ => Accounted) w :=
    foldlM_inv_along _ (fun _ _ _ all sheltered step => accounted_step all sheltered step)
      accounted_initial along run
  exact ⟨fun p mem a => (all.pulses p mem a).elim fun _ accounted => accounted,
    fun event w' b sheltered step own shared => World.step_spares sheltered step own shared⟩

def failedStart : List Event :=
  [.motorConfig [true, true, true, true] fun _ => [true, true, true, true],
   .run .zoom 800 60 fun _ => [true, false],
   .run .focus 800 40 fun _ => [],
   .run .zoom 800 60 fun _ => [true, true, true],
   .finish .focus, .wake,
   .handle (fun _ => false) (fun _ => false) fun _ => [true, true],
   .clear, .unlock]

theorem failedStart_runs : (failedStart.foldlM World.step {}).isSome := by decide +kernel

theorem pulses_accounted_failedStart :
    ∃ w, failedStart.foldlM World.step {} = some w ∧ w.pulses.length = 2 ∧
      ∀ p ∈ w.pulses, ∀ a, Accounted (p a) :=
  ⟨_, (Option.some_get failedStart_runs).symm, by decide +kernel,
    (pulses_accounted (Option.some_get failedStart_runs).symm (by decide +kernel)).1⟩

def halfSync : List Event :=
  [.motorConfig [] fun _ => [],
   .zfSyncRun 800 100 800 70000 fun _ => [],
   .run .focus 800 40 fun _ => []]

theorem halfSync_runs : (halfSync.foldlM World.step {}).isSome := by decide +kernel

/-- Zoom is stopped and moves. -/
theorem zoom_moved_unaccounted :
    ∃ w, halfSync.foldlM World.step {} = some w ∧ (w.sides .zoom).state = .stopped ∧
      (w.sides .zoom).executing = some 50 ∧ ∃ p ∈ w.pulses, ¬ Accounted (p .zoom) :=
  ⟨_, (Option.some_get halfSync_runs).symm, by decide +kernel, by decide +kernel, by decide +kernel⟩

end NeoRuntime.LensMotor
