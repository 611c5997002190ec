import NeoRuntime.LensMotor.Task

/-!
# Invariants of an axis

What the functions of the driver do, stated once: `startImpl_cases` and `stopImpl_cases`.  From it, a
property of single axes that the changes of one axis keep (`Closed`) is kept by every call and by
every part of the motor task, and holds of both axes at every pulse.
-/

namespace NeoRuntime.LensMotor

/-! ## SPI -/

def Flawless (spi : Axis → List Bool) : Prop := ∀ a, ∀ ok ∈ spi a, ok = true

instance Flawless.decidable : DecidablePred Flawless := fun spi =>
  inferInstanceAs (Decidable (∀ a, ∀ ok ∈ spi a, ok = true))

theorem accesses_flawless (n : ℕ) {script : List Bool} (flawless : ∀ ok ∈ script, ok = true) :
    (accesses n script).1 = true ∧ ∀ ok ∈ (accesses n script).2, ok = true := by
  induction n generalizing script with
  | zero => exact ⟨rfl, flawless⟩
  | succ n ih =>
    cases script with
    | nil => exact ⟨rfl, flawless⟩
    | cons ok script =>
      obtain ⟨rfl, rest⟩ := List.forall_mem_cons.mp flawless
      exact ih rest

/-- What the properties of an axis depend on. -/
def Side.core (s : Side) : MotorState × Bool × ℤ × ℤ × ℤ × RunConfig × StepRegister :=
  (s.state, s.isRZero, s.position, s.posMin, s.posMax, s.runConfig, s.register)

theorem Side.unbatched_core (s : Side) : s.unbatched.core = s.core := rfl

theorem Side.marked_core (s : Side) : s.marked.core = s.core := by
  rw [Side.marked]
  split <;> rfl

namespace World

variable {w : World} {a b : Axis} {f : Side → Side}

/-! ## Updates -/

@[simp] theorem upd_self : (w.upd a f).sides a = f (w.sides a) := Function.update_self ..

theorem upd_ne (distinct : b ≠ a) : (w.upd a f).sides b = w.sides b :=
  Function.update_of_ne distinct ..

theorem upd_upd {g : Side → Side} : (w.upd a f).upd a g = w.upd a fun s => g (f s) := by
  simp [upd]

@[simp] theorem upd_rst : (w.upd a f).rst = w.rst := rfl

@[simp] theorem upd_spi : (w.upd a f).spi = w.spi := rfl

@[simp] theorem spent_sides (n : ℕ) : (w.spent a n).sides = w.sides := rfl

@[simp] theorem spent_armed (n : ℕ) : (w.spent a n).armed b = w.armed b := rfl

theorem spent_upd (n : ℕ) : (w.upd a f).spent b n = (w.spent b n).upd a f := rfl

theorem answers_of_flawless (flawless : Flawless w.spi) (a : Axis) (n : ℕ) : w.answers a n = true :=
  (accesses_flawless n (flawless a)).1

theorem spent_flawless (flawless : Flawless w.spi) (a : Axis) (n : ℕ) :
    Flawless (w.spent a n).spi := by
  intro b
  simp only [spent]
  by_cases same : b = a
  · subst same
    rw [Function.update_self]
    exact (accesses_flawless n (flawless b)).2
  · rw [Function.update_of_ne same]
    exact flawless b

@[simp] theorem fireWhenReady_rst : w.fireWhenReady.rst = w.rst := by
  rw [fireWhenReady]
  split <;> rfl

@[simp] theorem fireWhenReady_spi : w.fireWhenReady.spi = w.spi := by
  rw [fireWhenReady]
  split <;> rfl

@[simp] theorem disarm_sides : w.disarm.sides = w.sides := rfl

@[simp] theorem disarm_armed : w.disarm.armed a = false := rfl

theorem armed_iff : w.armed a = true ↔ w.smActive = true ∧ w.rst.axis = a := by
  simp [armed]

/-! ## Starting and stopping -/

end World

/-- `motor_start_impl` accepts the move. -/
structure Startable (s : Side) (pps : ℕ) (steps : ℤ) : Prop where
  valid : validMove pps steps = true
  state : s.state = .stopped ∨ s.state = .resetZero
  inside : s.isRZero = true → s.posMin < s.posMax →
    s.posMin ≤ s.position + steps ∧ s.position + steps ≤ s.posMax

namespace World

variable {w : World} {a b : Axis}

theorem startImpl_cases (w : World) (a : Axis) (pps : ℕ) (steps : ℤ) :
    (∃ r, r ≠ .ok ∧ w.startImpl a pps steps = (w, r)) ∨
    (Startable (w.sides a) pps steps ∧ w.answers a 3 = true ∧
      w.startImpl a pps steps = ((w.spent a 3).started a (startConfig pps steps), .ok)) ∨
    (Startable (w.sides a) pps steps ∧ w.answers a 3 = false ∧
      w.startImpl a pps steps = ((w.spent a 3).misfired a (startConfig pps steps), .hal)) := by
  by_cases valid : validMove pps steps = true
  swap
  · exact .inl ⟨.invalidArg, by decide, by rw [startImpl, if_pos valid]⟩
  by_cases unconfigured : (w.sides a).state = .noCfg
  · exact .inl ⟨.invalidState, by decide, by simp [startImpl, valid, unconfigured]⟩
  by_cases running : (w.sides a).state = .running
  · exact .inl ⟨.busy, by decide, by simp [startImpl, valid, running]⟩
  by_cases other : (w.sides a).state ≠ .stopped ∧ (w.sides a).state ≠ .resetZero
  · exact .inl ⟨.invalidState, by decide, by simp [startImpl, valid, unconfigured, running, other]⟩
  by_cases outside : (w.sides a).isRZero ∧ (w.sides a).posMin < (w.sides a).posMax ∧
      ((w.sides a).position + steps < (w.sides a).posMin ∨
        (w.sides a).posMax < (w.sides a).position + steps)
  · refine .inl ⟨.outOfRange, by decide, ?_⟩
    simp only [startImpl]
    rw [if_neg (not_not.mpr valid), if_neg unconfigured, if_neg running, if_neg other,
      if_pos outside]
  have startable : Startable (w.sides a) pps steps := by
    refine ⟨valid, by tauto, fun homed limited => ?_⟩
    have within : ¬ _ := fun out => outside ⟨homed, limited, out⟩
    omega
  cases answer : w.answers a 3 with
  | true =>
    refine .inr (.inl ⟨startable, rfl, ?_⟩)
    simp only [startImpl]
    rw [if_neg (not_not.mpr valid), if_neg unconfigured, if_neg running, if_neg other,
      if_neg outside, if_pos answer]
  | false =>
    refine .inr (.inr ⟨startable, rfl, ?_⟩)
    simp only [startImpl]
    rw [if_neg (not_not.mpr valid), if_neg unconfigured, if_neg running, if_neg other,
      if_neg outside, if_neg (by simp [answer])]

theorem stopImpl_cases (w : World) (a : Axis) :
    ((w.sides a).state = .noCfg ∧ w.stopImpl a = (w, .ok)) ∨
    (w.answers a 2 = true ∧ w.stopImpl a = ((w.spent a 2).halt a, .ok)) ∨
    (w.answers a 2 = false ∧ w.stopImpl a = (w.spent a 2, .hal)) := by
  by_cases unconfigured : (w.sides a).state = .noCfg
  · exact .inl ⟨unconfigured, by rw [stopImpl, if_pos unconfigured]⟩
  cases answer : w.answers a 2 with
  | true => exact .inr (.inl ⟨rfl, by rw [stopImpl, if_neg unconfigured, if_pos answer]⟩)
  | false =>
    exact .inr (.inr ⟨rfl, by rw [stopImpl, if_neg unconfigured, if_neg (by simp [answer])]⟩)

theorem fireWhenReady_state (b : Axis) : (w.fireWhenReady.sides b).state = (w.sides b).state := by
  rw [fireWhenReady]
  split
  · exact congrArg Prod.fst (Side.marked_core _)
  · rfl

theorem stopImpl_state (flawless : Flawless w.spi) (a : Axis) :
    ((w.stopImpl a).1.sides a).state ≠ .running := by
  obtain ⟨unconfigured, kept⟩ | ⟨-, halted⟩ | ⟨failing, -⟩ := stopImpl_cases w a
  · simp [kept, unconfigured]
  · rw [halted, halt, fireWhenReady_state, upd_self, Side.halted]
    split <;> simp
  · rw [answers_of_flawless flawless] at failing
    cases failing

@[simp] theorem startImpl_rst (w : World) (a : Axis) (pps : ℕ) (steps : ℤ) :
    (w.startImpl a pps steps).1.rst = w.rst := by
  obtain ⟨r, -, refused⟩ | ⟨-, -, started⟩ | ⟨-, -, misfired⟩ := startImpl_cases w a pps steps
  · rw [refused]
  · rw [started, World.started, fireWhenReady_rst]
    rfl
  · rw [misfired]
    rfl

@[simp] theorem stopImpl_rst (w : World) (a : Axis) : (w.stopImpl a).1.rst = w.rst := by
  obtain ⟨-, kept⟩ | ⟨-, halted⟩ | ⟨-, failed⟩ := stopImpl_cases w a
  · rw [kept]
  · rw [halted, halt, fireWhenReady_rst]
    rfl
  · rw [failed]
    rfl

theorem startImpl_flawless (flawless : Flawless w.spi) (a : Axis) (pps : ℕ) (steps : ℤ) :
    Flawless (w.startImpl a pps steps).1.spi := by
  have spent := spent_flawless flawless a 3
  obtain ⟨r, -, refused⟩ | ⟨-, -, accepted⟩ | ⟨-, -, failed⟩ := startImpl_cases w a pps steps
  · rw [refused]
    exact flawless
  · rw [accepted, started, fireWhenReady_spi]
    exact spent
  · rw [failed]
    exact spent

theorem stopImpl_flawless (flawless : Flawless w.spi) (a : Axis) :
    Flawless (w.stopImpl a).1.spi := by
  have spent := spent_flawless flawless a 2
  obtain ⟨-, kept⟩ | ⟨-, halted⟩ | ⟨-, failed⟩ := stopImpl_cases w a
  · rw [kept]
    exact flawless
  · rw [halted, halt, fireWhenReady_spi]
    exact spent
  · rw [failed]
    exact spent

theorem stopImpl_running (flawless : Flawless w.spi) (running : (w.sides a).state = .running) :
    w.stopImpl a = ((w.spent a 2).halt a, .ok) := by
  rw [stopImpl, if_neg (by simp [running]), if_pos (answers_of_flawless flawless a 2)]

@[simp] theorem queueNotice_spi (notice : Notice) : (w.queueNotice notice).spi = w.spi := by
  rw [queueNotice]
  split <;> rfl

@[simp] theorem notifyCompleted_spi (result : Result) : (w.notifyCompleted a result).spi = w.spi := by
  rw [notifyCompleted, queueNotice_spi, upd_spi]

@[simp] theorem consumeRequest_spi (bits : Bits) (piHigh : Bool) :
    (w.consumeRequest bits a piHigh).spi = w.spi := by
  rw [consumeRequest, tryArm]
  split_ifs
  · rfl
  · rfl
  · rw [upd_spi, notifyDone, queueNotice_spi, upd_spi, upd_spi]
  · rfl
  · rfl

/-! ## Moves of both axes -/

/-- `zf_sync_run` finds both axes free. -/
structure Free (w : World) : Prop where
  configured : ∀ a, (w.sides a).state ≠ .noCfg
  unoccupied : ∀ a, w.occupied a = false

theorem Free.still (free : Free w) (a : Axis) :
    (w.sides a).state ≠ .running ∧ (w.sides a).state ≠ .resetZero ∧ w.smActive = false := by
  have := free.unoccupied a
  simp only [occupied, Bool.or_eq_false_iff, decide_eq_false_iff_not] at this
  exact ⟨this.1.1, this.1.2, this.2⟩

/-- Both axes configured for their part of the move. -/
def synced (w : World) (zmPps : ℕ) (zm : ℤ) (fsPps : ℕ) (fs : ℤ) : World :=
  ((w.syncAxis .zoom zmPps zm).1.syncAxis .focus fsPps fs).1

section

variable (flawless : Flawless w.spi)

include flawless

theorem syncAxis_ok (a : Axis) (pps : ℕ) (steps : ℤ) :
    (w.syncAxis a pps steps).2 = true := by
  rw [syncAxis]
  split
  · rfl
  · simp only [answers_of_flawless flawless, if_true]

theorem syncAxis_eq (a : Axis) (pps : ℕ) {steps : ℤ} (moves : steps ≠ 0) :
    (w.syncAxis a pps steps).1 =
      (w.spent a 3).upd a fun s => s.configure (syncConfig pps steps) := by
  rw [syncAxis, if_neg moves]
  simp only [answers_of_flawless flawless, if_true]

theorem syncAxis_flawless (a : Axis) (pps : ℕ) (steps : ℤ) :
    Flawless (w.syncAxis a pps steps).1.spi := by
  by_cases rests : steps = 0
  · rw [syncAxis, if_pos rests]
    exact flawless
  · rw [syncAxis_eq flawless a pps rests]
    exact spent_flawless flawless a 3

omit flawless in
theorem syncAxis_rst (a : Axis) (pps : ℕ) (steps : ℤ) : (w.syncAxis a pps steps).1.rst = w.rst := by
  rw [syncAxis]
  split
  · rfl
  · dsimp only
    split <;> rfl

theorem syncAxis_self (a : Axis) (pps : ℕ) (steps : ℤ) :
    (w.syncAxis a pps steps).1.sides a =
      if steps = 0 then w.sides a else (w.sides a).configure (syncConfig pps steps) := by
  split
  · rw [syncAxis, if_pos ‹_›]
  · rw [syncAxis_eq flawless a pps ‹_›, upd_self, spent_sides]

theorem syncAxis_ne (pps : ℕ) (steps : ℤ) (distinct : b ≠ a) :
    (w.syncAxis a pps steps).1.sides b = w.sides b := by
  by_cases rests : steps = 0
  · rw [syncAxis, if_pos rests]
  · rw [syncAxis_eq flawless a pps rests, upd_ne distinct, spent_sides]

theorem synced_zoom (zmPps : ℕ) (zm : ℤ) (fsPps : ℕ) (fs : ℤ) :
    (w.synced zmPps zm fsPps fs).sides .zoom =
      if zm = 0 then w.sides .zoom else (w.sides .zoom).configure (syncConfig zmPps zm) := by
  rw [synced, syncAxis_ne (syncAxis_flawless flawless _ _ _) _ _ (by decide),
    syncAxis_self flawless]

theorem synced_focus (zmPps : ℕ) (zm : ℤ) (fsPps : ℕ) (fs : ℤ) :
    (w.synced zmPps zm fsPps fs).sides .focus =
      if fs = 0 then w.sides .focus else (w.sides .focus).configure (syncConfig fsPps fs) := by
  rw [synced, syncAxis_self (syncAxis_flawless flawless _ _ _),
    syncAxis_ne flawless _ _ (by decide)]

/-- The call changes nothing, gives up after it has configured zoom, or starts the axes that have
steps to make. -/
theorem zfSyncRun_cases (zmPps : ℕ) (zm : ℤ) (fsPps : ℕ) (fs : ℤ) :
    (∃ r, w.zfSyncRun zmPps zm fsPps fs = (w, r)) ∨
    (Free w ∧ zm ≠ 0 ∧ validMove zmPps zm = true ∧ fs ≠ 0 ∧ validMove fsPps fs = false ∧
      w.zfSyncRun zmPps zm fsPps fs =
        ((w.syncAxis .zoom zmPps zm).1.upd .zoom Side.dropped, .invalidArg)) ∨
    (Free w ∧ (zm ≠ 0 → validMove zmPps zm = true) ∧ (fs ≠ 0 → validMove fsPps fs = true) ∧
      (zm ≠ 0 ∨ fs ≠ 0) ∧
      w.zfSyncRun zmPps zm fsPps fs = ((w.synced zmPps zm fsPps fs).fire, .ok)) := by
  by_cases unconfigured : (w.sides .zoom).state = .noCfg ∨ (w.sides .focus).state = .noCfg
  · exact .inl ⟨.invalidState, by rw [zfSyncRun, if_pos unconfigured]⟩
  by_cases busy : w.occupied .zoom ∨ w.occupied .focus
  · exact .inl ⟨.busy, by rw [zfSyncRun, if_neg unconfigured, if_pos busy]⟩
  by_cases invalid : zm ≠ 0 ∧ ¬ validMove zmPps zm
  · exact .inl ⟨.invalidArg, by
      rw [zfSyncRun, if_neg unconfigured, if_neg busy, if_pos invalid]⟩
  have free : Free w := by
    constructor <;> intro a <;> cases a <;> simp_all
  have valid : zm ≠ 0 → validMove zmPps zm = true := fun moves =>
    Classical.byContradiction fun wrong => invalid ⟨moves, wrong⟩
  have zoomed := syncAxis_ok flawless .zoom zmPps zm
  have focused := syncAxis_ok (syncAxis_flawless flawless .zoom zmPps zm) .focus fsPps fs
  have called : w.zfSyncRun zmPps zm fsPps fs =
      if fs ≠ 0 ∧ ¬ validMove fsPps fs then
        (if zm ≠ 0 then (w.syncAxis .zoom zmPps zm).1.upd .zoom Side.dropped
          else (w.syncAxis .zoom zmPps zm).1, .invalidArg)
      else if (w.synced zmPps zm fsPps fs).anyRunning then
        ((w.synced zmPps zm fsPps fs).fire, .ok)
      else (w.synced zmPps zm fsPps fs, .ok) := by
    rw [zfSyncRun, if_neg unconfigured, if_neg busy, if_neg invalid]
    simp only [zoomed, focused, not_true, if_false]
    rfl
  by_cases wrong : fs ≠ 0 ∧ ¬ validMove fsPps fs
  · rw [if_pos wrong] at called
    by_cases moves : zm ≠ 0
    · rw [if_pos moves] at called
      exact .inr (.inl ⟨free, moves, valid moves, wrong.1, Bool.eq_false_iff.mpr wrong.2, called⟩)
    · rw [if_neg moves, syncAxis, if_pos (not_not.mp moves)] at called
      exact .inl ⟨_, called⟩
  rw [if_neg wrong] at called
  have validFocus : fs ≠ 0 → validMove fsPps fs = true := fun moves =>
    Classical.byContradiction fun wrong' => wrong ⟨moves, wrong'⟩
  by_cases moves : zm ≠ 0 ∨ fs ≠ 0
  · refine .inr (.inr ⟨free, valid, validFocus, moves, ?_⟩)
    rw [called, if_pos]
    simp only [anyRunning, synced_zoom flawless, synced_focus flawless]
    rcases moves with moves | moves <;> simp [moves, Side.configure]
  · obtain ⟨rfl, rfl⟩ : zm = 0 ∧ fs = 0 := by simpa using moves
    have same : w.synced zmPps 0 fsPps 0 = w := by simp [synced, syncAxis]
    have still : w.anyRunning = false := by simp [anyRunning, (free.still _).1]
    rw [same, still] at called
    exact .inl ⟨_, called⟩

/-! ## Finished batches -/

omit flawless in
theorem nextBatch_resume (smaller : (w.sides a).runConfig.loadPsum ≤ (w.sides a).runConfig.unloadPsum)
    (ok : Bool) : w.nextBatch a ok = (w.upd a Side.continued, ok) := by
  rw [nextBatch, if_pos smaller]

theorem nextBatch_reload
    (larger : (w.sides a).runConfig.unloadPsum < (w.sides a).runConfig.loadPsum) (ok : Bool) :
    w.nextBatch a ok = ((w.spent a 2).upd a fun s => s.lastLoaded.reloaded, true) := by
  have answer : (w.upd a Side.lastLoaded).answers a 2 = true := answers_of_flawless flawless a 2
  rw [nextBatch, if_neg (Nat.not_le.mpr larger)]
  simp only [answer, if_true]
  rw [spent_upd, upd_upd]

end

section

variable {s : Side}

/-- Without failing accesses, the batch is the last, or the next one is in the register. -/
theorem handlePls_cases (flawless : Flawless w.spi) (here : w.sides a = s) :
    (s.runConfig.isValid = false ∧ w.handlePls a true = (w.upd a Side.acknowledged, true)) ∨
    (s.runConfig.isValid = true ∧ s.runConfig.loadPsum ≤ s.runConfig.unloadPsum ∧
      0 < s.runConfig.unloadPsum ∧
      w.handlePls a true = (w.upd a fun s => s.acknowledged.advanced.continued, true)) ∨
    (s.runConfig.isValid = true ∧ s.runConfig.unloadPsum < s.runConfig.loadPsum ∧
      0 < s.runConfig.unloadPsum ∧
      w.handlePls a true =
        ((w.spent a 2).upd a fun s => s.acknowledged.advanced.lastLoaded.reloaded, true)) ∨
    (s.runConfig.isValid = true ∧ s.runConfig.unloadPsum = 0 ∧
      w.handlePls a true = ((w.upd a fun s => s.acknowledged.advanced).complete a, true)) := by
  have after : (w.upd a fun s => s.acknowledged.advanced).sides a = s.acknowledged.advanced := by
    rw [upd_self, here]
  simp only [handlePls, upd_upd, upd_self, here]
  cases valid : s.runConfig.isValid with
  | false => exact .inl ⟨rfl, if_neg (by simp [Side.acknowledged, valid])⟩
  | true =>
    refine .inr ?_
    rw [if_pos (show s.acknowledged.runConfig.isValid = true from valid)]
    by_cases left : 0 < s.runConfig.unloadPsum
    · rw [if_pos (show 0 < s.acknowledged.advanced.runConfig.unloadPsum from left)]
      rcases Nat.lt_or_ge s.runConfig.unloadPsum s.runConfig.loadPsum with larger | smaller
      · rw [nextBatch_reload (by exact flawless) (by rw [after]; exact larger), if_pos rfl]
        exact .inr (.inl ⟨rfl, larger, left, by rw [spent_upd, upd_upd]⟩)
      · rw [nextBatch_resume (by rw [after]; exact smaller), if_pos rfl, upd_upd]
        exact .inl ⟨rfl, smaller, left, rfl⟩
    · rw [if_neg (show ¬ 0 < s.acknowledged.advanced.runConfig.unloadPsum from left)]
      exact .inr (.inr ⟨rfl, Nat.eq_zero_of_not_pos left, rfl⟩)

end

end World

/-! ## Properties of an axis -/

/-- A property of an axis and of the reset state machine that the driver keeps. -/
structure Closed (I : Bool → Side → Prop) : Prop where
  same : ∀ {x s s'}, s'.core = s.core → I x s → I x s'
  start : ∀ {x s pps steps}, I x s → Startable s pps steps →
    I x (s.configure (startConfig pps steps))
  misfire : ∀ {x s pps steps}, I x s → Startable s pps steps →
    I x (s.misfired (startConfig pps steps))
  halt : ∀ {x s}, I x s → I x (s.halted (if x then .resetZero else .stopped))
  resume : ∀ {x s}, I x s → s.state = .running → s.runConfig.isValid = true →
    s.runConfig.loadPsum ≤ s.runConfig.unloadPsum → I x s.advanced.continued
  reload : ∀ {x s}, I x s → s.state = .running → s.runConfig.isValid = true →
    s.runConfig.unloadPsum < s.runConfig.loadPsum → I x s.advanced.lastLoaded.reloaded
  finish : ∀ {x s}, I x s → s.state = .running → s.runConfig.isValid = true →
    s.runConfig.unloadPsum = 0 → I x (s.advanced.halted (if x then .resetZero else .stopped))
  unzero : ∀ {x s}, I x s → I x s.unzeroed
  blank : ∀ {x s}, I x s → I x s.blanked
  ready : ∀ {x s}, I x s → I x s.ready
  fail : ∀ {x s}, I x s → s.state ≠ .running → I x s.failed
  request : ∀ {x s}, I x s → s.state ≠ .running → I x s.homing
  refuse : ∀ {x s}, I x s → s.state = .resetZero → I x s.refused
  arm : ∀ {s}, I false s → s.posMin < s.posMax → I true s.unzeroed
  resetEnd : ∀ {s} (homed result), I true s → s.state ≠ .running → I false (s.resetEnded homed result)

/-- Each axis has its property, now and at every pulse. -/
structure All (I : Axis → Bool → Side → Prop) (w : World) : Prop where
  now : ∀ a, I a (w.armed a) (w.sides a)
  pulses : ∀ p ∈ w.pulses, ∀ a, ∃ x, I a x (p a)

namespace All

open World

variable {I : Axis → Bool → Side → Prop} {w w' : World} {a : Axis} {f : Side → Side}
  (closed : ∀ a, Closed (I a)) (all : All I w)

include closed all

theorem of_same (sides : ∀ b, (w'.sides b).core = (w.sides b).core)
    (armed : ∀ b, w'.armed b = w.armed b) (pulses : w'.pulses = w.pulses) : All I w' where
  now b := by
    rw [armed]
    exact (closed _).same (sides b) (all.now b)
  pulses p mem := all.pulses p (pulses ▸ mem)

omit closed in
theorem upd (kept : I a (w.armed a) (f (w.sides a))) : All I (w.upd a f) where
  now b := by
    by_cases same : b = a
    · subst same
      rw [upd_self]
      exact kept
    · rw [upd_ne same]
      exact all.now b
  pulses := all.pulses

theorem upd_same (same : ∀ s, (f s).core = s.core) : All I (w.upd a f) :=
  all.upd ((closed _).same (same _) (all.now a))

omit closed in
theorem spent (a : Axis) (n : ℕ) : All I (w.spent a n) := ⟨all.now, all.pulses⟩

theorem fire : All I w.fire where
  now b := (closed _).same (Side.marked_core _) (all.now b)
  pulses p mem b := by
    rcases List.mem_append.mp mem with old | new
    · exact all.pulses p old b
    · obtain rfl := List.mem_singleton.mp new
      exact ⟨w.armed b, (closed _).same (Side.marked_core _) (all.now b)⟩

theorem fireWhenReady : All I w.fireWhenReady := by
  rw [World.fireWhenReady]
  split
  · exact all.fire closed
  · exact all

theorem startImpl (a : Axis) (pps : ℕ) (steps : ℤ) : All I (w.startImpl a pps steps).1 := by
  have spent := all.spent a 3
  obtain ⟨r, -, refused⟩ | ⟨startable, -, accepted⟩ | ⟨startable, -, failed⟩ :=
    startImpl_cases w a pps steps
  · rw [refused]
    exact all
  · rw [accepted]
    have configured := (closed _).start (spent.now a) startable
    refine All.fireWhenReady closed (spent.upd ?_)
    exact (closed _).same (Side.unbatched_core _) configured
  · simp only [failed, World.misfired]
    exact spent.upd ((closed _).misfire (spent.now a) startable)

theorem halt (a : Axis) : All I (w.halt a) :=
  (all.upd ((closed _).halt (all.now a))).fireWhenReady closed

theorem stopImpl (a : Axis) : All I (w.stopImpl a).1 := by
  obtain ⟨-, kept⟩ | ⟨-, halted⟩ | ⟨-, failed⟩ := stopImpl_cases w a
  · rw [kept]
    exact all
  · rw [halted]
    exact (all.spent a 2).halt closed a
  · rw [failed]
    exact all.spent a 2

theorem forceStop (flawless : Flawless w.spi) (a : Axis) : All I (w.forceStop a) := by
  have stopped := all.stopImpl closed a
  exact stopped.upd ((closed _).fail (stopped.now a) (stopImpl_state flawless a))

/-! ## The calls -/

theorem run (a : Axis) (pps : ℕ) (steps : ℤ) : All I (w.run a pps steps).1 := by
  rw [World.run]
  split_ifs
  · exact all
  · exact all
  · exact all
  · exact all.startImpl closed a pps steps

theorem runToPosition (a : Axis) (pps : ℕ) (position : ℤ) :
    All I (w.runToPosition a pps position).1 := by
  rw [World.runToPosition]
  split_ifs
  · exact all
  · exact all
  · exact all.startImpl closed a pps _

omit closed in
theorem abort (a : Axis) : All I (w.abort a) := by
  rw [World.abort]
  split
  · exact ⟨all.now, all.pulses⟩
  · exact all

theorem stop (a : Axis) : All I (w.stop a).1 := by
  have stopped := (all.abort a).stopImpl closed a
  simp only [World.stop]
  by_cases moved : ((w.abort a).stopImpl a).2 = .ok ∧ (w.sides a).state = .running
  · rw [if_pos moved]
    exact stopped.upd ((closed _).unzero (stopped.now a))
  · rw [if_neg moved]
    exact stopped

theorem writeAxisConfig (a : Axis) : All I (w.writeAxisConfig a).1 := by
  have spent := all.spent a 3
  rw [World.writeAxisConfig]
  split
  · exact (spent.upd ((closed _).blank (spent.now a))).spent a 1
  · exact spent

theorem motorConfig (common : List Bool) : All I (w.motorConfig common).1 := by
  have focus := all.writeAxisConfig closed .focus
  have both := focus.writeAxisConfig closed .zoom
  rw [World.motorConfig]
  split
  · exact all
  split
  · exact all
  dsimp only
  split
  · exact focus
  split
  · exact both
  · exact ⟨fun b => (closed _).ready (both.now b), both.pulses⟩

theorem resetZero (a : Axis) : All I (w.resetZero a).1 := by
  rw [World.resetZero]
  split_ifs with unconfigured busy
  · exact all
  · exact all
  · have still : (w.sides a).state ≠ .running := by
      cases a <;> simp_all [World.anyRunning]
    exact all.upd ((closed _).request (all.now a) still)

/-! ## The motor task -/

omit closed in
theorem queueNotice (notice : Notice) : All I (w.queueNotice notice) := by
  rw [World.queueNotice]
  split
  · exact ⟨all.now, all.pulses⟩
  · exact all

theorem notifyCompleted (a : Axis) (result : Result) : All I (w.notifyCompleted a result) := by
  rw [World.notifyCompleted]
  refine All.queueNotice (all.upd_same closed ?_) _
  exact fun _ => rfl

theorem notifyDone (a : Axis) (result : Result) : All I (w.notifyDone a result) := by
  rw [World.notifyDone]
  refine All.queueNotice (all.upd_same closed ?_) _
  exact fun _ => rfl

theorem setPiIrq (enabled : Bool) : All I (w.setPiIrq enabled) :=
  all.of_same closed (fun _ => rfl) (fun _ => rfl) rfl

omit closed in
theorem setPhase {phase : Phase} (active : w.smActive = true) (busy : phase ≠ .idle) :
    All I (w.setPhase phase) where
  now b := by
    have same : (w.setPhase phase).armed b = w.armed b := by
      have still : (w.setPhase phase).smActive = true := by simp [World.setPhase, smActive, busy]
      rw [armed, armed, active, still]
      rfl
    rw [same]
    exact all.now b
  pulses := all.pulses

theorem completeReset (flawless : Flawless w.spi)
    (active : w.smActive = true) (homed : Bool) (result : Result) :
    All I (w.completeReset homed result) := by
  obtain ⟨v, stopped, still, rst, eq⟩ : ∃ v, All I v ∧ (v.sides w.rst.axis).state ≠ .running ∧
      v.rst = w.rst ∧ v = if (w.sides w.rst.axis).state = .running then (w.stopImpl w.rst.axis).1
        else w := by
    refine ⟨_, ?_, ?_, ?_, rfl⟩
    all_goals split
    · exact all.stopImpl closed _
    · exact all
    · exact stopImpl_state flawless _
    · assumption
    · exact stopImpl_rst _ _
    · rfl
  have armed : v.armed w.rst.axis = true := by
    rw [armed_iff, smActive, rst]
    exact ⟨active, rfl⟩
  rw [World.completeReset, ← eq]
  refine All.notifyDone closed (All.setPiIrq closed ?_ false) _ _
  refine ⟨fun b => ?_, stopped.pulses⟩
  rw [disarm_armed]
  by_cases same : b = w.rst.axis
  · subst same
    simp only [disarm_sides, upd_self]
    exact (closed _).resetEnd homed result (armed ▸ stopped.now _) still
  · simp only [disarm_sides, upd_ne same]
    have other : v.armed b = false := by
      rw [Bool.eq_false_iff, ne_eq, armed_iff, rst]
      exact fun both => same both.2.symm
    exact other ▸ stopped.now b

theorem arm (idle : w.smActive = false)
    (limits : (w.sides a).posMin < (w.sides a).posMax) (piHigh : Bool) : All I (w.arm a piHigh) := by
  refine ⟨fun b => ?_, all.pulses⟩
  have unarmed : ∀ b, w.armed b = false := fun b => by rw [armed, idle, Bool.false_and]
  have before := all.now b
  rw [unarmed] at before
  by_cases same : b = a
  · subst same
    have armed : (w.arm b piHigh).armed b = true := by
      rw [armed_iff]
      exact ⟨by cases piHigh <;> rfl, rfl⟩
    rw [armed]
    refine (closed _).same ?_ ((closed _).arm before limits)
    simp [World.arm, World.setPiIrq, Side.core, Side.clearCapture, Side.unzeroed]
  · have armed : (w.arm a piHigh).armed b = false := by
      rw [Bool.eq_false_iff, ne_eq, armed_iff]
      exact fun both => same both.2.symm
    rw [armed]
    refine (closed _).same ?_ before
    simp [World.arm, World.setPiIrq, Side.core, upd_ne same]

theorem tryArm (a : Axis) (piHigh : Bool) : All I (w.tryArm a piHigh) := by
  rw [World.tryArm]
  split_ifs with active homing limits
  · exact all
  · exact all
  · refine All.notifyDone closed (all.upd ?_) _ _
    exact (closed _).refuse (all.now a) (not_not.mp homing)
  · exact all.arm closed (Bool.eq_false_iff.mpr active) (by omega) piHigh

theorem consumeRequest (bits : Bits) (a : Axis) (piHigh : Bool) :
    All I (w.consumeRequest bits a piHigh) := by
  rw [World.consumeRequest]
  split
  · refine All.upd_same closed (all.tryArm closed a piHigh) ?_
    exact fun _ => rfl
  · exact all

theorem clearPls (bits : Bits) : All I (w.clearPls bits) := by
  rw [World.clearPls]
  split
  · exact all.of_same closed (fun _ => rfl) (fun _ => rfl) rfl
  · exact all

end All

/-- The property holds and no access of this section fails. -/
structure Smooth (I : Axis → Bool → Side → Prop) (w : World) : Prop extends All I w where
  flawless : Flawless w.spi

namespace Smooth

open World

variable {I : Axis → Bool → Side → Prop} {w : World} {a : Axis}
  (closed : ∀ a, Closed (I a)) (smooth : Smooth I w)

include closed smooth

theorem guardTimeout (a : Axis) (expired : Bool) : Smooth I (w.guardTimeout a expired) := by
  rw [World.guardTimeout]
  split
  · refine ⟨(smooth.forceStop closed smooth.flawless a).notifyCompleted closed a _, ?_⟩
    rw [notifyCompleted_spi]
    exact stopImpl_flawless smooth.flawless a
  · exact smooth

variable (bits : Bits)

theorem consumeRequest (a : Axis) (piHigh : Bool) : Smooth I (w.consumeRequest bits a piHigh) := by
  refine ⟨smooth.toAll.consumeRequest closed bits a piHigh, ?_⟩
  rw [consumeRequest_spi]
  exact smooth.flawless

theorem ended (running : (w.sides a).state = .running)
    (valid : (w.sides a).runConfig.isValid = true)
    (last : (w.sides a).runConfig.unloadPsum = 0) :
    Smooth I (((w.upd a fun s => s.acknowledged.advanced).spent a 2).halt a) := by
  have finished := (closed _).finish (smooth.now a) running valid last
  have halted : All I ((w.spent a 2).upd a fun s =>
      s.acknowledged.advanced.halted (if w.armed a then .resetZero else .stopped)) :=
    (smooth.spent a 2).upd ((closed _).same rfl finished)
  have fired := halted.fireWhenReady closed
  rw [spent_upd, halt, upd_upd]
  refine ⟨fired, ?_⟩
  simp only [fireWhenReady_spi, upd_spi]
  exact spent_flawless smooth.flawless a 2

theorem handlePls (running : (w.sides a).state = .running) :
    Smooth I (w.handlePls a true).1 ∧ (w.handlePls a true).2 = true := by
  obtain ⟨-, kept⟩ | ⟨valid, smaller, -, resumed⟩ | ⟨valid, larger, -, reloaded⟩ |
    ⟨valid, last, completed⟩ := handlePls_cases smooth.flawless (rfl : w.sides a = w.sides a)
  · rw [kept]
    exact ⟨⟨smooth.upd_same closed fun _ => rfl, smooth.flawless⟩, rfl⟩
  · rw [resumed]
    have kept := (closed _).resume (smooth.now a) running valid smaller
    refine ⟨⟨?_, smooth.flawless⟩, rfl⟩
    dsimp only
    refine All.upd smooth.toAll ((closed _).same ?_ kept)
    rfl
  · rw [reloaded]
    have kept := (closed _).reload (smooth.now a) running valid larger
    refine ⟨⟨?_, spent_flawless smooth.flawless a 2⟩, rfl⟩
    dsimp only
    refine All.upd (smooth.spent a 2) ((closed _).same ?_ kept)
    rfl
  · rw [completed]
    have ended := smooth.ended closed running valid last
    refine ⟨?_, rfl⟩
    rw [complete, stopImpl_running (by exact smooth.flawless) (by rw [upd_self]; exact running)]
    dsimp only
    split
    · exact ⟨All.upd_same closed ended.toAll fun _ => rfl, ended.flawless⟩
    · refine ⟨ended.notifyCompleted closed a _, ?_⟩
      rw [notifyCompleted_spi]
      exact ended.flawless

theorem handlePlsOf (a : Axis) :
    Smooth I (w.handlePlsOf bits a true).1 ∧ (w.handlePlsOf bits a true).2 = true := by
  rw [World.handlePlsOf]
  split
  · exact smooth.handlePls closed (And.right ‹_›)
  · exact ⟨smooth, rfl⟩

theorem handleBatches : All I (w.handleBatches bits) := by
  obtain ⟨focus, ok⟩ := smooth.handlePlsOf closed bits .focus
  obtain ⟨both, -⟩ := focus.handlePlsOf closed bits .zoom
  rw [World.handleBatches]
  simp only [ok]
  split
  · exact both.fire closed
  · exact both.toAll

theorem handle (expired piHigh : Axis → Bool) : All I (w.handle bits expired piHigh) := by
  have guarded : Smooth I (if w.smActive then w
      else (w.guardTimeout .focus (expired .focus)).guardTimeout .zoom (expired .zoom)) := by
    split
    · exact smooth
    · exact (smooth.guardTimeout closed _ _).guardTimeout closed _ _
  have armed := (guarded.consumeRequest closed bits .zoom (piHigh .zoom)).consumeRequest closed bits
    .focus (piHigh .focus)
  rw [World.handle]
  split
  · exact armed.handleBatches closed bits
  · exact armed.toAll

omit closed in
theorem syncAxis (a : Axis) (pps : ℕ) {steps : ℤ} (configured : steps ≠ 0 →
      I a (w.armed a) ((w.sides a).configure (syncConfig pps steps))) :
    Smooth I (w.syncAxis a pps steps).1 := by
  refine ⟨?_, syncAxis_flawless smooth.flawless a pps steps⟩
  by_cases rests : steps = 0
  · rw [World.syncAxis, if_pos rests]
    exact smooth.toAll
  · rw [syncAxis_eq smooth.flawless a pps rests]
    exact (smooth.spent a 3).upd (configured rests)

theorem zfSyncRun (zmPps : ℕ) (zm : ℤ) (fsPps : ℕ) (fs : ℤ)
    (zoom : Free w → zm ≠ 0 → validMove zmPps zm = true →
      I .zoom (w.armed .zoom) ((w.sides .zoom).configure (syncConfig zmPps zm)))
    (focus : Free w → fs ≠ 0 → validMove fsPps fs = true →
      I .focus (w.armed .focus) ((w.sides .focus).configure (syncConfig fsPps fs)))
    (drop : zm ≠ 0 → validMove zmPps zm = true → fs ≠ 0 → validMove fsPps fs = false →
      I .zoom (w.armed .zoom) ((w.sides .zoom).configure (syncConfig zmPps zm)) →
      I .zoom (w.armed .zoom) ((w.sides .zoom).configure (syncConfig zmPps zm)).dropped) :
    All I (w.zfSyncRun zmPps zm fsPps fs).1 := by
  obtain ⟨r, refused⟩ | ⟨free, moves, valid, moves', invalid, dropped⟩ |
    ⟨free, valid, valid', -, fired⟩ := zfSyncRun_cases smooth.flawless zmPps zm fsPps fs
  · rw [refused]
    exact smooth.toAll
  · rw [dropped, syncAxis_eq smooth.flawless _ _ moves, upd_upd]
    dsimp only
    refine All.upd (smooth.spent .zoom 3) ?_
    exact drop moves valid moves' invalid (zoom free moves valid)
  · rw [fired]
    have zoomed := smooth.syncAxis .zoom zmPps fun moves => zoom free moves (valid moves)
    refine All.fire closed (zoomed.syncAxis .focus fsPps fun moves => ?_).toAll
    rw [syncAxis_ne smooth.flawless _ _ (by decide), armed, smActive, syncAxis_rst]
    exact focus free moves (valid' moves)

theorem completeReset (active : w.smActive = true)
    (homed : Bool) (result : Result) : All I (w.completeReset homed result) :=
  smooth.toAll.completeReset closed smooth.flawless active homed result

/-- A start by the state machine, which goes on to another phase or ends the reset. -/
theorem resetStart (active : w.smActive = true)
    {phase : Phase} (busy : phase ≠ .idle) (pps : ℕ) (steps : ℤ) :
    All I (if (w.startImpl a pps steps).2 = .ok then (w.startImpl a pps steps).1.setPhase phase
      else (w.startImpl a pps steps).1.completeErr (w.startImpl a pps steps).2) := by
  have started : Smooth I (w.startImpl a pps steps).1 :=
    ⟨smooth.startImpl closed a pps steps, startImpl_flawless smooth.flawless a pps steps⟩
  have still : (w.startImpl a pps steps).1.smActive = true := by
    rw [smActive, startImpl_rst]
    exact active
  split
  · exact started.setPhase still busy
  · exact started.completeReset closed still _ _

theorem resetStep (active : w.smActive = true)
    (piHigh piHighAtEnd : Bool) : All I (w.resetStep piHigh piHighAtEnd) := by
  have stopped : Smooth I ((w.stopImpl w.rst.axis).1.upd w.rst.axis Side.clearCapture) := by
    refine ⟨?_, stopImpl_flawless smooth.flawless _⟩
    exact All.upd_same closed (smooth.stopImpl closed _) fun _ => rfl
  have stillActive : ((w.stopImpl w.rst.axis).1.upd w.rst.axis Side.clearCapture).smActive = true := by
    rw [smActive, upd_rst, stopImpl_rst]
    exact active
  have cleared : Smooth I (w.upd w.rst.axis Side.clearCompleted) := by
    refine ⟨?_, smooth.flawless⟩
    exact All.upd_same closed smooth.toAll fun _ => rfl
  have capturing : Smooth I (w.upd w.rst.axis Side.clearCapture) :=
    ⟨All.upd_same closed smooth.toAll fun _ => rfl, smooth.flawless⟩
  rw [World.resetStep]
  cases phase : w.rst.phase with
  | idle => exact smooth.toAll
  | exitLowStart =>
    dsimp only
    split
    · exact smooth.completeReset closed active _ _
    split
    · exact smooth.setPhase active (by decide)
    · exact smooth.resetStart closed active (by decide) _ _
  | exitLowWait =>
    dsimp only
    split_ifs
    · exact smooth.completeReset closed active _ _
    · exact stopped.setPhase stillActive (by decide)
    · exact cleared.toAll
    · exact cleared.setPhase active (by decide)
    · exact cleared.completeReset closed active _ _
  | captureStart =>
    dsimp only
    split
    · exact smooth.completeReset closed active _ _
    · exact capturing.resetStart closed active (by decide) _ _
  | captureWait =>
    dsimp only
    split_ifs
    · exact smooth.completeReset closed active _ _
    · have triggered : Smooth I { (w.stopImpl w.rst.axis).1.upd w.rst.axis Side.clearCapture with
          rst := { (w.stopImpl w.rst.axis).1.rst with piTriggered := true } } :=
        ⟨⟨stopped.now, stopped.pulses⟩, stopped.flawless⟩
      exact triggered.completeReset closed stillActive _ _
    · exact cleared.completeReset closed active _ _
    · exact cleared.toAll
    · exact smooth.toAll

end Smooth

/-! ## Steps -/

/-- The outcomes of the accesses to the registers of an axis. -/
def Event.spi : Event → Axis → List Bool
  | .run _ _ _ spi | .runToPosition _ _ _ spi | .zfSyncRun _ _ _ _ spi | .stop _ spi
  | .motorConfig _ spi | .handle _ _ spi | .resetStep _ _ spi => spi
  | _ => fun _ => []

/-- The outcomes of the SPI accesses of the motor task. -/
def Event.taskSpi : Event → Option (Axis → List Bool)
  | .handle _ _ spi | .resetStep _ _ spi => some spi
  | _ => none

namespace All

open World

variable {I : Axis → Bool → Side → Prop} {w w' : World} {event : Event}

theorem call (all : All I w) {spi : Axis → List Bool} {f : World → World × Result}
    (step : w.call spi f = some w')
    (kept : All I { w with spi := spi } → All I (f { w with spi := spi }).1) : All I w' := by
  rw [World.call] at step
  split at step
  · cases step
    exact kept ⟨all.now, all.pulses⟩
  · cases step

/-- Every step keeps the property, if the motor task has no failing access, and `zf_sync_run` and a
new limit keep it. -/
theorem step (closed : ∀ a, Closed (I a)) (all : All I w)
    (task : ∀ spi, event.taskSpi = some spi → Flawless spi)
    (sync : ∀ zmPps zm fsPps fs spi, event = .zfSyncRun zmPps zm fsPps fs spi →
      All I ({ w with spi := spi }.zfSyncRun zmPps zm fsPps fs).1)
    (limit : ∀ a posMin posMax, event = .setPositionLimit a posMin posMax →
      All I (w.setPositionLimit a posMin posMax).1)
    (step : w.step event = some w') : All I w' := by
  have flagged : ∀ {a : Axis} {f : Side → Side}, (∀ s, (f s).core = s.core) → All I (w.upd a f) :=
    fun same => all.upd_same closed same
  cases event with
  | run a pps steps spi =>
    simp only [World.step] at step
    exact all.call step fun start => start.run closed a pps steps
  | approach a =>
    simp only [World.step] at step
    split at step <;> cases step
    exact flagged fun _ => rfl
  | runToPosition a pps position spi =>
    simp only [World.step] at step
    split at step
    · refine All.call (flagged ?_) step fun start => start.runToPosition closed a pps position
      exact fun _ => rfl
    · cases step
  | zfSyncRun zmPps zm fsPps fs spi =>
    simp only [World.step] at step
    exact all.call step fun _ => sync zmPps zm fsPps fs spi rfl
  | stop a spi =>
    simp only [World.step] at step
    exact all.call step fun start => start.stop closed a
  | motorConfig common spi =>
    simp only [World.step] at step
    exact all.call step fun start => start.motorConfig closed common
  | setPositionLimit a posMin posMax =>
    cases step
    exact limit a posMin posMax rfl
  | resetZero a =>
    simp only [World.step] at step
    split at step <;> cases step
    exact all.resetZero closed a
  | setRequest a =>
    simp only [World.step] at step
    split at step <;> cases step
    exact flagged fun _ => rfl
  | awaitCompletion a | awaitResetDone a =>
    cases step
    exact flagged fun _ => rfl
  | wake =>
    simp only [World.step] at step
    split at step <;> cases step
    exact ⟨all.now, all.pulses⟩
  | lockFails =>
    simp only [World.step, Option.map_eq_some_iff] at step
    obtain ⟨bits, -, rfl⟩ := step
    exact ⟨all.now, all.pulses⟩
  | handle expired piHigh spi =>
    simp only [World.step, Option.bind_eq_bind, Option.bind_eq_some_iff, Option.some_inj] at step
    obtain ⟨bits, -, rfl⟩ := step
    have start : Smooth I { w with spi := spi } := ⟨⟨all.now, all.pulses⟩, task spi rfl⟩
    have handled := start.handle closed bits expired piHigh
    exact ⟨handled.now, handled.pulses⟩
  | clear =>
    simp only [World.step, Option.bind_eq_bind, Option.bind_eq_some_iff, Option.some_inj] at step
    obtain ⟨bits, -, rfl⟩ := step
    have cleared := all.clearPls closed bits
    exact ⟨cleared.now, cleared.pulses⟩
  | resetStep piHigh piHighAtEnd spi =>
    simp only [World.step, Option.bind_eq_bind, Option.bind_eq_some_iff] at step
    obtain ⟨guard, -, step⟩ := step
    split at step
    · cases step
      have start : Smooth I { w with spi := spi } := ⟨⟨all.now, all.pulses⟩, task spi rfl⟩
      have reset := start.resetStep closed (And.left ‹_›) piHigh piHighAtEnd
      exact ⟨reset.now, reset.pulses⟩
    · cases step
  | unlock =>
    simp only [World.step, Option.bind_eq_bind, Option.bind_eq_some_iff] at step
    obtain ⟨guard, -, step⟩ := step
    split at step <;> cases step
    exact ⟨all.now, all.pulses⟩
  | finish a =>
    simp only [World.step, Option.bind_eq_bind, Option.bind_eq_some_iff, Option.some_inj] at step
    obtain ⟨s, finished, rfl⟩ := step
    simp only [finishBatch, Option.bind_eq_bind, Option.bind_eq_some_iff, Option.some_inj] at finished
    obtain ⟨steps, -, rfl⟩ := finished
    refine all.upd ((closed _).same ?_ (all.now a))
    rfl
  | piFalls a =>
    cases step
    rw [World.piFalls]
    split
    · exact flagged fun _ => rfl
    · exact all

end All

end NeoRuntime.LensMotor
