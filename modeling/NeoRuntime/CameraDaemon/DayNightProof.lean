import Mathlib.Data.List.Chain
import Mathlib.Data.List.Induction
import NeoRuntime.CameraDaemon.DayNight

/-!
# What automatic mode guarantees

Applied switches keep the dwell time, alternate, and rest on enough readings in a row
(`switches_do_not_flap`).  The policy takes a switch for done before `set_imaging_mode` is called, so
that policy and controller are what the last call has left (`Left`): after a failed switch to night
no further one is asked for as long as it is dark (`follows_light_iff`).
-/

namespace NeoRuntime.CameraDaemon

/-! ## Switches do not flap -/

section Flapping

variable {cfg : LightSensorConfig} {p p' : DayNightPolicyState} {t : LightTick}
  {past ticks : List LightTick} {mode : LightMode}

open DayNightPolicyState

/-- Enough readings in a row beyond the threshold, and none beyond the other since. -/
def Confirmed (cfg : LightSensorConfig) (mode : LightMode) (ticks : List LightTick) : Prop :=
  ∃ older run quiet, ticks = older ++ run ++ quiet ∧ max 1 cfg.stableSamples ≤ run.length ∧
    (∀ t ∈ run, Beyond cfg mode t.sample) ∧ ∀ t ∈ quiet, ¬ Beyond cfg mode.opposite t.sample

theorem Confirmed.snoc (confirmed : Confirmed cfg mode past)
    (quiet : ¬ Beyond cfg mode.opposite t.sample) : Confirmed cfg mode (past ++ [t]) := by
  obtain ⟨older, run, rest, rfl, enough, beyond, none⟩ := confirmed
  refine ⟨older, run, rest ++ [t], by simp, enough, beyond, fun u mem => ?_⟩
  obtain old | new := List.mem_append.mp mem
  · exact none u old
  · rw [List.mem_singleton.mp new]
    exact quiet

def Counted (cfg : LightSensorConfig) (past : List LightTick) (p : DayNightPolicyState) : Prop :=
  ∃ older run, past = older ++ run ∧ p.stableCount ≤ run.length ∧
    ∀ t ∈ run, Beyond cfg p.accumTarget t.sample

structure Tracked (cfg : LightSensorConfig) (past : List LightTick) (p : DayNightPolicyState) :
    Prop where
  counted : Counted cfg past p
  opposes : p.hasPending = true → p.pendingTarget ≠ p.mode
  confirmed : p.hasPending = true → Confirmed cfg p.pendingTarget past

theorem counted_zero (zero : p.stableCount = 0) : Counted cfg past p :=
  ⟨past, [], by simp, by simp [zero], by simp⟩

theorem tracked_selectAuto (nowMs : UInt64) : Tracked cfg past (selectAuto p mode nowMs) :=
  ⟨counted_zero rfl, by simp [selectAuto], by simp [selectAuto]⟩

/-- A reading that proposes the target is the last of a run of such readings. -/
theorem Counted.accumulate (counted : Counted cfg past p)
    (proposes : candidate cfg t.sample = some mode) :
    ∃ older run, past ++ [t] = older ++ run ∧ (p.accumulate mode).stableCount ≤ run.length ∧
      1 ≤ run.length ∧ ∀ u ∈ run, Beyond cfg mode u.sample := by
  have here := beyond_of_candidate proposes
  obtain ⟨older, run, rfl, covered, beyond⟩ := counted
  by_cases again : mode = p.accumTarget ∧ p.stableCount > 0
  · refine ⟨older, run ++ [t], by simp, ?_, by simp, fun u mem => ?_⟩
    · rw [DayNightPolicyState.accumulate, if_pos again]
      simpa using covered
    · obtain old | new := List.mem_append.mp mem
      · exact again.1 ▸ beyond u old
      · exact List.mem_singleton.mp new ▸ here
  · refine ⟨older ++ run, [t], rfl, ?_, by simp, fun u mem => List.mem_singleton.mp mem ▸ here⟩
    rw [DayNightPolicyState.accumulate, if_neg again]
    simp

theorem accumulate_target (p : DayNightPolicyState) (mode : LightMode) :
    (p.accumulate mode).accumTarget = mode := by
  unfold accumulate
  split
  next again => exact again.1.symm
  · rfl

theorem accumulate_rest (p : DayNightPolicyState) (mode : LightMode) :
    (p.accumulate mode).mode = p.mode ∧ (p.accumulate mode).hasPending = p.hasPending ∧
      (p.accumulate mode).pendingTarget = p.pendingTarget ∧
      (p.accumulate mode).lastSwitchMs = p.lastSwitchMs := by
  unfold accumulate
  split <;> exact ⟨rfl, rfl, rfl, rfl⟩

theorem Counted.confirmed (counted : Counted cfg past p)
    (proposes : candidate cfg t.sample = some mode)
    (enough : cfg.stableSamples ≤ (p.accumulate mode).stableCount) :
    Confirmed cfg mode (past ++ [t]) := by
  obtain ⟨older, run, eq, covered, some, beyond⟩ := counted.accumulate proposes
  refine ⟨older, run, [], by simpa using eq, ?_, beyond, by simp⟩
  exact max_le (by exact_mod_cast some) (enough.trans covered)

theorem Tracked.still (tracked : Tracked cfg past p) (ordered : cfg.nightEnter < cfg.dayEnter)
    (other : candidate cfg t.sample ≠ some p.mode) (pending : p.hasPending = true) :
    Confirmed cfg p.pendingTarget (past ++ [t]) := by
  refine (tracked.confirmed pending).snoc fun beyond => other ?_
  rw [candidate_of_beyond ordered beyond]
  have differs := ne_iff_eq_opposite.mp (tracked.opposes pending).symm
  rw [differs]

theorem Tracked.waits (tracked : Tracked cfg past p) (ordered : cfg.nightEnter < cfg.dayEnter)
    (waits : Waits cfg p t p') : Tracked cfg (past ++ [t]) p' := by
  cases waits with
  | silent silent =>
    exact ⟨counted_zero rfl, tracked.opposes, tracked.still ordered (by simp [silent])⟩
  | reached _ => exact ⟨counted_zero rfl, by simp, by simp⟩
  | counts target proposes differs _ =>
    obtain ⟨mode, pending, pendingTarget, -⟩ := accumulate_rest p target
    obtain ⟨older, run, eq, covered, -, beyond⟩ := tracked.counted.accumulate proposes
    refine ⟨⟨older, run, eq, covered, ?_⟩, ?_, ?_⟩
    · rwa [accumulate_target]
    · rw [pending, pendingTarget, mode]
      exact tracked.opposes
    · rw [pending, pendingTarget]
      refine tracked.still ordered ?_
      rw [proposes]
      exact fun same => differs (Option.some.inj same)
  | defers target proposes differs enough _ =>
    refine ⟨counted_zero rfl, fun _ => ?_, fun _ => tracked.counted.confirmed proposes enough⟩
    rw [(accumulate_rest p target).1]
    exact differs

theorem Tracked.switches (tracked : Tracked cfg past p) (ordered : cfg.nightEnter < cfg.dayEnter)
    (switches : Switches cfg p t p' mode) :
    Tracked cfg (past ++ [t]) p' ∧ Confirmed cfg mode (past ++ [t]) := by
  cases switches with
  | confirmed target proposes _ enough _ _ =>
    exact ⟨⟨counted_zero rfl, by simp, by simp⟩, tracked.counted.confirmed proposes enough⟩
  | deferred p' waits due =>
    exact ⟨⟨counted_zero rfl, by simp, by simp⟩, (tracked.waits ordered waits).confirmed due.1⟩

theorem tracked_run (ordered : cfg.nightEnter < cfg.dayEnter) (start : Tracked cfg [] p)
    (ticks : List LightTick) : Tracked cfg ticks (runLog (monitorStep cfg) p ticks).1 := by
  induction ticks using List.reverseRecOn with
  | nil => exact start
  | append_singleton past t tracked =>
    rw [runLog_append, runLog_cons, runLog_nil]
    simp only [monitorStep]
    obtain ⟨p', waits, eq⟩ | ⟨p', mode, switches, eq⟩ := monitorIteration_cases
    · rw [eq]
      exact tracked.waits ordered waits
    · rw [eq]
      exact (tracked.switches ordered switches).1

/-! ### The times and the targets -/

theorem Waits.mode_eq (waits : Waits cfg p t p') : p'.mode = p.mode := by
  cases waits with
  | counts target => exact (accumulate_rest p target).1
  | defers target => exact (accumulate_rest p target).1
  | _ => rfl

theorem Waits.lastSwitchMs (waits : Waits cfg p t p') : p'.lastSwitchMs = p.lastSwitchMs := by
  cases waits with
  | counts target => exact (accumulate_rest p target).2.2.2
  | defers target => exact (accumulate_rest p target).2.2.2
  | _ => rfl

/-- A switch comes when the dwell time is over. -/
theorem Switches.held (switches : Switches cfg p t p' mode) (armed : p.lastSwitchMs ≠ 0)
    (later : p.lastSwitchMs ≤ t.nowMs) :
    cfg.minHoldMs ≤ (t.nowMs.toNat : ℤ) - p.lastSwitchMs.toNat := by
  have passed : cfg.minHoldMs.toNat ≤ (t.nowMs - p.lastSwitchMs).toNat := by
    cases switches with
    | confirmed _ _ _ _ past _ =>
      exact not_lt.mp fun soon => past ⟨armed, later, soon⟩
    | deferred p' waits due =>
      have := due.2.2
      rw [waits.lastSwitchMs] at this
      exact this.resolve_left armed
  rw [UInt64.toNat_sub_of_le _ _ later] at passed
  have := UInt64.le_iff_toNat_le.mp later
  omega

theorem Switches.leaves (switches : Switches cfg p t p' mode) (positive : 0 < t.nowMs) :
    p'.mode = mode ∧ p'.lastSwitchMs = t.nowMs := by
  cases switches with
  | confirmed => exact ⟨rfl, if_pos (UInt64.pos_iff_ne_zero.mp positive)⟩
  | deferred => exact ⟨rfl, rfl⟩

theorem Switches.ne (tracked : Tracked cfg past p) (ordered : cfg.nightEnter < cfg.dayEnter)
    (switches : Switches cfg p t p' mode) : p.mode ≠ mode := by
  cases switches with
  | confirmed _ _ differs => exact differs.symm
  | deferred p' waits due =>
    have := (tracked.waits ordered waits).opposes due.1
    rw [waits.mode_eq] at this
    exact this.symm

/-- The second switch comes after the dwell time and leads back. -/
def Follows (cfg : LightSensorConfig) (a b : UInt64 × LightMode) : Prop :=
  a.1 ≤ b.1 ∧ cfg.minHoldMs ≤ (b.1.toNat : ℤ) - a.1.toNat ∧ a.2 ≠ b.2

/-- The switches after the last one, if there was one. -/
theorem isChain_switches (ordered : cfg.nightEnter < cfg.dayEnter) (tracked : Tracked cfg past p)
    (positive : ∀ t ∈ ticks, 0 < t.nowMs) (steady : ticks.Pairwise fun a b => a.nowMs ≤ b.nowMs)
    (last : Option (UInt64 × LightMode)) (applied : last.isSome → last = some (p.lastSwitchMs, p.mode) ∧
      p.lastSwitchMs ≠ 0 ∧ ∀ t ∈ ticks, p.lastSwitchMs ≤ t.nowMs) :
    List.IsChain (Follows cfg) (last.toList ++ (runLog (monitorStep cfg) p ticks).2) := by
  induction ticks generalizing p past last with
  | nil => cases last <;> simp
  | cons t ticks ih =>
    obtain ⟨now, rest⟩ := List.forall_mem_cons.mp positive
    obtain ⟨after, steady⟩ := List.pairwise_cons.mp steady
    rw [runLog_cons]
    simp only [monitorStep]
    obtain ⟨p', waits, eq⟩ | ⟨p', mode, switches, eq⟩ := monitorIteration_cases
    · rw [eq]
      refine ih (tracked.waits ordered waits) rest steady last fun isSome => ?_
      obtain ⟨same, armed, later⟩ := applied isSome
      rw [waits.lastSwitchMs, waits.mode_eq]
      exact ⟨same, armed, (List.forall_mem_cons.mp later).2⟩
    · rw [eq]
      obtain ⟨target, time⟩ := switches.leaves now
      have chain := ih (tracked.switches ordered switches).1 rest steady (some (t.nowMs, mode)) fun _ =>
        ⟨by rw [target, time], time ▸ UInt64.pos_iff_ne_zero.mp now, time ▸ after⟩
      cases last with
      | none => exact chain
      | some a =>
        obtain ⟨same, armed, later⟩ := applied rfl
        obtain rfl := Option.some.inj same
        have first := later t List.mem_cons_self
        exact .cons_cons ⟨first, switches.held armed first, switches.ne tracked ordered⟩ chain

/-- If time does not go back, the switches are a dwell time apart, alternate, and are each confirmed
by the readings before them. -/
theorem switches_do_not_flap (cfg : LightSensorConfig) (ordered : cfg.nightEnter < cfg.dayEnter)
    (p : DayNightPolicyState) (mode : LightMode) (since : UInt64) (ticks : List LightTick)
    (positive : ∀ t ∈ ticks, 0 < t.nowMs)
    (steady : ticks.Pairwise fun a b => a.nowMs ≤ b.nowMs) :
    let start := selectAuto p mode since
    let switches := (runLog (monitorStep cfg) start ticks).2
    (switches.Pairwise fun a b => cfg.minHoldMs ≤ (b.1.toNat : ℤ) - a.1.toNat) ∧
      (switches.map (·.2)).IsChain (· ≠ ·) ∧
      ∀ before t after, ticks = before ++ t :: after → ∀ target,
        (monitorIteration cfg (runLog (monitorStep cfg) start before).1 t).2 = some target →
          Confirmed cfg target (before ++ [t]) := by
  intro start switches
  have begun : Tracked cfg [] start := tracked_selectAuto since
  have chain : switches.IsChain (Follows cfg) :=
    isChain_switches ordered begun positive steady none (by simp)
  refine ⟨?_, ?_, ?_⟩
  · -- the distances add up, so they hold of any two switches
    let Apart (a b : UInt64 × LightMode) : Prop :=
      a.1 ≤ b.1 ∧ cfg.minHoldMs ≤ (b.1.toNat : ℤ) - a.1.toNat
    have trans : IsTrans _ Apart := ⟨fun a b c first second => by
      refine ⟨UInt64.le_trans first.1 second.1, ?_⟩
      have := UInt64.le_iff_toNat_le.mp first.1
      have := second.2
      omega⟩
    have apart : switches.IsChain Apart := chain.imp fun a b follows => ⟨follows.1, follows.2.1⟩
    exact apart.pairwise.imp fun apart => apart.2
  · rw [List.isChain_map]
    exact chain.imp fun a b follows => follows.2.2
  · intro before t after _ target applied
    have tracked := tracked_run ordered begun before
    obtain ⟨p', waits, eq⟩ | ⟨p', mode', switches, eq⟩ :=
      @monitorIteration_cases cfg (runLog (monitorStep cfg) start before).1 t
    · rw [eq] at applied
      exact absurd applied (by simp)
    · rw [eq] at applied
      obtain rfl := Option.some.inj applied
      exact (tracked.switches ordered switches).2

def flickeringTicks : List LightTick :=
  [(10, 0), (30, 100), (70, 100), (80, 100), (130, 0)].map fun (nowMs, percent) =>
    { sample := ⟨true, percent⟩, lensActive := false, nowMs }

theorem flickering_does_not_flap :
    let switches := (runLog (monitorStep { stableSamples := 1, minHoldMs := 50 })
      (selectAuto {} .day 0) flickeringTicks).2
    switches.map (·.1) = [10, 70, 130] ∧
      switches.Pairwise fun a b => (50 : ℤ) ≤ (b.1.toNat : ℤ) - a.1.toNat :=
  ⟨by decide +kernel, (switches_do_not_flap { stableSamples := 1, minHoldMs := 50 } (by decide) {} .day 0
    flickeringTicks (by decide) (by decide)).1⟩

end Flapping

/-! ## Following the light -/

section Following

variable {cfg : LightSensorConfig} {p p' : DayNightPolicyState} {t : LightTick}
  {ticks : List LightTick} {mode : LightMode}

open DayNightPolicyState

theorem not_pending_iterate (still : t.lensActive = false) (none : p.hasPending = false) :
    (monitorIteration cfg p t).1.hasPending = false := by
  obtain ⟨p', waits, eq⟩ | ⟨p', mode, switches, eq⟩ := @monitorIteration_cases cfg p t
  · rw [eq]
    cases waits with
    | silent => exact none
    | reached => rfl
    | counts target => exact (accumulate_rest p target).2.1.trans none
    | defers _ _ _ _ active => exact absurd (still.symm.trans active) (by simp)
  · rw [eq]
    cases switches <;> rfl

/-- The policy and the controller after the last call, or after automatic mode was selected. -/
def Left (controller : ImagingMode) (since : UInt64) (s : AutoState) : Option SwitchCall → Prop
  | none => s.controller = controller ∧
      s.policy.mode = (if controller = .infrared then .night else .day) ∧ s.policy.lastSwitchMs = since
  | some c => s.controller = (if c.succeeds then c.target.imaging else .day) ∧
      s.policy.mode = c.target ∧ s.policy.lastSwitchMs = if c.nowMs ≠ 0 then c.nowMs else 1

variable {controller : ImagingMode} {since : UInt64} {s : AutoState}

theorem Left.iterate {last : Option SwitchCall} (left : Left controller since s last)
    (still : t.lensActive = false) (none : s.policy.hasPending = false) :
    Left controller since (s.iterate cfg t).1 ((s.iterate cfg t).2.getLast?.or last) := by
  obtain ⟨p', waits, eq⟩ | ⟨p', mode, switches, eq⟩ := @monitorIteration_cases cfg s.policy t
  · simp only [AutoState.iterate, eq]
    cases last with
    | none => exact ⟨left.1, waits.mode_eq.trans left.2.1, waits.lastSwitchMs.trans left.2.2⟩
    | some c => exact ⟨left.1, waits.mode_eq.trans left.2.1, waits.lastSwitchMs.trans left.2.2⟩
  · simp only [AutoState.iterate, eq]
    cases switches with
    | confirmed => exact ⟨rfl, rfl, rfl⟩
    | deferred p' waits due =>
      -- nothing is deferred without a lens operation
      have pending := due.1
      cases waits with
      | silent => exact absurd (none.symm.trans pending) (by simp)
      | reached => exact absurd pending (by simp)
      | counts target =>
        exact absurd (none.symm.trans ((accumulate_rest _ target).2.1.symm.trans pending)) (by simp)
      | defers _ _ _ _ active => exact absurd (still.symm.trans active) (by simp)

theorem left_run (cfg : LightSensorConfig) (p : DayNightPolicyState) (controller : ImagingMode)
    (since : UInt64) (still : ∀ t ∈ ticks, t.lensActive = false) :
    let run := runLog (AutoState.iterate cfg) (.select p controller since) ticks
    run.1.policy.hasPending = false ∧ Left controller since run.1 run.2.getLast? := by
  induction ticks using List.reverseRecOn with
  | nil => exact ⟨rfl, rfl, rfl, rfl⟩
  | append_singleton past t ih =>
    obtain ⟨stillPast, stillNow⟩ := List.forall_mem_append.mp still
    have stillNow := stillNow t (List.mem_singleton_self t)
    obtain ⟨none, left⟩ := ih stillPast
    simp only [runLog_append, runLog_cons, runLog_nil, List.append_nil, List.getLast?_append]
    exact ⟨not_pending_iterate stillNow none, left.iterate stillNow none⟩

def Darkens (n : ℕ) (p : DayNightPolicyState) : Prop :=
  p.mode = .night ∨ n = 0 ∨ p.accumTarget = .night ∧ (n : ℤ) ≤ p.stableCount

theorem monitorIteration_of_night (dark : Beyond cfg .night t.sample) (night : p.mode = .night) :
    monitorIteration cfg p t = ({ p with stableCount := 0, hasPending := false }, Option.none) := by
  have eval : p.evaluate cfg t.sample t.lensActive t.nowMs =
      ({ p with stableCount := 0, hasPending := false }, .none) := by
    simp only [evaluate, candidate_night dark, night, if_true]
  have idle : ¬ PendingDue cfg { p with stableCount := 0, hasPending := false } t.lensActive t.nowMs :=
    fun due => absurd due.1 (by simp)
  simp only [monitorIteration, eval, if_neg idle]

theorem monitorIteration_of_day (dark : Beyond cfg .night t.sample) (still : t.lensActive = false)
    (none : p.hasPending = false) (day : p.mode = .day) :
    monitorIteration cfg p t =
      if (p.accumulate .night).stableCount < cfg.stableSamples ∨ p.Dwelling cfg t.nowMs then
        (p.accumulate .night, Option.none)
      else ({ p.accumulate .night with
        mode := .night, stableCount := 0, hasPending := false
        lastSwitchMs := if t.nowMs ≠ 0 then t.nowMs else 1 }, some .night) := by
  have other : LightMode.night ≠ p.mode := by simp [day]
  have idle : ¬ (p.accumulate .night).PendingDue cfg t.lensActive t.nowMs := fun due => by
    have pending := due.1
    rw [(accumulate_rest p .night).2.1, none] at pending
    exact absurd pending (by simp)
  by_cases few : (p.accumulate .night).stableCount < cfg.stableSamples
  · rw [if_pos (.inl few)]
    simp only [monitorIteration, evaluate, candidate_night dark, if_neg other, if_pos few, if_neg idle]
  by_cases dwelling : p.Dwelling cfg t.nowMs
  · rw [if_pos (.inr dwelling)]
    have held := (dwelling_accumulate .night t.nowMs).mpr dwelling
    simp only [monitorIteration, evaluate, candidate_night dark, if_neg other, if_neg few, if_pos held]
  · rw [if_neg (not_or.mpr ⟨few, dwelling⟩)]
    have past := mt (dwelling_accumulate .night t.nowMs).mp dwelling
    simp only [monitorIteration, evaluate, candidate_night dark, if_neg other, if_neg few,
      if_neg past, still, Bool.false_eq_true, if_false, reduceCtorEq]

theorem Darkens.accumulate {n : ℕ} (darkens : Darkens n p) (day : p.mode = .day) :
    ((n + 1 : ℕ) : ℤ) ≤ (p.accumulate .night).stableCount := by
  unfold DayNightPolicyState.accumulate
  split
  next again =>
    obtain night | rfl | ⟨-, covered⟩ := darkens
    · exact absurd (night.symm.trans day) (by simp)
    · have := again.2
      push_cast
      omega
    · push_cast
      omega
  next fresh =>
    obtain night | rfl | ⟨same, covered⟩ := darkens
    · exact absurd (night.symm.trans day) (by simp)
    · simp
    · rw [same] at fresh
      simp only [true_and, not_lt] at fresh
      push_cast
      omega

theorem Darkens.iterate {n : ℕ} (darkens : Darkens n p) (dark : Beyond cfg .night t.sample)
    (still : t.lensActive = false) (none : p.hasPending = false) :
    Darkens (n + 1) (monitorIteration cfg p t).1 := by
  cases day : p.mode with
  | night =>
    rw [monitorIteration_of_night dark day]
    exact .inl day
  | day =>
    rw [monitorIteration_of_day dark still none day]
    split
    · exact .inr (.inr ⟨accumulate_target p .night, darkens.accumulate day⟩)
    · exact .inl rfl

theorem darkens_run (cfg : LightSensorConfig) {n : ℕ} (darkens : Darkens n s.policy)
    (none : s.policy.hasPending = false) (still : ∀ t ∈ ticks, t.lensActive = false)
    (dark : ∀ t ∈ ticks, Beyond cfg .night t.sample) :
    Darkens (n + ticks.length) (runLog (AutoState.iterate cfg) s ticks).1.policy := by
  induction ticks generalizing s n with
  | nil => exact darkens
  | cons t ticks ih =>
    obtain ⟨firstStill, still⟩ := List.forall_mem_cons.mp still
    obtain ⟨firstDark, dark⟩ := List.forall_mem_cons.mp dark
    have rest := @ih (s.iterate cfg t).1 (n + 1) (darkens.iterate firstDark firstStill none)
      (not_pending_iterate firstStill none) still dark
    rwa [List.length_cons, Nat.add_comm ticks.length, ← Nat.add_assoc]

/-- After enough dark readings a switch to night is made if the policy is for day and does not
dwell. -/
theorem switches_of_darkens {n : ℕ} (darkens : Darkens n p) (none : p.hasPending = false)
    (still : t.lensActive = false) (dark : Beyond cfg .night t.sample)
    (enough : cfg.stableSamples ≤ (n + 1 : ℕ)) :
    (monitorIteration cfg p t).2 = some .night ↔ p.mode = .day ∧ ¬ p.Dwelling cfg t.nowMs := by
  cases day : p.mode with
  | night =>
    rw [monitorIteration_of_night dark day]
    simp
  | day =>
    have reached : ¬ (p.accumulate .night).stableCount < cfg.stableSamples := by
      have := darkens.accumulate day
      omega
    rw [monitorIteration_of_day dark still none day]
    by_cases dwelling : p.Dwelling cfg t.nowMs
    · simp [dwelling]
    · simp [dwelling, reached]

/-- The time of the last call, or when automatic mode was selected. -/
def lastCallMs (since : UInt64) (calls : List SwitchCall) : UInt64 :=
  (calls.getLast?.map (·.nowMs)).getD since

/-- The last call does not stand in the way of a switch to night: it is not a failed one to night.
(A call at 0 ms is dated 1 ms by `evaluate`.) -/
def Unspoilt (cfg : LightSensorConfig) (nowMs : UInt64) : Option SwitchCall → Prop
  | none => True
  | some c => if c.target = .night then c.succeeds = true
      else c.nowMs = 0 → 0 < nowMs → cfg.minHoldMs ≠ nowMs.toNat

instance (cfg : LightSensorConfig) (nowMs : UInt64) (last : Option SwitchCall) :
    Decidable (Unspoilt cfg nowMs last) := by
  cases last <;> unfold Unspoilt <;> infer_instance

theorem not_dwelling_of_passed
    (passed : cfg.minHoldMs ≤ (t.nowMs.toNat : ℤ) - p.lastSwitchMs.toNat) :
    ¬ p.Dwelling cfg t.nowMs := by
  rintro ⟨-, later, soon⟩
  rw [UInt64.toNat_sub_of_le _ _ later] at soon
  have := UInt64.le_iff_toNat_le.mp later
  omega

theorem dwelling_one_iff (one : p.lastSwitchMs = 1) (passed : cfg.minHoldMs ≤ (t.nowMs.toNat : ℤ)) :
    p.Dwelling cfg t.nowMs ↔ 0 < t.nowMs ∧ cfg.minHoldMs = t.nowMs.toNat := by
  rw [Dwelling, one]
  constructor
  · rintro ⟨-, later, soon⟩
    rw [UInt64.toNat_sub_of_le _ _ later, UInt64.toNat_one] at soon
    have positive : 1 ≤ t.nowMs.toNat := UInt64.le_iff_toNat_le.mp later
    exact ⟨UInt64.lt_iff_toNat_lt.mpr positive, by omega⟩
  · rintro ⟨positive, eq⟩
    have positive : 1 ≤ t.nowMs.toNat := UInt64.lt_iff_toNat_lt.mp positive
    have later : 1 ≤ t.nowMs := UInt64.le_iff_toNat_le.mpr positive
    refine ⟨by decide, later, ?_⟩
    rw [UInt64.toNat_sub_of_le _ _ later, UInt64.toNat_one]
    omega

/-- When it has been dark long enough and the dwell time since the last call is over, infrared mode
is on or asked for exactly if that call was not a failed one to night. -/
theorem follows_light_iff (cfg : LightSensorConfig) (p : DayNightPolicyState)
    (controller : ImagingMode) (since : UInt64) (before dark : List LightTick) (t : LightTick)
    (still : ∀ u ∈ before ++ dark ++ [t], u.lensActive = false)
    (isDark : ∀ u ∈ dark ++ [t], Beyond cfg .night u.sample)
    (enough : max 1 cfg.stableSamples ≤ (dark ++ [t]).length) :
    let run := runLog (AutoState.iterate cfg) (.select p controller since) (before ++ dark)
    cfg.minHoldMs ≤ (t.nowMs.toNat : ℤ) - (lastCallMs since run.2).toNat →
      (run.1.controller = .infrared ∨ (monitorIteration cfg run.1.policy t).2 = some .night ↔
        Unspoilt cfg t.nowMs run.2.getLast?) := by
  intro run passed
  obtain ⟨stillBefore, stillNow⟩ := List.forall_mem_append.mp still
  obtain ⟨darkBefore, darkNow⟩ := List.forall_mem_append.mp isDark
  obtain ⟨none, left⟩ := left_run cfg p controller since stillBefore
  have switches : (monitorIteration cfg run.1.policy t).2 = some .night ↔
      run.1.policy.mode = .day ∧ ¬ run.1.policy.Dwelling cfg t.nowMs := by
    obtain ⟨stillBefore, stillDark⟩ := List.forall_mem_append.mp stillBefore
    have none₀ := (left_run cfg p controller since stillBefore).1
    have darkens := darkens_run cfg (n := 0) (.inr (.inl rfl)) none₀ stillDark darkBefore
    have split : run.1 = (runLog (AutoState.iterate cfg)
        (runLog (AutoState.iterate cfg) (.select p controller since) before).1 dark).1 := by
      simp only [run, runLog_append]
    rw [← split, Nat.zero_add] at darkens
    refine switches_of_darkens darkens none (stillNow t (List.mem_singleton_self t))
      (darkNow t (List.mem_singleton_self t)) ?_
    rw [List.length_append, List.length_singleton] at enough
    exact (le_max_right _ _).trans enough
  rw [switches]
  unfold lastCallMs at passed
  change Left controller since run.1 run.2.getLast? at left
  cases last : run.2.getLast? with
  | none =>
    rw [last] at left passed
    obtain ⟨mode, policy, time⟩ := left
    have free := not_dwelling_of_passed (t := t) (p := run.1.policy) (time ▸ passed)
    cases controller with
    | infrared => simp [mode, Unspoilt]
    | day => simp [policy, free, Unspoilt]
  | some c =>
    rw [last] at left passed
    obtain ⟨mode, policy, time⟩ := left
    simp only [Option.map_some, Option.getD_some] at passed
    cases target : c.target with
    | night => cases ok : c.succeeds <;> simp [mode, policy, target, ok, Unspoilt, LightMode.imaging]
    | day =>
      have off : run.1.controller = .day := by rw [mode, target]; split <;> rfl
      simp only [off, policy, target, Unspoilt, reduceCtorEq, false_or, true_and, if_false]
      by_cases zero : c.nowMs = 0
      · rw [dwelling_one_iff (by simpa [zero] using time) (by simpa [zero] using passed)]
        simp [zero]
      · rw [if_pos zero] at time
        simp [not_dwelling_of_passed (t := t) (p := run.1.policy) (time ▸ passed), zero]

def darkTick (nowMs : UInt64) (succeeds : Bool) : LightTick where
  sample := ⟨true, 0⟩
  lensActive := false
  nowMs := nowMs
  succeeds := succeeds

def promptConfig : LightSensorConfig := { stableSamples := 1, minHoldMs := 0 }

def brightTick (nowMs : UInt64) (succeeds : Bool) : LightTick :=
  { darkTick nowMs succeeds with sample := ⟨true, 100⟩ }

/-- A failed switch to day does no harm: after three more dark readings the next one to night is
made. -/
theorem follows_light_after_failure :
    let cfg : LightSensorConfig := { stableSamples := 3, minHoldMs := 50 }
    let run := runLog (AutoState.iterate cfg) (.select {} .day 1)
      (([60, 70, 80].map (darkTick · true) ++ [140, 150, 160].map (brightTick · false)) ++
        [170, 180].map (darkTick · true))
    run.2 = [⟨80, .night, true⟩, ⟨160, .day, false⟩] ∧
      (run.1.controller = .infrared ∨ (monitorIteration cfg run.1.policy (darkTick 210 true)).2 =
        some .night) :=
  ⟨by decide +kernel, (follows_light_iff { stableSamples := 3, minHoldMs := 50 } {} .day 1
    ([60, 70, 80].map (darkTick · true) ++ [140, 150, 160].map (brightTick · false))
    ([170, 180].map (darkTick · true)) (darkTick 210 true) (by decide)
    (by simp [Beyond, darkTick]) (by decide) (by decide +kernel)).mpr (by decide +kernel)⟩

/-- The switch to night fails, and nothing is tried again in the dark. -/
theorem light_not_followed :
    let run := runLog (AutoState.iterate promptConfig) (.select {} .day 1)
      [darkTick 2 false, darkTick 20000 true]
    run.2 = [⟨2, .night, false⟩] ∧ run.1.controller = .day ∧
      (monitorIteration promptConfig run.1.policy (darkTick 40000 true)).2 = none := by
  decide

end Following

end NeoRuntime.CameraDaemon
