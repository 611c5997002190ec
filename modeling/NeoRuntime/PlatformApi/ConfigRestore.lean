import NeoRuntime.PlatformApi.Config

/-!
# Failed changes

`Manager.Apply` restores the live system only after a failed `Verify`.  So a call that returns an
error has left the live state of its key alone exactly if the adapter's `Apply` has not changed that
state, or has succeeded and, unless it is then rejected by `Verify`, is recorded in the store.
-/

namespace NeoRuntime.PlatformApi

open Prog

variable {Live Backup Rendered View : Type}

/-- `Backup` is exact, and `Restore` succeeds and brings back the state of the key. -/
structure RestorableAdapter (Live Backup Rendered View : Type) extends
    Adapter Live Backup Rendered where
  view : String → Live → View
  restores : ∀ t t' key saved live live', backup t key live = .ok saved →
    (restore t' key saved live').1 = .ok () ∧ view key (restore t' key saved live').2 = view key live

/-- What the adapter's `Apply` is called with, if it is, when the job is recorded before `t`. -/
def Adapter.prepared (a : Adapter Live Backup Rendered) (key desired : String) (t : ℕ)
    (live : Live) : Option (String × Rendered) :=
  match a.normalizeDesired key desired t live with
  | .error _ => none
  | .ok (value, _) =>
    match a.validate (t + 1) key value live, a.backup (t + 2) key live,
      a.render (t + 3) key value live with
    | .ok _, .ok _, .ok rendered => some (value, rendered)
    | _, _, _ => none

variable (a : RestorableAdapter Live Backup Rendered View)

/-- `Apply` at the moment `t` leaves the state of the key, or succeeds and, if verified, is
recorded. -/
def RestorableAdapter.Recordable
    (failures : StoreFailures) (key : String) (t : ℕ) (live : Live) (value : String)
    (rendered : Rendered) : Prop :=
  a.view key (a.apply t key rendered live).2 = a.view key live ∨
    (a.apply t key rendered live).1 = .ok () ∧
      (a.verify (t + 1) key value (a.apply t key rendered live).2 = .ok () →
        failures.call (t + 2) = none ∧ failures.call (t + 3) = none)

section Stages

variable {failures : StoreFailures} {w : ConfigWorld Live} {key value desired domain stage e : String}
  {id : JobID}

theorem run_orFail {α β : Type} (fail : String → ConfigProg Live Backup Rendered α)
    (op : ConfigOp Live Backup Rendered (Except String β))
    (next : β → ConfigProg Live Backup Rendered α) :
    run (configHandler failures) (orFail fail op next) w =
      match configHandler failures _ op w with
      | (.error e, w') => run (configHandler failures) (fail e) w'
      | (.ok b, w') => run (configHandler failures) (next b) w' := by
  rw [orFail, perform_bind, run_call]
  obtain ⟨answer, w'⟩ := configHandler failures _ op w
  cases answer <;> rfl

/-- If the outcome is an error, the live state of the key is the one given. -/
def ErrorKeeps (view : Live → View) (before : Live) (outcome : ApplyResult × ConfigWorld Live) :
    Prop :=
  outcome.1.err ≠ none → view outcome.2.live = view before

instance [DecidableEq View] (view : Live → View) (before : Live)
    (outcome : ApplyResult × ConfigWorld Live) : Decidable (ErrorKeeps view before outcome) :=
  inferInstanceAs (Decidable (_ → _))

theorem finishJob_live (status : JobStatus) (msg : String) (rev : ℕ) : (configHandler failures _
      (.finishJob id status msg rev : ConfigOp Live Backup Rendered Unit) w).2.live = w.live := by
  simp only [configHandler]
  split <;> rfl

theorem errorKeeps_failJob {view : Live → View} {before : Live} :
    ErrorKeeps view before (run (configHandler failures)
      (failJob id stage e : ConfigProg Live Backup Rendered ApplyResult) w) ↔
      view w.live = view before := by
  have live : (run (configHandler failures)
      (failJob id stage e : ConfigProg Live Backup Rendered ApplyResult) w).2.live = w.live :=
    finishJob_live ..
  rw [ErrorKeeps, live]
  exact ⟨fun keeps => keeps (Option.some_ne_none _), fun same _ => same⟩

theorem attempt_of_none {α : Type} {act : α × ConfigWorld Live}
    (fine : failures.call w.clock = none) : w.attempt failures act = (.ok act.1, act.2.tick) := by
  rw [ConfigWorld.attempt, fine]

theorem attempt_of_some {α : Type} {act : α × ConfigWorld Live}
    (failed : failures.call w.clock = some e) : w.attempt failures act = (.error e, w.tick) := by
  rw [ConfigWorld.attempt, failed]

/-- A change that is verified stays, and is an error only if the store fails. -/
theorem errorKeeps_recordApply {view : Live → View} {before : Live} :
    ErrorKeeps view before (run (configHandler failures)
      (recordApply domain key desired id : ConfigProg Live Backup Rendered ApplyResult) w) ↔
      view w.live = view before ∨
        failures.call w.clock = none ∧ failures.call (w.clock + 1) = none := by
  unfold recordApply
  rw [run_orFail]
  match appended : failures.call w.clock with
  | some e =>
    simp only [configHandler, attempt_of_some appended, errorKeeps_failJob, reduceCtorEq, false_and,
      or_false, ConfigWorld.tick]
  | none =>
    simp only [configHandler, attempt_of_none appended, true_and]
    rw [run_orFail]
    match upserted : failures.call (w.clock + 1) with
    | some e =>
      have failed : failures.call (w.append domain key desired .apply).2.tick.clock = some e :=
        upserted
      simp only [configHandler, attempt_of_some failed, errorKeeps_failJob, reduceCtorEq, or_false]
      rfl
    | none =>
      have fine : failures.call (w.append domain key desired .apply).2.tick.clock = none :=
        upserted
      simp only [configHandler, attempt_of_none fine, or_true, iff_true]
      exact fun err => absurd rfl err

/-- A change that is not verified is taken back. -/
theorem errorKeeps_restoreJob {t : ℕ}
    {before : Live} {backup : Backup} (saved : a.backup t key before = .ok backup) :
    ErrorKeeps (a.view key) before
      (run (configHandler failures) (restoreJob a.toAdapter key backup id e) w) := by
  obtain ⟨done, same⟩ := a.restores t w.clock key backup before w.live saved
  intro _
  simp only [restoreJob, perform_bind, run_call, configHandler, ConfigWorld.change, done]
  split <;> exact same

/-- From the adapter's `Apply` on, with an exact backup. -/
theorem errorKeeps_project {t : ℕ}
    {backup : Backup} {rendered : Rendered} (saved : a.backup t key w.live = .ok backup) :
    ErrorKeeps (a.view key) w.live (run (configHandler failures)
        (orFail (failJob id "apply") (.apply a.toAdapter key rendered) fun _ =>
          orFail (restoreJob a.toAdapter key backup id) (.verify domain a.toAdapter key value)
            fun _ => recordApply domain key value id) w) ↔
      a.Recordable failures key w.clock w.live value rendered := by
  unfold RestorableAdapter.Recordable
  rw [run_orFail]
  simp only [configHandler, ConfigWorld.change, ConfigWorld.tick]
  obtain ⟨answer, live⟩ := a.apply w.clock key rendered w.live
  match answer with
  | .error e => simp only [errorKeeps_failJob, reduceCtorEq, false_and, or_false]
  | .ok () =>
    simp only [true_and]
    rw [run_orFail]
    simp only [configHandler, ConfigWorld.ask, ConfigWorld.tick, ConfigWorld.noteVerify]
    match a.verify (w.clock + 1) key value live with
    | .error e =>
      simp only [reduceCtorEq, false_implies, or_true, iff_true]
      exact errorKeeps_restoreJob a saved
    | .ok () => simp only [errorKeeps_recordApply, true_implies]

/-- Failing stages of `Apply` leave the key alone exactly if the adapter's `Apply` can be recorded.
-/
theorem errorKeeps_applyStages : ErrorKeeps (a.view key) w.live
        (run (configHandler failures) (applyStages a.toAdapter domain key desired id) w) ↔
      ∀ value rendered, a.prepared key desired w.clock w.live = some (value, rendered) →
        a.Recordable failures key (w.clock + 4) w.live value rendered := by
  unfold applyStages Adapter.prepared
  rw [run_orFail]
  simp only [configHandler, ConfigWorld.ask]
  match a.normalizeDesired key desired w.clock w.live with
  | .error e => simp [errorKeeps_failJob, ConfigWorld.tick]
  | .ok (value, changed) =>
  dsimp only
  rw [run_orFail]
  simp only [configHandler, ConfigWorld.ask, ConfigWorld.tick]
  match a.validate (w.clock + 1) key value w.live with
  | .error e => simp [errorKeeps_failJob]
  | .ok _ =>
  dsimp only
  rw [run_orFail]
  simp only [configHandler, ConfigWorld.ask, ConfigWorld.tick]
  match saved : a.backup (w.clock + 2) key w.live with
  | .error e => simp [errorKeeps_failJob]
  | .ok backup =>
  dsimp only
  rw [run_orFail]
  simp only [configHandler, ConfigWorld.ask, ConfigWorld.tick]
  match a.render (w.clock + 3) key value w.live with
  | .error e => simp [errorKeeps_failJob]
  | .ok rendered =>
  simp only [Option.some.injEq, Prod.mk.injEq, and_imp, forall_eq', forall_apply_eq_imp_iff]
  exact errorKeeps_project a saved

end Stages

/-- A `Manager.Apply` with an error has left the live state of the key, exactly if the adapter's
`Apply`, should it be called, does so too, or succeeds and is recorded unless it is rejected. -/
theorem apply_error_keeps_iff
    (adapters : String → Option (RestorableAdapter Live Backup Rendered View))
    (failures : StoreFailures) (domain key desired : String) (w : ConfigWorld Live) :
    (∀ a ∈ adapters domain, ErrorKeeps (a.view key) w.live
        (run (configHandler failures)
          (applyConfig (fun d => (adapters d).map (·.toAdapter)) domain key desired) w)) ↔
      ∀ a ∈ adapters domain, failures.call w.clock = none → failures.call (w.clock + 2) = none →
        ∀ value rendered, a.prepared key desired (w.clock + 3) w.live = some (value, rendered) →
          a.Recordable failures key (w.clock + 7) w.live value rendered := by
  refine forall₂_congr fun a mem => ?_
  rw [Option.mem_def] at mem
  simp only [applyConfig, mem, Option.map_some]
  rw [run_orFail]
  match got : failures.call w.clock with
  | some e =>
    simp only [configHandler, attempt_of_some got, reduceCtorEq, false_implies, iff_true]
    exact fun _ => rfl
  | none =>
    simp only [configHandler, attempt_of_none got, perform_bind, run_call, true_implies]
    rw [run_orFail]
    match created : failures.call (w.clock + 2) with
    | some e =>
      have failed : failures.call ({ w.tick with nextJob := w.tick.nextJob + 1 }.tick).clock =
        some e := created
      simp only [configHandler, attempt_of_some failed, reduceCtorEq, false_implies, iff_true]
      exact fun _ => rfl
    | none =>
      have fine : failures.call ({ w.tick with nextJob := w.tick.nextJob + 1 }.tick).clock =
        none := created
      simp only [configHandler, attempt_of_none fine, true_implies]
      exact errorKeeps_applyStages a

end NeoRuntime.PlatformApi
