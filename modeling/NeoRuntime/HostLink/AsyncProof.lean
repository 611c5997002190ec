import NeoRuntime.HostLink.Async
import NeoRuntime.HostLink.Refinement

/-!
# How asynchronous requests complete

A slot that is used belongs to exactly one call, which is not completed yet (`AsyncInv`).  The
locked sections keep this, except that the cleanup after a failed send releases its slot without
looking whose it is by now, and calls the callback again, unless the call was not completed before
(`Timely`).
-/

namespace NeoRuntime.HostLink

def AsyncState.slotOf (s : AsyncState) : List ℕ := s.calls.map AsyncCall.slot

/-- The calls whose callback was called. -/
def AsyncState.completed (s : AsyncState) : List ℕ := s.done.map Prod.fst

/-- Every callback is called at most once, and no release hits another request's slot. -/
structure CompletesOnce (s : AsyncState) : Prop where
  once : ∀ k, s.completed.count k ≤ 1
  own : ∀ r ∈ s.releases, ∀ k, r.held = some k → k = r.call

/-- The cleanup after a failed send finds the slot still used for its call. -/
def Timely (s : AsyncState) : AsyncAct → Prop
  | .cleanup k => ∃ slot ∈ s.slotOf[k]?, holder s.tables slot = some k
  | _ => True

/-! ## What a step does -/

inductive Moved (s s' : AsyncState) : Prop where
  | quiet : (∀ j, holder s'.tables j = holder s.tables j) → s'.slotOf = s.slotOf →
      s'.done = s.done → s'.releases = s.releases → Moved s s'
  | allocated (i : ℕ) : holder s.tables i = none →
      (∀ j, holder s'.tables j = if j = i then some s.slotOf.length else holder s.tables j) →
      s'.slotOf = s.slotOf ++ [i] → s'.done = s.done → s'.releases = s.releases → Moved s s'
  | released (i k : ℕ) (err : HostLinkErr) : holder s.tables i = some k →
      (∀ j, holder s'.tables j = if j = i then none else holder s.tables j) →
      s'.slotOf = s.slotOf → s'.done = s.done ++ [(k, err)] →
      s'.releases = s.releases ++ [⟨k, some k⟩] → Moved s s'

theorem holder_eq_some {t : Tables} {i k : ℕ} (held : holder t i = some k) :
    ∃ w, t.asyncSlot[i]? = some w ∧ w.used = true ∧ w.cb = k := by
  rw [holder, Option.bind_eq_some_iff] at held
  obtain ⟨w, slot, used⟩ := held
  rw [Option.ite_none_right_eq_some] at used
  exact ⟨w, slot, used.1, Option.some.inj used.2⟩

theorem holder_of_used {t : Tables} {i : ℕ} {w : AsyncSlot} (slot : t.asyncSlot[i]? = some w)
    (used : w.used = true) : holder t i = some w.cb := by
  rw [holder, slot, Option.bind_some, if_pos used]

theorem holder_congr {t t' : Tables} (same : t'.asyncSlot = t.asyncSlot) (j : ℕ) :
    holder t' j = holder t j := by
  rw [holder, same, holder]

theorem requestAsyncLocked_eq_some {t t' : Tables} {cmd : UInt16} {tickMs : UInt32} {cb i : ℕ}
    (taken : requestAsyncLocked t cmd tickMs cb = some (i, t')) :
    holder t i = none ∧ ∀ j, holder t' j = if j = i then some cb else holder t j := by
  rw [requestAsyncLocked, Option.map_eq_some_iff] at taken
  obtain ⟨i', found, same⟩ := taken
  obtain ⟨rfl, rfl⟩ := Prod.mk.inj same
  obtain ⟨lt, free, -⟩ := List.findIdx?_eq_some_iff_getElem.1 found
  refine ⟨?_, fun j => ?_⟩
  · rw [holder, List.getElem?_eq_getElem lt, Option.bind_some, if_neg (by simpa using free)]
  · simp only [holder, List.getElem?_set]
    by_cases same : i' = j
    · simp [same, same ▸ lt]
    · rw [if_neg same, if_neg (Ne.symm same)]

theorem holder_releaseAsync (t : Tables) (i j : ℕ) :
    holder (releaseAsync t i) j = if j = i then none else holder t j := by
  simp only [holder, releaseAsync, List.getElem?_modify]
  by_cases same : i = j
  · subst same
    cases t.asyncSlot[i]? <;> simp
  · rw [if_neg (Ne.symm same)]
    cases t.asyncSlot[j]? <;> simp [same]

/-- A response releases the slot of the request it answers, as `releaseAsync` would. -/
theorem addAckFrameLocked_some {t : Tables} {f : HostLinkFrame} {i : ℕ}
    (found : findAsync t f = some i) (tickMs : UInt32) :
    ∃ k, holder t i = some k ∧
      (addAckFrameLocked tickMs t f).2.2 = [⟨k, .ok, f.payload⟩] ∧
      ∀ j, holder (addAckFrameLocked tickMs t f).2.1 j = if j = i then none else holder t j := by
  obtain ⟨w, slot, used, -, -⟩ := findAsync_eq_some found
  refine ⟨w.cb, holder_of_used slot used, ?_, fun j => ?_⟩
  · simp [addAckFrameLocked, found, List.getD_eq_getElem?_getD, slot]
  · obtain ⟨lt, -⟩ := List.getElem?_eq_some_iff.1 slot
    simp only [addAckFrameLocked, found, List.getD_eq_getElem?_getD, slot, Option.getD_some, holder,
      List.getElem?_set]
    by_cases same : i = j
    · simp [same, same ▸ lt]
    · rw [if_neg same, if_neg (Ne.symm same)]

theorem addAckFrameLocked_none {t : Tables} {f : HostLinkFrame} (found : findAsync t f = none)
    (tickMs : UInt32) :
    (addAckFrameLocked tickMs t f).2.2 = [] ∧
      (addAckFrameLocked tickMs t f).2.1.asyncSlot = t.asyncSlot := by
  simp only [addAckFrameLocked, found, storeAckFrame, true_and]
  cases findEmptyAck t <;> rfl

theorem findTimedOut_eq_some {t : Tables} {nowMs : UInt32} {i j : ℕ}
    (found : findTimedOut t nowMs i = some j) :
    i ≤ j ∧ ∃ w, t.asyncSlot[j]? = some w ∧ w.used = true ∧
      hostLinkCfgAckTimeoutMs ≤ hostLinkPortTickDiffMs w.startedMs nowMs := by
  rw [findTimedOut, Option.map_eq_some_iff] at found
  obtain ⟨d, first, rfl⟩ := found
  obtain ⟨lt, waits, -⟩ := List.findIdx?_eq_some_iff_getElem.1 first
  simp only [List.getElem_drop, Bool.and_eq_true, decide_eq_true_eq] at waits
  rw [List.length_drop] at lt
  exact ⟨Nat.le_add_right i d, _, List.getElem?_eq_getElem (by omega), waits⟩

section Steps

variable {s s' : AsyncState}

theorem slotOf_set {k slot : ℕ} {phase phase' : CallPhase} (call : s.calls[k]? = some ⟨slot, phase⟩) :
    (s.calls.set k ⟨slot, phase'⟩).map AsyncCall.slot = s.slotOf := by
  obtain ⟨lt, same⟩ := List.getElem?_eq_some_iff.1 call
  have lt' : k < (s.calls.map AsyncCall.slot).length := by simpa using lt
  have obtained : (s.calls.map AsyncCall.slot)[k] = slot := by simp [same]
  calc (s.calls.set k ⟨slot, phase'⟩).map AsyncCall.slot
      = (s.calls.map AsyncCall.slot).set k (s.calls.map AsyncCall.slot)[k] := by
        rw [List.map_set, obtained]
    _ = s.slotOf := List.set_getElem_self lt'

theorem asyncStep_moved {act : AsyncAct} (timely : Timely s act) (step : asyncStep s act = some s') :
    Moved s s' := by
  cases act with
  | request cmd tickMs =>
    simp only [asyncStep] at step
    cases taken : requestAsyncLocked s.tables cmd tickMs s.calls.length with
    | none =>
      simp only [taken, Option.some.injEq] at step
      subst step
      exact .quiet (fun _ => rfl) rfl rfl rfl
    | some res =>
      obtain ⟨i, t⟩ := res
      simp only [taken, Option.some.injEq] at step
      subst step
      obtain ⟨free, rest⟩ := requestAsyncLocked_eq_some taken
      refine .allocated i free (fun j => ?_) (by simp [AsyncState.slotOf]) rfl rfl
      rw [AsyncState.slotOf, List.length_map]
      exact rest j
  | sendReturns k ret =>
    simp only [asyncStep] at step
    split at step
    · rename_i slot call
      obtain rfl := Option.some.inj step
      exact .quiet (fun _ => rfl) (slotOf_set call) rfl rfl
    · cases step
  | cleanup k =>
    simp only [asyncStep] at step
    split at step
    · rename_i slot ret call
      obtain rfl := Option.some.inj step
      obtain ⟨slot', known, held⟩ := timely
      obtain rfl : slot = slot' := by simpa [AsyncState.slotOf, call] using known
      exact .released slot k ret held (holder_releaseAsync _ _) (slotOf_set call) rfl
        (by rw [held])
    · cases step
  | ackFrame tickMs f =>
    simp only [asyncStep, Option.some.injEq] at step
    cases found : findAsync s.tables f with
    | none =>
      obtain ⟨calls, slots⟩ := addAckFrameLocked_none found tickMs
      subst step
      exact .quiet (holder_congr slots) rfl (by simp [calls]) (by simp [calls])
    | some i =>
      obtain ⟨k, held, calls, rest⟩ := addAckFrameLocked_some found tickMs
      subst step
      exact .released i k .ok held rest rfl (by simp [calls]) (by simp [calls, found, held])
  | pollBegin nowMs =>
    rw [asyncStep, Option.ite_none_right_eq_some] at step
    obtain ⟨-, same⟩ := step
    obtain rfl := Option.some.inj same
    exact .quiet (fun _ => rfl) rfl rfl rfl
  | pollScan =>
    simp only [asyncStep] at step
    cases poll : s.poll with
    | none => simp [poll] at step
    | some scan =>
      obtain ⟨nowMs, i⟩ := scan
      simp only [poll] at step
      generalize same : (if i = 0 then dropOldAcks s.tables nowMs else s.tables) = t at step
      have slots : t.asyncSlot = s.tables.asyncSlot := by
        rw [← same]
        split <;> rfl
      cases found : findTimedOut t nowMs i with
      | none =>
        simp only [found, Option.some.injEq] at step
        subst step
        exact .quiet (holder_congr slots) rfl rfl rfl
      | some j =>
        obtain ⟨-, w, slot, used, -⟩ := findTimedOut_eq_some found
        have held := holder_congr slots
        simp only [found, Option.some.injEq, List.getD_eq_getElem?_getD, slot, Option.getD_some]
          at step
        subst step
        refine .released j w.cb .timeout ((held j).symm.trans (holder_of_used slot used)) ?_ rfl rfl
          (by rw [holder_of_used slot used])
        intro j'
        rw [← held]
        exact holder_releaseAsync t j j'

end Steps

/-! ## The invariant -/

/-- The used slots are those of the calls that are not completed. -/
structure AsyncInv (s : AsyncState) : Prop where
  live : ∀ i k, holder s.tables i = some k → s.slotOf[k]? = some i ∧ k ∉ s.completed
  settled : ∀ i k, s.slotOf[k]? = some i → holder s.tables i = some k ∨ k ∈ s.completed
  known : ∀ k ∈ s.completed, k < s.slotOf.length
  nodup : s.completed.Nodup
  own : ∀ r ∈ s.releases, ∀ k, r.held = some k → k = r.call

theorem asyncInv_init : AsyncInv .init := by
  refine ⟨fun i k held => ?_, nofun, nofun, List.nodup_nil, nofun⟩
  obtain ⟨w, slot, used, -⟩ := holder_eq_some held
  obtain rfl := List.eq_of_mem_replicate (List.mem_of_getElem? slot)
  cases used

section Invariant

variable {s s' : AsyncState}

theorem AsyncInv.allocated (inv : AsyncInv s) {i : ℕ} (free : holder s.tables i = none)
    (rest : ∀ j, holder s'.tables j = if j = i then some s.slotOf.length else holder s.tables j)
    (calls : s'.slotOf = s.slotOf ++ [i]) (done : s'.done = s.done)
    (releases : s'.releases = s.releases) : AsyncInv s' := by
  have completed : s'.completed = s.completed := by rw [AsyncState.completed, done]; rfl
  constructor
  · intro j k held
    rw [calls, completed]
    rw [rest] at held
    split at held
    · -- the new call has the next number, which no completed call has
      subst j
      obtain rfl := Option.some.inj held
      exact ⟨by simp, fun old => lt_irrefl _ (inv.known _ old)⟩
    · obtain ⟨known, pending⟩ := inv.live j k held
      obtain ⟨lt, -⟩ := List.getElem?_eq_some_iff.1 known
      exact ⟨by rwa [List.getElem?_append_left lt], pending⟩
  · intro j k obtained
    rw [calls] at obtained
    rw [rest, completed]
    rcases Nat.lt_or_ge k s.slotOf.length with old | new
    · rw [List.getElem?_append_left old] at obtained
      rcases inv.settled j k obtained with held | ended
      · have ne : j ≠ i := by
          rintro rfl
          rw [free] at held
          cases held
        exact .inl (by rwa [if_neg ne])
      · exact .inr ended
    · rw [List.getElem?_append_right new, List.getElem?_singleton] at obtained
      split at obtained
      · obtain rfl := Option.some.inj obtained
        exact .inl (by rw [if_pos rfl]; congr 1; omega)
      · cases obtained
  · rw [completed, calls, List.length_append]
    exact fun k mem => (inv.known k mem).trans (Nat.lt_succ_self _)
  · rw [completed]
    exact inv.nodup
  · rw [releases]
    exact inv.own

theorem AsyncInv.released (inv : AsyncInv s) {i k : ℕ} {err : HostLinkErr}
    (held : holder s.tables i = some k)
    (rest : ∀ j, holder s'.tables j = if j = i then none else holder s.tables j)
    (calls : s'.slotOf = s.slotOf) (done : s'.done = s.done ++ [(k, err)])
    (releases : s'.releases = s.releases ++ [⟨k, some k⟩]) : AsyncInv s' := by
  have completed : s'.completed = s.completed ++ [k] := by
    rw [AsyncState.completed, done, List.map_append]
    rfl
  obtain ⟨known, pending⟩ := inv.live i k held
  constructor
  · intro j k' held'
    rw [rest, Option.ite_none_left_eq_some] at held'
    obtain ⟨ne, held'⟩ := held'
    obtain ⟨known', pending'⟩ := inv.live j k' held'
    rw [calls, completed]
    refine ⟨known', fun mem => ?_⟩
    rcases List.mem_append.1 mem with old | new
    · exact pending' old
    · -- two slots are never used for one call
      obtain rfl := List.mem_singleton.1 new
      rw [known] at known'
      exact ne (Option.some.inj known').symm
  · intro j k' obtained
    rw [calls] at obtained
    rw [rest, completed, List.mem_append, List.mem_singleton]
    rcases inv.settled j k' obtained with held' | ended
    · by_cases same : j = i
      · subst same
        rw [held] at held'
        exact .inr (.inr (Option.some.inj held').symm)
      · exact .inl (by rwa [if_neg same])
    · exact .inr (.inl ended)
  · intro k' mem
    rw [completed] at mem
    rw [calls]
    rcases List.mem_append.1 mem with old | new
    · exact inv.known k' old
    · obtain ⟨lt, -⟩ := List.getElem?_eq_some_iff.1 known
      exact List.mem_singleton.1 new ▸ lt
  · rw [completed]
    exact inv.nodup.append (List.nodup_singleton k) (by simpa using pending)
  · intro r mem k' held'
    rw [releases] at mem
    rcases List.mem_append.1 mem with old | new
    · exact inv.own r old k' held'
    · obtain rfl := List.mem_singleton.1 new
      exact (Option.some.inj held').symm

theorem Moved.inv (moved : Moved s s') (inv : AsyncInv s) : AsyncInv s' := by
  cases moved with
  | quiet same calls done releases =>
    have completed : s'.completed = s.completed := by rw [AsyncState.completed, done]; rfl
    refine ⟨fun i k held => ?_, fun i k obtained => ?_, ?_, ?_, ?_⟩
    · rw [same] at held
      rw [calls, completed]
      exact inv.live i k held
    · rw [calls] at obtained
      rw [same, completed]
      exact inv.settled i k obtained
    · rw [completed, calls]
      exact inv.known
    · rw [completed]
      exact inv.nodup
    · rw [releases]
      exact inv.own
  | allocated i free rest calls done releases => exact inv.allocated free rest calls done releases
  | released i k err held rest calls done releases =>
    exact inv.released held rest calls done releases

end Invariant

/-! ## Runs -/

theorem AsyncInv.completesOnce {s : AsyncState} (inv : AsyncInv s) : CompletesOnce s :=
  ⟨List.nodup_iff_count_le_one.1 inv.nodup, inv.own⟩

theorem asyncStep_completed {s s' : AsyncState} {act : AsyncAct}
    (step : asyncStep s act = some s') : s.completed <+: s'.completed := by
  by_cases timely : Timely s act
  · cases asyncStep_moved timely step with
    | quiet _ _ done _ => rw [AsyncState.completed, AsyncState.completed, done]
    | allocated _ _ _ _ done _ => rw [AsyncState.completed, AsyncState.completed, done]
    | released _ _ _ _ _ _ done _ =>
      rw [AsyncState.completed, AsyncState.completed, done, List.map_append]
      exact List.prefix_append _ _
  · cases act with
    | cleanup k =>
      simp only [asyncStep] at step
      split at step
      · obtain rfl := Option.some.inj step
        rw [AsyncState.completed, AsyncState.completed, List.map_append]
        exact List.prefix_append _ _
      · cases step
    | _ => exact absurd trivial timely

theorem foldlM_completed {s s' : AsyncState} {acts : List AsyncAct}
    (run : acts.foldlM asyncStep s = some s') : s.completed <+: s'.completed :=
  foldlM_inv (fun m => s.completed <+: m.completed)
    (fun _ _ _ sofar step => sofar.trans (asyncStep_completed step)) (List.prefix_refl _) run

/-- A cleanup that comes too late calls a callback for the second time. -/
theorem cleanup_twice {s s' : AsyncState} (inv : AsyncInv s) {act : AsyncAct}
    (late : ¬ Timely s act) (step : asyncStep s act = some s') :
    ∃ k, 2 ≤ s'.completed.count k := by
  cases act with
  | cleanup k =>
    simp only [asyncStep] at step
    split at step
    · rename_i slot ret call
      obtain rfl := Option.some.inj step
      have obtained : s.slotOf[k]? = some slot := by simp [AsyncState.slotOf, call]
      have ended : k ∈ s.completed := (inv.settled slot k obtained).resolve_left fun held =>
        late ⟨slot, obtained, held⟩
      refine ⟨k, ?_⟩
      have first := List.one_le_count_iff.2 ended
      rw [AsyncState.completed] at first
      rw [AsyncState.completed, List.map_append, List.count_append, List.map_singleton,
        List.count_singleton_self]
      omega
    · cases step
  | _ => exact absurd trivial late

/-- Callbacks come once, and calls release their own slots, exactly if no failed send is cleaned up
after its call was completed. -/
theorem asyncRun_completesOnce_iff {acts : List AsyncAct} {s : AsyncState}
    (run : asyncRun acts = some s) :
    CompletesOnce s ↔ Along asyncStep Timely .init acts := by
  refine ⟨fun once => ?_, fun timely => (foldlM_inv_along AsyncInv
    (fun _ _ _ inv timely step => (asyncStep_moved timely step).inv inv) asyncInv_init timely
    run).completesOnce⟩
  have start := asyncInv_init
  rw [asyncRun] at run
  generalize AsyncState.init = s₀ at start run
  induction acts generalizing s₀ with
  | nil => trivial
  | cons act acts ih =>
    obtain ⟨m, step, rest⟩ := foldlM_cons_eq_some.1 run
    by_cases timely : Timely s₀ act
    · refine ⟨timely, fun m' step' => ?_⟩
      obtain rfl := Option.some.inj (step.symm.trans step')
      exact ih m ((asyncStep_moved timely step).inv start) rest
    · obtain ⟨k, twice⟩ := cleanup_twice start timely step
      have := ((foldlM_completed rest).sublist.count_le k).trans (once.once k)
      omega

/-- A request expires while it is sent; its slot goes to another one, and then the send fails. -/
def lateCleanupRun : List AsyncAct :=
  [.request 0x20 0, .pollBegin 500, .pollScan, .pollScan, .request 0x21 500,
    .sendReturns 0 .send, .cleanup 0]

/-- The first request's callback is called twice, and the second request loses its slot. -/
theorem asyncRun_completes_twice :
    ∃ s, asyncRun lateCleanupRun = some s ∧ s.done = [(0, .timeout), (0, .send)] ∧
      s.releases = [⟨0, some 0⟩, ⟨0, some 1⟩] ∧ ¬ CompletesOnce s := by
  refine ⟨_, rfl, rfl, rfl, fun completes => ?_⟩
  have := completes.once 0
  revert this
  decide

/-- A send that fails in time. -/
theorem asyncRun_completesOnce_iff_sample :
    ∃ s, asyncRun [.request 0x20 0, .sendReturns 0 .send, .cleanup 0] = some s ∧
      (CompletesOnce s ↔ Along asyncStep Timely .init
        [.request 0x20 0, .sendReturns 0 .send, .cleanup 0]) :=
  ⟨_, rfl, asyncRun_completesOnce_iff rfl⟩

end NeoRuntime.HostLink
