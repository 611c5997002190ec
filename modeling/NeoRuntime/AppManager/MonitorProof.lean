import NeoRuntime.AppManager.Monitor

/-!
# Stopped apps

After `StopApp` has returned, the container of the app stays down and `restartContainer` is not called
for the app, and after `RemoveApp` it is not called either, provided that `RemoveApp` was called in a
quiet moment: every goroutine that could restart the app waits in its loop for the channel that is
about to be closed.  `StopApp` does nothing for an app that is not marked as running, so that such an
app must be down and gone already.
-/

namespace NeoRuntime.AppManager

namespace Monitor

def Untouched (g : Goroutine) (appId : String) : Prop :=
  (∀ e ∈ g.own, e.appId ≠ appId) ∧ ∀ e ∈ g.todo, e.appId ≠ appId

instance (g : Goroutine) (appId : String) : Decidable (Untouched g appId) :=
  inferInstanceAs (Decidable (_ ∧ _))

variable (s : Monitor)

/-- Every goroutine of the app waits in its loop on the entry that is in the map. -/
def Quiet (appId : String) : Prop :=
  ∀ g ∈ s.goroutines, g.phase = .returned ∨ Untouched g appId ∨
    g.phase = .parked ∧ g.own.isSome ∧ g.own = s.monitoredApps.lookup appId

instance (s : Monitor) (appId : String) : Decidable (s.Quiet appId) :=
  inferInstanceAs (Decidable (∀ _ ∈ _, _))

def Gone (appId : String) : Prop :=
  s.monitoredApps.lookup appId = none ∧
    ∀ g ∈ s.goroutines, g.phase = .returned ∨ Untouched g appId

instance (s : Monitor) (appId : String) : Decidable (s.Gone appId) :=
  inferInstanceAs (Decidable (_ ∧ _))

/-- The entries are filed under their apps; a removed or stopped app is gone, and a stopped one is
down. -/
structure Inv (s : Monitor) : Prop where
  keyed : ∀ appId e, s.monitoredApps.lookup appId = some e → e.appId = appId
  gone : ∀ appId, s.removed appId = true → s.Gone appId
  settled : ∀ appId, s.settled appId = true → s.Gone appId ∧ s.up appId = false
  stopping : ∀ c ∈ s.calls, c.phase = .setStopped →
    s.removed c.appId = true ∧ s.up c.appId = false

theorem inv_init : init.Inv where
  keyed _ _ found := by simp [init] at found
  gone _ removed := by cases removed
  settled _ settled := by cases settled
  stopping c mem := by cases mem

/-! ## Goroutines -/

section Goroutines

variable {s : Monitor} {appId other : String} {e : MonitoredApp} {g g' : Goroutine} {i : ℕ}

theorem Untouched.next (untouched : Untouched g appId) : Untouched g.next appId :=
  ⟨untouched.1, fun e mem => untouched.2 e (List.mem_of_mem_tail mem)⟩

theorem Untouched.wake (untouched : Untouched g appId) : Untouched (wake e g) appId := by
  unfold Monitor.wake
  split_ifs
  · exact untouched
  · exact untouched.next
  · exact untouched

theorem wake_returned (returned : g.phase = .returned) : wake e g = g := by
  unfold wake
  rw [if_neg (fun parked => by rw [returned] at parked; exact absurd parked.1 nofun),
    if_neg (fun waiting => by rw [returned] at waiting; exact absurd waiting.1 nofun)]

theorem Gone.setGoroutine (gone : s.Gone appId)
    (fine : g.phase = .returned ∨ Untouched g appId) : (s.setGoroutine i g).Gone appId := by
  refine ⟨gone.1, fun g' mem => ?_⟩
  obtain mem | rfl := List.mem_or_eq_of_mem_set mem
  · exact gone.2 g' mem
  · exact fine

theorem removeApp_fields (s : Monitor) (appId : String) :
    (s.removeApp appId).up = s.up ∧ (s.removeApp appId).settled = s.settled ∧
      (s.removeApp appId).calls = s.calls ∧
      (s.removeApp appId).removed = Function.update s.removed appId true ∧
      (s.removeApp appId).monitoredApps = s.monitoredApps.erase appId := by
  unfold removeApp
  dsimp only
  split
  · refine ⟨rfl, rfl, rfl, rfl, ?_⟩
    next missing => exact (AList.ext (Dict.entries_erase_of_lookup missing)).symm
  · exact ⟨rfl, rfl, rfl, rfl, rfl⟩

theorem removeApp_goroutines (s : Monitor) (appId : String) : (s.removeApp appId).goroutines =
      match s.monitoredApps.lookup appId with
      | none => s.goroutines
      | some e => s.goroutines.map (wake e) := by
  cases found : s.monitoredApps.lookup appId <;> simp only [removeApp, found]

/-- In a quiet moment `RemoveApp` leaves no goroutine that can restart the app. -/
theorem removeApp_gone (quiet : s.Quiet appId) : (s.removeApp appId).Gone appId := by
  obtain ⟨-, -, -, -, apps⟩ := removeApp_fields s appId
  refine ⟨by rw [apps, AList.lookup_erase], fun g mem => ?_⟩
  rw [removeApp_goroutines] at mem
  cases found : s.monitoredApps.lookup appId with
  | none =>
    rw [found] at mem
    obtain returned | untouched | ⟨-, some, own⟩ := quiet g mem
    · exact .inl returned
    · exact .inr untouched
    · rw [own, found] at some
      cases some
  | some e =>
    rw [found] at mem
    obtain ⟨g, member, rfl⟩ := List.mem_map.mp mem
    obtain returned | untouched | ⟨parked, -, own⟩ := quiet g member
    · exact .inl (by rw [wake_returned returned, returned])
    · exact .inr untouched.wake
    · refine .inl ?_
      unfold wake
      rw [if_pos ⟨parked, own.trans found⟩]

theorem Gone.removeApp (gone : s.Gone other) : (s.removeApp appId).Gone other := by
  obtain ⟨-, -, -, -, apps⟩ := removeApp_fields s appId
  refine ⟨?_, fun g mem => ?_⟩
  · rw [apps]
    by_cases same : other = appId
    · rw [same, AList.lookup_erase]
    · rw [AList.lookup_erase_ne same, gone.1]
  · rw [removeApp_goroutines] at mem
    split at mem
    · exact gone.2 g mem
    · obtain ⟨g, member, rfl⟩ := List.mem_map.mp mem
      obtain returned | untouched := gone.2 g member
      · exact .inl (by rw [wake_returned returned, returned])
      · exact .inr untouched.wake

/-- The app that a goroutine is about to check or to restart is not gone. -/
theorem not_gone (found : s.goroutines[i]? = some g) (alive : g.phase ≠ .returned)
    (mem : e ∈ g.todo) : ¬ s.Gone e.appId := by
  intro gone
  obtain returned | untouched := gone.2 g (List.mem_of_getElem? found)
  · exact alive returned
  · exact untouched.2 e mem rfl

end Goroutines

/-! ## The condition -/

/-- The app that the step removes from the monitor, and the moment when it does. -/
def removal : Action → Option (String × Monitor)
  | .call i _ =>
      match s.calls[i]? with
      | some c => if c.phase = .removeApp then some (c.appId, s.setPhase i c .setStopped) else none
      | none => none
  | .removeApp appId => some (appId, s)
  | .goroutine i (.look probe) =>
      match s.goroutines[i]? with
      | some g =>
        match g.phase, g.todo with
        | .look, e :: _ =>
          if s.isDown e probe && s.exhausted e then some (e.appId, s.setGoroutine i g.next) else none
        | _, _ => none
      | none => none
  | _ => none

def starts : Action → Option String
  | .call i _ =>
      match s.calls[i]? with
      | some c =>
        match c.phase with
        | .startTask _ | .addApp _ => some c.appId
        | _ => none
      | none => none
  | _ => none

/-- The app that `StopApp` finds not marked as running. -/
def ignored : Action → Option String
  | .stopApp appId => if s.running appId then none else some appId
  | _ => none

/-- `RemoveApp` comes in a quiet moment, from `StopApp` with the container down, and `StartApp` does
not overtake it; an app that `StopApp` does nothing for is gone and down. -/
structure Orderly (s : Monitor) (action : Action) : Prop where
  quiet : ∀ r ∈ s.removal action, r.2.Quiet r.1
  down : ∀ r ∈ s.removal action, ∀ c ∈ r.2.calls, c.phase = .setStopped → c.appId = r.1 →
    r.2.up r.1 = false
  alone : ∀ appId ∈ s.starts action, ∀ c ∈ s.calls, c.phase = .setStopped → c.appId ≠ appId
  idle : ∀ appId ∈ s.ignored action, s.Gone appId ∧ s.up appId = false

instance (s : Monitor) (action : Action) : Decidable (s.Orderly action) :=
  decidable_of_iff ((∀ r ∈ s.removal action, r.2.Quiet r.1) ∧
    (∀ r ∈ s.removal action, ∀ c ∈ r.2.calls, c.phase = .setStopped → c.appId = r.1 →
      r.2.up r.1 = false) ∧
    (∀ appId ∈ s.starts action, ∀ c ∈ s.calls, c.phase = .setStopped → c.appId ≠ appId) ∧
    ∀ appId ∈ s.ignored action, s.Gone appId ∧ s.up appId = false)
    ⟨fun ⟨quiet, down, alone, idle⟩ => ⟨quiet, down, alone, idle⟩,
      fun h => ⟨h.quiet, h.down, h.alone, h.idle⟩⟩

/-! ## Steps -/

section Steps

variable {s s' : Monitor} {appId : String} {c : Call} {g g' : Goroutine} {i : ℕ} (inv : s.Inv)

include inv

theorem Inv.removeApp (keyed : s'.monitoredApps = s.monitoredApps)
    (removed : s'.removed = s.removed) (settled : s'.settled = s.settled) (up : s'.up = s.up)
    (gone : ∀ other, s.Gone other → s'.Gone other)
    (calls : ∀ c ∈ s'.calls, c.phase = .setStopped → c ∈ s.calls ∨ c.appId = appId)
    (quiet : s'.Quiet appId)
    (down : ∀ c ∈ s'.calls, c.phase = .setStopped → c.appId = appId → s'.up appId = false) :
    (s'.removeApp appId).Inv := by
  obtain ⟨up', settled', calls', removed', apps⟩ := removeApp_fields s' appId
  have kept (other : String) (was : s.removed other = true) :
      (s'.removeApp appId).removed other = true := by
    rw [removed', removed, Function.update_apply]
    split_ifs <;> first | rfl | exact was
  refine ⟨fun other e found => ?_, fun other removal => ?_, fun other was => ?_, fun c mem phase => ?_⟩
  · rw [apps, keyed] at found
    by_cases same : other = appId
    · rw [same, AList.lookup_erase] at found
      cases found
    · rw [AList.lookup_erase_ne same] at found
      exact inv.keyed other e found
  · by_cases same : other = appId
    · rw [same]
      exact removeApp_gone quiet
    · rw [removed', Function.update_of_ne same, removed] at removal
      exact (gone other (inv.gone other removal)).removeApp
  · rw [settled', settled] at was
    obtain ⟨absent, low⟩ := inv.settled other was
    exact ⟨(gone other absent).removeApp, by rw [up', up, low]⟩
  · rw [calls'] at mem
    by_cases same : c.appId = appId
    · refine ⟨?_, ?_⟩
      · rw [removed', same, Function.update_self]
      · rw [up', same]
        exact down c mem phase same
    · obtain ⟨removal, low⟩ := inv.stopping c ((calls c mem phase).resolve_right same) phase
      exact ⟨kept _ removal, by rw [up', up, low]⟩

/-- A step that changes neither the calls, the map nor what has been stopped, and brings no goroutine
to a removed app. -/
theorem Inv.setGoroutine (fine : ∀ other, s.Gone other → g.phase = .returned ∨ Untouched g other) :
    (s.setGoroutine i g).Inv where
  keyed := inv.keyed
  gone other removed := (inv.gone other removed).setGoroutine (fine other (inv.gone other removed))
  settled other settled :=
    (inv.settled other settled).imp_left fun gone => gone.setGoroutine (fine other gone)
  stopping := inv.stopping

theorem Inv.setUp {up : Bool} (unsettled : up = true → s.settled appId = false)
    (alone : up = true → ∀ c ∈ s.calls, c.phase = .setStopped → c.appId ≠ appId) :
    (s.setUp appId up).Inv := by
  have low {other : String} (low : s.up other = false) (different : up = true → other ≠ appId) :
      (s.setUp appId up).up other = false := by
    change Function.update s.up appId up other = false
    rw [Function.update_apply]
    split_ifs with same
    · exact Bool.eq_false_iff.mpr fun high => different high same
    · exact low
  refine ⟨inv.keyed, inv.gone, fun other settled => ?_, fun c mem phase => ?_⟩
  · obtain ⟨gone, down⟩ := inv.settled other settled
    refine ⟨gone, low down fun high same => ?_⟩
    rw [← same] at unsettled
    exact absurd (settled.symm.trans (unsettled high)) nofun
  · obtain ⟨removed, down⟩ := inv.stopping c mem phase
    exact ⟨removed, low down fun high => alone high c mem phase⟩

theorem Inv.setDown (appId : String) : (s.setUp appId false).Inv :=
  inv.setUp (fun high => by cases high) fun high => by cases high

theorem Inv.setPhase {phase : CallPhase} (other : phase ≠ .setStopped) :
    (s.setPhase i c phase).Inv where
  keyed := inv.keyed
  gone := inv.gone
  settled := inv.settled
  stopping c' mem stopping := by
    obtain mem | rfl := List.mem_or_eq_of_mem_set mem
    · exact inv.stopping c' mem stopping
    · exact absurd stopping other

theorem Inv.returned (i : ℕ) (c : Call) : (s.setPhase i c .returned).Inv :=
  inv.setPhase nofun

theorem Inv.unsettle (appId : String) :
    Inv { s with settled := Function.update s.settled appId false } where
  keyed := inv.keyed
  gone := inv.gone
  settled other settled := by
    change Function.update s.settled appId false other = true at settled
    rw [Function.update_apply] at settled
    split_ifs at settled
    exact inv.settled other settled
  stopping := inv.stopping

omit inv in
theorem addApp_fields (s : Monitor) (appId : String) (m : AppManifest) :
    (s.addApp appId m).up = s.up ∧
      (s.addApp appId m).settled = Function.update s.settled appId false ∧
      (s.addApp appId m).removed = Function.update s.removed appId false ∧
      (s.addApp appId m).calls = s.calls := by
  unfold Monitor.addApp
  dsimp only
  split_ifs <;> exact ⟨rfl, rfl, rfl, rfl⟩

theorem Inv.addApp (m : AppManifest)
    (alone : ∀ c ∈ s.calls, c.phase = .setStopped → c.appId ≠ appId) : (s.addApp appId m).Inv := by
  have fresh {other : String} (removed : Function.update s.removed appId false other = true) :
      other ≠ appId ∧ s.removed other = true := by
    rw [Function.update_apply] at removed
    split_ifs at removed with same
    exact ⟨same, removed⟩
  have unsettled {other : String} (settled : Function.update s.settled appId false other = true) :
      other ≠ appId ∧ s.Gone other ∧ s.up other = false := by
    rw [Function.update_apply] at settled
    split_ifs at settled with same
    exact ⟨same, inv.settled other settled⟩
  have stopped (c : Call) (mem : c ∈ s.calls) (phase : c.phase = .setStopped) :
      Function.update s.removed appId false c.appId = true ∧ s.up c.appId = false := by
    rw [Function.update_of_ne (alone c mem phase)]
    exact inv.stopping c mem phase
  have gone {other : String} (different : other ≠ appId) (gone : s.Gone other) :
      (s.addApp appId m).Gone other := by
    unfold Monitor.addApp
    dsimp only
    split_ifs
    · refine ⟨?_, fun g mem => ?_⟩
      · rw [AList.lookup_insert_ne different, gone.1]
      · obtain mem | mem := List.mem_append.mp mem
        · exact gone.2 g mem
        · rw [List.mem_singleton.mp mem]
          exact .inr ⟨fun e own => Option.some.inj own ▸ different.symm,
            fun e mem => absurd mem List.not_mem_nil⟩
    · exact gone
  obtain ⟨up, settled', removed', calls⟩ := addApp_fields s appId m
  refine ⟨fun other e found => ?_, fun other removed => ?_, fun other settled => ?_, ?_⟩
  · unfold Monitor.addApp at found
    dsimp only at found
    split_ifs at found
    · by_cases same : other = appId
      · rw [same, AList.lookup_insert] at found
        rw [same, ← Option.some.inj found]
      · rw [AList.lookup_insert_ne same] at found
        exact inv.keyed other e found
    · exact inv.keyed other e found
  · rw [removed'] at removed
    exact gone (fresh removed).1 (inv.gone other (fresh removed).2)
  · rw [settled'] at settled
    obtain ⟨different, absent, low⟩ := unsettled settled
    exact ⟨gone different absent, up ▸ low⟩
  · rw [calls, removed', up]
    exact stopped

theorem Inv.callStep (found : s.calls[i]? = some c) (ok : Bool)
    (orderly : s.Orderly (.call i ok)) : (s.callStep i c ok).Inv := by
  have alone {m : AppManifest} (starts : c.phase = .startTask m ∨ c.phase = .addApp m) :
      ∀ c' ∈ s.calls, c'.phase = .setStopped → c'.appId ≠ c.appId := by
    refine orderly.alone c.appId ?_
    obtain phase | phase := starts <;> simp [Monitor.starts, found, phase]
  unfold Monitor.callStep
  cases phase : c.phase with
  | startTask m =>
    have inv := inv.unsettle c.appId
    dsimp only
    split_ifs
    · refine (inv.setUp (fun _ => ?_) fun _ => alone (.inl phase)).setPhase nofun
      exact Function.update_self _ _ _
    · exact inv.setPhase nofun
  | addApp m => exact (inv.addApp m (alone (.inr phase))).setPhase nofun
  | setRunning =>
    have inv := (inv.unsettle c.appId).returned i c
    exact ⟨inv.keyed, inv.gone, inv.settled, inv.stopping⟩
  | stopTask =>
    dsimp only
    split_ifs
    · exact (inv.setDown c.appId).setPhase nofun
    · exact inv.setPhase nofun
  | removeApp =>
    have removal : s.removal (.call i ok) = some (c.appId, s.setPhase i c .setStopped) := by
      simp [Monitor.removal, found, phase]
    refine inv.removeApp rfl rfl rfl rfl (fun _ gone => gone) (fun c' mem _ => ?_)
      (orderly.quiet _ removal) (orderly.down _ removal)
    obtain mem | rfl := List.mem_or_eq_of_mem_set mem
    · exact .inl mem
    · exact .inr rfl
  | setStopped =>
    obtain ⟨removed, low⟩ := inv.stopping c (List.mem_of_getElem? found) phase
    have inv := inv.returned i c
    dsimp only
    by_cases saved : ok = true
    · rw [if_pos saved]
      refine ⟨inv.keyed, inv.gone, fun other settled => ?_, inv.stopping⟩
      change Function.update s.settled c.appId true other = true at settled
      rw [Function.update_apply] at settled
      split_ifs at settled with same
      · rw [same]
        exact ⟨inv.gone _ removed, low⟩
      · exact inv.settled other settled
    · rw [if_neg saved]
      exact inv
  | returned => exact inv

theorem Inv.recount (restartCount : ℕ → ℕ) : Inv { s with restartCount } :=
  ⟨inv.keyed, inv.gone, inv.settled, inv.stopping⟩

theorem Inv.present (there : ¬ s.Gone appId) :
    s.settled appId = false ∧ s.removed appId = false := by
  rw [← Bool.not_eq_true, ← Bool.not_eq_true]
  exact ⟨fun settled => there (inv.settled appId settled).1, fun removed => there (inv.gone appId removed)⟩

theorem Inv.unstopped (there : ¬ s.Gone appId) :
    ∀ c ∈ s.calls, c.phase = .setStopped → c.appId ≠ appId := by
  rintro c mem phase rfl
  exact there (inv.gone _ (inv.stopping c mem phase).1)

theorem Inv.goroutineStep (found : s.goroutines[i]? = some g) (move : Move)
    (orderly : s.Orderly (.goroutine i move)) : (s.goroutineStep i g move).Inv := by
  have idle (alive : g.phase ≠ .returned) (other : String) (gone : s.Gone other) :
      Untouched g other := (gone.2 g (List.mem_of_getElem? found)).resolve_left alive
  unfold Monitor.goroutineStep
  cases move with
  | rest =>
    dsimp only
    split_ifs with ready
    · exact inv.setGoroutine fun other gone => .inr (idle (by simp [ready.1]) other gone)
    · exact inv
  | leave =>
    dsimp only
    split_ifs with ready
    · exact inv.setGoroutine fun _ _ => .inl rfl
    · exact inv
  | tick order =>
    dsimp only
    by_cases ready : g.phase = .awake ∨ g.phase = .parked
    · rw [if_pos ready]
      have untouched := idle (by obtain phase | phase := ready <;> simp [phase])
      split
      next e own =>
        refine inv.setGoroutine fun other gone => .inr ⟨(untouched other gone).1, fun e' mem => ?_⟩
        rw [List.mem_singleton.mp mem]
        exact (untouched other gone).1 e own
      next own =>
        by_cases listed : order.Perm (Dict.values s.monitoredApps)
        · rw [if_pos listed]
          refine inv.setGoroutine fun other gone => .inr ⟨(untouched other gone).1, fun e mem same => ?_⟩
          -- an entry of the map is filed under its app
          obtain ⟨⟨key, e'⟩, member, rfl⟩ := List.mem_map.mp (listed.mem_iff.mp mem)
          have filed : s.monitoredApps.lookup key = some e' := AList.mem_lookup_iff.mpr member
          have named : other = key := same.symm.trans (inv.keyed key e' filed)
          rw [named] at gone
          exact absurd (filed.symm.trans gone.1) nofun
        · rw [if_neg listed]
          exact inv
    · rw [if_neg ready]
      exact inv
  | look probe =>
    dsimp only
    split
    next e rest phase todo =>
      have untouched := idle (by simp [phase])
      split_ifs with down exhausted
      · have removal : s.removal (.goroutine i (.look probe)) =
            some (e.appId, s.setGoroutine i g.next) := by
          simp [Monitor.removal, found, phase, todo, down, exhausted]
        exact inv.removeApp rfl rfl rfl rfl
          (fun other gone => gone.setGoroutine (.inr (untouched other gone).next))
          (fun c mem _ => .inl mem) (orderly.quiet _ removal) (orderly.down _ removal)
      · exact inv.setGoroutine fun other gone => .inr (untouched other gone)
      · exact inv.setGoroutine fun other gone => .inr (untouched other gone).next
    · exact inv
  | wait =>
    dsimp only
    split
    next e rest phase todo =>
      have untouched := idle (by simp [phase])
      refine inv.setGoroutine fun other gone => .inr ?_
      split_ifs
      · exact (untouched other gone).next
      · exact untouched other gone
    · exact inv
  | fire =>
    dsimp only
    split_ifs with ready
    · have untouched := idle (by obtain phase | phase := ready <;> simp [phase])
      exact inv.setGoroutine fun other gone => .inr (untouched other gone)
    · exact inv
  | stopOld =>
    dsimp only
    split
    next e rest phase todo =>
      have untouched := idle (by simp [phase])
      exact (inv.setDown e.appId).setGoroutine fun other gone => .inr (untouched other gone)
    · exact inv
  | startNew ok =>
    dsimp only
    split
    next e rest phase todo =>
      have untouched := idle (by simp [phase])
      have there : ¬ s.Gone e.appId :=
        not_gone found (by simp [phase]) (by rw [todo]; exact List.mem_cons_self)
      refine Inv.setGoroutine ?_ fun other gone => .inr ?_
      · split_ifs
        · have counted := inv.recount (Function.update s.restartCount e.serial 0)
          exact counted.setUp (fun _ => (inv.present there).1) fun _ => inv.unstopped there
        · exact inv.recount _
      · refine (untouched other ?_).next
        split_ifs at gone <;> exact gone
    · exact inv

theorem Inv.appendCall (other : c.phase ≠ .setStopped) :
    Inv { s with calls := s.calls ++ [c] } where
  keyed := inv.keyed
  gone := inv.gone
  settled := inv.settled
  stopping c' mem phase := by
    obtain mem | mem := List.mem_append.mp mem
    · exact inv.stopping c' mem phase
    · rw [List.mem_singleton.mp mem] at phase
      exact absurd phase other

theorem Inv.step (action : Action) (orderly : s.Orderly action) : (s.step action).Inv := by
  unfold Monitor.step
  cases action with
  | startApp appId m =>
    dsimp only
    split_ifs
    · exact inv.appendCall nofun
    · exact inv
  | stopApp appId =>
    dsimp only
    split_ifs with running
    · exact inv.appendCall nofun
    · have idle := orderly.idle appId (by simp [Monitor.ignored, running])
      refine ⟨inv.keyed, inv.gone, fun other settled => ?_, inv.stopping⟩
      change Function.update s.settled appId true other = true at settled
      rw [Function.update_apply] at settled
      split_ifs at settled with same
      · rw [same]
        exact idle
      · exact inv.settled other settled
  | call i ok =>
    dsimp only
    split
    next found => exact inv.callStep found ok orderly
    · exact inv
  | removeApp appId =>
    exact inv.removeApp rfl rfl rfl rfl (fun _ gone => gone) (fun _ mem _ => .inl mem)
      (orderly.quiet (appId, s) rfl) (orderly.down (appId, s) rfl)
  | exit appId => exact inv.setDown appId
  | goroutine i move =>
    dsimp only
    split
    next found => exact inv.goroutineStep found move orderly
    · exact inv

end Steps

/-! ## Runs -/

def report (action : Action) : Monitor × List (Monitor × Action) :=
  (s.step action, [(s, action)])

/-- No stopped or removed app is restarted, and no stopped one is up. -/
structure Stays (o : Monitor × Action) : Prop where
  restarts : ∀ appId ∈ o.1.restarts o.2, o.1.settled appId = false ∧ o.1.removed appId = false
  down : ∀ appId, (o.1.step o.2).settled appId = true → (o.1.step o.2).up appId = false

theorem Inv.restarts {s : Monitor} (inv : s.Inv) {action : Action} {appId : String}
    (restarts : appId ∈ s.restarts action) : s.settled appId = false ∧ s.removed appId = false := by
  refine inv.present ?_
  unfold Monitor.restarts at restarts
  split at restarts
  next i =>
    split at restarts
    next g found =>
      split_ifs at restarts with ready
      · obtain ⟨e, head, rfl⟩ := Option.map_eq_some_iff.mp restarts
        refine not_gone found ?_ (List.mem_of_mem_head? head)
        obtain phase | phase := ready <;> simp [phase]
      · cases restarts
    · cases restarts
  · cases restarts

/-- In orderly runs a stopped app stays stopped, and a removed app is not restarted. -/
theorem stopped_app_stays_stopped (actions : List Action)
    (orderly : AlongLog report Orderly init actions) :
    ∀ o ∈ (runLog report init actions).2, Stays o := by
  refine AlongLog.forall_mem Inv (fun s action inv step o mem => ?_)
    (fun s action inv step => inv.step action step) inv_init orderly
  rw [List.mem_singleton.mp mem]
  exact ⟨fun appId restarts => inv.restarts restarts,
    fun appId settled => ((inv.step action step).settled appId settled).2⟩

def restartingManifest : AppManifest :=
  { sampleManifest with autoRestart := { enabled := true, maxRetries := 0 } }

def starting (i : ℕ) (oks : List Bool) : List Action :=
  .startApp "a" restartingManifest :: oks.map (.call i)

/-- The app's goroutine waits in its loop when the app is stopped, and the second `StopApp` finds
it stopped. -/
theorem app_stays_stopped_when_idle :
    (runLog report init (starting 0 [true, true, true] ++ .goroutine 1 .rest ::
      .stopApp "a" :: List.replicate 3 (.call 1 true) ++ [.stopApp "a", .goroutine 0 (.tick [])])
      ).2.Forall Stays :=
  List.forall_iff_forall_mem.mpr (stopped_app_stays_stopped _ (by decide +kernel))

/-- The back-off is over before `RemoveApp`: the app is up after `StopApp`.  A replaced entry restarts
its app after `RemoveApp`.  And `StopApp` leaves an app up whose start could not be saved. -/
theorem app_restarted_after_stop :
    let slow := (runLog report init (starting 0 [true, true, true] ++
      [.stopApp "a", .exit "a", .goroutine 1 (.tick []), .goroutine 1 (.look .healthy),
        .goroutine 1 .wait, .call 1 true, .goroutine 1 .fire, .call 1 true, .call 1 true,
        .goroutine 1 .stopOld, .goroutine 1 (.startNew true)])).1
    let replaced := (runLog report init (starting 0 [true, true, false] ++
      starting 1 [true, true, true] ++
      [.removeApp "a", .exit "a", .goroutine 1 (.tick []), .goroutine 1 (.look .healthy),
        .goroutine 1 .wait])).1
    let unsaved := (runLog report init (starting 0 [true, true, false] ++ [.stopApp "a"])).1
    slow.settled "a" = true ∧ slow.up "a" = true ∧
      replaced.removed "a" = true ∧ replaced.restarts (.goroutine 1 .fire) = some "a" ∧
      unsaved.settled "a" = true ∧ unsaved.up "a" = true := by
  decide +kernel

end Monitor

end NeoRuntime.AppManager
