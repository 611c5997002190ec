import NeoRuntime.AppManager.MonitorProof
import NeoRuntime.Lib.Threads

/-!
# The limit of restarts

`handleContainerDown` restarts an app until its retries are used up, and then removes it from the
monitor and calls `OnGiveUpFn`.  The counter is reset by every restart that succeeds, and compared
with the limit long before it is changed.  If no restart succeeds, and the entry is only checked
while it is registered and nobody handles it, restarts are paid from the counter, and giving up from
the registration.
-/

namespace NeoRuntime.AppManager

namespace Monitor

/-- The calls of `restartContainer` and `OnGiveUpFn`. -/
inductive RetryEvent where
  | restart (e : MonitoredApp)
  | giveUp (e : MonitoredApp)
  deriving DecidableEq, Repr

def retryEvents (s : Monitor) : Action → List RetryEvent
  | .goroutine i .fire =>
      match s.goroutines[i]? with
      | some g =>
        if g.phase = .armed ∨ g.phase = .waiting then (g.todo.head?.map .restart).toList else []
      | none => []
  | .goroutine i (.look probe) =>
      match s.goroutines[i]? with
      | some g =>
        match g.phase, g.todo with
        | .look, e :: _ => if s.isDown e probe && s.exhausted e then [.giveUp e] else []
        | _, _ => []
      | none => []
  | _ => []

variable (s : Monitor)

def observe (action : Action) : Monitor × List RetryEvent :=
  (s.step action, s.retryEvents action)

variable (e : MonitoredApp)

def limit : ℕ := e.manifest.effectiveRestartMaxRetries

/-- At most as many restarts as there are retries before giving up, which happens once. -/
def GivesUp (log : List RetryEvent) : Prop :=
  (log.takeWhile (· ≠ .giveUp e)).count (.restart e) ≤ limit e ∧ log.count (.giveUp e) ≤ 1

/-! ## The condition -/

/-- The goroutine is in `handleContainerDown`, past the test of the counter. -/
def handles (serial : ℕ) (g : Goroutine) : Bool :=
  (g.phase = .armed || g.phase = .waiting || g.phase = .stopping || g.phase = .starting) &&
    g.todo.head?.any (·.serial = serial)

def handlers (serial : ℕ) : ℕ := s.goroutines.countP (handles serial)

def current (i : ℕ) (phase : Phase) : Option MonitoredApp :=
  match s.goroutines[i]? with
  | some g => if g.phase = phase then g.todo.head? else none
  | none => none

def checked : Action → Option MonitoredApp
  | .goroutine i (.look _) => s.current i .look
  | _ => none

def started : Action → Option MonitoredApp
  | .goroutine i (.startNew true) => s.current i .starting
  | _ => none

/-- The entry is checked only while it is registered and nobody handles it, and no restart of it
succeeds. -/
structure Undisturbed (e : MonitoredApp) (s : Monitor) (action : Action) : Prop where
  registered : ∀ x ∈ s.checked action, x.serial = e.serial →
    s.monitoredApps.lookup x.appId = some x ∧ s.handlers x.serial = 0
  fails : ∀ x ∈ s.started action, x.serial ≠ e.serial

instance (e : MonitoredApp) (s : Monitor) (action : Action) : Decidable (Undisturbed e s action) :=
  decidable_of_iff ((∀ x ∈ s.checked action, x.serial = e.serial →
    s.monitoredApps.lookup x.appId = some x ∧ s.handlers x.serial = 0) ∧
    ∀ x ∈ s.started action, x.serial ≠ e.serial)
    ⟨fun ⟨registered, fails⟩ => ⟨registered, fails⟩, fun h => ⟨h.registered, h.fails⟩⟩

/-! ## What restarts and giving up are paid from -/

/-- The goroutine has called `restartContainer`, and the counter has not changed since. -/
def launched (g : Goroutine) : Bool :=
  (g.phase = .stopping || g.phase = .starting) && g.todo.head? = some e

def remaining (s : Monitor) : ℕ :=
  limit e - (s.restartCount e.serial + s.goroutines.countP (launched e))

/-- Whether the entry is registered, or may still be. -/
def registrations (s : Monitor) : ℕ :=
  if s.monitoredApps.lookup e.appId = some e ∨ s.nextSerial ≤ e.serial then 1 else 0

/-- Nobody handles the entry but one goroutine, which has found a retry left. -/
structure Handled (e : MonitoredApp) (s : Monitor) : Prop where
  alone : s.handlers e.serial ≤ 1
  below : ∀ g ∈ s.goroutines, g.phase = .armed ∨ g.phase = .waiting → g.todo.head? = some e →
    s.restartCount e.serial < limit e
  numbered : ∀ appId x, s.monitoredApps.lookup appId = some x → x.serial < s.nextSerial

/-- The calls of a step are paid for. -/
structure Pays (e : MonitoredApp) (s : Monitor) (events : List RetryEvent) (s' : Monitor) : Prop where
  handled : Handled e s'
  restarts : events.count (.restart e) + remaining e s' ≤ remaining e s
  givesUp : events.count (.giveUp e) + registrations e s' ≤ registrations e s

theorem handled_init : Handled e init where
  alone := by simp [handlers, init, handles]
  below g mem phase head := by
    rw [List.mem_singleton.mp mem] at head
    cases head
  numbered _ _ found := by simp [init] at found

section Steps

variable {e x : MonitoredApp} {s s' s'' : Monitor} {events : List RetryEvent} {appId : String}
  {g g' : Goroutine} {i : ℕ} {c : Call}

theorem pays_refl (handled : Handled e s) : Pays e s [] s :=
  ⟨handled, Nat.le_of_eq (Nat.zero_add _), Nat.le_of_eq (Nat.zero_add _)⟩

theorem Pays.congr (pays : Pays e s events s') (goroutines : s''.goroutines = s'.goroutines)
    (counts : s''.restartCount e.serial = s'.restartCount e.serial) (apps : s''.monitoredApps = s'.monitoredApps)
    (serials : s''.nextSerial = s'.nextSerial) : Pays e s events s'' where
  handled :=
    { alone := by
        rw [handlers, goroutines]
        exact pays.handled.alone
      below := by
        rw [goroutines, counts]
        exact pays.handled.below
      numbered := by
        rw [apps, serials]
        exact pays.handled.numbered }
  restarts := by
    rw [remaining, goroutines, counts]
    exact pays.restarts
  givesUp := by
    rw [registrations, apps, serials]
    exact pays.givesUp

def Idle (g : Goroutine) : Prop :=
  g.phase = .awake ∨ g.phase = .parked ∨ g.phase = .look ∨ g.phase = .returned

theorem Idle.handles (idle : Idle g) (serial : ℕ) : handles serial g = false := by
  obtain phase | phase | phase | phase := idle <;> simp [Monitor.handles, phase]

theorem Idle.launched (idle : Idle g) : launched e g = false := by
  obtain phase | phase | phase | phase := idle <;> simp [Monitor.launched, phase]

theorem Idle.not_armed (idle : Idle g) : ¬ (g.phase = .armed ∨ g.phase = .waiting) := by
  obtain phase | phase | phase | phase := idle <;> simp [phase]

theorem idle_next : Idle g.next := by
  unfold Idle Goroutine.next
  dsimp only
  split_ifs <;> simp

theorem handles_of_launched (launched : launched e g = true) : handles e.serial g = true := by
  simp only [Monitor.launched, Bool.and_eq_true, Bool.or_eq_true, decide_eq_true_eq] at launched
  obtain ⟨phase | phase, head⟩ := launched <;> simp [handles, phase, head]

theorem handles_of_armed (armed : g.phase = .armed ∨ g.phase = .waiting)
    (head : g.todo.head? = some e) : handles e.serial g = true := by
  obtain phase | phase := armed <;> simp [handles, phase, head]

theorem not_launched_of_head (other : g.todo.head? ≠ some e) : launched e g = false := by
  simp [launched, other]

/-- Only goroutines that have not called `restartContainer` are woken. -/
theorem wake_cases : wake x g = g ∨ Idle (wake x g) ∧ launched e g = false := by
  unfold wake
  split_ifs with parked waiting
  · exact .inr ⟨.inr (.inr (.inr rfl)), by simp [launched, parked.1]⟩
  · exact .inr ⟨idle_next, by simp [launched, waiting.1]⟩
  · exact .inl rfl

variable (handled : Handled e s)

include handled

/-- A step of a goroutine, with what changes of the number of its kind. -/
theorem Handled.pays_setGoroutine (found : s.goroutines[i]? = some g)
    (alone : handles e.serial g = false → handles e.serial g' = true → s.handlers e.serial = 0)
    (below : g'.phase = .armed ∨ g'.phase = .waiting → g'.todo.head? = some e →
      s.restartCount e.serial < limit e)
    (paid : launched e g' = launched e g) : Pays e s [] (s.setGoroutine i g') where
  handled :=
    { alone := by
        have count := countP_set_add (p := handles e.serial) found g'
        have bound := handled.alone
        change (s.goroutines.set i g').countP _ ≤ 1
        cases was : handles e.serial g with
        | false =>
          cases is : handles e.serial g' with
          | false =>
            rw [was, is] at count
            exact Nat.le_trans (Nat.le_of_eq count) bound
          | true =>
            have none : s.goroutines.countP (handles e.serial) = 0 := alone was is
            rw [was, is, none] at count
            exact Nat.le_of_eq count
        | true =>
          have le := Bool.toNat_le (handles e.serial g')
          rw [was] at count
          unfold handlers at bound
          simp only [Bool.toNat_true] at count
          omega
      below := by
        intro g'' mem phase head
        obtain mem | rfl := List.mem_or_eq_of_mem_set mem
        · exact handled.below g'' mem phase head
        · exact below phase head
      numbered := handled.numbered }
  restarts := by
    have count := countP_set_add (p := launched e) found g'
    rw [paid, Nat.add_right_cancel_iff] at count
    change 0 + (limit e - (_ + (s.goroutines.set i g').countP _)) ≤ _
    rw [Nat.zero_add, count]
    exact Nat.le_refl _
  givesUp := Nat.le_of_eq (Nat.zero_add _)

theorem Handled.pays_idle (found : s.goroutines[i]? = some g)
    (was : launched e g = false) (idle : Idle g') : Pays e s [] (s.setGoroutine i g') := by
  refine handled.pays_setGoroutine found (fun _ handles => ?_) (fun armed => ?_) ?_
  · exact absurd (handles.symm.trans (idle.handles _)) nofun
  · exact absurd armed idle.not_armed
  · rw [was, idle.launched]

omit handled in
/-- What `RemoveApp` does to the goroutines, and what it leaves alone. -/
theorem removeApp_woken (e : MonitoredApp) (s : Monitor) (appId : String) :
    (∃ f : Goroutine → Goroutine, (s.removeApp appId).goroutines = s.goroutines.map f ∧
      ∀ g, f g = g ∨ Idle (f g) ∧ launched e g = false) ∧
    (s.removeApp appId).restartCount = s.restartCount ∧
      (s.removeApp appId).nextSerial = s.nextSerial := by
  unfold removeApp
  dsimp only
  split
  · exact ⟨⟨id, (List.map_id _).symm, fun _ => .inl rfl⟩, rfl, rfl⟩
  next x _ => exact ⟨⟨wake x, rfl, fun _ => wake_cases⟩, rfl, rfl⟩

theorem Handled.removeApp (appId : String) : Pays e s [] (s.removeApp appId) := by
  obtain ⟨-, -, -, -, apps⟩ := removeApp_fields s appId
  obtain ⟨⟨f, goroutines, woken⟩, counts, serials⟩ := removeApp_woken e s appId
  have kept {other : String} {x : MonitoredApp}
      (found : (s.removeApp appId).monitoredApps.lookup other = some x) :
      s.monitoredApps.lookup other = some x := by
    rw [apps] at found
    by_cases removed : other = appId
    · rw [removed, AList.lookup_erase] at found
      cases found
    · rwa [AList.lookup_erase_ne removed] at found
  refine ⟨⟨?_, ?_, ?_⟩, ?_, ?_⟩
  · refine Nat.le_trans ?_ handled.alone
    rw [handlers, goroutines, List.countP_map]
    refine List.countP_mono_left fun g _ handles => ?_
    obtain same | ⟨idle, -⟩ := woken g
    · rwa [Function.comp_apply, same] at handles
    · exact absurd (handles.symm.trans (idle.handles _)) nofun
  · rw [goroutines, counts]
    intro g' mem armed head
    obtain ⟨g, member, rfl⟩ := List.mem_map.mp mem
    obtain same | ⟨idle, -⟩ := woken g
    · rw [same] at armed head
      exact handled.below g member armed head
    · exact absurd armed idle.not_armed
  · rw [serials]
    exact fun other x found => handled.numbered other x (kept found)
  · have launches : launched e ∘ f = launched e := by
      funext g
      obtain same | ⟨idle, was⟩ := woken g
      · rw [Function.comp_apply, same]
      · rw [Function.comp_apply, idle.launched, was]
    rw [remaining, goroutines, counts, List.countP_map, launches]
    exact Nat.le_of_eq (Nat.zero_add _)
  · rw [List.count_nil, Nat.zero_add, registrations, registrations, serials]
    split_ifs with after before
    · exact Nat.le_refl _
    · exact absurd (after.imp_left kept) before
    · exact Nat.zero_le _
    · exact Nat.le_refl _

omit handled in
theorem Pays.trans (first : Pays e s events s') (second : Pays e s' [] s'') :
    Pays e s events s'' := by
  refine ⟨second.handled, ?_, ?_⟩
  · have := first.restarts
    have := second.restarts
    rw [List.count_nil] at this
    omega
  · have := first.givesUp
    have := second.givesUp
    rw [List.count_nil] at this
    omega

theorem Handled.addApp (m : AppManifest) : Pays e s [] (s.addApp appId m) := by
  unfold Monitor.addApp
  dsimp only
  split_ifs
  · refine ⟨⟨?_, ?_, ?_⟩, ?_, ?_⟩
    · refine Nat.le_trans (Nat.le_of_eq ?_) handled.alone
      simp [handlers, handles]
    · intro g mem armed head
      obtain mem | mem := List.mem_append.mp mem
      · exact handled.below g mem armed head
      · rw [List.mem_singleton.mp mem] at head
        cases head
    · intro other x found
      by_cases same : other = appId
      · rw [same, AList.lookup_insert] at found
        rw [← Option.some.inj found]
        exact Nat.lt_succ_self _
      · rw [AList.lookup_insert_ne same] at found
        exact Nat.lt_succ_of_lt (handled.numbered other x found)
    · simp [remaining, launched]
    · rw [List.count_nil, Nat.zero_add, registrations, registrations]
      dsimp only
      split_ifs with after before
      · exact Nat.le_refl _
      · refine absurd ?_ before
        obtain registered | fresh := after
        · by_cases same : e.appId = appId
          · rw [same, AList.lookup_insert] at registered
            rw [← Option.some.inj registered]
            exact .inr (Nat.le_refl _)
          · rw [AList.lookup_insert_ne same] at registered
            exact .inl registered
        · exact .inr (Nat.le_of_succ_le fresh)
      · exact Nat.zero_le _
      · exact Nat.le_refl _
  · exact (pays_refl handled).congr rfl rfl rfl rfl

theorem Handled.callStep (ok : Bool) : Pays e s [] (s.callStep i c ok) := by
  unfold Monitor.callStep
  cases c.phase with
  | startTask m =>
    dsimp only
    split_ifs <;> exact (pays_refl handled).congr rfl rfl rfl rfl
  | addApp m => exact (handled.addApp m).congr rfl rfl rfl rfl
  | setRunning => exact (pays_refl handled).congr rfl rfl rfl rfl
  | stopTask =>
    dsimp only
    split_ifs <;> exact (pays_refl handled).congr rfl rfl rfl rfl
  | removeApp =>
    have set : Pays e s [] (s.setPhase i c .setStopped) :=
      (pays_refl handled).congr rfl rfl rfl rfl
    exact set.trans (set.handled.removeApp c.appId)
  | setStopped =>
    dsimp only
    split_ifs <;> exact (pays_refl handled).congr rfl rfl rfl rfl
  | returned => exact pays_refl handled

/-! ### Goroutines -/

omit handled in
theorem count_restart (head : Option MonitoredApp) :
    (head.map RetryEvent.restart).toList.count (.restart e) = if head = some e then 1 else 0 := by
  cases head with
  | none => rfl
  | some x => simp [List.count_singleton]

omit handled in
theorem count_giveUp_restart (head : Option MonitoredApp) :
    (head.map RetryEvent.restart).toList.count (.giveUp e) = 0 := by
  cases head <;> simp

section

variable (found : s.goroutines[i]? = some g)

include found

theorem Handled.fire (armed : g.phase = .armed ∨ g.phase = .waiting) :
    Pays e s (g.todo.head?.map .restart).toList (s.setGoroutine i { g with phase := .stopping }) := by
  have was : launched e g = false := by obtain phase | phase := armed <;> simp [launched, phase]
  by_cases head : g.todo.head? = some e
  · have handling := handles_of_armed armed head
    have pays := handled.below g (List.mem_of_getElem? found) armed head
    have count := countP_set_add (p := launched e) found { g with phase := .stopping }
    have alone : (s.goroutines.set i { g with phase := .stopping }).countP (handles e.serial) ≤ 1 := by
      have count := countP_set_add (p := handles e.serial) found { g with phase := .stopping }
      have same : handles e.serial { g with phase := .stopping } = true := by simp [handles, head]
      rw [handling, same, Nat.add_right_cancel_iff] at count
      rw [count]
      exact handled.alone
    have fewer : (s.goroutines.set i { g with phase := .stopping }).countP (launched e) ≤ 1 :=
      Nat.le_trans (List.countP_mono_left fun _ _ => handles_of_launched) alone
    have is : launched e { g with phase := .stopping } = true := by simp [launched, head]
    rw [was, is] at count
    simp only [Bool.toNat_false, Bool.toNat_true] at count
    refine ⟨⟨alone, fun g' mem phase head' => ?_, handled.numbered⟩, ?_, ?_⟩
    · obtain mem | rfl := List.mem_or_eq_of_mem_set mem
      · exact handled.below g' mem phase head'
      · simp at phase
    · rw [count_restart, if_pos head]
      change 1 + (limit e - (s.restartCount e.serial + (s.goroutines.set i _).countP _)) ≤
        limit e - (s.restartCount e.serial + s.goroutines.countP _)
      omega
    · rw [count_giveUp_restart]
      exact Nat.le_of_eq (Nat.zero_add _)
  · have other : launched e { g with phase := .stopping } = false := not_launched_of_head head
    have pays : Pays e s [] (s.setGoroutine i { g with phase := .stopping }) := by
      refine handled.pays_setGoroutine found (fun was is => ?_) (fun phase => by simp at phase)
        (other.trans was.symm)
      have same : handles e.serial { g with phase := .stopping } = handles e.serial g := by
        obtain phase | phase := armed <;> simp [handles, phase]
      exact absurd (is.symm.trans (same.trans was)) (by simp)
    refine ⟨pays.handled, ?_, ?_⟩
    · rw [count_restart, if_neg head]
      exact pays.restarts
    · rw [count_giveUp_restart]
      exact pays.givesUp

theorem Handled.startNew (phase : g.phase = .starting) (head : g.todo.head? = some x) (ok : Bool)
    (fails : ok = true → x.serial ≠ e.serial) :
    Pays e s [] ({ s with
      restartCount := Function.update s.restartCount x.serial
        (if ok then 0 else s.restartCount x.serial + 1) }.setGoroutine i g.next) := by
  by_cases same : x.serial = e.serial
  · have failed : ok = false := by
      cases ok with
      | false => rfl
      | true => exact absurd same (fails rfl)
    have handling : handles e.serial g = true := by simp [handles, phase, head, same]
    have count := countP_set_add (p := launched e) found g.next
    have none : (s.goroutines.set i g.next).countP (handles e.serial) = 0 := by
      have count := countP_set_add (p := handles e.serial) found g.next
      have alone : s.goroutines.countP (handles e.serial) ≤ 1 := handled.alone
      rw [handling, idle_next.handles] at count
      simp only [Bool.toNat_false, Bool.toNat_true] at count
      omega
    rw [failed, same]
    refine ⟨⟨Nat.le_trans (Nat.le_of_eq none) (Nat.zero_le 1), fun g' mem armed head' => ?_,
      handled.numbered⟩, ?_, Nat.le_of_eq (Nat.zero_add _)⟩
    · have handling := handles_of_armed armed head'
      exact absurd handling (by simpa using List.countP_eq_zero.mp none g' mem)
    · rw [idle_next.launched] at count
      have le := Bool.toNat_le (launched e g)
      change 0 + (limit e - (Function.update s.restartCount e.serial _ e.serial +
        (s.goroutines.set i g.next).countP _)) ≤ limit e - (_ + s.goroutines.countP _)
      rw [Function.update_self, if_neg (by decide)]
      simp only [Bool.toNat_false] at count
      omega
  · have other : launched e g = false := by
      refine not_launched_of_head fun this => same ?_
      rw [Option.some.inj (head.symm.trans this)]
    refine (handled.pays_idle found other idle_next).congr rfl ?_ rfl rfl
    exact Function.update_of_ne (Ne.symm same) _ _

theorem Handled.look (phase : g.phase = .look) (head : g.todo.head? = some x) {probe : Probe}
    (limited : 0 < limit e)
    (registered : x.serial = e.serial →
      s.monitoredApps.lookup x.appId = some x ∧ s.handlers x.serial = 0) :
    Pays e s (if s.isDown x probe && s.exhausted x then [.giveUp x] else [])
      (if s.isDown x probe then
        if s.exhausted x then (s.setGoroutine i g.next).removeApp x.appId
        else s.setGoroutine i { g with phase := .armed }
      else s.setGoroutine i g.next) := by
  have was : launched e g = false := by simp [launched, phase]
  have next : Pays e s [] (s.setGoroutine i g.next) := handled.pays_idle found was idle_next
  cases s.isDown x probe with
  | false => exact next
  | true =>
    cases exhausted : s.exhausted x with
    | false =>
      refine handled.pays_setGoroutine found (fun _ handles => ?_) (fun _ head' => ?_) ?_
      · have same : x.serial = e.serial := by simpa [Monitor.handles, head] using handles
        rw [← same]
        exact (registered same).2
      · obtain rfl := Option.some.inj (head.symm.trans head')
        simp only [Monitor.exhausted, Bool.and_eq_false_iff, decide_eq_false_iff_not] at exhausted
        exact Nat.lt_of_not_le (exhausted.resolve_left (not_not_intro limited))
      · rw [was]
        simp [launched]
    | true =>
      have removed : Pays e s [] ((s.setGoroutine i g.next).removeApp x.appId) :=
        next.trans (next.handled.removeApp x.appId)
      refine ⟨removed.handled, removed.restarts, ?_⟩
      by_cases same : x = e
      · subst same
        obtain ⟨-, -, -, -, apps⟩ := removeApp_fields (s.setGoroutine i g.next) x.appId
        obtain ⟨-, -, serials⟩ := removeApp_woken x (s.setGoroutine i g.next) x.appId
        have there := (registered rfl).1
        have numbered : x.serial < s.nextSerial := handled.numbered x.appId x there
        have before : registrations x s = 1 := if_pos (.inl there)
        have after : registrations x ((s.setGoroutine i g.next).removeApp x.appId) = 0 := by
          refine if_neg (not_or_intro ?_ ?_)
          · rw [apps, AList.lookup_erase]
            exact nofun
          · rw [serials]
            exact Nat.not_le_of_lt numbered
        simp only [Bool.and_self, if_true, before, after, List.count_singleton_self]
        exact Nat.le_refl _
      · have other : [RetryEvent.giveUp x].count (.giveUp e) = 0 := by
          simp [same]
        exact Nat.le_trans (Nat.le_of_eq (congrArg (· + _) other)) removed.givesUp

theorem Handled.goroutineStep (move : Move)
    (limited : 0 < limit e) (undisturbed : Undisturbed e s (.goroutine i move)) :
    Pays e s (s.retryEvents (.goroutine i move)) (s.goroutineStep i g move) := by
  have calm (phase : g.phase = .awake ∨ g.phase = .parked) : launched e g = false := by
    obtain phase | phase := phase <;> simp [launched, phase]
  unfold Monitor.goroutineStep
  cases move with
  | rest =>
    dsimp only
    split_ifs with ready
    · exact handled.pays_idle found (calm (.inl ready.1)) (.inr (.inl rfl))
    · exact pays_refl handled
  | leave =>
    dsimp only
    split_ifs with ready
    · exact handled.pays_idle found (calm (.inl ready.1)) (.inr (.inr (.inr rfl)))
    · exact pays_refl handled
  | tick order =>
    dsimp only
    by_cases ready : g.phase = .awake ∨ g.phase = .parked
    · rw [if_pos ready]
      split
      · exact handled.pays_idle found (calm ready) (.inr (.inr (.inl rfl)))
      · split_ifs with listed none
        · exact handled.pays_idle found (calm ready) (.inl rfl)
        · exact handled.pays_idle found (calm ready) (.inr (.inr (.inl rfl)))
        · exact pays_refl handled
    · rw [if_neg ready]
      exact pays_refl handled
  | look probe =>
    dsimp only
    split
    next x rest phase todo =>
      have head : g.todo.head? = some x := by rw [todo, List.head?_cons]
      have checked : s.checked (.goroutine i (.look probe)) = some x := by
        simp [Monitor.checked, current, found, phase, head]
      have events : s.retryEvents (.goroutine i (.look probe)) =
          if s.isDown x probe && s.exhausted x then [.giveUp x] else [] := by
        simp only [retryEvents, found, phase, todo]
      rw [events]
      exact handled.look found phase head limited (undisturbed.registered x checked)
    next other =>
      have events : s.retryEvents (.goroutine i (.look probe)) = [] := by
        simp only [retryEvents, found]
      rw [events]
      exact pays_refl handled
  | wait =>
    dsimp only
    split
    next x rest phase todo =>
      have was : launched e g = false := by simp [launched, phase]
      split_ifs
      · exact handled.pays_idle found was idle_next
      · refine handled.pays_setGoroutine found (fun was is => ?_) (fun _ head => ?_) ?_
        · have same : handles e.serial { g with phase := .waiting } = handles e.serial g := by
            simp [handles, phase]
          exact absurd (is.symm.trans (same.trans was)) (by simp)
        · exact handled.below g (List.mem_of_getElem? found) (.inl phase) head
        · rw [was]
          simp [launched]
    · exact pays_refl handled
  | fire =>
    simp only [retryEvents, found]
    split_ifs with armed
    · exact handled.fire found armed
    · exact pays_refl handled
  | stopOld =>
    dsimp only
    split
    next x rest phase todo =>
      have set : Pays e s [] (s.setGoroutine i { g with phase := .starting }) := by
        refine handled.pays_setGoroutine found (fun was is => ?_) (fun armed => by simp at armed) ?_
        · have same : handles e.serial { g with phase := .starting } = handles e.serial g := by
            simp [handles, phase]
          exact absurd (is.symm.trans (same.trans was)) (by simp)
        · simp [launched, phase]
      exact set.congr rfl rfl rfl rfl
    · exact pays_refl handled
  | startNew ok =>
    dsimp only
    split
    next x rest phase todo =>
      have head : g.todo.head? = some x := by rw [todo, List.head?_cons]
      have fails (success : ok = true) : x.serial ≠ e.serial := by
        refine undisturbed.fails x ?_
        simp [Monitor.started, current, success, found, phase, head]
      have pays := handled.startNew found phase head ok fails
      cases ok <;> exact pays.congr rfl rfl rfl rfl
    · exact pays_refl handled

end

theorem Handled.step (limited : 0 < limit e) (action : Action)
    (undisturbed : Undisturbed e s action) : Pays e s (s.retryEvents action) (s.step action) := by
  unfold Monitor.step
  cases action with
  | startApp appId m =>
    dsimp only
    split_ifs <;> exact (pays_refl handled).congr rfl rfl rfl rfl
  | stopApp appId =>
    dsimp only
    split_ifs <;> exact (pays_refl handled).congr rfl rfl rfl rfl
  | call i ok =>
    dsimp only
    split
    · exact handled.callStep ok
    · exact pays_refl handled
  | removeApp appId => exact handled.removeApp appId
  | exit appId => exact (pays_refl handled).congr rfl rfl rfl rfl
  | goroutine i move =>
    dsimp only
    split
    next g found => exact handled.goroutineStep found move limited undisturbed
    next missing =>
      have events : s.retryEvents (.goroutine i move) = [] := by
        cases move <;> simp [retryEvents, missing]
      rw [events]
      exact pays_refl handled

end Steps

/-- If the entry is checked only while it is registered and nobody handles it, and no restart
succeeds, it is restarted at most as often as it has retries, and given up once. -/
theorem gives_up_after_retries (e : MonitoredApp) (limited : 0 < limit e) (actions : List Action)
    (undisturbed : AlongLog observe (Undisturbed e) init actions) :
    GivesUp e (runLog observe init actions).2 := by
  have restarts := AlongLog.count_le (Handled e) (RetryEvent.restart e) (remaining e)
    (fun s action handled cond => (handled.step limited action cond).restarts)
    (fun s action handled cond => (handled.step limited action cond).handled) (handled_init e)
    undisturbed
  have givesUp := AlongLog.count_le (Handled e) (RetryEvent.giveUp e) (registrations e)
    (fun s action handled cond => (handled.step limited action cond).givesUp)
    (fun s action handled cond => (handled.step limited action cond).handled) (handled_init e)
    undisturbed
  constructor
  · calc
      _ ≤ (runLog observe init actions).2.count (.restart e) :=
        (List.takeWhile_sublist _).count_le _
      _ ≤ remaining e init := restarts
      _ ≤ limit e := Nat.sub_le _ _
  · refine Nat.le_trans givesUp ?_
    unfold registrations
    split_ifs <;> simp

def limitedEntry : MonitoredApp where
  serial := 0
  appId := "a"
  manifest := { sampleManifest with autoRestart := { enabled := true, maxRetries := 1 } }

def startingLimited : List Action :=
  .startApp "a" limitedEntry.manifest :: List.replicate 3 (.call 0 true)

def restarting (ok : Bool) : List Action :=
  [.exit "a", .goroutine 1 (.tick []), .goroutine 1 (.look .healthy), .goroutine 1 .wait,
    .goroutine 1 .fire, .goroutine 1 .stopOld, .goroutine 1 (.startNew ok)]

def checking : List Action := [.goroutine 1 (.tick []), .goroutine 1 (.look .healthy)]

/-- The restart fails, and the app is given up. -/
theorem app_given_up_after_failure : RetryEvent.giveUp limitedEntry ∈
        (runLog observe init (startingLimited ++ restarting false ++ checking)).2 ∧
      GivesUp limitedEntry (runLog observe init (startingLimited ++ restarting false ++ checking)).2 :=
  ⟨by decide +kernel, gives_up_after_retries limitedEntry (by decide) _ (by decide +kernel)⟩

/-- Every restart that succeeds resets the counter; and the app is given up twice. -/
theorem app_restarted_without_end : limit limitedEntry = 1 ∧
      (runLog observe init (startingLimited ++ restarting true ++ restarting true)).2 =
        [.restart limitedEntry, .restart limitedEntry] ∧
      (runLog observe init (startingLimited ++ restarting false ++ checking ++ checking)).2 =
        [.restart limitedEntry, .giveUp limitedEntry, .giveUp limitedEntry] := by
  decide +kernel

end Monitor

end NeoRuntime.AppManager
