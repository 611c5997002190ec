import NeoRuntime.AiRuntime.SchedulerProof

/-!
# Shares of the sessions

Sessions that start without deficits and always have requests are served in exact proportion to their
weights (`selections_proportional`).
-/

namespace NeoRuntime.AiRuntime

open List

variable {capacity : ℕ} {s s' : Scheduler} {sid : String}

/-- These are the sessions with requests, and the priorities of their requests. -/
def Scheduler.Busy (sessions : Finset String) (priority : String → UInt32) (s : Scheduler) : Prop :=
  s.active = sessions ∧
    ∀ sid ∈ sessions, s.queueOf sid ≠ [] ∧ ∀ req ∈ s.queueOf sid, req.priority = priority sid

instance (sessions : Finset String) (priority : String → UInt32) (s : Scheduler) :
    Decidable (s.Busy sessions priority) := by
  unfold Scheduler.Busy
  infer_instance

def ofSession (sid : String) (requests : List Request) : List Request :=
  requests.filter fun req => req.sessionId = sid

/-- The sum of the weights `1 + priority`. -/
def totalWeight (sessions : Finset String) (priority : String → UInt32) : ℕ :=
  ∑ sid ∈ sessions, (1 + (priority sid).toNat)

section Share

variable {sessions : Finset String} {priority : String → UInt32}

theorem Scheduler.Busy.weight (busy : s.Busy sessions priority) (range : ∀ sid ∈ sessions, priority sid ≤ 7)
    (mem : sid ∈ sessions) : s.weight sid = 1 + (priority sid).toNat := by
  obtain ⟨front, rest, queue⟩ := List.exists_cons_of_ne_nil (busy.2 sid mem).1
  have constant := (busy.2 sid mem).2 front (by rw [queue]; exact List.mem_cons_self)
  have small : (priority sid).toNat ≤ 7 := range sid mem
  rw [Scheduler.weight, queue]
  exact constant ▸ weightOf_eq (by rw [constant]; omega)

/-- A selection among the sessions, all of which keep requests, is a round. -/
theorem Selected.round_of_busy {j : String} {front : Request} (selected : Selected s s' j front)
    (range : ∀ sid ∈ sessions, priority sid ≤ 7) (busy : s.Busy sessions priority)
    (busy' : s'.Busy sessions priority) :
    Round sessions (fun sid => 1 + ((priority sid).toNat : ℤ)) s.deficitOf s'.deficitOf j := by
  obtain ⟨d, round, same⟩ := selected.round
  rw [busy.1] at round
  rw [busy'.1] at same
  have weights : ∀ i ∈ sessions, s.weight i = 1 + (priority i).toNat := fun i mem =>
    busy.weight range mem
  refine ⟨round.mem, fun i mem => ?_, fun i mem other => ?_, ?_⟩
  · rw [← weights i mem, ← weights j round.mem]
    exact round.greatest i mem
  · rw [same i mem, ← weights i mem]
    exact round.gains i mem other
  · rw [same j round.mem, ← weights j round.mem, round.pays, Finset.sum_congr rfl weights]

/-- What was taken and accepted since `s`, while the sessions were busy. -/
structure Share (sessions : Finset String) (priority : String → UInt32) (s m : Scheduler)
    (selected accepted : List Request) : Prop where
  taken : m.taken = s.taken ++ selected
  submitted : m.accepted = s.accepted ++ accepted
  order : ∀ sid, ofSession sid selected ++ m.queueOf sid = s.queueOf sid ++ ofSession sid accepted
  rounds : Rounds sessions (fun sid => 1 + ((priority sid).toNat : ℤ)) (fun _ => 0) m.deficitOf
    (selected.map Request.sessionId)

theorem ofSession_append (sid : String) (xs ys : List Request) :
    ofSession sid (xs ++ ys) = ofSession sid xs ++ ofSession sid ys :=
  List.filter_append xs ys

theorem ofSession_singleton (sid : String) (req : Request) :
    ofSession sid [req] = if sid = req.sessionId then [req] else [] := by
  rw [ofSession, List.filter_singleton]
  by_cases same : sid = req.sessionId
  · simp [same]
  · simp [same, Ne.symm same]

theorem Share.step {m m' : Scheduler} {selected accepted : List Request} {event : SchedulerEvent}
    (share : Share sessions priority s m selected accepted) (sound : m.Sound capacity)
    (range : ∀ sid ∈ sessions, priority sid ≤ 7) (busy : m.Busy sessions priority)
    (busy' : m'.Busy sessions priority) (effect : Effect m m' event) :
    ∃ selected accepted, Share sessions priority s m' selected accepted := by
  cases effect with
  | rejected same => exact ⟨selected, accepted, same ▸ share⟩
  | @accepted req queue deficits more taken =>
    refine ⟨selected, accepted ++ [req], taken.trans share.taken, ?_, fun sid => ?_, ?_⟩
    · rw [more, share.submitted, List.append_assoc]
    · rw [queue, ofSession_append, ofSession_singleton, ← List.append_assoc, ← share.order]
      split_ifs with same
      · rw [same, List.append_assoc]
      · rw [List.append_nil]
    · have same : m'.deficitOf = m.deficitOf := funext fun sid => by
        rw [Scheduler.deficitOf, Scheduler.deficitOf, deficits]
      rw [same]
      exact share.rounds
  | @selected order j front here =>
    have own : front.sessionId = j := sound.own j front (by rw [here.queue]; exact List.mem_cons_self)
    refine ⟨selected ++ [front], accepted, ?_, here.accepted.trans share.submitted, fun sid => ?_, ?_⟩
    · rw [here.taken, share.taken, List.append_assoc]
    · rw [ofSession_append, ofSession_singleton, ← share.order, own, List.append_assoc]
      split_ifs with same
      · rw [same, here.queue, List.singleton_append]
      · rw [here.others sid same, List.nil_append]
    · rw [List.map_append, List.map_singleton, own]
      exact share.rounds.round (here.round_of_busy range busy busy')

theorem Share.run {events : List SchedulerEvent} (range : ∀ sid ∈ sessions, priority sid ≤ 7)
    (sound : s.Sound capacity) (fresh : ∀ sid ∈ sessions, s.deficitOf sid = 0)
    (run : events.foldlM (schedulerStep capacity) s = some s')
    (busy : Along (schedulerStep capacity) (fun m _ => m.Busy sessions priority) s events)
    (busy' : s'.Busy sessions priority) :
    ∃ selected accepted, Share sessions priority s s' selected accepted := by
  have start : s.Busy sessions priority → Share sessions priority s s [] [] := by
    intro here
    refine ⟨(List.append_nil _).symm, (List.append_nil _).symm, fun _ => (List.append_nil _).symm, ?_⟩
    have zero : s.deficitOf = fun _ => 0 := funext fun sid => by
      by_cases mem : sid ∈ sessions
      · exact fresh sid mem
      · exact sound.deficitOf_of_notMem (by rwa [here.1])
    rw [zero]
    exact .none
  -- that a session keeps requests is only known in the state after the selection
  have kept : ∀ m event m',
      (m.Sound capacity ∧
        (m.Busy sessions priority → ∃ xs ys, Share sessions priority s m xs ys)) →
      m.Busy sessions priority → schedulerStep capacity m event = some m' →
      (m'.Sound capacity ∧
        (m'.Busy sessions priority → ∃ xs ys, Share sessions priority s m' xs ys)) := by
    rintro m event m' ⟨sound, share⟩ busy step
    obtain ⟨sound', effect⟩ := schedulerStep_effect sound step
    refine ⟨sound', fun busy' => ?_⟩
    obtain ⟨xs, ys, share⟩ := share busy
    exact share.step sound range busy busy' effect
  exact (foldlM_inv_along _ kept ⟨sound, fun here => ⟨[], [], start here⟩⟩ busy run).2 busy'

theorem length_ofSession (sid : String) (requests : List Request) :
    (ofSession sid requests).length = (requests.map Request.sessionId).count sid := by
  rw [ofSession, ← List.countP_eq_length_filter, List.count, List.countP_map]
  rfl

/-- Sessions that keep requests are served in the order of submission and in proportion to their
weights, and no deficit falls to the negative sum of the weights. -/
theorem selections_proportional {before events : List SchedulerEvent}
    (range : ∀ sid ∈ sessions, priority sid ≤ 7)
    (reached : before.foldlM (schedulerStep capacity) Scheduler.start = some s)
    (fresh : ∀ sid ∈ sessions, s.deficitOf sid = 0)
    (run : events.foldlM (schedulerStep capacity) s = some s')
    (busy : Along (schedulerStep capacity) (fun m _ => m.Busy sessions priority) s events)
    (busy' : s'.Busy sessions priority) :
    ∃ selected accepted, s'.taken = s.taken ++ selected ∧ s'.accepted = s.accepted ++ accepted ∧
      selected.length = events.countP SchedulerEvent.isSelect ∧
      ∀ sid ∈ sessions,
        ofSession sid selected ++ s'.queueOf sid = s.queueOf sid ++ ofSession sid accepted ∧
        -(totalWeight sessions priority : ℤ) < s'.deficitOf sid ∧
        ∀ k, selected.length = k * totalWeight sessions priority →
          (ofSession sid selected).length = k * (1 + (priority sid).toNat) ∧ s'.deficitOf sid = 0 := by
  have sound := run_sound reached
  obtain ⟨selected, accepted, share⟩ := Share.run range sound fresh run busy busy'
  obtain ⟨taken, same, length⟩ := run_taken sound run
  obtain rfl : selected = taken := List.append_cancel_left (share.taken.symm.trans same)
  have total : ∑ sid ∈ sessions, (1 + ((priority sid).toNat : ℤ)) = totalWeight sessions priority := by
    rw [totalWeight]
    push_cast
    rfl
  have positive : ∀ sid ∈ sessions, (0 : ℤ) < 1 + (priority sid).toNat := fun sid _ => by omega
  refine ⟨selected, accepted, share.taken, share.submitted, length, fun sid mem =>
    ⟨share.order sid, ?_, fun k multiple => ?_⟩⟩
  · rw [← total]
    exact (share.rounds.lower positive).2 sid mem
  · have lengths : ((selected.map Request.sessionId).length : ℤ) =
        k * ∑ sid ∈ sessions, (1 + ((priority sid).toNat : ℤ)) := by
      rw [total, List.length_map, multiple]
      push_cast
      rfl
    obtain ⟨count, zero⟩ := share.rounds.count_eq positive lengths mem
    refine ⟨?_, zero⟩
    rw [length_ofSession]
    exact_mod_cast count

end Share

def stateAfter (capacity : ℕ) (s : Scheduler) (events : List SchedulerEvent) : Scheduler :=
  (events.foldlM (schedulerStep capacity) s).getD s

theorem run_stateAfter {events : List SchedulerEvent}
    (accepted : (events.foldlM (schedulerStep capacity) s).isSome = true) :
    events.foldlM (schedulerStep capacity) s = some (stateAfter capacity s events) := by
  obtain ⟨s', run⟩ := Option.isSome_iff_exists.1 accepted
  rw [stateAfter, run, Option.getD_some]

def twoSessions : Scheduler :=
  stateAfter 8 Scheduler.start
    [.submit ⟨"a", 0, 0⟩, .submit ⟨"a", 0, 1⟩, .submit ⟨"b", 1, 2⟩, .submit ⟨"b", 1, 3⟩,
      .submit ⟨"b", 1, 4⟩]

def threeSelections : List SchedulerEvent := [.select ["a", "b"], .select ["b", "a"], .select ["b", "a"]]

theorem selections_proportional_three : ∃ selected accepted,
      (stateAfter 8 twoSessions threeSelections).taken = twoSessions.taken ++ selected ∧
      (stateAfter 8 twoSessions threeSelections).accepted = twoSessions.accepted ++ accepted ∧
      selected.length = threeSelections.countP SchedulerEvent.isSelect ∧
      ∀ sid ∈ ({"a", "b"} : Finset String),
        ofSession sid selected ++ (stateAfter 8 twoSessions threeSelections).queueOf sid =
          twoSessions.queueOf sid ++ ofSession sid accepted ∧
        -(totalWeight {"a", "b"} (fun sid => if sid = "a" then 0 else 1) : ℤ) <
          (stateAfter 8 twoSessions threeSelections).deficitOf sid ∧
        ∀ k, selected.length = k * totalWeight {"a", "b"} (fun sid => if sid = "a" then 0 else 1) →
          (ofSession sid selected).length = k * (1 + (if sid = "a" then 0 else 1 : UInt32).toNat) ∧
          (stateAfter 8 twoSessions threeSelections).deficitOf sid = 0 :=
  selections_proportional (by decide +kernel) (run_stateAfter (by decide +kernel)) (by decide +kernel)
    (run_stateAfter (by decide +kernel)) (by decide +kernel) (by decide +kernel)

end NeoRuntime.AiRuntime
