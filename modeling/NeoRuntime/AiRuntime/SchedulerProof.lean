import Mathlib.Algebra.Order.BigOperators.Group.List
import NeoRuntime.AiRuntime.Scheduler
import NeoRuntime.Lib.Deficit

/-!
# Selections as rounds of the deficit game

* `select_selected`: a selection takes the front request of one session and is a round of the deficit
  game among the sessions with requests.
* `schedulerStep_effect`: what each event does.
* `run_sound`, `run_taken`: the requests are counted, and every selection takes one.
-/

namespace NeoRuntime.AiRuntime

open List

/-! ## The sessions with requests -/

def Scheduler.active (s : Scheduler) : Finset String := s.queues.keys.toFinset

def Scheduler.weight (s : Scheduler) (sid : String) : ℤ :=
  (s.queueOf sid).head?.elim 0 fun front => weightOf front.priority

structure Scheduler.Sound (capacity : ℕ) (s : Scheduler) : Prop where
  nonempty : ∀ sid, s.queues.lookup sid ≠ some []
  total : s.totalQueued = ((Dict.values s.queues).map List.length).sum
  bounded : s.totalQueued ≤ capacity
  /-- Only sessions with requests have a deficit. -/
  deficit : ∀ sid, s.queues.lookup sid = none → s.deficits.lookup sid = none
  own : ∀ sid, ∀ req ∈ s.queueOf sid, req.sessionId = sid

variable {capacity : ℕ} {s s' : Scheduler} {sid : String}

theorem start_sound (capacity : ℕ) : Scheduler.start.Sound capacity :=
  ⟨by simp [Scheduler.start], rfl, Nat.zero_le _, fun _ _ => rfl, by simp [Scheduler.start, Scheduler.queueOf]⟩

theorem Scheduler.mem_active : sid ∈ s.active ↔ ∃ queue, s.queues.lookup sid = some queue := by
  rw [Scheduler.active, List.mem_toFinset, ← AList.mem_keys, ← AList.lookup_isSome, Option.isSome_iff_exists]

theorem Scheduler.Sound.mem_active_iff (sound : s.Sound capacity) :
    sid ∈ s.active ↔ s.queueOf sid ≠ [] := by
  rw [Scheduler.mem_active, Scheduler.queueOf]
  cases found : s.queues.lookup sid with
  | none => simp
  | some queue =>
    have := sound.nonempty sid
    rw [found] at this
    simpa using this

theorem Scheduler.Sound.deficitOf_of_notMem (sound : s.Sound capacity) (idle : sid ∉ s.active) :
    s.deficitOf sid = 0 := by
  have missing : s.queues.lookup sid = none := by
    rw [Scheduler.mem_active, ← Option.isSome_iff_exists, Option.not_isSome_iff_eq_none] at idle
    exact idle
  rw [Scheduler.deficitOf, sound.deficit sid missing, Option.getD_none]

theorem Scheduler.Sound.card_active_le (sound : s.Sound capacity) : s.active.card ≤ capacity := by
  have keys : s.active.card ≤ (Dict.values s.queues).length := by
    refine (List.toFinset_card_le _).trans_eq ?_
    simp [AList.keys, List.keys, Dict.values]
  have each : ∀ n ∈ (Dict.values s.queues).map List.length, 1 ≤ n := by
    intro n at_
    obtain ⟨queue, mem, rfl⟩ := List.mem_map.1 at_
    obtain ⟨⟨sid, queue⟩, entry, rfl⟩ := List.mem_map.1 mem
    have found : s.queues.lookup sid = some queue := AList.mem_lookup_iff.2 entry
    refine List.length_pos_iff.2 fun empty => sound.nonempty sid ?_
    rw [found, ← empty]
  have sum := List.length_le_sum_of_one_le _ each
  rw [List.length_map, ← sound.total] at sum
  exact (keys.trans sum).trans sound.bounded

/-! ## Submissions -/

theorem queueOf_insert (queues : Dict String (List Request)) (sid other : String) (queue : List Request) :
    ((queues.insert sid queue).lookup other).getD [] =
      if other = sid then queue else (queues.lookup other).getD [] := by
  rw [Dict.lookup_insert_eq]
  split_ifs <;> rfl

theorem sum_values_eq (queues : Dict String (List Request)) (sid : String) :
    ((Dict.values queues).map List.length).sum =
      ((queues.lookup sid).getD []).length + ((Dict.values (queues.erase sid)).map List.length).sum := by
  cases found : queues.lookup sid with
  | none => rw [Dict.values_erase_of_lookup found, Option.getD_none, List.length_nil, Nat.zero_add]
  | some queue =>
    rw [((Dict.values_perm_of_lookup found).map List.length).sum_eq, List.map_cons, List.sum_cons,
      Option.getD_some]

theorem submit_accepted (room : s.totalQueued < capacity) (req : Request) :
    (∀ sid, (submit capacity s req).queueOf sid =
      if sid = req.sessionId then s.queueOf req.sessionId ++ [req] else s.queueOf sid) ∧
    (submit capacity s req).deficits = s.deficits ∧
    (submit capacity s req).accepted = s.accepted ++ [req] ∧ (submit capacity s req).taken = s.taken := by
  rw [submit, if_neg (Nat.not_le.2 room)]
  exact ⟨fun sid => queueOf_insert _ _ _ _, rfl, rfl, rfl⟩

theorem Scheduler.Sound.submit (sound : s.Sound capacity) (req : Request) :
    (submit capacity s req).Sound capacity := by
  unfold AiRuntime.submit
  split_ifs with full
  · exact sound
  refine ⟨fun sid => ?_, ?_, by dsimp only; omega, fun sid missing => ?_, fun sid other mem => ?_⟩
  · dsimp only
    rw [Dict.lookup_insert_eq]
    split_ifs
    · simp
    · exact sound.nonempty sid
  · dsimp only
    rw [Dict.values_insert, List.map_cons, List.sum_cons, sound.total,
      sum_values_eq s.queues req.sessionId, List.length_append, List.length_singleton]
    exact Nat.add_right_comm _ _ _
  · dsimp only at missing
    rw [Dict.lookup_insert_eq] at missing
    split_ifs at missing
    exact sound.deficit sid missing
  · rw [Scheduler.queueOf, queueOf_insert] at mem
    split_ifs at mem with same
    · obtain old | new := List.mem_append.1 mem
      · rw [same]
        exact sound.own _ other old
      · rw [same, List.mem_singleton.1 new]
    · exact sound.own sid other mem

theorem weightOf_eq {priority : UInt32} (small : priority.toNat < 2 ^ 31) :
    weightOf priority = 1 + priority.toNat := by
  rw [weightOf]
  congr 1
  exact BitVec.toInt_eq_toNat_of_lt (by simpa using (by omega : 2 * priority.toNat < 2 ^ 32))

/-! ## The first pass -/

def Scheduler.bumped (s : Scheduler) (sid : String) : ℤ := s.deficitOf sid + s.weight sid

structure Scanned (s : Scheduler) (done : List String) (scan : Scan) : Prop where
  deficits : ∀ sid, scan.deficits.lookup sid = if sid ∈ done then some (s.bumped sid) else s.deficits.lookup sid
  total : scan.totalWeight = (done.map s.weight).sum
  best : (done = [] ∧ scan.best = none) ∨
    ∃ j ∈ done, scan.best = some (j, s.bumped j) ∧ ∀ i ∈ done, s.bumped i ≤ s.bumped j

theorem Scanned.step {done : List String} {scan : Scan} (scanned : Scanned s done scan)
    (new : sid ∉ done) (waiting : s.queueOf sid ≠ []) :
    Scanned s (done ++ [sid]) (scanSession s.queues scan sid) := by
  obtain ⟨front, rest, queue⟩ := List.exists_cons_of_ne_nil waiting
  have weight : weightOf front.priority = s.weight sid := by
    rw [Scheduler.weight, queue]
    rfl
  have deficit : (scan.deficits.lookup sid).getD 0 + weightOf front.priority = s.bumped sid := by
    rw [scanned.deficits, if_neg new, weight]
    rfl
  rw [Scheduler.queueOf] at queue
  unfold scanSession
  rw [queue]
  dsimp only
  rw [deficit, weight]
  refine ⟨fun other => ?_, ?_, .inr ?_⟩
  · dsimp only
    rw [Dict.lookup_insert_eq, scanned.deficits]
    by_cases same : other = sid
    · rw [if_pos same, if_pos (by simp [same]), same]
    · rw [if_neg same]
      simp [same]
  · simp [scanned.total]
  · obtain ⟨rfl, best⟩ | ⟨j, mem, best, greatest⟩ := scanned.best
    · refine ⟨sid, by simp, by simp [best], by simp⟩
    · rw [best]
      by_cases better : s.bumped j < s.bumped sid
      · refine ⟨sid, by simp, by simp [better], fun i at_ => ?_⟩
        obtain old | last := List.mem_append.1 at_
        · exact (greatest i old).trans better.le
        · rw [List.mem_singleton.1 last]
      · refine ⟨j, by simp [mem], by simp [better], fun i at_ => ?_⟩
        obtain old | last := List.mem_append.1 at_
        · exact greatest i old
        · rw [List.mem_singleton.1 last]
          exact not_lt.1 better

theorem Scanned.run {done order : List String} {scan : Scan} (scanned : Scanned s done scan)
    (nodup : (done ++ order).Nodup) (waiting : ∀ sid ∈ order, s.queueOf sid ≠ []) :
    Scanned s (done ++ order) (order.foldl (scanSession s.queues) scan) := by
  induction order generalizing done scan with
  | nil => simpa using scanned
  | cons sid order ih =>
    have new : sid ∉ done := fun mem =>
      (List.nodup_append.1 nodup).2.2 sid mem sid List.mem_cons_self rfl
    have next := scanned.step new (waiting sid List.mem_cons_self)
    rw [List.append_cons] at nodup ⊢
    exact ih next nodup fun other mem => waiting other (List.mem_cons_of_mem _ mem)

/-! ## Selections -/

/-- What a selection does that takes a request of session `j`. -/
structure Selected (s s' : Scheduler) (j : String) (front : Request) : Prop where
  queue : s.queueOf j = front :: s'.queueOf j
  others : ∀ i, i ≠ j → s'.queueOf i = s.queueOf i
  taken : s'.taken = s.taken ++ [front]
  accepted : s'.accepted = s.accepted
  /-- The round of the deficits, of which those stay whose sessions stay. -/
  round : ∃ d, Round s.active s.weight s.deficitOf d j ∧ ∀ i ∈ s'.active, s'.deficitOf i = d i

/-- The second part of a selection, after a pass that found the best session. -/
def takeFront (s : Scheduler) (scan : Scan) (sid : String) (front : Request) (rest : List Request) :
    Scheduler :=
  { s with
    queues := if rest = [] then s.queues.erase sid else s.queues.insert sid rest
    deficits :=
      if rest = [] then
        (scan.deficits.insert sid ((scan.deficits.lookup sid).getD 0 - scan.totalWeight)).erase sid
      else scan.deficits.insert sid ((scan.deficits.lookup sid).getD 0 - scan.totalWeight)
    totalQueued := s.totalQueued - 1
    taken := s.taken ++ [front] }

/-- The pass finds a session with the greatest deficit. -/
theorem select_eq (sound : s.Sound capacity) {order : List String} (pending : 0 < s.totalQueued)
    (visits : order.Perm s.queues.keys) :
    ∃ scan j front rest, Scanned s order scan ∧ j ∈ order ∧ (∀ i ∈ order, s.bumped i ≤ s.bumped j) ∧
      s.queueOf j = front :: rest ∧ select s order = takeFront s scan j front rest := by
  have waiting : ∀ sid ∈ order, s.queueOf sid ≠ [] := fun sid mem => by
    rw [← sound.mem_active_iff, Scheduler.active, List.mem_toFinset]
    exact visits.mem_iff.1 mem
  have scanned : Scanned s order (order.foldl (scanSession s.queues) ⟨s.deficits, 0, none⟩) := by
    have first : Scanned s [] ⟨s.deficits, 0, none⟩ := ⟨by simp, rfl, .inl ⟨rfl, rfl⟩⟩
    simpa using first.run (by simpa using visits.nodup_iff.2 s.queues.nodupKeys) waiting
  obtain ⟨none_, -⟩ | ⟨j, mem, best, greatest⟩ := scanned.best
  · have keys : s.queues.keys = [] := by
      rw [none_] at visits
      exact visits.nil_eq.symm
    have entries : s.queues.entries = [] := by simpa [AList.keys, List.keys] using keys
    have total := sound.total
    simp only [Dict.values, entries, List.map_nil, List.sum_nil] at total
    omega
  · obtain ⟨front, rest, queue⟩ := List.exists_cons_of_ne_nil (waiting j mem)
    refine ⟨_, j, front, rest, scanned, mem, greatest, queue, ?_⟩
    unfold select
    simp only [best, queue]
    rfl

section TakeFront

variable {order : List String} {scan : Scan} {j : String} {front : Request} {rest : List Request}

theorem takeFront_queues (s : Scheduler) (scan : Scan) (j : String) (front : Request)
    (rest : List Request) (i : String) :
    (takeFront s scan j front rest).queues.lookup i =
      if i = j then (if rest = [] then none else some rest) else s.queues.lookup i :=
  Dict.lookup_ite _ _ _ _ _

theorem takeFront_deficits (scanned : Scanned s order scan) (mem : j ∈ order) (front : Request)
    (rest : List Request) (i : String) :
    (takeFront s scan j front rest).deficits.lookup i =
      if i = j then (if rest = [] then none else some (s.bumped j - (order.map s.weight).sum))
      else if i ∈ order then some (s.bumped i) else s.deficits.lookup i := by
  have paid : (scan.deficits.lookup j).getD 0 - scan.totalWeight =
      s.bumped j - (order.map s.weight).sum := by
    rw [scanned.deficits, if_pos mem, scanned.total, Option.getD_some]
  dsimp only [takeFront]
  rw [Dict.erase_insert, Dict.lookup_ite, paid, scanned.deficits]

theorem Scheduler.Sound.takeFront (sound : s.Sound capacity) (scanned : Scanned s order scan)
    (visits : order.Perm s.queues.keys) (mem : j ∈ order) (queue : s.queueOf j = front :: rest) :
    (takeFront s scan j front rest).Sound capacity := by
  have total : s.totalQueued =
      rest.length + 1 + ((Dict.values (s.queues.erase j)).map List.length).sum := by
    rw [sound.total, sum_values_eq s.queues j]
    exact congrArg (fun q : List Request => q.length + _) queue
  refine ⟨fun sid => ?_, ?_, (Nat.sub_le _ _).trans sound.bounded, fun sid missing => ?_,
    fun sid other at_ => ?_⟩
  · rw [takeFront_queues]
    split_ifs with same empty
    · simp
    · simpa using empty
    · exact sound.nonempty sid
  · dsimp only [AiRuntime.takeFront]
    split_ifs with empty
    · rw [empty, List.length_nil] at total
      omega
    · rw [Dict.values_insert, List.map_cons, List.sum_cons]
      omega
  · rw [takeFront_queues] at missing
    rw [takeFront_deficits scanned mem]
    split_ifs at missing ⊢ with same empty visited
    · rfl
    · exact absurd (AList.mem_keys.2 (visits.mem_iff.1 visited)) (AList.lookup_eq_none.1 missing)
    · exact sound.deficit sid missing
  · rw [Scheduler.queueOf, takeFront_queues] at at_
    split_ifs at at_ with same empty
    · simp at at_
    · rw [same]
      refine sound.own j other ?_
      rw [queue]
      exact List.mem_cons_of_mem _ at_
    · exact sound.own sid other at_

theorem takeFront_selected (scanned : Scanned s order scan)
    (visits : order.Perm s.queues.keys) (mem : j ∈ order)
    (greatest : ∀ i ∈ order, s.bumped i ≤ s.bumped j) (queue : s.queueOf j = front :: rest) :
    Selected s (takeFront s scan j front rest) j front := by
  have active : ∀ {i}, i ∈ s.active ↔ i ∈ order := by
    intro i
    rw [Scheduler.active, List.mem_toFinset]
    exact visits.mem_iff.symm
  have weights : ∑ i ∈ s.active, s.weight i = (order.map s.weight).sum := by
    rw [Scheduler.active, List.sum_toFinset s.weight (show s.queues.keys.Nodup from s.queues.nodupKeys)]
    exact (visits.map s.weight).sum_eq.symm
  refine ⟨?_, fun i other => ?_, rfl, rfl, ?_⟩
  · rw [queue, Scheduler.queueOf, takeFront_queues, if_pos rfl]
    split_ifs with empty
    · rw [empty]
      rfl
    · rfl
  · rw [Scheduler.queueOf, takeFront_queues, if_neg other]
    rfl
  · refine ⟨fun i => if i = j then s.bumped j - (order.map s.weight).sum else s.bumped i,
      ⟨active.2 mem, fun i at_ => greatest i (active.1 at_), fun i _ other => if_neg other, ?_⟩,
      fun i at_ => ?_⟩
    · rw [if_pos rfl, weights]
      rfl
    · obtain ⟨queue', found⟩ := Scheduler.mem_active.1 at_
      rw [takeFront_queues] at found
      rw [Scheduler.deficitOf, takeFront_deficits scanned mem]
      dsimp only
      split_ifs at found ⊢ with same empty visited
      · rfl
      · rfl
      · exact absurd (active.1 (Scheduler.mem_active.2 ⟨_, found⟩)) visited

end TakeFront

theorem select_selected (sound : s.Sound capacity) {order : List String} (pending : 0 < s.totalQueued)
    (visits : order.Perm s.queues.keys) :
    (select s order).Sound capacity ∧ ∃ j front, Selected s (select s order) j front := by
  obtain ⟨scan, j, front, rest, scanned, mem, greatest, queue, eq⟩ := select_eq sound pending visits
  rw [eq]
  exact ⟨sound.takeFront scanned visits mem queue, j, front,
    takeFront_selected scanned visits mem greatest queue⟩

/-! ## Steps and runs -/

inductive Effect (s s' : Scheduler) : SchedulerEvent → Prop
  | rejected {req : Request} (same : s' = s) : Effect s s' (.submit req)
  | accepted {req : Request}
      (queue : ∀ sid, s'.queueOf sid =
        if sid = req.sessionId then s.queueOf req.sessionId ++ [req] else s.queueOf sid)
      (deficits : s'.deficits = s.deficits) (accepted : s'.accepted = s.accepted ++ [req])
      (taken : s'.taken = s.taken) : Effect s s' (.submit req)
  | selected {order : List String} {j : String} {front : Request} (selected : Selected s s' j front) :
      Effect s s' (.select order)

theorem schedulerStep_effect (sound : s.Sound capacity) {event : SchedulerEvent}
    (step : schedulerStep capacity s event = some s') : s'.Sound capacity ∧ Effect s s' event := by
  cases event with
  | submit req =>
    obtain rfl := Option.some.inj step
    refine ⟨sound.submit req, ?_⟩
    by_cases full : capacity ≤ s.totalQueued
    · exact .rejected (if_pos full)
    · obtain ⟨queue, deficits, accepted, taken⟩ := submit_accepted (Nat.not_le.1 full) req
      exact .accepted queue deficits accepted taken
  | select order =>
    rw [schedulerStep] at step
    split_ifs at step with ready
    obtain rfl := Option.some.inj step
    obtain ⟨sound', j, front, selected⟩ := select_selected sound ready.1 ready.2
    exact ⟨sound', .selected selected⟩

theorem run_sound {events : List SchedulerEvent}
    (run : events.foldlM (schedulerStep capacity) Scheduler.start = some s) : s.Sound capacity :=
  foldlM_inv (Scheduler.Sound capacity) (fun _ _ _ sound step => (schedulerStep_effect sound step).1)
    (start_sound capacity) run

theorem run_taken {events : List SchedulerEvent} (sound : s.Sound capacity)
    (run : events.foldlM (schedulerStep capacity) s = some s') :
    ∃ selected, s'.taken = s.taken ++ selected ∧
      selected.length = events.countP SchedulerEvent.isSelect := by
  induction events generalizing s with
  | nil =>
    obtain rfl : s = s' := by simpa using run
    exact ⟨[], (List.append_nil _).symm, rfl⟩
  | cons event events ih =>
    obtain ⟨m, first, rest⟩ := foldlM_cons_eq_some.1 run
    obtain ⟨sound', effect⟩ := schedulerStep_effect sound first
    obtain ⟨selected, taken, length⟩ := ih sound' rest
    cases effect with
    | rejected same => exact ⟨selected, by rw [taken, same], length⟩
    | accepted _ _ _ kept => exact ⟨selected, by rw [taken, kept], length⟩
    | @selected order j front here =>
      refine ⟨front :: selected, ?_, ?_⟩
      · rw [taken, here.taken, List.append_assoc, List.singleton_append]
      · rw [List.length_cons, length]
        exact (List.countP_cons_of_pos rfl).symm

end NeoRuntime.AiRuntime
