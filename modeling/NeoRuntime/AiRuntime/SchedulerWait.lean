import NeoRuntime.AiRuntime.SchedulerProof

/-!
# Waiting sessions

If sessions come and go, the deficits stay bounded as long as the weights are positive and add up to an
`int`, and no session waits for ever (`waiting_selected`).  A priority that is negative as an `int` gives a
session a weight with which it may never be selected (`session_starves`).
-/

namespace NeoRuntime.AiRuntime

open List

variable {capacity : ℕ} {s s' : Scheduler} {sid : String}

/-! ## Sessions that come and go -/

/-- A selection whose weights are positive and add up to an `int`. -/
def WeightsFit (s : Scheduler) (event : SchedulerEvent) : Prop :=
  event.isSelect = true →
    (s.queues.keys.map fun sid =>
      (s.queueOf sid).head?.elim 0 fun front => 1 + front.priority.toNat).sum < 2 ^ 31

theorem WeightsFit.weight {order : List String} (fits : WeightsFit s (.select order))
    (sound : s.Sound capacity) :
    (∀ sid ∈ s.active, 0 < s.weight sid) ∧ ∑ sid ∈ s.active, s.weight sid ≤ 2 ^ 31 := by
  have sum := fits rfl
  rw [← List.sum_toFinset _ (show s.queues.keys.Nodup from s.queues.nodupKeys)] at sum
  have each : ∀ sid ∈ s.active, s.weight sid =
      (((s.queueOf sid).head?.elim 0 fun front => 1 + front.priority.toNat : ℕ) : ℤ) ∧
        0 < s.weight sid := by
    intro sid mem
    obtain ⟨front, rest, queue⟩ := List.exists_cons_of_ne_nil (sound.mem_active_iff.1 mem)
    have one := (Finset.single_le_sum (fun i _ => Nat.zero_le _) mem).trans_lt sum
    rw [queue] at one
    have small : front.priority.toNat < 2 ^ 31 := (Nat.lt_add_of_pos_left Nat.one_pos).trans one
    rw [Scheduler.weight, queue]
    simp only [List.head?_cons, Option.elim_some, weightOf_eq small]
    omega
  refine ⟨fun sid mem => (each sid mem).2, ?_⟩
  rw [Finset.sum_congr rfl fun sid mem => (each sid mem).1, ← Nat.cast_sum]
  exact_mod_cast sum.le

theorem effect_spread {event : SchedulerEvent} (spreads : Spread (2 ^ 31) capacity s.active s.deficitOf)
    (sound : s.Sound capacity) (sound' : s'.Sound capacity) (fits : WeightsFit s event)
    (effect : Effect s s' event) : Spread (2 ^ 31) capacity s'.active s'.deficitOf := by
  cases effect with
  | rejected same => exact same ▸ spreads
  | @accepted req queue deficits _ _ =>
    have same : s'.deficitOf = s.deficitOf := funext fun sid => by
      rw [Scheduler.deficitOf, Scheduler.deficitOf, deficits]
    have active : s'.active = insert req.sessionId s.active := by
      ext sid
      rw [Finset.mem_insert, sound'.mem_active_iff, sound.mem_active_iff, queue]
      split_ifs with own <;> simp [own]
    rw [same, active]
    by_cases mem : req.sessionId ∈ s.active
    · rw [Finset.insert_eq_of_mem mem]
      exact spreads
    · exact spreads.insert (sound.deficitOf_of_notMem mem) (active ▸ sound'.card_active_le)
  | @selected order j front here =>
    obtain ⟨d, round, same⟩ := here.round
    obtain ⟨positive, light⟩ := fits.weight sound
    have after := spreads.round round (fun i mem => (positive i mem).le) (by exact_mod_cast light)
    have sub : s'.active ⊆ s.active := fun i mem => by
      rw [sound.mem_active_iff]
      rw [sound'.mem_active_iff] at mem
      by_cases own : i = j
      · rw [own, here.queue]
        exact List.cons_ne_nil _ _
      · rwa [here.others i own] at mem
    exact (after.subset sub).congr same

theorem spread_run {events : List SchedulerEvent}
    (fits : Along (schedulerStep capacity) WeightsFit Scheduler.start events)
    (run : events.foldlM (schedulerStep capacity) Scheduler.start = some s) :
    s.Sound capacity ∧ Spread (2 ^ 31) capacity s.active s.deficitOf := by
  refine foldlM_inv_along
    (fun s => s.Sound capacity ∧ Spread (2 ^ 31) capacity s.active s.deficitOf) ?_
    ⟨start_sound capacity, spread_empty _ _ _⟩ fits run
  rintro s event s' ⟨sound, spreads⟩ fit step
  obtain ⟨sound', effect⟩ := schedulerStep_effect sound step
  exact ⟨sound', effect_spread spreads sound sound' fit effect⟩

theorem deficitOf_bounds (sound : s.Sound capacity)
    (spreads : Spread (2 ^ 31) capacity s.active s.deficitOf) (sid : String) :
    -(2 ^ 32 * capacity : ℤ) ≤ s.deficitOf sid ∧ s.deficitOf sid ≤ 2 ^ 32 * capacity := by
  by_cases mem : sid ∈ s.active
  · have bounds := spreads.le mem
    push_cast at bounds
    omega
  · rw [sound.deficitOf_of_notMem mem]
    omega

/-- The session has requests whenever there is a selection. -/
def Waiting (sid : String) (s : Scheduler) (event : SchedulerEvent) : Prop :=
  event.isSelect = true → s.queueOf sid ≠ []

/-- A session that is passed over gains at each selection. -/
theorem passed_gains {events : List SchedulerEvent} (sound : s.Sound capacity)
    (fits : Along (schedulerStep capacity) WeightsFit s events)
    (waiting : Along (schedulerStep capacity) (Waiting sid) s events)
    (run : events.foldlM (schedulerStep capacity) s = some s') :
    ∃ selected, s'.taken = s.taken ++ selected ∧
      ((∃ req ∈ selected, req.sessionId = sid) ∨
        s.deficitOf sid + events.countP SchedulerEvent.isSelect ≤ s'.deficitOf sid) := by
  induction events generalizing s with
  | nil =>
    obtain rfl : s = s' := by simpa using run
    exact ⟨[], (List.append_nil _).symm, .inr (by simp)⟩
  | cons event events ih =>
    obtain ⟨m, first, rest⟩ := foldlM_cons_eq_some.1 run
    obtain ⟨sound', effect⟩ := schedulerStep_effect sound first
    obtain ⟨selected, taken, gains⟩ := ih sound' (fits.2 m first) (waiting.2 m first) rest
    cases effect with
    | rejected same =>
      rw [same] at taken gains
      exact ⟨selected, taken, gains⟩
    | accepted _ deficits _ kept =>
      rw [Scheduler.deficitOf, deficits] at gains
      exact ⟨selected, by rw [taken, kept], gains⟩
    | @selected order j front here =>
      refine ⟨front :: selected, ?_, ?_⟩
      · rw [taken, here.taken, List.append_assoc, List.singleton_append]
      · obtain ⟨req, mem, own⟩ | gained := gains
        · exact .inl ⟨req, List.mem_cons_of_mem _ mem, own⟩
        · by_cases chosen : sid = j
          · refine .inl ⟨front, List.mem_cons_self, ?_⟩
            rw [chosen]
            exact sound.own j front (by rw [here.queue]; exact List.mem_cons_self)
          · have before : sid ∈ s.active := sound.mem_active_iff.2 (waiting.1 rfl)
            have after : sid ∈ m.active := by
              rw [sound'.mem_active_iff, here.others sid chosen]
              exact waiting.1 rfl
            obtain ⟨d, round, same⟩ := here.round
            have positive := (fits.1.weight sound).1 sid before
            rw [same sid after, round.gains sid before chosen] at gained
            rw [List.countP_cons_of_pos (by rfl)]
            push_cast
            omega

/-- If the weights of every selection are positive and add up to an `int`, a session with requests
is selected within a fixed number of selections. -/
theorem waiting_selected (capacity : ℕ) :
    (∃ N, ∀ (before during : List SchedulerEvent) (s s' : Scheduler) (sid : String),
      Along (schedulerStep capacity) WeightsFit Scheduler.start (before ++ during) →
      before.foldlM (schedulerStep capacity) Scheduler.start = some s →
      during.foldlM (schedulerStep capacity) s = some s' →
      Along (schedulerStep capacity) (Waiting sid) s during →
      N ≤ during.countP SchedulerEvent.isSelect →
      ∃ selected, s'.taken = s.taken ++ selected ∧ ∃ req ∈ selected, req.sessionId = sid) ∧
    ∀ (events : List SchedulerEvent) (s : Scheduler),
      events.foldlM (schedulerStep capacity) Scheduler.start = some s →
      s.totalQueued = ((Dict.values s.queues).map List.length).sum ∧ s.totalQueued ≤ capacity := by
  refine ⟨⟨2 ^ 33 * capacity + 1, ?_⟩, fun events s run => ?_⟩
  · intro before during s s' sid fits reached run waiting many
    have whole : (before ++ during).foldlM (schedulerStep capacity) Scheduler.start = some s' := by
      rw [List.foldlM_append, reached]
      exact run
    obtain ⟨first, rest⟩ := fits.append reached
    obtain ⟨sound, spreads⟩ := spread_run first reached
    obtain ⟨sound', spreads'⟩ := spread_run fits whole
    obtain ⟨selected, taken, found | gained⟩ := passed_gains sound rest waiting run
    · exact ⟨selected, taken, found⟩
    · have low := (deficitOf_bounds sound spreads sid).1
      have high := (deficitOf_bounds sound' spreads' sid).2
      omega
  · have sound := run_sound run
    exact ⟨sound.total, sound.bounded⟩

/-! ## A session that starves -/

def starvingQueues : Dict String (List Request) :=
  (((∅ : Dict String (List Request)).insert "a" [⟨"a", 4294967295, 0⟩])).insert "b" [⟨"b", 0, 0⟩]

variable (accepted taken : List Request)

def starvingState : Scheduler :=
  ⟨starvingQueues, (∅ : Dict String ℤ).insert "a" 0, 2, accepted, taken⟩

def starvingCycles : ℕ → List SchedulerEvent
  | 0 => []
  | n + 1 => .select ["a", "b"] :: .submit ⟨"b", 0, 0⟩ :: starvingCycles n

def starvingAlone : Scheduler :=
  ⟨(∅ : Dict String (List Request)).insert "a" [⟨"a", 4294967295, 0⟩], (∅ : Dict String ℤ).insert "a" 0, 1,
    accepted, taken⟩

theorem starving_select : schedulerStep 2 (starvingState accepted taken) (.select ["a", "b"]) =
      some (starvingAlone accepted (taken ++ [⟨"b", 0, 0⟩])) := rfl

theorem starving_submit : schedulerStep 2 (starvingAlone accepted taken) (.submit ⟨"b", 0, 0⟩) =
      some (starvingState (accepted ++ [⟨"b", 0, 0⟩]) taken) := rfl

theorem starving_reached :
    [.submit ⟨"a", 4294967295, 0⟩, .submit ⟨"b", 0, 0⟩, .select ["a", "b"], .submit ⟨"b", 0, 0⟩].foldlM
      (schedulerStep 2) Scheduler.start =
      some (starvingState [⟨"a", 4294967295, 0⟩, ⟨"b", 0, 0⟩, ⟨"b", 0, 0⟩] [⟨"b", 0, 0⟩]) := rfl

theorem starving_run (n : ℕ) (accepted taken : List Request) :
    (starvingCycles n).foldlM (schedulerStep 2) (starvingState accepted taken) =
      some (starvingState (accepted ++ replicate n ⟨"b", 0, 0⟩) (taken ++ replicate n ⟨"b", 0, 0⟩)) := by
  induction n generalizing accepted taken with
  | zero => simp [starvingCycles]
  | succ n ih =>
    rw [starvingCycles, List.foldlM_cons, starving_select, Option.bind_eq_bind, Option.bind_some,
      List.foldlM_cons, starving_submit, Option.bind_eq_bind, Option.bind_some, ih]
    simp [List.replicate_succ]

theorem starving_waits (n : ℕ) (accepted taken : List Request) :
    Along (schedulerStep 2) (Waiting "a") (starvingState accepted taken) (starvingCycles n) := by
  induction n generalizing accepted taken with
  | zero => trivial
  | succ n ih =>
    refine ⟨fun _ => List.cons_ne_nil _ _, fun m select => ?_⟩
    obtain rfl := Option.some.inj ((starving_select _ _).symm.trans select)
    refine ⟨fun _ => List.cons_ne_nil _ _, fun m submit => ?_⟩
    obtain rfl := Option.some.inj ((starving_submit _ _).symm.trans submit)
    exact ih _ _

theorem starving_count (n : ℕ) : (starvingCycles n).countP SchedulerEvent.isSelect = n := by
  induction n with
  | zero => rfl
  | succ n ih =>
    rw [starvingCycles, List.countP_cons_of_pos (by rfl), List.countP_cons_of_neg (by decide), ih]

/-- The priority `0xffffffff` makes the weight 0: the session is passed over for ever. -/
theorem session_starves :
    ¬ ∃ N, ∀ (before during : List SchedulerEvent) (s s' : Scheduler) (sid : String),
      before.foldlM (schedulerStep 2) Scheduler.start = some s →
      during.foldlM (schedulerStep 2) s = some s' →
      Along (schedulerStep 2) (Waiting sid) s during →
      N ≤ during.countP SchedulerEvent.isSelect →
      ∃ selected, s'.taken = s.taken ++ selected ∧ ∃ req ∈ selected, req.sessionId = sid := by
  rintro ⟨N, all⟩
  obtain ⟨selected, taken, req, mem, own⟩ := all _ (starvingCycles N) _ _ "a" starving_reached
    (starving_run N _ _) (starving_waits N _ _) (starving_count N).ge
  obtain rfl : replicate N ⟨"b", 0, 0⟩ = selected := List.append_cancel_left taken
  rw [List.eq_of_mem_replicate mem] at own
  exact absurd own (by decide)

end NeoRuntime.AiRuntime
