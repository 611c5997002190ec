import NeoRuntime.HostLink.Notify
import Mathlib.Data.List.Perm.Basic

/-!
# What the polling thread delivers

The notify slots are two queues: the frames stored behind the running scan, which wait for the next
one, and those ahead of it.  A new frame goes to the end of one of the queues, and stands before
older frames only if these are behind the scan and it is ahead (`TwoQueues`).
-/

namespace NeoRuntime.HostLink

namespace Notice

/-- Stored in a slot that the running scan had passed. -/
def Behind (n : Notice) : Prop := ∃ p, n.position = some p ∧ n.slot < p

/-- Stored in a slot that the running scan had still to look at. -/
def Ahead (n : Notice) : Prop := ∃ p, n.position = some p ∧ p ≤ n.slot

/-- Both were stored during one scan, the earlier one behind it and the later one ahead. -/
structure Overtakes (later earlier : Notice) : Prop where
  same_scan : later.scans = earlier.scans
  ahead : later.Ahead
  behind : earlier.Behind

def InOrder (a b : Notice) : Prop := b.number < a.number → a.Overtakes b

end Notice

/-- All accepted frames, in the order in which they were and would be delivered. -/
def NotifyState.due (s : NotifyState) (behind ahead : List Notice) : List Notice :=
  s.delivered ++ s.inHand.toList ++ ahead ++ behind

/-- The slots are the two queues, and what is due is every accepted frame once and in order. -/
structure TwoQueues (s : NotifyState) (behind ahead : List Notice) : Prop where
  slots : s.slots = slotTable hostLinkCfgNotifyDepth (s.position.getD 0) behind ahead
  room_behind : behind.length ≤ s.position.getD 0
  room_ahead : ahead.length ≤ hostLinkCfgNotifyDepth - s.position.getD 0
  position_le : s.position.getD 0 ≤ hostLinkCfgNotifyDepth
  idle : s.position = none → s.inHand = none ∧ ∀ a ∈ ahead, a.scans = s.scans
  passed : ∀ b ∈ behind, b.scans = s.scans ∧ b.Behind
  numbers : s.accepted.map Notice.number = List.range s.accepted.length
  once : s.accepted.Perm (s.due behind ahead)
  order : (s.due behind ahead).Pairwise Notice.InOrder

theorem twoQueues_init : TwoQueues .init [] [] where
  slots := by
    rw [NotifyState.init, Option.getD_none, slotTable_start, slotRow_nil]
  room_behind := le_rfl
  room_ahead := Nat.zero_le _
  position_le := Nat.zero_le _
  idle := fun _ => ⟨rfl, by simp⟩
  passed := by simp
  numbers := rfl
  once := .refl _
  order := .nil

section Steps

variable {s s' : NotifyState} {behind ahead : List Notice} (q : TwoQueues s behind ahead)

include q

theorem TwoQueues.number_lt {a : Notice}
    (mem : a ∈ s.due behind ahead) : a.number < s.accepted.length := by
  have mem' := List.mem_map_of_mem (f := Notice.number) (q.once.mem_iff.2 mem)
  rw [q.numbers] at mem'
  exact List.mem_range.1 mem'

theorem TwoQueues.numbers_snoc {n : Notice} (number : n.number = s.accepted.length) :
    (s.accepted ++ [n]).map Notice.number = List.range (s.accepted ++ [n]).length := by
  rw [List.map_append, q.numbers, List.length_append, List.length_singleton, List.range_succ,
    List.map_singleton, number]

/-- A frame stored behind the scan is due last. -/
theorem TwoQueues.accept_behind (f : HostLinkFrame) (free : behind.length < s.position.getD 0) :
    let n : Notice := ⟨f, s.accepted.length, s.scans, behind.length, s.position⟩
    TwoQueues { s with slots := s.slots.set behind.length (some n), accepted := s.accepted ++ [n] }
      (behind ++ [n]) ahead := by
  intro n
  have due : ∀ l, NotifyState.due { s with slots := l, accepted := s.accepted ++ [n] }
      (behind ++ [n]) ahead = s.due behind ahead ++ [n] := fun l => by
    simp [NotifyState.due]
  obtain ⟨p, position⟩ : ∃ p, s.position = some p := by
    cases position : s.position with
    | none => simp [position] at free
    | some p => exact ⟨p, rfl⟩
  refine ⟨?_, ?_, q.room_ahead, q.position_le, q.idle, ?_, q.numbers_snoc rfl, ?_, ?_⟩
  · change s.slots.set _ _ = _
    rw [q.slots, slotTable_set_behind free]
  · rw [List.length_append]
    exact free
  · intro b mem
    rcases List.mem_append.1 mem with old | new
    · exact q.passed b old
    · obtain rfl := List.mem_singleton.1 new
      exact ⟨rfl, p, position, by simpa [position] using free⟩
  · rw [due]
    exact q.once.append_right [n]
  · rw [due, List.pairwise_append]
    refine ⟨q.order, List.pairwise_singleton _ _, fun a mem b last => ?_⟩
    obtain rfl := List.mem_singleton.1 last
    intro less
    exact absurd less (q.number_lt mem).le.not_gt

/-- A frame stored ahead of the scan overtakes those behind it. -/
theorem TwoQueues.accept_ahead (f : HostLinkFrame)
    (free : ahead.length < hostLinkCfgNotifyDepth - s.position.getD 0) :
    let n : Notice := ⟨f, s.accepted.length, s.scans, s.position.getD 0 + ahead.length, s.position⟩
    TwoQueues { s with slots := s.slots.set (s.position.getD 0 + ahead.length) (some n),
                       accepted := s.accepted ++ [n] } behind (ahead ++ [n]) := by
  intro n
  have due : ∀ l, NotifyState.due { s with slots := l, accepted := s.accepted ++ [n] }
      behind (ahead ++ [n]) = (s.delivered ++ s.inHand.toList ++ ahead) ++ (n :: behind) :=
    fun l => by simp [NotifyState.due]
  have split : s.due behind ahead = (s.delivered ++ s.inHand.toList ++ ahead) ++ behind := rfl
  have order := q.order
  rw [split, List.pairwise_append] at order
  refine ⟨?_, q.room_behind, ?_, q.position_le, ?_, q.passed, q.numbers_snoc rfl, ?_, ?_⟩
  · change s.slots.set _ _ = _
    rw [q.slots, slotTable_set_ahead q.room_behind free]
  · rw [List.length_append]
    exact free
  · intro still
    refine ⟨(q.idle still).1, fun a mem => ?_⟩
    rcases List.mem_append.1 mem with old | new
    · exact (q.idle still).2 a old
    · obtain rfl := List.mem_singleton.1 new
      rfl
  · rw [due]
    have once := q.once.append_right [n]
    rw [split, List.append_assoc] at once
    exact once.trans (List.Perm.append_left _ List.perm_append_comm)
  · rw [due, List.pairwise_append, List.pairwise_cons]
    refine ⟨order.1, ⟨fun b mem _ => ?_, order.2.1⟩, fun a mem b mem' => ?_⟩
    · -- frames wait behind the scan only while one is running
      obtain ⟨scans, p, position, passed⟩ := q.passed b mem
      have running : s.position ≠ none := fun still => by
        have := q.room_behind
        rw [still, Option.getD_none, Nat.le_zero, List.length_eq_zero_iff] at this
        simp [this] at mem
      obtain ⟨p', position'⟩ := Option.ne_none_iff_exists'.1 running
      refine ⟨scans.symm, ⟨p', position', ?_⟩, p, position, passed⟩
      change p' ≤ s.position.getD 0 + ahead.length
      rw [position', Option.getD_some]
      omega
    · rcases List.mem_cons.1 mem' with rfl | old
      · intro less
        exact absurd less (q.number_lt (split ▸ List.mem_append_left _ mem)).le.not_gt
      · exact order.2.2 a mem b old

theorem TwoQueues.accept (f : HostLinkFrame)
    (step : notifyStep s (.accept f) = some s') : ∃ behind' ahead', TwoQueues s' behind' ahead' := by
  rw [notifyStep, q.slots] at step
  rcases Nat.lt_or_ge behind.length (s.position.getD 0) with free | full
  · rw [firstFree_slotTable_behind free, ← q.slots] at step
    obtain rfl := Option.some.inj step
    exact ⟨_, _, q.accept_behind f free⟩
  have full : behind.length = s.position.getD 0 := le_antisymm q.room_behind full
  rcases Nat.lt_or_ge ahead.length (hostLinkCfgNotifyDepth - s.position.getD 0) with free | none
  · rw [firstFree_slotTable_ahead full, firstFree_slotRow free, ← q.slots] at step
    obtain rfl := Option.some.inj step
    exact ⟨_, _, q.accept_ahead f free⟩
  · rw [firstFree_slotTable_ahead full, firstFree_slotRow_full (le_antisymm q.room_ahead none)]
      at step
    obtain rfl := Option.some.inj step
    exact ⟨_, _, q⟩

theorem TwoQueues.pollBegin
    (step : notifyStep s .pollBegin = some s') : TwoQueues s' behind ahead := by
  rw [notifyStep, Option.ite_none_right_eq_some] at step
  obtain ⟨still, same⟩ := step
  obtain rfl := Option.some.inj same
  have none : behind = [] := by
    have := q.room_behind
    rwa [still, Option.getD_none, Nat.le_zero, List.length_eq_zero_iff] at this
  subst none
  have slots := q.slots
  have room := q.room_ahead
  rw [still, Option.getD_none] at slots room
  exact ⟨slots, Nat.zero_le _, room, Nat.zero_le _, by simp, by simp, q.numbers, q.once, q.order⟩

/-- The frame at the scan's position is the head of the queue ahead. -/
theorem TwoQueues.take (step : notifyStep s .take = some s') : TwoQueues s' behind ahead.tail := by
  rw [notifyStep] at step
  cases position : s.position with
  | none => simp [position] at step
  | some i =>
    cases hand : s.inHand with
    | some n => simp [position, hand] at step
    | none =>
      simp only [position, hand, Option.ite_none_right_eq_some] at step
      obtain ⟨lt, same⟩ := step
      obtain rfl := Option.some.inj same
      have slots := q.slots
      have room := q.room_behind
      have room' := q.room_ahead
      rw [position, Option.getD_some] at slots room room'
      have taken : (s.slots[i]?).join = ahead.head? := by
        rw [slots, getElem?_slotTable room lt]
        rfl
      have due : ∀ l, NotifyState.due { s with
          inHand := (s.slots[i]?).join, slots := l, position := some (i + 1) } behind ahead.tail =
          s.due behind ahead := fun l => by
        simp only [NotifyState.due, hand, taken]
        cases ahead <;> simp
      refine ⟨?_, ?_, ?_, ?_, by simp, q.passed, q.numbers, ?_, ?_⟩
      · change s.slots.set i none = _
        rw [slots, slotTable_set_none room lt room']
        rfl
      · exact room.trans (Nat.le_succ i)
      · rw [List.length_tail, Option.getD_some]
        omega
      · exact lt
      · rw [due]
        exact q.once
      · rw [due]
        exact q.order

theorem TwoQueues.callback
    (step : notifyStep s .callback = some s') : TwoQueues s' behind ahead := by
  rw [notifyStep] at step
  cases hand : s.inHand with
  | none => simp [hand] at step
  | some n =>
    simp only [hand, Option.some.injEq] at step
    subst step
    have due : NotifyState.due { s with inHand := none, delivered := s.delivered ++ [n] } behind
        ahead = s.due behind ahead := by
      simp [NotifyState.due, hand]
    refine ⟨q.slots, q.room_behind, q.room_ahead, q.position_le, fun still => ⟨rfl, ?_⟩, q.passed,
      q.numbers, ?_, ?_⟩
    · exact (q.idle still).2
    · rw [due]
      exact q.once
    · rw [due]
      exact q.order

/-- At the end of a scan nothing is ahead, and what was behind is next. -/
theorem TwoQueues.pollEnd (step : notifyStep s .pollEnd = some s') : TwoQueues s' [] behind := by
  rw [notifyStep, Option.ite_none_right_eq_some] at step
  obtain ⟨⟨last, hand⟩, same⟩ := step
  obtain rfl := Option.some.inj same
  have slots := q.slots
  have room := q.room_behind
  have none := q.room_ahead
  rw [last, Option.getD_some] at slots room none
  rw [Nat.sub_self, Nat.le_zero, List.length_eq_zero_iff] at none
  subst none
  have due : NotifyState.due { s with position := none } [] behind = s.due behind [] := by
    simp [NotifyState.due]
  refine ⟨?_, le_rfl, room, Nat.zero_le _, fun _ => ⟨hand, fun a mem => (q.passed a mem).1⟩,
    by simp, q.numbers, ?_, ?_⟩
  · change s.slots = _
    rw [slots, slotTable_finish, Option.getD_none, slotTable_start]
  · rw [due]
    exact q.once
  · rw [due]
    exact q.order

end Steps

theorem twoQueues_step (s : NotifyState) (act : NotifyAct) (s' : NotifyState)
    (queues : ∃ behind ahead, TwoQueues s behind ahead) (step : notifyStep s act = some s') :
    ∃ behind ahead, TwoQueues s' behind ahead := by
  obtain ⟨behind, ahead, q⟩ := queues
  cases act with
  | accept f => exact q.accept f step
  | pollBegin => exact ⟨_, _, q.pollBegin step⟩
  | take => exact ⟨_, _, q.take step⟩
  | callback => exact ⟨_, _, q.callback step⟩
  | pollEnd => exact ⟨_, _, q.pollEnd step⟩

theorem twoQueues_run {acts : List NotifyAct} {s : NotifyState} (run : notifyRun acts = some s) :
    ∃ behind ahead, TwoQueues s behind ahead :=
  foldlM_inv (fun s => ∃ behind ahead, TwoQueues s behind ahead) twoQueues_step
    ⟨[], [], twoQueues_init⟩ run

def NotifyState.stored (s : NotifyState) : List Notice := s.slots.reduceOption

/-- Each accepted frame is delivered once, by the next scan at the latest, and in order, except that
one stored ahead of the running scan overtakes one stored behind it. -/
theorem notifyRun_delivers {acts : List NotifyAct} {s : NotifyState}
    (run : notifyRun acts = some s) :
    s.accepted.map Notice.number = List.range s.accepted.length ∧
      s.accepted.Perm (s.delivered ++ s.inHand.toList ++ s.stored) ∧
      s.delivered.Pairwise (fun a b => b.number < a.number → a.Overtakes b) ∧
      (s.position = none → ∀ a ∈ s.accepted, a.scans < s.scans → a ∈ s.delivered) := by
  obtain ⟨behind, ahead, q⟩ := twoQueues_run run
  have stored : s.stored = behind ++ ahead := by
    rw [NotifyState.stored, q.slots, reduceOption_slotTable]
  have once := q.once
  rw [NotifyState.due, List.append_assoc] at once
  refine ⟨q.numbers, ?_, ?_, fun still a mem before => ?_⟩
  · rw [stored]
    exact once.trans (List.Perm.append_left _ List.perm_append_comm)
  · have order := q.order
    simp only [NotifyState.due, List.append_assoc] at order
    exact (List.pairwise_append.1 order).1
  · have none : behind = [] := by
      have := q.room_behind
      rwa [still, Option.getD_none, Nat.le_zero, List.length_eq_zero_iff] at this
    have mem' := once.mem_iff.1 mem
    rw [(q.idle still).1, none] at mem'
    simp only [Option.toList_none, List.append_nil, List.mem_append] at mem'
    rcases mem' with done | waiting
    · exact done
    · exact absurd ((q.idle still).2 a waiting) before.ne

def sampleEvent (id : UInt16) : HostLinkFrame := ⟨newHeader id .event 0x40 [], [], 0⟩

def overtakingRun : List NotifyAct :=
  ([.accept (sampleEvent 1), .pollBegin, .take, .callback, .accept (sampleEvent 2),
    .accept (sampleEvent 3), .take, .callback] : List NotifyAct) ++
    (List.replicate 14 .take : List NotifyAct) ++
    ([.pollEnd, .pollBegin, .take, .callback] : List NotifyAct)

theorem notifyRun_delivers_sample : ∃ s, notifyRun overtakingRun = some s ∧
      s.accepted.map Notice.number = List.range s.accepted.length ∧
      s.accepted.Perm (s.delivered ++ s.inHand.toList ++ s.stored) ∧
      s.delivered.Pairwise (fun a b => b.number < a.number → a.Overtakes b) ∧
      (s.position = none → ∀ a ∈ s.accepted, a.scans < s.scans → a ∈ s.delivered) :=
  ⟨_, rfl, @notifyRun_delivers overtakingRun _ rfl⟩

/-- The third frame is delivered before the second. -/
theorem notifyRun_out_of_order :
    (notifyRun overtakingRun).map (fun s => s.accepted.map fun n => n.frame.header.frameId) =
        some [1, 2, 3] ∧
      (notifyRun overtakingRun).map (fun s => s.delivered.map fun n => n.frame.header.frameId) =
        some [1, 3, 2] := by
  decide

end NeoRuntime.HostLink
