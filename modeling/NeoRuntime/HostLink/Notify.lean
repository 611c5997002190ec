import NeoRuntime.HostLink.Handler

/-!
# The notification table under two threads

The feeding thread stores accepted frames in the lowest free notify slot; the polling thread goes
through the slots upwards, takes each frame out under the lock and calls `notify_cb` without it.  An
accepted frame carries a number and where the scan stood; these notes decide nothing
(`notifyStep_accept_tables`, `notifyStep_take_tables`).
-/

namespace NeoRuntime.HostLink

/-- The locked step of `host_link_poll` for one slot: the frame there is taken out. -/
def pollTakeLocked (t : Tables) (i : ℕ) : Option HostLinkFrame × Tables :=
  ((t.notifySlot[i]?).join, { t with notifySlot := t.notifySlot.set i none })

/-- An accepted frame with the numbers of frames accepted and scans started before it, its slot, and
where the running scan stood. -/
structure Notice where
  frame : HostLinkFrame
  number : ℕ
  scans : ℕ
  slot : ℕ
  position : Option ℕ
  deriving DecidableEq, Repr

/-- The notify slots, the next index of `host_link_poll`, the frame in its hand, and the record. -/
structure NotifyState where
  slots : List (Option Notice)
  scans : ℕ
  position : Option ℕ
  inHand : Option Notice
  accepted : List Notice
  delivered : List Notice
  deriving DecidableEq, Repr

def NotifyState.init : NotifyState where
  slots := List.replicate hostLinkCfgNotifyDepth none
  scans := 0
  position := none
  inHand := none
  accepted := []
  delivered := []

inductive NotifyAct where
  | accept (f : HostLinkFrame)
  | pollBegin
  | take
  | callback
  | pollEnd
  deriving DecidableEq, Repr

def notifyStep (s : NotifyState) : NotifyAct → Option NotifyState
  | .accept f =>
      match firstFree s.slots with
      | none => some s
      | some i =>
          let n : Notice := ⟨f, s.accepted.length, s.scans, i, s.position⟩
          some { s with slots := s.slots.set i (some n), accepted := s.accepted ++ [n] }
  | .pollBegin =>
      if s.position = none then some { s with scans := s.scans + 1, position := some 0 } else none
  | .take =>
      match s.position, s.inHand with
      | some i, none =>
          if i < hostLinkCfgNotifyDepth then
            some { s with inHand := (s.slots[i]?).join, slots := s.slots.set i none,
                          position := some (i + 1) }
          else none
      | _, _ => none
  | .callback =>
      match s.inHand with
      | some n => some { s with inHand := none, delivered := s.delivered ++ [n] }
      | none => none
  | .pollEnd =>
      if s.position = some hostLinkCfgNotifyDepth ∧ s.inHand = none then
        some { s with position := none }
      else none

def notifyRun (acts : List NotifyAct) : Option NotifyState := acts.foldlM notifyStep .init

/-! ## The steps are those of the handler -/

/-- The handler's notify slots, without the notes. -/
def NotifyState.tables (s : NotifyState) (t : Tables) : Tables :=
  { t with notifySlot := s.slots.map (Option.map Notice.frame) }

theorem notifyStep_accept_tables {s s' : NotifyState} {f : HostLinkFrame}
    (step : notifyStep s (.accept f) = some s') (t : Tables) :
    addNotifyFrameLocked (s.tables t) f =
      (if s'.accepted.length = s.accepted.length then .noSlot else .ok, s'.tables t) := by
  rw [notifyStep] at step
  have same : findEmptyNotify (s.tables t) = firstFree s.slots := firstFree_map _ _
  rw [addNotifyFrameLocked, same]
  cases found : firstFree s.slots with
  | none =>
    simp only [found, Option.some.injEq] at step
    simp [← step]
  | some i =>
    simp only [found, Option.some.injEq] at step
    simp [← step, NotifyState.tables, List.map_set]

theorem notifyStep_take_tables {s s' : NotifyState} {i : ℕ} (step : notifyStep s .take = some s')
    (position : s.position = some i) (t : Tables) :
    pollTakeLocked (s.tables t) i = (s'.inHand.map Notice.frame, s'.tables t) := by
  cases hand : s.inHand with
  | some n => simp [notifyStep, position, hand] at step
  | none =>
    simp only [notifyStep, position, hand] at step
    split at step
    · obtain rfl := Option.some.inj step
      simp only [pollTakeLocked, NotifyState.tables, List.getElem?_map, List.map_set,
        Option.map_none]
      cases s.slots[i]? <;> rfl
    · cases step

end NeoRuntime.HostLink
