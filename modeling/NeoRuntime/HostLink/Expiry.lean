import NeoRuntime.HostLink.AsyncProof

/-!
# What `host_link_poll` expires

The threads that share the handler, with a clock that only advances; the tick they read is the clock
modulo 2³².  `host_link_poll` reads it before it takes the lock, so that an entry may be stored with a
later tick than the one it is compared with, and then counts as very old.
-/

namespace NeoRuntime.HostLink

/-- A place where an acknowledgement or an asynchronous request waits. -/
inductive Place where
  | ack (i : ℕ)
  | async (i : ℕ)
  deriving DecidableEq, Repr

/-- The tick that is stored with what waits at a place, if anything does. -/
def stamp (t : Tables) : Place → Option UInt32
  | .ack i => if ((t.ackSlot[i]?).join).isSome then t.ackTick[i]? else none
  | .async i => (t.asyncSlot[i]?).bind fun s => if s.used then some s.startedMs else none

def places (t : Tables) : List Place :=
  (List.range t.ackSlot.length).map .ack ++ (List.range t.asyncSlot.length).map .async

/-- The locked section of `wait_for_ack` and `wait_for_ack_timeout`. -/
def takeAckLocked (t : Tables) (type : UInt8) (cmd frameId : UInt16) : Tables :=
  match t.ackSlot.findIdx? fun slot => slot.any fun f =>
      f.header.frameId == frameId && f.header.cmd == cmd && f.header.type == type with
  | some i => { t with ackSlot := t.ackSlot.set i none }
  | none => t

/-! ## The system with a clock -/

structure Expiry where
  place : Place
  storedAt : ℕ
  expiredAt : ℕ
  deriving DecidableEq, Repr

/-- The handler, the time in milliseconds, when each place was filled, the tick that was read last,
and what has expired. -/
structure Timed where
  async : AsyncState
  clock : ℕ
  storedAt : Place → ℕ
  polledAt : ℕ
  expired : List Expiry

def Timed.init (clock : ℕ) : Timed := ⟨.init, clock, fun _ => clock, clock, []⟩

inductive TimedAct where
  | wait (ms : ℕ)
  | allocFrameId
  | takeAck (type : UInt8) (cmd frameId : UInt16)
  | request (cmd : UInt16)
  | sendReturns (k : ℕ) (ret : HostLinkErr)
  | cleanup (k : ℕ)
  | ackFrame (f : HostLinkFrame)
  | pollBegin
  | pollScan
  deriving DecidableEq, Repr

def handlerStep (tickMs : UInt32) (s : AsyncState) : TimedAct → Option AsyncState
  | .wait _ => some s
  | .allocFrameId =>
      some { s with tables := { s.tables with nextFrameId := s.tables.nextFrameId + 1 } }
  | .takeAck type cmd frameId =>
      some { s with tables := takeAckLocked s.tables type cmd frameId }
  | .request cmd => asyncStep s (.request cmd tickMs)
  | .sendReturns k ret => asyncStep s (.sendReturns k ret)
  | .cleanup k => asyncStep s (.cleanup k)
  | .ackFrame f => asyncStep s (.ackFrame tickMs f)
  | .pollBegin => asyncStep s (.pollBegin tickMs)
  | .pollScan => asyncStep s .pollScan

def TimedAct.ms : TimedAct → ℕ
  | .wait ms => ms
  | _ => 0

/-- The places that were filled before a step and are empty after it. -/
def emptied (t t' : Tables) : List Place :=
  (places t).filter fun p => (stamp t p).isSome && (stamp t' p).isNone

def timedStep (s : Timed) (act : TimedAct) : Option Timed :=
  (handlerStep (UInt32.ofNat s.clock) s.async act).map fun async =>
    { async
      clock := s.clock + act.ms
      storedAt := fun p =>
        if (stamp s.async.tables p).isNone && (stamp async.tables p).isSome then s.clock
        else s.storedAt p
      polledAt := if act = .pollBegin then s.clock else s.polledAt
      expired := if act = .pollScan then
          s.expired ++ (emptied s.async.tables async.tables).map fun p =>
            ⟨p, s.storedAt p, s.clock⟩
        else s.expired }

/-! ## The conditions -/

/-- Nothing has waited for 2³¹ milliseconds. -/
def Timed.NoneStays (s : Timed) : Prop :=
  ∀ p ∈ places s.async.tables, (stamp s.async.tables p).isSome → s.clock < s.storedAt p + 2 ^ 31

/-- The places that a scan of `host_link_poll` still looks at, having come to an index. -/
def scanned (i : ℕ) : Place → Bool
  | .ack _ => i = 0
  | .async j => i ≤ j

/-- What the scan looks at was stored before the tick was read, or is old by now. -/
def Timed.InTime (s : Timed) : TimedAct → Prop
  | .pollScan => ∀ scan ∈ s.async.poll, ∀ p ∈ places s.async.tables, scanned scan.2 p →
      (stamp s.async.tables p).isSome →
        s.storedAt p ≤ s.polledAt ∨ s.storedAt p + hostLinkCfgAckTimeoutMs.toNat ≤ s.clock
  | _ => True

instance (s : Timed) : Decidable s.NoneStays :=
  inferInstanceAs (Decidable (∀ p ∈ places s.async.tables, _))

instance (s : Timed) (act : TimedAct) : Decidable (s.InTime act) := by
  cases act <;> unfold Timed.InTime <;> infer_instance

/-! ## Stamps -/

section Stamps

variable {t t' : Tables} {p : Place} {v : UInt32}

theorem stamp_congr (acks : t'.ackSlot = t.ackSlot) (ticks : t'.ackTick = t.ackTick)
    (asyncs : t'.asyncSlot = t.asyncSlot) (p : Place) : stamp t' p = stamp t p := by
  cases p <;> simp only [stamp, acks, ticks, asyncs]

theorem mem_places (stamped : (stamp t p).isSome) : p ∈ places t := by
  cases p with
  | ack i =>
    have lt : i < t.ackSlot.length := by
      by_contra beyond
      simp [stamp, List.getElem?_eq_none (Nat.le_of_not_lt beyond)] at stamped
    simp [places, lt]
  | async i =>
    have lt : i < t.asyncSlot.length := by
      by_contra beyond
      simp [stamp, List.getElem?_eq_none (Nat.le_of_not_lt beyond)] at stamped
    simp [places, lt]

theorem stamp_clearAck (i : ℕ) :
    stamp { t with ackSlot := t.ackSlot.set i none } p = if p = .ack i then none else stamp t p := by
  cases p with
  | async j => rfl
  | ack j =>
    simp only [stamp, List.getElem?_set, Place.ack.injEq]
    by_cases same : i = j
    · subst same
      by_cases lt : i < t.ackSlot.length <;> simp [lt]
    · rw [if_neg same, if_neg (Ne.symm same)]

theorem stamp_releaseAsync (i : ℕ) :
    stamp (releaseAsync t i) p = if p = .async i then none else stamp t p := by
  cases p with
  | ack j => rfl
  | async j =>
    simp only [stamp, releaseAsync, List.getElem?_modify, Place.async.injEq]
    by_cases same : i = j
    · subst same
      cases t.asyncSlot[i]? <;> simp
    · rw [if_neg (Ne.symm same)]
      cases t.asyncSlot[j]? <;> simp [same]

theorem stamp_takeAckLocked {type : UInt8} {cmd frameId : UInt16}
    (stamped : stamp (takeAckLocked t type cmd frameId) p = some v) : stamp t p = some v := by
  rw [takeAckLocked] at stamped
  split at stamped
  · rw [stamp_clearAck, Option.ite_none_left_eq_some] at stamped
    exact stamped.2
  · exact stamped

theorem stamp_dropOldAcks (nowMs : UInt32) (j : ℕ) :
    stamp (dropOldAcks t nowMs) (.ack j) = (stamp t (.ack j)).filter fun v =>
      hostLinkPortTickDiffMs v nowMs < hostLinkCfgAckTimeoutMs := by
  simp only [stamp, dropOldAcks, List.getElem?_zipWith]
  cases t.ackSlot[j]? with
  | none => simp
  | some slot =>
    cases t.ackTick[j]? with
    | none => simp
    | some tick =>
      by_cases old : hostLinkCfgAckTimeoutMs ≤ hostLinkPortTickDiffMs tick nowMs
      · cases slot <;> simp [old, Option.filter]
      · cases slot <;> simp [old, Option.filter, UInt32.not_le.mp old]

theorem stamp_of_dropOldAcks {nowMs : UInt32} (stamped : stamp (dropOldAcks t nowMs) p = some v) :
    stamp t p = some v := by
  cases p with
  | async j => exact stamped
  | ack j =>
    rw [stamp_dropOldAcks] at stamped
    exact Option.eq_some_of_filter_eq_some stamped

theorem stamp_requestAsyncLocked {cmd : UInt16} {tickMs : UInt32} {cb i : ℕ}
    (taken : requestAsyncLocked t cmd tickMs cb = some (i, t'))
    (stamped : stamp t' p = some v) : stamp t p = some v ∨ stamp t p = none ∧ v = tickMs := by
  rw [requestAsyncLocked, Option.map_eq_some_iff] at taken
  obtain ⟨i', found, same⟩ := taken
  obtain ⟨rfl, rfl⟩ := Prod.mk.inj same
  obtain ⟨lt, free, -⟩ := List.findIdx?_eq_some_iff_getElem.1 found
  cases p with
  | ack j => exact .inl stamped
  | async j =>
    simp only [stamp, List.getElem?_set] at stamped ⊢
    by_cases same : i' = j
    · subst same
      rw [if_pos rfl, if_pos lt] at stamped
      refine .inr ⟨?_, (Option.some.inj stamped).symm⟩
      rw [List.getElem?_eq_getElem lt, Option.bind_some, if_neg (by simpa using free)]
    · rw [if_neg same] at stamped
      exact .inl stamped

theorem stamp_addAckFrameLocked {tickMs : UInt32} {f : HostLinkFrame}
    (stamped : stamp (addAckFrameLocked tickMs t f).2.1 p = some v) :
    stamp t p = some v ∨ stamp t p = none ∧ v = tickMs := by
  cases found : findAsync t f with
  | some i =>
    obtain ⟨w, slot, -, -, -⟩ := findAsync_eq_some found
    have released : (addAckFrameLocked tickMs t f).2.1.asyncSlot = (releaseAsync t i).asyncSlot := by
      simp only [addAckFrameLocked, found, releaseAsync, List.getD_eq_getElem?_getD, slot,
        Option.getD_some]
      exact (List.modify_eq_set_getElem? ..).trans (by simp [slot]) |>.symm
    have same : stamp (addAckFrameLocked tickMs t f).2.1 p = stamp (releaseAsync t i) p :=
      stamp_congr (by simp [addAckFrameLocked, found, releaseAsync])
        (by simp [addAckFrameLocked, found, releaseAsync]) released p
    rw [same, stamp_releaseAsync, Option.ite_none_left_eq_some] at stamped
    exact .inl stamped.2
  | none =>
    simp only [addAckFrameLocked, found, storeAckFrame] at stamped
    cases free : findEmptyAck t with
    | none =>
      rw [free] at stamped
      exact .inl stamped
    | some i =>
      rw [free] at stamped
      have empty := getElem?_of_firstFree free
      cases p with
      | async j => exact .inl stamped
      | ack j =>
        simp only [stamp, List.getElem?_set] at stamped ⊢
        by_cases same : i = j
        · subst same
          obtain ⟨lt, -⟩ := List.getElem?_eq_some_iff.1 empty
          refine .inr ⟨by simp [empty], ?_⟩
          simp only [lt, if_true, Option.join_some, Option.isSome_some] at stamped
          split at stamped
          · exact (Option.some.inj stamped).symm
          · cases stamped
        · rw [if_neg same, if_neg same] at stamped
          exact .inl stamped

end Stamps

section Steps

variable {s s' : AsyncState} {act : TimedAct} {tickMs nowMs : UInt32} {i : ℕ} {p : Place} {v : UInt32}

/-- The tables while `host_link_poll` looks for requests that wait too long. -/
def scanTables (t : Tables) (nowMs : UInt32) (i : ℕ) : Tables :=
  if i = 0 then dropOldAcks t nowMs else t

theorem pollScan_cases (poll : s.poll = some (nowMs, i)) (step : asyncStep s .pollScan = some s') :
    (s'.tables = scanTables s.tables nowMs i ∧ s'.poll = none) ∨
      ∃ j, findTimedOut s.tables nowMs i = some j ∧
        s'.tables = releaseAsync (scanTables s.tables nowMs i) j ∧
        s'.poll = some (nowMs, j + 1) := by
  have slots : findTimedOut (scanTables s.tables nowMs i) nowMs i = findTimedOut s.tables nowMs i := by
    rw [findTimedOut, findTimedOut, scanTables]
    split <;> rfl
  simp only [asyncStep, poll] at step
  rw [← scanTables, slots] at step
  cases found : findTimedOut s.tables nowMs i with
  | none =>
    simp only [found, Option.some.injEq] at step
    subst step
    exact .inl ⟨rfl, rfl⟩
  | some j =>
    simp only [found, Option.some.injEq] at step
    subst step
    exact .inr ⟨j, rfl, rfl, rfl⟩

theorem stamp_of_scanTables {t : Tables} (stamped : stamp (scanTables t nowMs i) p = some v) :
    stamp t p = some v := by
  rw [scanTables] at stamped
  split at stamped
  · exact stamp_of_dropOldAcks stamped
  · exact stamped

theorem handlerStep_stamp (step : handlerStep tickMs s act = some s')
    (stamped : stamp s'.tables p = some v) :
    stamp s.tables p = some v ∨ stamp s.tables p = none ∧ v = tickMs := by
  cases act with
  | wait ms =>
    obtain rfl := Option.some.inj step
    exact .inl stamped
  | allocFrameId =>
    obtain rfl := Option.some.inj step
    exact .inl ((stamp_congr rfl rfl rfl p).symm.trans stamped)
  | takeAck type cmd frameId =>
    obtain rfl := Option.some.inj step
    exact .inl (stamp_takeAckLocked stamped)
  | request cmd =>
    simp only [handlerStep, asyncStep] at step
    cases taken : requestAsyncLocked s.tables cmd tickMs s.calls.length with
    | none =>
      rw [taken] at step
      obtain rfl := Option.some.inj step
      exact .inl stamped
    | some res =>
      rw [taken] at step
      obtain rfl := Option.some.inj step
      exact stamp_requestAsyncLocked taken stamped
  | sendReturns k ret =>
    simp only [handlerStep, asyncStep] at step
    split at step
    · obtain rfl := Option.some.inj step
      exact .inl stamped
    · cases step
  | cleanup k =>
    simp only [handlerStep, asyncStep] at step
    split at step
    · obtain rfl := Option.some.inj step
      rw [stamp_releaseAsync, Option.ite_none_left_eq_some] at stamped
      exact .inl stamped.2
    · cases step
  | ackFrame f =>
    obtain rfl := Option.some.inj step
    exact stamp_addAckFrameLocked stamped
  | pollBegin =>
    rw [handlerStep, asyncStep, Option.ite_none_right_eq_some] at step
    obtain rfl := Option.some.inj step.2
    exact .inl stamped
  | pollScan =>
    rw [handlerStep] at step
    cases poll : s.poll with
    | none => simp [asyncStep, poll] at step
    | some scan =>
      obtain ⟨same, -⟩ | ⟨j, -, same, -⟩ := pollScan_cases poll step
      · rw [same] at stamped
        exact .inl (stamp_of_scanTables stamped)
      · rw [same, stamp_releaseAsync, Option.ite_none_left_eq_some] at stamped
        exact .inl (stamp_of_scanTables stamped.2)

/-- Only `host_link_poll` sets the tick that it compares with. -/
theorem handlerStep_poll (step : handlerStep tickMs s act = some s') (poll : s'.poll = some (nowMs, i)) :
    (∃ j, s.poll = some (nowMs, j)) ∧ act ≠ .pollBegin ∨ act = .pollBegin ∧ nowMs = tickMs := by
  cases act with
  | pollBegin =>
    rw [handlerStep, asyncStep, Option.ite_none_right_eq_some] at step
    obtain rfl := Option.some.inj step.2
    exact .inr ⟨rfl, (congrArg Prod.fst (Option.some.inj poll)).symm⟩
  | pollScan =>
    rw [handlerStep] at step
    cases before : s.poll with
    | none => simp [asyncStep, before] at step
    | some scan =>
      obtain ⟨-, after⟩ | ⟨j, -, -, after⟩ := pollScan_cases before step
      · rw [after] at poll
        cases poll
      · rw [after] at poll
        have same : scan.1 = nowMs := congrArg Prod.fst (Option.some.inj poll)
        exact .inl ⟨⟨scan.2, congrArg some (Prod.ext same rfl)⟩, by simp⟩
  | request cmd =>
    simp only [handlerStep, asyncStep] at step
    split at step <;> obtain rfl := Option.some.inj step <;> exact .inl ⟨⟨i, poll⟩, by simp⟩
  | sendReturns k ret | cleanup k =>
    simp only [handlerStep, asyncStep] at step
    split at step
    · obtain rfl := Option.some.inj step
      exact .inl ⟨⟨i, poll⟩, by simp⟩
    · cases step
  | wait ms | allocFrameId | takeAck type cmd frameId | ackFrame f =>
    obtain rfl := Option.some.inj step
    exact .inl ⟨⟨i, poll⟩, by simp⟩

theorem pollScan_stamp (poll : s.poll = some (nowMs, i)) (step : asyncStep s .pollScan = some s')
    (stamped : stamp s.tables p = some v) (gone : stamp s'.tables p = none) :
    scanned i p = true ∧ hostLinkCfgAckTimeoutMs ≤ hostLinkPortTickDiffMs v nowMs := by
  -- an acknowledgement that is dropped, or a request
  have dropped (ack : stamp (scanTables s.tables nowMs i) p = none) :
      scanned i p = true ∧ hostLinkCfgAckTimeoutMs ≤ hostLinkPortTickDiffMs v nowMs := by
    rw [scanTables] at ack
    split at ack
    · next first =>
      cases p with
      | async j => exact absurd (ack.symm.trans stamped) (by simp)
      | ack j =>
        rw [stamp_dropOldAcks, stamped, Option.filter_eq_none_iff] at ack
        exact ⟨by simpa [scanned] using first, UInt32.not_lt.mp (by simpa using ack)⟩
    · exact absurd (ack.symm.trans stamped) (by simp)
  obtain ⟨same, -⟩ | ⟨j, found, same, -⟩ := pollScan_cases poll step
  · rw [same] at gone
    exact dropped gone
  · rw [same, stamp_releaseAsync] at gone
    split at gone
    · next here =>
      subst here
      obtain ⟨ahead, w, slot, used, old⟩ := findTimedOut_eq_some found
      rw [stamp, slot, Option.bind_some, if_pos used] at stamped
      obtain rfl := Option.some.inj stamped
      exact ⟨by simpa [scanned] using ahead, old⟩
    · exact dropped gone

end Steps

theorem hostLinkPortTickDiffMs_eq (startMs nowMs : UInt32) :
    hostLinkPortTickDiffMs startMs nowMs = nowMs - startMs := by
  rw [hostLinkPortTickDiffMs]
  split
  · rfl
  · grind

/-- The difference of two ticks that are not too far apart. -/
theorem toNat_tickDiffMs {start now : ℕ} (le : start ≤ now) (near : now < start + 2 ^ 32) :
    (hostLinkPortTickDiffMs (UInt32.ofNat start) (UInt32.ofNat now)).toNat = now - start := by
  rw [hostLinkPortTickDiffMs_eq, UInt32.toNat_sub, UInt32.toNat_ofNat', UInt32.toNat_ofNat']
  omega

/-! ## Runs -/

/-- What waits bears the tick of its time, `host_link_poll` the tick it has read, and what has
expired was old. -/
structure Stamped (s : Timed) : Prop where
  stamps : ∀ p v, stamp s.async.tables p = some v → v = UInt32.ofNat (s.storedAt p)
  polled : s.polledAt ≤ s.clock
  now : ∀ nowMs i, s.async.poll = some (nowMs, i) → nowMs = UInt32.ofNat s.polledAt
  old : ∀ e ∈ s.expired, e.storedAt + hostLinkCfgAckTimeoutMs.toNat ≤ e.expiredAt

theorem stamped_init (clock : ℕ) : Stamped (.init clock) where
  stamps := by
    intro p v stamped
    have place := mem_places (Option.isSome_iff_exists.mpr ⟨v, stamped⟩)
    have empty : ∀ p ∈ places Tables.init, stamp Tables.init p = none := by decide
    exact absurd (stamped.symm.trans (empty p place)) (by simp)
  polled := le_refl clock
  now := fun _ _ poll => by cases poll
  old := fun e expired => by cases expired

/-- What a scan that is in time expires is old. -/
theorem Stamped.expires {s : Timed} {async : AsyncState} (inv : Stamped s) (stays : s.NoneStays)
    (inTime : s.InTime .pollScan) (step : asyncStep s.async .pollScan = some async) {p : Place}
    (expired : p ∈ emptied s.async.tables async.tables) :
    s.storedAt p + hostLinkCfgAckTimeoutMs.toNat ≤ s.clock := by
  simp only [emptied, List.mem_filter, Bool.and_eq_true, Option.isNone_iff_eq_none] at expired
  obtain ⟨place, waits, gone⟩ := expired
  obtain ⟨v, stamped⟩ := Option.isSome_iff_exists.mp waits
  cases poll : s.async.poll with
  | none => simp [asyncStep, poll] at step
  | some scan =>
    obtain ⟨nowMs, i⟩ := scan
    obtain ⟨looked, seems⟩ := pollScan_stamp poll step stamped gone
    obtain before | old := inTime (nowMs, i) poll p place looked waits
    · have young := stays p place waits
      have polled := inv.polled
      rw [inv.stamps p v stamped, inv.now nowMs i poll, UInt32.le_iff_toNat_le,
        toNat_tickDiffMs before (by omega)] at seems
      omega
    · exact old

theorem Stamped.step {s s' : Timed} {act : TimedAct} (inv : Stamped s)
    (good : s.NoneStays ∧ s.InTime act) (step : timedStep s act = some s') : Stamped s' := by
  rw [timedStep, Option.map_eq_some_iff] at step
  obtain ⟨async, stepped, rfl⟩ := step
  have clock := Nat.le_add_right s.clock act.ms
  constructor
  · intro p v stamped
    obtain same | ⟨new, rfl⟩ := handlerStep_stamp stepped stamped
    · simpa [same] using inv.stamps p v same
    · simp [new, stamped]
  · dsimp only
    split
    · exact clock
    · exact inv.polled.trans clock
  · intro nowMs i poll
    obtain ⟨⟨j, before⟩, other⟩ | ⟨rfl, rfl⟩ := handlerStep_poll stepped poll
    · simpa [other] using inv.now nowMs j before
    · simp
  · dsimp only
    split
    · next scans =>
      subst scans
      intro e expired
      rw [List.mem_append, List.mem_map] at expired
      obtain earlier | ⟨p, now, rfl⟩ := expired
      · exact inv.old e earlier
      · exact inv.expires good.1 good.2 stepped now
    · exact inv.old

/-- If nothing waits for 2³¹ milliseconds and every scan is in time, only what has waited for the
timeout expires. -/
theorem expires_only_old {clock : ℕ} {acts : List TimedAct} {s : Timed}
    (run : acts.foldlM timedStep (.init clock) = some s)
    (stays : Along timedStep (fun s _ => s.NoneStays) (.init clock) acts)
    (inTime : Along timedStep Timed.InTime (.init clock) acts) :
    ∀ e ∈ s.expired, e.storedAt + hostLinkCfgAckTimeoutMs.toNat ≤ e.expiredAt :=
  (foldlM_inv_along Stamped (fun _ _ _ inv good step => inv.step good step) (stamped_init clock)
    (stays.and inTime) run).old

def lateAckRun : List TimedAct :=
  [.pollBegin, .wait 1, .ackFrame ⟨newHeader 7 .eventAck 0x20 [], [], 0⟩, .pollScan]

theorem lateAckRun_expires : Along timedStep (fun s _ => s.NoneStays) (.init 0) lateAckRun ∧
    (lateAckRun.foldlM timedStep (.init 0)).map Timed.expired = some [⟨.ack 0, 1, 1⟩] := by
  decide +kernel

/-- It is expired at once. -/
theorem fresh_ack_expired : Along timedStep (fun s _ => s.NoneStays) (.init 0) lateAckRun ∧
    ∃ s, lateAckRun.foldlM timedStep (.init 0) = some s ∧ s.expired = [⟨.ack 0, 1, 1⟩] ∧
      ¬ ∀ e ∈ s.expired, e.storedAt + hostLinkCfgAckTimeoutMs.toNat ≤ e.expiredAt := by
  obtain ⟨s, run, expired⟩ := Option.map_eq_some_iff.mp lateAckRun_expires.2
  refine ⟨lateAckRun_expires.1, s, run, expired, ?_⟩
  rw [expired]
  decide

def wrapRun : List TimedAct :=
  [.request 0x20, .sendReturns 0 .ok, .wait 200, .pollBegin, .pollScan, .wait 400, .pollBegin,
    .pollScan, .pollScan]

theorem wrapRun_expires : Along timedStep (fun s _ => s.NoneStays) (.init (2 ^ 32 - 1)) wrapRun ∧
    Along timedStep Timed.InTime (.init (2 ^ 32 - 1)) wrapRun ∧
    (wrapRun.foldlM timedStep (.init (2 ^ 32 - 1))).map Timed.expired =
      some [⟨.async 0, 2 ^ 32 - 1, 2 ^ 32 + 599⟩] := by
  decide +kernel

theorem expires_only_old_wrapping : ∃ s, wrapRun.foldlM timedStep (.init (2 ^ 32 - 1)) = some s ∧
    s.expired = [⟨.async 0, 2 ^ 32 - 1, 2 ^ 32 + 599⟩] ∧
    ∀ e ∈ s.expired, e.storedAt + hostLinkCfgAckTimeoutMs.toNat ≤ e.expiredAt := by
  obtain ⟨stays, inTime, expired⟩ := wrapRun_expires
  obtain ⟨s, run, same⟩ := Option.map_eq_some_iff.mp expired
  exact ⟨s, run, same, expires_only_old run stays inTime⟩

end NeoRuntime.HostLink
