import NeoRuntime.HostLink.Handler

/-!
# Asynchronous requests under three threads

`host_link_request_async` takes an async slot under the lock, sends without it, and releases the
slot again if the send failed; the feeding thread completes a request when its response arrives, the
polling thread when it waits too long.  The locked sections come in any order, with any ticks.  The
`k`-th call that obtained a slot registers the callback number `k`.
-/

namespace NeoRuntime.HostLink

def hostLinkCfgAckTimeoutMs : UInt32 := 500

def hostLinkPortTickDiffMs (startMs nowMs : UInt32) : UInt32 :=
  if startMs ≤ nowMs then nowMs - startMs else 0xFFFFFFFF - startMs + nowMs + 1

/-! ## The locked sections -/

variable (t : Tables)

/-- The first section of `host_link_request_async`: the slot taken, if one is free. -/
def requestAsyncLocked (cmd : UInt16) (tickMs : UInt32) (cb : ℕ) : Option (ℕ × Tables) :=
  (t.asyncSlot.findIdx? fun s => !s.used).map fun i =>
    (i, { t with nextFrameId := t.nextFrameId + 1,
                 asyncSlot := t.asyncSlot.set i ⟨true, t.nextFrameId, cmd, tickMs, cb⟩ })

/-- A slot is marked free, whoever has it. -/
def releaseAsync (i : ℕ) : Tables :=
  { t with asyncSlot := t.asyncSlot.modify i fun s => { s with used := false } }

/-- `host_link_poll` drops the acknowledgements that nobody came for. -/
def dropOldAcks (nowMs : UInt32) : Tables :=
  { t with ackSlot := t.ackSlot.zipWith (fun slot tick =>
      if hostLinkCfgAckTimeoutMs ≤ hostLinkPortTickDiffMs tick nowMs then none else slot) t.ackTick }

/-- The first slot from index `i` on whose request has waited too long. -/
def findTimedOut (nowMs : UInt32) (i : ℕ) : Option ℕ :=
  ((t.asyncSlot.drop i).findIdx? fun s =>
    s.used && hostLinkCfgAckTimeoutMs ≤ hostLinkPortTickDiffMs s.startedMs nowMs).map (i + ·)

def holder (i : ℕ) : Option ℕ :=
  (t.asyncSlot[i]?).bind fun s => if s.used then some s.cb else none

/-! ## The system -/

inductive CallPhase where
  | sending
  | failed (ret : HostLinkErr)
  | returned
  deriving DecidableEq, Repr

structure AsyncCall where
  slot : ℕ
  phase : CallPhase
  deriving DecidableEq, Repr

/-- A slot was released for the sake of a call while it was used for `held`. -/
structure Release where
  call : ℕ
  held : Option ℕ
  deriving DecidableEq, Repr

/-- The handler, the calls that obtained a slot, the timeout scan, the callbacks and the releases.
-/
structure AsyncState where
  tables : Tables
  calls : List AsyncCall
  poll : Option (UInt32 × ℕ)
  done : List (ℕ × HostLinkErr)
  releases : List Release
  deriving DecidableEq, Repr

def AsyncState.init : AsyncState := ⟨Tables.init, [], none, [], []⟩

inductive AsyncAct where
  | request (cmd : UInt16) (tickMs : UInt32)
  | sendReturns (k : ℕ) (ret : HostLinkErr)
  | cleanup (k : ℕ)
  | ackFrame (tickMs : UInt32) (f : HostLinkFrame)
  | pollBegin (nowMs : UInt32)
  | pollScan
  deriving DecidableEq, Repr

def asyncStep (s : AsyncState) : AsyncAct → Option AsyncState
  | .request cmd tickMs =>
      match requestAsyncLocked s.tables cmd tickMs s.calls.length with
      | none => some s
      | some (i, t) => some { s with tables := t, calls := s.calls ++ [⟨i, .sending⟩] }
  | .sendReturns k ret =>
      match s.calls[k]? with
      | some ⟨slot, .sending⟩ =>
          let phase := if ret = .ok then .returned else .failed ret
          some { s with calls := s.calls.set k ⟨slot, phase⟩ }
      | _ => none
  | .cleanup k =>
      match s.calls[k]? with
      | some ⟨slot, .failed ret⟩ =>
          some { s with tables := releaseAsync s.tables slot,
                        calls := s.calls.set k ⟨slot, .returned⟩,
                        done := s.done ++ [(k, ret)],
                        releases := s.releases ++ [⟨k, holder s.tables slot⟩] }
      | _ => none
  | .ackFrame tickMs f =>
      let (_, t, calls) := addAckFrameLocked tickMs s.tables f
      let held := (findAsync s.tables f).bind (holder s.tables)
      some { s with tables := t, done := s.done ++ calls.map fun c => (c.cb, c.err),
                    releases := s.releases ++ calls.map fun c => ⟨c.cb, held⟩ }
  | .pollBegin nowMs => if s.poll = none then some { s with poll := some (nowMs, 0) } else none
  | .pollScan =>
      match s.poll with
      | none => none
      | some (nowMs, i) =>
          let t := if i = 0 then dropOldAcks s.tables nowMs else s.tables
          match findTimedOut t nowMs i with
          | some j =>
              let cb := (t.asyncSlot.getD j ⟨false, 0, 0, 0, 0⟩).cb
              some { s with tables := releaseAsync t j, poll := some (nowMs, j + 1),
                            done := s.done ++ [(cb, .timeout)],
                            releases := s.releases ++ [⟨cb, holder t j⟩] }
          | none => some { s with tables := t, poll := none }

def asyncRun (acts : List AsyncAct) : Option AsyncState := acts.foldlM asyncStep .init

end NeoRuntime.HostLink
