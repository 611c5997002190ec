import Mathlib.Data.Int.Notation
import NeoRuntime.Lib.Dict
import NeoRuntime.Lib.Run

/-!
# Selection of inference requests

`InferenceScheduler` (platform/ai-runtime/src/inference_scheduler.cpp) has a queue of requests for
each session.  A worker adds the weight of each front request to the deficit of its session, and
takes the front request of the session with the greatest deficit, which pays the sum of the
weights.  A session without requests is forgotten.
-/

namespace NeoRuntime.AiRuntime

/-- `InferRequest`, as far as the selection reads it. -/
structure Request where
  sessionId : String
  priority : UInt32
  number : ℕ
  deriving DecidableEq

/-- The state under `mu_`, and what was accepted and taken so far. -/
structure Scheduler where
  queues : Dict String (List Request)
  deficits : Dict String ℤ
  totalQueued : ℕ
  accepted : List Request
  taken : List Request

def Scheduler.start : Scheduler := ⟨∅, ∅, 0, [], []⟩

def Scheduler.queueOf (s : Scheduler) (sid : String) : List Request := (s.queues.lookup sid).getD []

/-- The deficit of a session; a new one has none. -/
def Scheduler.deficitOf (s : Scheduler) (sid : String) : ℤ := (s.deficits.lookup sid).getD 0

/-- The weight `1 + static_cast<int>(prio)`, as far as it fits an `int`. -/
def weightOf (priority : UInt32) : ℤ := 1 + priority.toInt32.toInt

/-- `submit`, while the scheduler runs. -/
def submit (capacity : ℕ) (s : Scheduler) (req : Request) : Scheduler :=
  if capacity ≤ s.totalQueued then s
  else
    { s with
      queues := s.queues.insert req.sessionId (s.queueOf req.sessionId ++ [req])
      totalQueued := s.totalQueued + 1
      accepted := s.accepted ++ [req] }

/-- The sums of the loop.  The source has them as `int`, which they fit for up to 2¹⁴ sessions with
weights up to 8. -/
structure Scan where
  deficits : Dict String ℤ
  totalWeight : ℤ
  /-- The best session so far, with its score. -/
  best : Option (String × ℤ)

def scanSession (queues : Dict String (List Request)) (scan : Scan) (sid : String) : Scan :=
  match (queues.lookup sid).getD [] with
  | [] => scan
  | front :: _ =>
    let weight := weightOf front.priority
    let deficit := (scan.deficits.lookup sid).getD 0 + weight
    let better := match scan.best with
      | none => true
      | some (_, score) => score < deficit
    { deficits := scan.deficits.insert sid deficit
      totalWeight := scan.totalWeight + weight
      best := if better then some (sid, deficit) else scan.best }

/-- The selection of `worker_loop`, with the queues visited in the given order. -/
def select (s : Scheduler) (order : List String) : Scheduler :=
  let scan := order.foldl (scanSession s.queues) ⟨s.deficits, 0, none⟩
  match scan.best with
  | none => { s with deficits := scan.deficits }
  | some (sid, _) =>
    let deficits := scan.deficits.insert sid ((scan.deficits.lookup sid).getD 0 - scan.totalWeight)
    match s.queueOf sid with
    | [] => { s with deficits }
    | front :: rest =>
      { s with
        queues := if rest = [] then s.queues.erase sid else s.queues.insert sid rest
        deficits := if rest = [] then deficits.erase sid else deficits
        totalQueued := s.totalQueued - 1
        taken := s.taken ++ [front] }

inductive SchedulerEvent
  | submit (req : Request)
  /-- A worker selects, and the map is visited in this order. -/
  | select (order : List String)

/-- One step; a selection visits every queue once, and waits for a request. -/
def schedulerStep (capacity : ℕ) (s : Scheduler) : SchedulerEvent → Option Scheduler
  | .submit req => some (submit capacity s req)
  | .select order =>
    if 0 < s.totalQueued ∧ order.Perm s.queues.keys then some (select s order) else none

def SchedulerEvent.isSelect : SchedulerEvent → Bool
  | .submit _ => false
  | .select _ => true

end NeoRuntime.AiRuntime
