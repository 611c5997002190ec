import NeoRuntime.Lib.Run
import NeoRuntime.AppManager.Manifest

/-!
# Automatic restarts

`AutoRestartManager` (platform/app-manager/monitor/restart.go) with the calls of `StartApp` and
`StopApp`.  The goroutines are `monitorLoop`, which checks all monitored apps, and a `monitorApp`
for every entry that `AddApp` has made.  Timers run out and containers end at any time, and a
`select` may take any case that is ready.
-/

namespace NeoRuntime.AppManager

/-- What is fixed of an entry; its number stands for the address. -/
structure MonitoredApp where
  serial : ℕ
  appId : String
  manifest : AppManifest
  deriving DecidableEq, Repr

inductive Phase where
  /-- Before the `select` of its loop, and in it. -/
  | awake
  | parked
  /-- In `checkApp`, before it looks at the task. -/
  | look
  /-- In `handleContainerDown`, with a timer set, before its `select` and in it. -/
  | armed
  | waiting
  /-- In `restartContainer`, before the old task is stopped and before a new one is started. -/
  | stopping
  | starting
  | returned
  deriving DecidableEq, Repr

/-- The entry of a `monitorApp`, and the entries still to be checked, the current one first. -/
structure Goroutine where
  own : Option MonitoredApp
  todo : List MonitoredApp
  phase : Phase
  deriving DecidableEq, Repr

def Goroutine.next (g : Goroutine) : Goroutine :=
  { g with todo := g.todo.tail, phase := if g.todo.tail = [] then .awake else .look }

/-- Where a call of `StartApp` or `StopApp` is: the step that it makes next. -/
inductive CallPhase where
  | startTask (m : AppManifest)
  | addApp (m : AppManifest)
  | setRunning
  | stopTask
  | removeApp
  | setStopped
  | returned
  deriving DecidableEq, Repr

structure Call where
  appId : String
  phase : CallPhase
  deriving DecidableEq, Repr

def Call.starts (c : Call) : Bool :=
  match c.phase with
  | .startTask _ | .addApp _ | .setRunning => true
  | _ => false

structure Monitor where
  monitoredApps : Dict String MonitoredApp
  closed : ℕ → Bool
  restartCount : ℕ → ℕ
  nextSerial : ℕ
  goroutines : List Goroutine
  calls : List Call
  up : String → Bool
  running : String → Bool
  /-- A `StopApp` has returned with success, and no `StartApp` has made a step since. -/
  settled : String → Bool
  /-- `RemoveApp` was called, and `AddApp` was not called since. -/
  removed : String → Bool

/-- What `checkApp` finds of a task; `unknown` if its status cannot be read. -/
inductive Probe where
  | healthy
  | unhealthy
  | unknown
  deriving DecidableEq, Repr

inductive Move where
  /-- It enters the `select` of its loop and waits, takes the case of the closed channel, or takes
  the case of the ticker. -/
  | rest
  | leave
  | tick (order : List MonitoredApp)
  | look (probe : Probe)
  /-- It enters the `select` of the back-off; the timer runs out. -/
  | wait
  | fire
  | stopOld
  | startNew (ok : Bool)
  deriving DecidableEq, Repr

inductive Action where
  | startApp (appId : String) (m : AppManifest)
  | stopApp (appId : String)
  | call (i : ℕ) (ok : Bool)
  /-- `RemoveApp`, from anywhere else. -/
  | removeApp (appId : String)
  | exit (appId : String)
  | goroutine (i : ℕ) (move : Move)
  deriving DecidableEq, Repr

namespace Monitor

/-- The device with `monitorLoop` as the only goroutine. -/
def init : Monitor where
  monitoredApps := ∅
  closed _ := false
  restartCount _ := 0
  nextSerial := 0
  goroutines := [{ own := none, todo := [], phase := .awake }]
  calls := []
  up _ := false
  running _ := false
  settled _ := false
  removed _ := false

/-- Closing a channel lets the goroutines go on that wait for it. -/
def wake (e : MonitoredApp) (g : Goroutine) : Goroutine :=
  if g.phase = .parked ∧ g.own = some e then { g with phase := .returned }
  else if g.phase = .waiting ∧ g.todo.head? = some e then g.next
  else g

variable (s : Monitor)

def addApp (appId : String) (m : AppManifest) : Monitor :=
  let s := { s with
    settled := Function.update s.settled appId false
    removed := Function.update s.removed appId false }
  if m.isAutoRestartEnabled then
    let e : MonitoredApp := { serial := s.nextSerial, appId, manifest := m }
    { s with
      monitoredApps := s.monitoredApps.insert appId e
      nextSerial := s.nextSerial + 1
      goroutines := s.goroutines ++ [{ own := some e, todo := [], phase := .awake }] }
  else s

def removeApp (appId : String) : Monitor :=
  let s := { s with removed := Function.update s.removed appId true }
  match s.monitoredApps.lookup appId with
  | none => s
  | some e => { s with
      monitoredApps := s.monitoredApps.erase appId
      closed := Function.update s.closed e.serial true
      goroutines := s.goroutines.map (wake e) }

def setUp (appId : String) (up : Bool) : Monitor :=
  { s with up := Function.update s.up appId up }

def setGoroutine (i : ℕ) (g : Goroutine) : Monitor :=
  { s with goroutines := s.goroutines.set i g }

def setPhase (i : ℕ) (c : Call) (phase : CallPhase) : Monitor :=
  { s with calls := s.calls.set i { c with phase } }

def exhausted (e : MonitoredApp) : Bool :=
  0 < e.manifest.effectiveRestartMaxRetries &&
    e.manifest.effectiveRestartMaxRetries ≤ s.restartCount e.serial

/-- `checkApp` goes on to `handleContainerDown`. -/
def isDown (e : MonitoredApp) (probe : Probe) : Bool :=
  probe ≠ .unknown &&
    if s.up e.appId then probe = .unhealthy else e.manifest.isAutoRestartEnabled

def callStep (i : ℕ) (c : Call) (ok : Bool) : Monitor :=
  match c.phase with
  | .startTask m =>
      let s := { s with settled := Function.update s.settled c.appId false }
      if ok then (s.setUp c.appId true).setPhase i c (.addApp m) else s.setPhase i c .returned
  | .addApp m => (s.addApp c.appId m).setPhase i c .setRunning
  | .setRunning =>
      { s.setPhase i c .returned with
        running := if ok then Function.update s.running c.appId true else s.running
        settled := Function.update s.settled c.appId false }
  | .stopTask => (if ok then s.setUp c.appId false else s).setPhase i c .removeApp
  | .removeApp => (s.setPhase i c .setStopped).removeApp c.appId
  | .setStopped =>
      -- a call that cannot save the state has failed
      if ok then
        { s.setPhase i c .returned with
          running := Function.update s.running c.appId false
          settled := Function.update s.settled c.appId true }
      else s.setPhase i c .returned
  | .returned => s

/-- The step of a goroutine; one that it cannot make changes nothing. -/
def goroutineStep (i : ℕ) (g : Goroutine) : Move → Monitor
  | .rest =>
      if g.phase = .awake ∧ ¬ g.own.any (s.closed ·.serial) then
        s.setGoroutine i { g with phase := .parked }
      else s
  | .leave =>
      if g.phase = .awake ∧ g.own.any (s.closed ·.serial) then
        s.setGoroutine i { g with phase := .returned }
      else s
  | .tick order =>
      if g.phase = .awake ∨ g.phase = .parked then
        match g.own with
        | some e => s.setGoroutine i { g with todo := [e], phase := .look }
        | none =>
          -- the map is iterated in any order
          if order.Perm (Dict.values s.monitoredApps) then
            s.setGoroutine i
              { g with todo := order, phase := if order = [] then .awake else .look }
          else s
      else s
  | .look probe =>
      match g.phase, g.todo with
      | .look, e :: _ =>
        if s.isDown e probe then
          if s.exhausted e then (s.setGoroutine i g.next).removeApp e.appId
          else s.setGoroutine i { g with phase := .armed }
        else s.setGoroutine i g.next
      | _, _ => s
  | .wait =>
      match g.phase, g.todo with
      | .armed, e :: _ =>
        s.setGoroutine i (if s.closed e.serial then g.next else { g with phase := .waiting })
      | _, _ => s
  | .fire =>
      if g.phase = .armed ∨ g.phase = .waiting then
        s.setGoroutine i { g with phase := .stopping }
      else s
  | .stopOld =>
      match g.phase, g.todo with
      | .stopping, e :: _ => (s.setUp e.appId false).setGoroutine i { g with phase := .starting }
      | _, _ => s
  | .startNew ok =>
      match g.phase, g.todo with
      | .starting, e :: _ =>
        let count := if ok then 0 else s.restartCount e.serial + 1
        let s := { s with restartCount := Function.update s.restartCount e.serial count }
        (if ok then s.setUp e.appId true else s).setGoroutine i g.next
      | _, _ => s

def step : Action → Monitor
  | .startApp appId m =>
      -- `StartApp` holds the lock of the app
      if ¬ s.running appId ∧ ∀ c ∈ s.calls, c.appId = appId → ¬ c.starts then
        { s with calls := s.calls ++ [⟨appId, .startTask m⟩] }
      else s
  | .stopApp appId =>
      if s.running appId then { s with calls := s.calls ++ [⟨appId, .stopTask⟩] }
      -- an app that is not marked as running is stopped with success at once
      else { s with settled := Function.update s.settled appId true }
  | .call i ok =>
      match s.calls[i]? with
      | some c => s.callStep i c ok
      | none => s
  | .removeApp appId => s.removeApp appId
  | .exit appId => s.setUp appId false
  | .goroutine i move =>
      match s.goroutines[i]? with
      | some g => s.goroutineStep i g move
      | none => s

def restarts : Action → Option String
  | .goroutine i .fire =>
      match s.goroutines[i]? with
      | some g => if g.phase = .armed ∨ g.phase = .waiting then g.todo.head?.map (·.appId) else none
      | none => none
  | _ => none

end Monitor

end NeoRuntime.AppManager
