import Mathlib.Logic.Function.Basic
import NeoRuntime.Lib.Prog

/-!
# The configuration manager

`Manager` (platform/platform-api/config/manager.go) drives a change of a value through the adapter
of its domain and records it in the store (platform/platform-api/repo/config_repo.go): the desired
rows, their history, and a job for every attempt.  Adapters and the store may answer differently at
every moment.
-/

namespace NeoRuntime.PlatformApi

open Prog

/-! ## Adapters -/

/-- An error of `Snapshot`, as far as `os.ErrNotExist` is told from others. -/
inductive SnapshotError where
  | notExist
  | other (e : String)
  deriving DecidableEq, Repr

/-- `Adapter`, with the optional `Normalizer` and `Snapshotter`, for a moment and the live system.
-/
structure Adapter (Live Backup Rendered : Type) where
  normalize : Option (ℕ → String → String → Live → Except String (String × Bool))
  snapshot : Option (ℕ → String → Live → Except SnapshotError String)
  validate : ℕ → String → String → Live → Except String Unit
  backup : ℕ → String → Live → Except String Backup
  render : ℕ → String → String → Live → Except String Rendered
  apply : ℕ → String → Rendered → Live → Except String Unit × Live
  verify : ℕ → String → String → Live → Except String Unit
  restore : ℕ → String → Backup → Live → Except String Unit × Live

/-! ## The store -/

/-- A desired row, without the names of its domain and key. -/
structure ConfigItem where
  valueJSON : String
  revision : ℕ
  deriving DecidableEq, Repr

inductive Reason where
  | apply
  | delete
  | normalize
  | imported
  deriving DecidableEq, Repr

structure ConfigRevision where
  domain : String
  key : String
  revision : ℕ
  valueJSON : String
  reason : Reason
  deriving DecidableEq, Repr

/-- An id from `newID`: no two are the same.  It keeps the domain that it was made for. -/
structure JobID where
  domain : String
  number : ℕ
  deriving DecidableEq, Repr

inductive JobAction where
  | apply
  | delete
  | reconcile
  deriving DecidableEq, Repr

inductive JobStatus where
  | running
  | success
  | failed
  deriving DecidableEq, Repr

structure ConfigApplyJob where
  id : JobID
  domain : String
  key : String
  action : JobAction
  status : JobStatus
  error : String
  fromRevision : ℕ
  toRevision : ℕ
  deriving DecidableEq, Repr

/-- The tables, the live system, and the moment. -/
structure ConfigWorld (Live : Type) where
  items : String → String → Option ConfigItem
  revisions : List ConfigRevision
  jobs : List ConfigApplyJob
  live : Live
  clock : ℕ
  nextJob : ℕ
  /-- The last call of `Verify` in a domain: the key, the value, and whether it was accepted. -/
  verified : String → Option (String × String × Bool)

/-! ## The operations -/

/-- What a call of `Snapshot` comes to. -/
inductive Snapshot where
  /-- The adapter is no `Snapshotter`. -/
  | notCapable
  | notExist
  | failed (e : String)
  | live (value : String)
  deriving DecidableEq, Repr

section

variable (Live Backup Rendered : Type)

inductive ConfigOp : Type → Type where
  -- the store
  | get (domain key : String) : ConfigOp (Except String (Option ConfigItem))
  | upsert (domain key : String) (item : ConfigItem) : ConfigOp (Except String Unit)
  | delete (domain key : String) : ConfigOp (Except String Unit)
  | appendRevision (domain key valueJSON : String) (reason : Reason) : ConfigOp (Except String ℕ)
  | createJob (job : ConfigApplyJob) : ConfigOp (Except String Unit)
  | finishJob (id : JobID) (status : JobStatus) (errMsg : String) (toRevision : ℕ) : ConfigOp Unit
  | newID (domain : String) : ConfigOp JobID
  -- the adapter
  | normalize (a : Adapter Live Backup Rendered) (key desired : String) :
      ConfigOp (Except String (String × Bool))
  | snapshot (a : Adapter Live Backup Rendered) (key : String) : ConfigOp Snapshot
  | validate (a : Adapter Live Backup Rendered) (key desired : String) :
      ConfigOp (Except String Unit)
  | backup (a : Adapter Live Backup Rendered) (key : String) : ConfigOp (Except String Backup)
  | render (a : Adapter Live Backup Rendered) (key desired : String) :
      ConfigOp (Except String Rendered)
  | apply (a : Adapter Live Backup Rendered) (key : String) (rendered : Rendered) :
      ConfigOp (Except String Unit)
  | verify (domain : String) (a : Adapter Live Backup Rendered) (key desired : String) :
      ConfigOp (Except String Unit)
  | restore (a : Adapter Live Backup Rendered) (key : String) (backup : Backup) :
      ConfigOp (Except String Unit)

end

/-- The error of a call at a moment, and the moments at which `FinishJob` fails unnoticed. -/
structure StoreFailures where
  call : ℕ → Option String
  finish : ℕ → Bool

def finishOne (id : JobID) (status : JobStatus) (error : String) (toRevision : ℕ)
    (job : ConfigApplyJob) : ConfigApplyJob :=
  if job.id = id then { job with status, error, toRevision } else job

namespace ConfigWorld

variable {Live : Type} (w : ConfigWorld Live)

def tick : ConfigWorld Live := { w with clock := w.clock + 1 }

/-- A call of the store, which changes nothing if it fails. -/
def attempt {α : Type} (w : ConfigWorld Live) (failures : StoreFailures)
    (act : α × ConfigWorld Live) : Except String α × ConfigWorld Live :=
  match failures.call w.clock with
  | some e => (.error e, w.tick)
  | none => (.ok act.1, act.2.tick)

def history (domain key : String) : List ConfigRevision :=
  w.revisions.filter fun r => r.domain = domain ∧ r.key = key

/-- `AppendRevision`: the number is the greatest one so far plus one. -/
def append (domain key valueJSON : String) (reason : Reason) : ℕ × ConfigWorld Live :=
  let assigned := ((w.history domain key).map (·.revision)).foldl max 0 + 1
  (assigned, { w with
    revisions := w.revisions ++ [{ domain, key, revision := assigned, valueJSON, reason }] })

def setItem (domain key : String) (item : Option ConfigItem) : ConfigWorld Live :=
  { w with items := fun d k => if d = domain ∧ k = key then item else w.items d k }

/-- `FinishJob`. -/
def finish (id : JobID) (status : JobStatus) (error : String) (toRevision : ℕ) : ConfigWorld Live :=
  { w with jobs := w.jobs.map (finishOne id status error toRevision) }

end ConfigWorld

section

variable {Live Backup Rendered : Type}

def ConfigWorld.noteVerify (w : ConfigWorld Live) (domain key desired : String) (accepted : Bool) :
    ConfigWorld Live :=
  { w with verified := Function.update w.verified domain (some (key, desired, accepted)) }

/-- The answer of an adapter that sees the live system. -/
def ConfigWorld.ask {α : Type} (w : ConfigWorld Live) (answer : ℕ → Live → α) :
    α × ConfigWorld Live :=
  (answer w.clock w.live, w.tick)

/-- An adapter's change of the live system. -/
def ConfigWorld.change {α : Type} (w : ConfigWorld Live) (act : ℕ → Live → α × Live) :
    α × ConfigWorld Live :=
  ((act w.clock w.live).1, { w with live := (act w.clock w.live).2 }.tick)

variable (a : Adapter Live Backup Rendered)

def Adapter.normalizeDesired (key desired : String) (t : ℕ)
    (live : Live) : Except String (String × Bool) :=
  match a.normalize with
  | none => .ok (desired, false)
  | some normalize => normalize t key desired live

def Adapter.takeSnapshot (key : String) (t : ℕ) (live : Live) : Snapshot :=
  match a.snapshot with
  | none => .notCapable
  | some snapshot =>
    match snapshot t key live with
    | .ok value => .live value
    | .error .notExist => .notExist
    | .error (.other e) => .failed e

def configHandler (failures : StoreFailures) :
    Handler (ConfigOp Live Backup Rendered) (ConfigWorld Live)
  | _, .get domain key, w => w.attempt failures (w.items domain key, w)
  | _, .upsert domain key item, w => w.attempt failures ((), w.setItem domain key (some item))
  | _, .delete domain key, w => w.attempt failures ((), w.setItem domain key none)
  | _, .appendRevision domain key valueJSON reason, w =>
      w.attempt failures (w.append domain key valueJSON reason)
  | _, .createJob job, w => w.attempt failures ((), { w with jobs := w.jobs ++ [job] })
  | _, .finishJob id status errMsg toRevision, w =>
      ((), (if failures.finish w.clock then w else w.finish id status errMsg toRevision).tick)
  | _, .newID domain, w => (⟨domain, w.nextJob⟩, { w with nextJob := w.nextJob + 1 }.tick)
  | _, .normalize a key desired, w => w.ask (a.normalizeDesired key desired)
  | _, .snapshot a key, w => w.ask (a.takeSnapshot key)
  | _, .validate a key desired, w => w.ask fun t => a.validate t key desired
  | _, .backup a key, w => w.ask fun t => a.backup t key
  | _, .render a key desired, w => w.ask fun t => a.render t key desired
  | _, .apply a key rendered, w => w.change fun t => a.apply t key rendered
  | _, .verify domain a key desired, w =>
      let accepted := (a.verify w.clock key desired w.live).isOk
      (w.noteVerify domain key desired accepted).ask fun t => a.verify t key desired
  | _, .restore a key backup, w => w.change fun t => a.restore t key backup

/-! ## The manager -/

abbrev ConfigProg (Live Backup Rendered : Type) := Prog (ConfigOp Live Backup Rendered)

/-- A step whose error ends the program. -/
def orFail {α β : Type} (fail : String → ConfigProg Live Backup Rendered α)
    (op : ConfigOp Live Backup Rendered (Except String β))
    (next : β → ConfigProg Live Backup Rendered α) : ConfigProg Live Backup Rendered α := do
  match ← perform op with
  | .error e => fail e
  | .ok b => next b

structure ApplyResult where
  jobID : Option JobID
  rev : ℕ
  err : Option String
  deriving DecidableEq, Repr

def runningJob (id : JobID) (domain key : String) (action : JobAction) (fromRevision : ℕ) :
    ConfigApplyJob :=
  { id, domain, key, action, status := .running, error := "", fromRevision, toRevision := 0 }

/-- `fail` of `Apply` and `Delete`. -/
def failJob (id : JobID) (stage e : String) : ConfigProg Live Backup Rendered ApplyResult := do
  let msg := stage ++ ": " ++ e
  perform (.finishJob id .failed msg 0)
  return { jobID := some id, rev := 0, err := some ("config: " ++ msg) }

/-- `Apply` after a failed `Verify`. -/
def restoreJob (key : String) (backup : Backup) (id : JobID)
    (e : String) : ConfigProg Live Backup Rendered ApplyResult := do
  match ← perform (.restore a key backup) with
  | .error r => perform (.finishJob id .failed s!"verify: {e} (restore failed: {r})" 0)
  | .ok _ => perform (.finishJob id .failed s!"verify: {e} (auto-restored)" 0)
  return { jobID := some id, rev := 0, err := some ("config: verify: " ++ e) }

/-- `Apply` from the last stage on. -/
def recordApply (domain key desired : String) (id : JobID) :
    ConfigProg Live Backup Rendered ApplyResult :=
  orFail (failJob id "append-revision") (.appendRevision domain key desired .apply) fun rev =>
  orFail (failJob id "upsert-item") (.upsert domain key ⟨desired, rev⟩) fun _ => do
  perform (.finishJob id .success "" rev)
  return { jobID := some id, rev, err := none }

/-- `Apply` from the recorded job on. -/
def applyStages (domain key desired : String) (id : JobID) :
    ConfigProg Live Backup Rendered ApplyResult :=
  orFail (failJob id "normalize") (.normalize a key desired) fun (desired, _) =>
  orFail (failJob id "validate") (.validate a key desired) fun _ =>
  orFail (failJob id "backup") (.backup a key) fun backup =>
  orFail (failJob id "render") (.render a key desired) fun rendered =>
  orFail (failJob id "apply") (.apply a key rendered) fun _ =>
  orFail (restoreJob a key backup id) (.verify domain a key desired) fun _ =>
  recordApply domain key desired id

def revisionOf (item : Option ConfigItem) : ℕ := item.elim 0 (·.revision)

/-- An error before there is a job. -/
def refuse (text e : String) : ConfigProg Live Backup Rendered ApplyResult :=
  return { jobID := none, rev := 0, err := some (text ++ ": " ++ e) }

/-- `Manager.Apply`. -/
def applyConfig (adapters : String → Option (Adapter Live Backup Rendered))
    (domain key desired : String) : ConfigProg Live Backup Rendered ApplyResult :=
  match adapters domain with
  | none => refuse "config: unknown domain" domain
  | some a =>
    orFail (refuse "config: read current") (.get domain key) fun cur => do
    let id ← perform (.newID domain)
    orFail (refuse "config: create job")
      (.createJob (runningJob id domain key .apply (revisionOf cur))) fun _ =>
    applyStages a domain key desired id

end

end NeoRuntime.PlatformApi
