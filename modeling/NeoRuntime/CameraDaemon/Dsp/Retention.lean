import Mathlib.Algebra.Group.Nat.Defs
import Mathlib.Data.List.Dedup
import NeoRuntime.Lib.Dict
import NeoRuntime.Lib.Run

/-!
# Retention of DSP buffers

`DspService` (platform/camera-daemon/src/dsp_service.cpp) parks released pool buffers by geometry
for the next allocation.  A parked buffer keeps the chunk of its pool alive.  A geometry is credited
with the chunk of its first buffer; over the cap, the oldest geometries are released.  The functions
are the sections under `buffers_mu_`.
-/

namespace NeoRuntime.CameraDaemon.Dsp

/-- Width, height and pixel format: `ParkedGeometry`. -/
abbrev Geometry := ℕ × ℕ × ℕ

structure ParkedBuffer where
  fb : ℕ
  deadline : ℕ
  /-- The chunk that the buffer keeps alive. -/
  chunkBytes : ℕ

structure ParkedQueue where
  bufs : List ParkedBuffer
  addedChunk : ℕ

structure RetentionConfig where
  poolRetentionMs : ℕ
  poolRetentionMaxBytes : ℕ

structure Retention where
  running : Bool
  parked : Dict Geometry ParkedQueue
  order : List Geometry
  footprint : ℕ
  pendingRelease : List ℕ
  retentionParked : ℕ
  retentionReuses : ℕ
  retentionReleases : ℕ

def Retention.empty : Retention :=
  { running := false, parked := ∅, order := [], footprint := 0, pendingRelease := []
    retentionParked := 0, retentionReuses := 0, retentionReleases := 0 }

/-! ## Parking -/

variable (s : Retention)

/-- One turn of the eviction loop, for the geometry at the front of the order. -/
def evictGeometry (victim : Geometry) : Retention :=
  match s.parked.lookup victim with
  | none => s
  | some q =>
    if q.bufs.isEmpty then { s with parked := s.parked.erase victim }
    else
      { s with
        pendingRelease := s.pendingRelease ++ q.bufs.map (·.fb)
        parked := s.parked.erase victim
        footprint := s.footprint - q.addedChunk
        retentionReleases := s.retentionReleases + q.bufs.length
        retentionParked := s.retentionParked - q.bufs.length }

/-- The eviction loop; every turn shortens the order. -/
def evict (cap : ℕ) : ℕ → Retention → Retention
  | 0, s => s
  | fuel + 1, s =>
    if s.footprint ≤ cap then s
    else match s.order with
      | [] => s
      | victim :: rest => evict cap fuel (evictGeometry { s with order := rest } victim)

variable (g : Geometry)

/-- Puts a buffer at the end of the queue of its geometry; the first one is credited. -/
def addParked (buf : ParkedBuffer) : Retention :=
  match s.parked.lookup g with
  | none =>
    { s with
      parked := s.parked.insert g ⟨[buf], buf.chunkBytes⟩
      order := s.order ++ [g]
      footprint := (s.footprint + buf.chunkBytes) % 2 ^ 64
      retentionParked := s.retentionParked + 1 }
  | some q =>
    { s with
      parked := s.parked.insert g { q with bufs := q.bufs ++ [buf] }
      retentionParked := s.retentionParked + 1 }

variable (cfg : RetentionConfig)

/-- The buffer is not refused. -/
def Parks (s : Retention) (chunkBytes : ℕ) : Prop :=
  s.running = true ∧ cfg.poolRetentionMs ≠ 0 ∧ cfg.poolRetentionMaxBytes ≠ 0 ∧
    chunkBytes ≤ cfg.poolRetentionMaxBytes

instance (cfg : RetentionConfig) (s : Retention) (chunkBytes : ℕ) :
    Decidable (Parks cfg s chunkBytes) :=
  inferInstanceAs (Decidable (_ ∧ _ ∧ _ ∧ _))

def parkOrFree (s : Retention) (g : Geometry) (fb chunkBytes now : ℕ) : Retention :=
  if Parks cfg s chunkBytes then
    let s := addParked s g ⟨fb, now + cfg.poolRetentionMs, chunkBytes⟩
    evict cfg.poolRetentionMaxBytes s.order.length s
  else { s with pendingRelease := s.pendingRelease ++ [fb] }

/-! ## Reuse and expiry -/

/-- The last buffer of a geometry has left: its credited chunk leaves with it. -/
def endResidency (chunk : ℕ) : Retention :=
  { s with
    parked := s.parked.erase g
    footprint := s.footprint - chunk
    order := s.order.erase g }

def ParkedBuffer.isExpired (now : ℕ) (buf : ParkedBuffer) : Bool := buf.deadline ≤ now

/-- The queue of a geometry after some of its buffers have left. -/
def setQueue (q : ParkedQueue) (rest : List ParkedBuffer) : Retention :=
  if rest.isEmpty then endResidency s g q.addedChunk
  else { s with parked := s.parked.insert g { q with bufs := rest } }

/-- `take_parked`: the expired buffers that it drops, and a buffer to reuse with its chunk. -/
def takeParked (now : ℕ) : Retention × List ℕ × Option (ℕ × ℕ) :=
  match s.parked.lookup g with
  | none => (s, [], none)
  | some q =>
    if q.bufs.isEmpty then (s, [], none)
    else
      let dead := q.bufs.takeWhile (·.isExpired now)
      let s := { s with
        retentionReleases := s.retentionReleases + dead.length
        retentionParked := s.retentionParked - dead.length }
      match q.bufs.dropWhile (·.isExpired now) with
      | [] => (setQueue s g q [], dead.map (·.fb), none)
      | buf :: rest =>
        let s := { s with
          retentionReuses := s.retentionReuses + 1
          retentionParked := s.retentionParked - 1 }
        (setQueue s g q rest, dead.map (·.fb), some (buf.fb, buf.chunkBytes))

/-- `sweep_parked_locked` for one geometry; `acc` has the buffers dropped so far. -/
def sweepGeometry (now : ℕ) (acc : Retention × List ℕ) (g : Geometry) : Retention × List ℕ :=
  match acc.1.parked.lookup g with
  | none => acc
  | some q =>
    let dead := q.bufs.takeWhile (·.isExpired now)
    let s := { acc.1 with
      retentionReleases := acc.1.retentionReleases + dead.length
      retentionParked := acc.1.retentionParked - dead.length }
    let rest := q.bufs.dropWhile (·.isExpired now)
    if rest.isEmpty && !dead.isEmpty then (endResidency s g q.addedChunk, acc.2 ++ dead.map (·.fb))
    else ({ s with parked := s.parked.insert g { q with bufs := rest } }, acc.2 ++ dead.map (·.fb))

def sweepParked (now : ℕ) : Retention × List ℕ :=
  s.parked.keys.foldl (sweepGeometry now) (s, [])

def Retention.parkedFbs : List ℕ :=
  (Dict.values s.parked).flatMap fun q => q.bufs.map (·.fb)

/-- The flush at the end of `stop`. -/
def flushParked : Retention × List ℕ :=
  let toFree := s.parkedFbs
  let s := { s with parked := ∅, order := [], footprint := 0 }
  if toFree.isEmpty then (s, toFree)
  else ({ s with
    retentionReleases := s.retentionReleases + toFree.length
    retentionParked := 0 }, toFree)

/-- The locked sections, and the changes of `running_`. -/
inductive RetentionEvent
  | start
  | halt
  | park (g : Geometry) (fb chunkBytes now : ℕ)
  | take (g : Geometry) (now : ℕ)
  | sweep (now : ℕ)
  | flush

/-- One step, and the buffers that it hands to the HAL. -/
def retentionStep (s : Retention) : RetentionEvent → Retention × List ℕ
  | .start => ({ s with running := true }, [])
  | .halt => ({ s with running := false }, [])
  | .park g fb chunkBytes now => (parkOrFree cfg s g fb chunkBytes now, [])
  | .take g now => ((takeParked s g now).1, (takeParked s g now).2.1)
  | .sweep now => sweepParked s now
  | .flush => flushParked s

end NeoRuntime.CameraDaemon.Dsp
