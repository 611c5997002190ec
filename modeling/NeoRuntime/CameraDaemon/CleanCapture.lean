import Mathlib.Algebra.Order.Ring.Int
import Mathlib.Logic.Function.Basic
import Mathlib.Tactic.Common
import NeoRuntime.Lib.Run

/-!
# Clean frames for the privacy detectors

`DpmWorker::offer_frame` and `DpmWorker::worker_loop` (platform/camera-daemon/src/dpm_worker.cpp)
share two input buffers for each model.  The streaming thread scales a frame into the write buffers
under `offer_mu_` and may give up half way.  The worker runs its models on the other buffers without
the lock.  Every cycle sees one offered frame, unchanged, in the order of the offers
(`one_clean_frame_per_cycle`).
-/

namespace NeoRuntime.CameraDaemon

namespace CleanCapture

/-- `DetectorSession`.  The staging buffers are there if the model does not take NV12. -/
structure Session (π : Type) where
  staged : Bool
  input : Bool → π
  staging : Bool → π
  writeIdx : Bool
  readIdx : Bool

/-- The sizes of the frames and what the DSP makes of them for each model. -/
structure Hal (n : ℕ) (φ π : Type) where
  width : φ → ℕ
  height : φ → ℕ
  resize : Fin n → φ → π
  convert : Fin n → π → π

/-- An `offer_frame` call that holds the lock. -/
structure Capture (φ : Type) where
  frame : φ
  number : ℕ
  now : ℤ
  next : ℕ
  /-- The frame is in the staging buffer of the next model. -/
  resized : Bool

/-- A cycle of the worker, after it took a capture. -/
structure Cycle (φ : Type) where
  frame : φ
  number : ℕ
  fw : ℕ
  fh : ℕ
  next : ℕ

/-- The worker; `offered`, `captured`, `used` and the numbers are there for the statements. -/
structure Dpm (n : ℕ) (φ π : Type) where
  sessions : Fin n → Session π
  offerSeq : UInt64
  takenSeq : UInt64
  capW : ℕ
  capH : ℕ
  lastOfferNs : ℤ
  capture : Option (Capture φ)
  cycle : Option (Cycle φ)
  offered : List φ
  /-- The last capture that was not given up. -/
  captured : Option (ℕ × φ)
  used : List (ℕ × φ)

/-- The steps of the two threads; a failing DSP operation leaves any contents. -/
inductive Event (φ π : Type)
  | offer (frame : φ) (now : ℤ)
  | resize (failed : Option π)
  | convert (failed : Option π)
  | accept
  | take
  | infer
  | publish

/-- What a step does to the input buffers. -/
inductive Access (n : ℕ) (φ π : Type)
  | wrote (model : Fin n) (buffer : Bool)
  | read (model : Fin n) (cycle : Cycle φ) (pixels : π)

variable {n : ℕ} {φ π : Type}

/-! ## The steps -/

variable (session : Session π) (pixels : π)

def Session.setInput : Session π :=
  { session with input := Function.update session.input session.writeIdx pixels }

def Session.setStaging : Session π :=
  { session with staging := Function.update session.staging session.writeIdx pixels }

def Dpm.setSession (s : Dpm n φ π) (d : Fin n) (session : Session π) : Dpm n φ π :=
  { s with sessions := Function.update s.sessions d session }

/-- The start of `offer_frame`, up to the first resize. -/
def offerFrame (targetFps : ℕ) (s : Dpm n φ π) (frame : φ) (now : ℤ) : Dpm n φ π :=
  let number := s.offered.length
  let s := { s with offered := s.offered ++ [frame] }
  if now - s.lastOfferNs < 1000000000 / max 1 targetFps then s
  else if s.offerSeq ≠ s.takenSeq then s
  else if n = 0 then s
  else { s with capture := some { frame, number, now, next := 0, resized := false } }

section

variable (hal : Hal n φ π)

section

variable (s : Dpm n φ π)

def resizeNext (c : Capture φ) (d : Fin n) (failed : Option π) : Dpm n φ π × List (Access n φ π) :=
  let pixels := failed.getD (hal.resize d c.frame)
  if (s.sessions d).staged then
    ({ s.setSession d ((s.sessions d).setStaging pixels) with
      capture := if failed.isSome then none else some { c with resized := true } }, [])
  else
    ({ s.setSession d ((s.sessions d).setInput pixels) with
      capture := if failed.isSome then none else some { c with next := c.next + 1 } },
      [.wrote d (s.sessions d).writeIdx])

def convertNext (c : Capture φ) (d : Fin n) (failed : Option π) : Dpm n φ π × List (Access n φ π) :=
  let pixels := failed.getD (hal.convert d ((s.sessions d).staging (s.sessions d).writeIdx))
  ({ s.setSession d ((s.sessions d).setInput pixels) with
    capture := if failed.isSome then none
      else some { c with next := c.next + 1, resized := false } },
    [.wrote d (s.sessions d).writeIdx])

def acceptCapture (c : Capture φ) : Dpm n φ π :=
  { s with
    capW := hal.width c.frame
    capH := hal.height c.frame
    sessions := fun d => { s.sessions d with writeIdx := !(s.sessions d).writeIdx }
    offerSeq := s.offerSeq + 1
    lastOfferNs := c.now
    capture := none
    captured := some (c.number, c.frame) }

/-- The locked section of `worker_loop`, and its test of the frame size. -/
def takeCapture : Dpm n φ π :=
  let s := { s with
    sessions := fun d => { s.sessions d with readIdx := !(s.sessions d).writeIdx }
    takenSeq := s.offerSeq }
  match s.captured with
  | none => s
  | some (number, frame) =>
    if s.capW = 0 ∨ s.capH = 0 then s
    else { s with
      cycle := some { frame, number, fw := s.capW, fh := s.capH, next := 0 }
      used := s.used ++ [(number, frame)] }

def step (targetFps : ℕ) (s : Dpm n φ π) : Event φ π → Dpm n φ π × List (Access n φ π)
  | .offer frame now => (if s.capture.isNone then offerFrame targetFps s frame now else s, [])
  | .resize failed =>
    match s.capture with
    | none => (s, [])
    | some c =>
      if h : c.next < n then
        if c.resized then (s, []) else resizeNext hal s c ⟨c.next, h⟩ failed
      else (s, [])
  | .convert failed =>
    match s.capture with
    | none => (s, [])
    | some c =>
      if h : c.next < n then
        if c.resized then convertNext hal s c ⟨c.next, h⟩ failed else (s, [])
      else (s, [])
  | .accept =>
    match s.capture with
    | none => (s, [])
    | some c => (if c.next = n then acceptCapture hal s c else s, [])
  | .take =>
    (if s.capture.isNone ∧ s.cycle.isNone ∧ s.offerSeq ≠ s.takenSeq then takeCapture s else s, [])
  | .infer =>
    match s.cycle with
    | none => (s, [])
    | some c =>
      if h : c.next < n then
        ({ s with cycle := some { c with next := c.next + 1 } },
          [.read ⟨c.next, h⟩ c ((s.sessions ⟨c.next, h⟩).input (s.sessions ⟨c.next, h⟩).readIdx)])
      else (s, [])
  | .publish =>
    match s.cycle with
    | none => (s, [])
    | some c => (if c.next = n then { s with cycle := none } else s, [])

def Dpm.start (sessions : Fin n → Session π) : Dpm n φ π :=
  { sessions, offerSeq := 0, takenSeq := 0, capW := 0, capH := 0, lastOfferNs := 0, capture := none
    cycle := none, offered := [], captured := none, used := [] }

/-! ## What holds between the steps -/

/-- The image of the frame that the model should see. -/
def Hal.scaled (d : Fin n) (frame : φ) : π :=
  if (s.sessions d).staged then hal.convert d (hal.resize d frame) else hal.resize d frame

end

end

/-- The call was made, and after all those whose frames were used. -/
def Dpm.Fresh (s : Dpm n φ π) (number : ℕ) (frame : φ) : Prop :=
  s.offered[number]? = some frame ∧ ∀ u ∈ s.used, u.1 < number

structure Capturing (hal : Hal n φ π) (s : Dpm n φ π) (c : Capture φ) : Prop where
  seq : s.offerSeq = s.takenSeq
  fresh : s.Fresh c.number c.frame
  written : ∀ d : Fin n, d < c.next →
    (s.sessions d).input (s.sessions d).writeIdx = hal.scaled s d c.frame
  staging : c.resized = true → ∀ d : Fin n, d = c.next → (s.sessions d).staged = true ∧
    (s.sessions d).staging (s.sessions d).writeIdx = hal.resize d c.frame

structure Captured (hal : Hal n φ π) (s : Dpm n φ π) (number : ℕ) (frame : φ) : Prop where
  fresh : s.Fresh number frame
  width : s.capW = hal.width frame
  height : s.capH = hal.height frame
  written : ∀ d, (s.sessions d).input (!(s.sessions d).writeIdx) = hal.scaled s d frame

structure Cycling (hal : Hal n φ π) (s : Dpm n φ π) (c : Cycle φ) : Prop where
  used : (c.number, c.frame) ∈ s.used
  width : c.fw = hal.width c.frame
  height : c.fh = hal.height c.frame
  input : ∀ d, (s.sessions d).input (s.sessions d).readIdx = hal.scaled s d c.frame
  apart : s.offerSeq = s.takenSeq → ∀ d, (s.sessions d).readIdx = !(s.sessions d).writeIdx

structure Clean (hal : Hal n φ π) (s : Dpm n φ π) : Prop where
  capture : ∀ c, s.capture = some c → Capturing hal s c
  pending : s.offerSeq ≠ s.takenSeq → ∃ u, s.captured = some u ∧ Captured hal s u.1 u.2
  cycle : ∀ c, s.cycle = some c → Cycling hal s c
  used : s.used.Pairwise fun u v => u.1 < v.1
  offered : ∀ u ∈ s.used, s.offered[u.1]? = some u.2

variable {hal : Hal n φ π} {s : Dpm n φ π} {targetFps : ℕ}

theorem clean_start (sessions : Fin n → Session π) : Clean hal (Dpm.start sessions) where
  capture := by simp [Dpm.start]
  pending := fun h => absurd rfl h
  cycle := by simp [Dpm.start]
  used := List.Pairwise.nil
  offered := by simp [Dpm.start]

theorem fresh_new (clean : Clean hal s) (frame : φ) :
    Dpm.Fresh { s with offered := s.offered ++ [frame] } s.offered.length frame := by
  refine ⟨List.getElem?_concat_length, fun u mem => ?_⟩
  obtain ⟨bound, -⟩ := List.getElem?_eq_some_iff.1 (clean.offered u mem)
  exact bound

theorem getElem?_more {l : List φ} {i : ℕ} {f : φ} (at_ : l[i]? = some f) (g : φ) :
    (l ++ [g])[i]? = some f := by
  obtain ⟨bound, -⟩ := List.getElem?_eq_some_iff.1 at_
  rw [List.getElem?_append_left bound, at_]

theorem Clean.more (clean : Clean hal s) (frame : φ) :
    Clean hal { s with offered := s.offered ++ [frame] } where
  capture c at_ := by
    obtain ⟨seq, fresh, written, staging⟩ := clean.capture c at_
    exact ⟨seq, ⟨getElem?_more fresh.1 frame, fresh.2⟩, written, staging⟩
  pending seq := by
    obtain ⟨u, at_, fresh, width, height, written⟩ := clean.pending seq
    exact ⟨u, at_, ⟨getElem?_more fresh.1 frame, fresh.2⟩, width, height, written⟩
  cycle c at_ := by
    obtain ⟨used, width, height, input, apart⟩ := clean.cycle c at_
    exact ⟨used, width, height, input, apart⟩
  used := clean.used
  offered u mem := getElem?_more (clean.offered u mem) frame

/-- The invariant does not depend on the capture and on the cycle otherwise. -/
theorem Clean.update (clean : Clean hal s) {capture : Option (Capture φ)} {cycle : Option (Cycle φ)}
    (capturing : ∀ c, capture = some c → Capturing hal s c)
    (cycling : ∀ c, cycle = some c → Cycling hal s c) : Clean hal { s with capture, cycle } where
  capture c at_ := by
    obtain ⟨seq, fresh, written, staging⟩ := capturing c at_
    exact ⟨seq, fresh, written, staging⟩
  pending seq := by
    obtain ⟨u, at_, fresh, width, height, written⟩ := clean.pending seq
    exact ⟨u, at_, fresh, width, height, written⟩
  cycle c at_ := by
    obtain ⟨used, width, height, input, apart⟩ := cycling c at_
    exact ⟨used, width, height, input, apart⟩
  used := clean.used
  offered := clean.offered

theorem clean_offer (clean : Clean hal s) (frame : φ) (now : ℤ) :
    Clean hal (offerFrame targetFps s frame now) := by
  have more := clean.more frame
  unfold offerFrame
  dsimp only
  split_ifs with soon pending none
  · exact more
  · exact more
  · exact more
  · refine more.update (fun c at_ => ?_) more.cycle
    obtain rfl := Option.some.inj at_
    exact ⟨not_not.1 pending, fresh_new clean frame, fun d below => absurd below (Nat.not_lt_zero _),
      fun resized => by simp at resized⟩

/-! ## Writing -/

structure Session.Written (session session' : Session π) : Prop where
  staged : session'.staged = session.staged
  writeIdx : session'.writeIdx = session.writeIdx
  readIdx : session'.readIdx = session.readIdx
  input : session'.input (!session.writeIdx) = session.input (!session.writeIdx)

theorem Session.written_setInput : session.Written (session.setInput pixels) :=
  ⟨rfl, rfl, rfl, Function.update_of_ne (by simp) _ _⟩

theorem Session.written_setStaging : session.Written (session.setStaging pixels) :=
  ⟨rfl, rfl, rfl, rfl⟩

@[simp] theorem setSession_same (s : Dpm n φ π) (d : Fin n) (session : Session π) :
    (s.setSession d session).sessions d = session :=
  Function.update_self ..

theorem setSession_other (s : Dpm n φ π) {d d' : Fin n} (session : Session π) (ne : d' ≠ d) :
    (s.setSession d session).sessions d' = s.sessions d' :=
  Function.update_of_ne ne ..

theorem scaled_setSession {d : Fin n} {session : Session π}
    (written : (s.sessions d).Written session) (d' : Fin n) (frame : φ) :
    hal.scaled (s.setSession d session) d' frame = hal.scaled s d' frame := by
  by_cases same : d' = d
  · subst same
    simp only [Hal.scaled, setSession_same, written.staged]
  · simp only [Hal.scaled, setSession_other s session same]

/-- A cycle does not see a write: it reads the other buffers. -/
theorem Cycling.write {c : Cycle φ} (cycling : Cycling hal s c) (seq : s.offerSeq = s.takenSeq)
    {d : Fin n} {session : Session π} (written : (s.sessions d).Written session) :
    Cycling hal (s.setSession d session) c := by
  obtain ⟨used, width, height, input, apart⟩ := cycling
  refine ⟨used, width, height, fun d' => ?_, fun _ d' => ?_⟩
  · rw [scaled_setSession written]
    by_cases same : d' = d
    · subst same
      rw [setSession_same, written.readIdx, apart seq d', written.input, ← apart seq d', input d']
    · rw [setSession_other s session same, input d']
  · by_cases same : d' = d
    · subst same
      rw [setSession_same, written.readIdx, written.writeIdx, apart seq d']
    · rw [setSession_other s session same, apart seq d']

theorem clean_write (clean : Clean hal s) (seq : s.offerSeq = s.takenSeq) {d : Fin n}
    {session : Session π} (written : (s.sessions d).Written session) {capture : Option (Capture φ)}
    (ok : ∀ c, capture = some c → Capturing hal (s.setSession d session) c) :
    Clean hal { s.setSession d session with capture } := by
  refine ⟨fun c at_ => ?_, fun pending => absurd seq pending, fun c at_ => ?_, clean.used,
    clean.offered⟩
  · obtain ⟨seq, fresh, written, staging⟩ := ok c at_
    exact ⟨seq, fresh, written, staging⟩
  · obtain ⟨used, width, height, input, apart⟩ := (clean.cycle c at_).write seq written
    exact ⟨used, width, height, input, apart⟩

section Writes

variable {c : Capture φ} {d : Fin n}

theorem Capturing.written_before (capturing : Capturing hal s c) {session : Session π}
    (written : (s.sessions d).Written session) {d' : Fin n} (before : d' < d) (at_ : d = c.next) :
    ((s.setSession d session).sessions d').input ((s.setSession d session).sessions d').writeIdx =
      hal.scaled (s.setSession d session) d' c.frame := by
  rw [scaled_setSession written, setSession_other s session (Fin.ne_of_lt before)]
  exact capturing.written d' (at_ ▸ before)

/-- The input of the next model is written, and with it the model is done. -/
theorem clean_input (clean : Clean hal s) (capturing : Capturing hal s c) (at_ : d = c.next)
    {resized : Bool} (next : resized = false) {pixels : π} (image : pixels = hal.scaled s d c.frame)
    (failed : Option π) :
    Clean hal { s.setSession d ((s.sessions d).setInput (failed.getD pixels)) with
      capture := if failed.isSome then none else some { c with next := c.next + 1, resized } } := by
  have written := (s.sessions d).written_setInput (failed.getD pixels)
  refine clean_write clean capturing.seq written fun c' at' => ?_
  cases failed with
  | some junk => simp at at'
  | none =>
    obtain rfl := Option.some.inj at'
    refine ⟨capturing.seq, capturing.fresh, fun d' below => ?_, fun resized => by simp_all⟩
    obtain before | same := Nat.lt_or_eq_of_le (Nat.le_of_lt_succ below)
    · exact capturing.written_before written (Fin.lt_def.2 (at_ ▸ before)) at_
    · obtain rfl : d' = d := Fin.ext (same.trans at_.symm)
      rw [scaled_setSession written, setSession_same, ← image]
      exact Function.update_self ..

theorem clean_resizeNext (clean : Clean hal s) (capturing : Capturing hal s c) (at_ : d = c.next)
    (resizes : ¬ c.resized = true) (failed : Option π) :
    Clean hal (resizeNext hal s c d failed).1 := by
  by_cases staged : (s.sessions d).staged = true
  · rw [resizeNext, if_pos staged]
    have written := (s.sessions d).written_setStaging (failed.getD (hal.resize d c.frame))
    refine clean_write clean capturing.seq written fun c' at' => ?_
    cases failed with
    | some junk => simp at at'
    | none =>
      obtain rfl := Option.some.inj at'
      refine ⟨capturing.seq, capturing.fresh, fun d' below => ?_, fun _ d' next => ?_⟩
      · exact capturing.written_before written (Fin.lt_def.2 (at_ ▸ below)) at_
      · obtain rfl : d' = d := Fin.ext (next.trans at_.symm)
        rw [setSession_same]
        exact ⟨staged, Function.update_self ..⟩
  · rw [resizeNext, if_neg staged]
    exact clean_input clean capturing at_ (Bool.eq_false_iff.2 resizes)
      (by rw [Hal.scaled, if_neg staged]) failed

theorem clean_convertNext (clean : Clean hal s) (capturing : Capturing hal s c) (at_ : d = c.next)
    (resized : c.resized = true) (failed : Option π) :
    Clean hal (convertNext hal s c d failed).1 := by
  obtain ⟨staged, image⟩ := capturing.staging resized d at_
  exact clean_input clean capturing at_ rfl (by rw [Hal.scaled, if_pos staged, image]) failed

end Writes

/-! ## Handing over -/

theorem clean_accept (clean : Clean hal s) {c : Capture φ} (capturing : Capturing hal s c)
    (all : c.next = n) : Clean hal (acceptCapture hal s c) := by
  have next : s.offerSeq + 1 ≠ s.takenSeq := by
    rw [capturing.seq]
    simp
  refine ⟨fun c' at_ => by simp [acceptCapture] at at_,
    fun _ => ⟨(c.number, c.frame), rfl, capturing.fresh, rfl, rfl, fun d => ?_⟩, fun c' at_ => ?_,
    clean.used, clean.offered⟩
  · change (s.sessions d).input (!!(s.sessions d).writeIdx) = hal.scaled s d c.frame
    rw [Bool.not_not]
    exact capturing.written d (all ▸ d.isLt)
  · obtain ⟨used, width, height, input, -⟩ := clean.cycle c' at_
    exact ⟨used, width, height, input, fun seq => absurd seq next⟩

theorem clean_take (clean : Clean hal s) (free : s.capture = none) (idle : s.cycle = none)
    (pending : s.offerSeq ≠ s.takenSeq) : Clean hal (takeCapture s) := by
  obtain ⟨⟨number, frame⟩, captured, fresh, width, height, written⟩ := clean.pending pending
  simp only [takeCapture, captured]
  split_ifs with empty
  · refine ⟨fun c at_ => ?_, fun pending => absurd rfl pending, fun c at_ => ?_, clean.used,
      clean.offered⟩
    · simp [free] at at_
    · simp [idle] at at_
  · refine ⟨fun c at_ => ?_, fun pending => absurd rfl pending, fun c at_ => ?_, ?_, ?_⟩
    · simp [free] at at_
    · obtain rfl := Option.some.inj at_
      exact ⟨by simp, width, height, written, fun _ _ => rfl⟩
    · exact List.pairwise_append.2 ⟨clean.used, List.pairwise_singleton _ _, fun u mem v last => by
        rw [List.mem_singleton.1 last]
        exact fresh.2 u mem⟩
    · intro u mem
      obtain old | new := List.mem_append.1 mem
      · exact clean.offered u old
      · rw [List.mem_singleton.1 new]
        exact fresh.1

theorem clean_step (clean : Clean hal s) (event : Event φ π) :
    Clean hal (step hal targetFps s event).1 := by
  cases event with
  | offer frame now =>
    simp only [step]
    split
    · exact clean_offer clean frame now
    · exact clean
  | resize failed =>
    cases at_ : s.capture with
    | none => simpa only [step, at_] using clean
    | some c =>
      simp only [step, at_]
      split_ifs with below resized
      · exact clean
      · exact clean_resizeNext clean (clean.capture c at_) rfl resized failed
      · exact clean
  | convert failed =>
    cases at_ : s.capture with
    | none => simpa only [step, at_] using clean
    | some c =>
      simp only [step, at_]
      split_ifs with below resized
      · exact clean_convertNext clean (clean.capture c at_) rfl resized failed
      · exact clean
      · exact clean
  | accept =>
    cases at_ : s.capture with
    | none => simpa only [step, at_] using clean
    | some c =>
      simp only [step, at_]
      split_ifs with all
      · exact clean_accept clean (clean.capture c at_) all
      · exact clean
  | take =>
    simp only [step]
    split_ifs with ready
    · exact clean_take clean (Option.isNone_iff_eq_none.1 ready.1)
        (Option.isNone_iff_eq_none.1 ready.2.1) ready.2.2
    · exact clean
  | infer =>
    cases at_ : s.cycle with
    | none => simpa only [step, at_] using clean
    | some c =>
      simp only [step, at_]
      split_ifs
      · refine clean.update clean.capture fun c' at' => ?_
        obtain rfl := Option.some.inj at'
        obtain ⟨used, width, height, input, apart⟩ := clean.cycle c at_
        exact ⟨used, width, height, input, apart⟩
      · exact clean
  | publish =>
    cases at_ : s.cycle with
    | none => simpa only [step, at_] using clean
    | some c =>
      simp only [step, at_]
      split_ifs
      · exact clean.update clean.capture fun c' at' => by simp at at'
      · exact clean

/-! ## The accesses -/

/-- A capture writes, and a cycle reads the buffers of its index. -/
def Access.Indexed (s : Dpm n φ π) : Access n φ π → Prop
  | .wrote d b => b = (s.sessions d).writeIdx ∧ ∃ c, s.capture = some c
  | .read d c pixels => s.cycle = some c ∧ pixels = (s.sessions d).input (s.sessions d).readIdx

theorem indexed_step {event : Event φ π} {a : Access n φ π}
    (mem : a ∈ (step hal targetFps s event).2) : a.Indexed s := by
  cases event with
  | resize failed =>
    cases at_ : s.capture with
    | none => simp [step, at_] at mem
    | some c =>
      simp only [step, at_, resizeNext] at mem
      split_ifs at mem <;> simp_all [Access.Indexed]
  | convert failed =>
    cases at_ : s.capture with
    | none => simp [step, at_] at mem
    | some c =>
      simp only [step, at_, convertNext] at mem
      split_ifs at mem <;> simp_all [Access.Indexed]
  | infer =>
    cases at_ : s.cycle with
    | none => simp [step, at_] at mem
    | some c =>
      simp only [step, at_] at mem
      split_ifs at mem <;> simp_all [Access.Indexed]
  | accept => cases at_ : s.capture <;> simp [step, at_] at mem
  | publish => cases at_ : s.cycle <;> simp [step, at_] at mem
  | _ => simp [step] at mem

/-- The next step reads the image of the frame of its cycle and writes no buffer of a cycle; the
frames of the cycles were offered one after another, each used once. -/
theorem one_clean_frame_per_cycle (hal : Hal n φ π) (targetFps : ℕ) (sessions : Fin n → Session π)
    (events : List (Event φ π)) (event : Event φ π) :
    let s := (runLog (step hal targetFps) (Dpm.start sessions) events).1
    (∀ d c pixels, .read d c pixels ∈ (step hal targetFps s event).2 →
      (c.number, c.frame) ∈ s.used ∧ pixels = hal.scaled s d c.frame ∧
        c.fw = hal.width c.frame ∧ c.fh = hal.height c.frame) ∧
    (∀ d b, .wrote d b ∈ (step hal targetFps s event).2 → s.cycle.isSome →
      b ≠ (s.sessions d).readIdx) ∧
    (s.used.Pairwise fun u v => u.1 < v.1) ∧ ∀ u ∈ s.used, s.offered[u.1]? = some u.2 := by
  intro s
  have clean : Clean hal s :=
    runLog_inv (Clean hal) (fun s event clean => clean_step clean event) (clean_start sessions) events
  refine ⟨fun d c pixels mem => ?_, fun d b mem busy => ?_, clean.used, clean.offered⟩
  · obtain ⟨at_, rfl⟩ := indexed_step mem
    obtain ⟨used, width, height, input, -⟩ := clean.cycle c at_
    exact ⟨used, input d, width, height⟩
  · obtain ⟨rfl, capture, at_⟩ := indexed_step mem
    obtain ⟨c, running⟩ := Option.isSome_iff_exists.1 busy
    rw [(clean.cycle c running).apart (clean.capture capture at_).seq d]
    simp

end CleanCapture

end NeoRuntime.CameraDaemon
