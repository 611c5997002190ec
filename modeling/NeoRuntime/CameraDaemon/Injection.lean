import Mathlib.Data.List.Nodup
import Mathlib.Data.List.Perm.Basic
import Mathlib.Data.List.Sort
import NeoRuntime.Lib.Run

/-!
# Frame injection

`InjectionService` (platform/camera-daemon/src/injection_service.cpp) keeps pushed frames until the
streaming threads draw them (`CameraDaemon::handle_video_frame_for_routing`).  A buffer must not be
rewritten until then; its id is in `in_flight_buffer_ids`.  These ids are a set, so the first of two
frames of one buffer that is done takes the id from the other (`frames_leased`).
-/

namespace NeoRuntime.CameraDaemon

inductive InjectionMode
  | replace
  | overlay
  deriving DecidableEq

inductive PixelFormat
  | nv12
  | argb32
  | other
  deriving DecidableEq

/-- What the service reads of a `HalFrameBuffer`. -/
structure HalFrameBuffer where
  format : PixelFormat
  dmabuf : Bool
  numPlanes : UInt32
  width : UInt32
  height : UInt32
  deriving DecidableEq

/-- `DspService::BufferPin`, when it is ok. -/
structure BufferPin where
  fb : Option HalFrameBuffer
  ownerFd : ℤ
  deriving DecidableEq

structure InjectionServiceConfig where
  enabled : Bool := false
  queueCapacity : ℕ := 3
  maxWidth : UInt32 := 3840
  maxHeight : UInt32 := 2160
  allowedApps : List String := []
  /-- The resolvers that the daemon sets before the start. -/
  identityResolver : Option (ℤ → String) := none
  streamDimsResolver : Option (String → Option (UInt32 × UInt32)) := none

structure InjectionFrameDesc where
  bufferId : UInt64
  width : UInt32
  height : UInt32
  stride : UInt32
  mode : InjectionMode
  ptsNs : UInt64
  destX : UInt32
  destY : UInt32
  endOfStream : Bool
  streamId : String
  sessionId : String

inductive InjectionServiceError
  | disabled
  | invalid
  | noBuffer
  | busy
  | unavailable
  | permission
  /-- The error of `pin_buffer`, passed on. -/
  | pin (rc : ℤ)
  deriving DecidableEq

structure QueuedFrame where
  pin : BufferPin
  bufferId : UInt64
  width : UInt32
  height : UInt32
  stride : UInt32
  ptsNs : UInt64
  frameId : ℕ
  destX : UInt32
  destY : UInt32
  mode : InjectionMode
  streamId : String
  deriving DecidableEq

structure InjectionService where
  running : Bool := false
  queue : List QueuedFrame := []
  bakingIds : List UInt64 := []
  sessionActive : Bool := false
  sessionMode : InjectionMode := .replace
  sessionOwnerFd : ℤ := -1
  sessionSessionId : String := ""
  nextFrameId : ℕ := 1
  framesInjected : ℕ := 0
  framesDropped : ℕ := 0

/-! ## The checks of a push -/

abbrev Checked (α : Type) := Except (InjectionServiceError × String) α

variable (cfg : InjectionServiceConfig) (desc : InjectionFrameDesc)

/-- The checks that come before the pin. -/
def checkDesc : Checked Unit := do
  if desc.mode = .overlay ∧ desc.streamId = "" then
    throw (.invalid, "OVERLAY requires a stream_id target")
  if desc.destX &&& 1 ≠ 0 ∨ desc.destY &&& 1 ≠ 0 then
    throw (.invalid, "dest_x/dest_y must be even (chroma alignment)")
  if desc.bufferId = 0 then
    throw (.invalid, "buffer_id is required (0 is valid only with end_of_stream)")
  if desc.width = 0 ∨ desc.height = 0 ∨ desc.width &&& 1 ≠ 0 ∨ desc.height &&& 1 ≠ 0 then
    throw (.invalid, "width/height must be nonzero and even")
  if cfg.maxWidth < desc.width ∨ cfg.maxHeight < desc.height then
    throw (.invalid, "frame exceeds injection dimension caps")
  if desc.stride < desc.width then
    throw (.invalid, "stride must be >= width")

def checkBuffer (pin : BufferPin) : Checked Unit := do
  match pin.fb with
  | none => throw (.noBuffer, "buffer is not an NV12 or ARGB32 frame")
  | some fb =>
    if fb.numPlanes = 0 ∨ fb.format = .other then
      throw (.noBuffer, "buffer is not an NV12 or ARGB32 frame")
    if fb.format = .nv12 ∧ !fb.dmabuf then
      throw (.noBuffer, "NV12 buffer is not a dma-buf frame")
    if desc.mode = .replace ∧ fb.format ≠ .nv12 then
      throw (.invalid, "REPLACE takes NV12 (convert RGB via the DSP first)")
    if fb.format = .argb32 ∧ desc.stride < desc.width * 4 then
      throw (.invalid, "ARGB32 byte stride must be >= width*4")
    if fb.width ≠ desc.width ∨ fb.height ≠ desc.height then
      throw (.invalid, "width/height do not match the registered buffer")

/-- The best-effort check against the dimensions of the target stream. -/
def checkStream : Checked Unit :=
  match cfg.streamDimsResolver with
  | none => pure ()
  | some resolve =>
    if desc.streamId = "" then pure ()
    else match resolve desc.streamId with
      | none => throw (.invalid, "unknown stream_id '" ++ desc.streamId ++ "'")
      | some (sw, sh) =>
        if desc.mode = .overlay then
          if desc.destX + desc.width ≤ sw ∧ desc.destY + desc.height ≤ sh then pure ()
          else throw (.invalid, "overlay rect exceeds the target stream bounds")
        else if desc.width = sw ∧ desc.height = sh then pure ()
        else throw (.invalid, "REPLACE dims must equal the target stream encode dims")

/-- The manifest permission gate. -/
def checkPermission (pin : BufferPin) : Checked Unit :=
  if cfg.allowedApps = [] then pure ()
  else
    let identity := match cfg.identityResolver with
      | none => ""
      | some resolve => resolve pin.ownerFd
    if identity = "" ∨ identity ∉ cfg.allowedApps then
      throw (.permission, "app '" ++ (if identity = "" then "<unknown>" else identity) ++
        "' is not allowed to inject frames")
    else pure ()

inductive PendingPush
  | endOfStream
  | frame (desc : InjectionFrameDesc) (pin : BufferPin)

/-- `push_frame` up to the lock; `pinned` is the answer of `pin_buffer`. -/
def checkPush (running : Bool) (desc : InjectionFrameDesc)
    (pinned : Except ℤ BufferPin) : Checked PendingPush := do
  if !running then throw (.unavailable, "injection service not running")
  if !cfg.enabled then throw (.disabled, "frame injection disabled by configuration")
  if desc.endOfStream then return .endOfStream
  checkDesc cfg desc
  match pinned with
  | .error rc => throw (.pin rc, "unknown or foreign buffer id")
  | .ok pin =>
    checkBuffer desc pin
    checkStream cfg desc
    checkPermission cfg pin
    return .frame desc pin

/-! ## The service -/

namespace InjectionService

variable (s : InjectionService)

def closeSession : InjectionService :=
  { s with queue := [], sessionActive := false, sessionOwnerFd := -1, sessionSessionId := "" }

def stopInjection : InjectionService :=
  if s.sessionActive then s.closeSession else { s with queue := [] }

def releaseOwner (clientFd : ℤ) : InjectionService :=
  if s.sessionActive ∧ s.sessionOwnerFd = clientFd then s.closeSession else s

def capacity : ℕ :=
  if cfg.queueCapacity = 0 then 1 else cfg.queueCapacity

/-- A frame is accepted: it opens a session, and the oldest frame makes room. -/
def accept (pin : BufferPin) : InjectionService :=
  let full := capacity cfg ≤ s.queue.length
  { s with
    sessionActive := true
    sessionMode := if s.sessionActive then s.sessionMode else desc.mode
    sessionOwnerFd := if s.sessionActive then s.sessionOwnerFd else pin.ownerFd
    sessionSessionId := if desc.sessionId = "" then s.sessionSessionId else desc.sessionId
    framesDropped := if full then s.framesDropped + 1 else s.framesDropped
    nextFrameId := s.nextFrameId + 1
    queue := (if full then s.queue.drop 1 else s.queue) ++ [{
      pin, bufferId := desc.bufferId, width := desc.width, height := desc.height
      stride := desc.stride, ptsNs := desc.ptsNs, frameId := s.nextFrameId
      destX := desc.destX, destY := desc.destY, mode := desc.mode, streamId := desc.streamId }] }

/-- `push_frame` under the lock: the frame id, or an error and a message; the end of a stream has no
frame id. -/
def pushLocked : PendingPush → Checked (Option ℕ × String) × InjectionService
  | .endOfStream =>
    if s.sessionActive then (.ok (none, "end of stream: session closed"), s.closeSession)
    else (.ok (none, "end of stream with no active session"), s)
  | .frame desc pin =>
    if s.sessionActive ∧ pin.ownerFd ≠ s.sessionOwnerFd then
      (.error (.busy, "another injection session is active"), s)
    else if s.sessionActive ∧ desc.mode ≠ s.sessionMode then
      (.error (.invalid, "mode change requires stop_injection"), s)
    else (.ok (some s.nextFrameId, ""), s.accept cfg desc pin)

def inFlightBufferIds : List UInt64 :=
  (s.queue.map (·.bufferId) ++ s.bakingIds).insertionSort (· ≤ ·)

def itemEligible (q : QueuedFrame) (streamName : String) (width height : UInt32) : Bool :=
  if q.streamId ≠ "" then q.streamId = streamName
  else q.mode = .replace && q.width = width && q.height = height

def itemDue (q : QueuedFrame) (frameTsNs : UInt64) : Bool :=
  q.ptsNs = 0 || q.ptsNs ≤ frameTsNs

def takeFrame (streamName : String) (width height : UInt32)
    (frameTsNs : UInt64) : Option QueuedFrame × InjectionService :=
  let due (q : QueuedFrame) := itemEligible q streamName width height && itemDue q frameTsNs
  match (s.queue.filter due).getLast? with
  | none => (none, s)
  | some chosen =>
    let kept := s.queue.filter fun q => q.frameId = chosen.frameId || !due q
    let dropped := s.framesDropped + (s.queue.length - kept.length)
    match kept.find? (·.frameId = chosen.frameId) with
    | none => (none, { s with queue := kept, framesDropped := dropped })
    | some out =>
      (some out, { s with
        queue := kept.eraseP (·.frameId = chosen.frameId)
        bakingIds := s.bakingIds.insert chosen.bufferId
        framesDropped := dropped
        framesInjected := s.framesInjected + 1 })

def noteBakeDone (bufferId : UInt64) : InjectionService :=
  { s with bakingIds := s.bakingIds.filter (· ≠ bufferId) }

end InjectionService

/-! ## The threads -/

/-- The service, the pushes that wait for the lock, and the frames that are taken and not
acknowledged. -/
structure Injection where
  service : InjectionService := {}
  pushes : List PendingPush := []
  bakes : List QueuedFrame := []

inductive InjectionAction
  | start
  /-- The first half of `stop`; `stopInjection` is the other. -/
  | clearRunning
  | push (desc : InjectionFrameDesc) (pinned : Except ℤ BufferPin)
  | lock (i : ℕ)
  | stopInjection
  | releaseOwner (clientFd : ℤ)
  | take (streamName : String) (width height : UInt32) (frameTsNs : UInt64)
  /-- The end of the drawing of a taken frame, which calls `note_bake_done`. -/
  | bakeDone (i : ℕ)

namespace Injection

variable (cfg : InjectionServiceConfig)

def step (s : Injection) : InjectionAction → Injection
  | .start => { s with service.running := true }
  | .clearRunning => { s with service.running := false }
  | .push desc pinned =>
    match checkPush cfg s.service.running desc pinned with
    | .error _ => s
    | .ok push => { s with pushes := s.pushes ++ [push] }
  | .lock i =>
    match s.pushes[i]? with
    | none => s
    | some push =>
      { s with service := (s.service.pushLocked cfg push).2, pushes := s.pushes.eraseIdx i }
  | .stopInjection => { s with service := s.service.stopInjection }
  | .releaseOwner clientFd => { s with service := s.service.releaseOwner clientFd }
  | .take streamName width height frameTsNs =>
    let r := s.service.takeFrame streamName width height frameTsNs
    { s with service := r.2, bakes := s.bakes ++ r.1.toList }
  | .bakeDone i =>
    match s.bakes[i]? with
    | none => s
    | some q => { s with service := s.service.noteBakeDone q.bufferId, bakes := s.bakes.eraseIdx i }

def report (s : Injection) (action : InjectionAction) : Injection × List Injection :=
  (s.step cfg action, [s.step cfg action])

/-- The buffer of every frame that waits or is drawn is reported. -/
def Leased (s : Injection) : Prop :=
  ∀ q ∈ s.service.queue ++ s.bakes, q.bufferId ∈ s.service.inFlightBufferIds

/-- When a frame is done, no other frame of its buffer is drawn. -/
def DrawnOnce (s : Injection) : InjectionAction → Prop
  | .bakeDone i => ∀ q ∈ s.bakes[i]?, s.bakes.countP (·.bufferId = q.bufferId) = 1
  | _ => True

instance (s : Injection) : DecidablePred s.DrawnOnce := fun action => by
  cases action <;> unfold DrawnOnce <;> infer_instance

/-! ## What a step keeps -/

/-- The queued frames have different ids, and the drawn ones are noted. -/
structure Inv (s : Injection) : Prop where
  fresh : ∀ q ∈ s.service.queue, q.frameId < s.service.nextFrameId
  distinct : (s.service.queue.map (·.frameId)).Nodup
  baking : ∀ q ∈ s.bakes, q.bufferId ∈ s.service.bakingIds

variable {cfg} {s s' : Injection}

section

variable (inv : s.Inv)

include inv

theorem Inv.leased : s.Leased := by
  intro q mem
  rw [InjectionService.inFlightBufferIds, List.mem_insertionSort, List.mem_append]
  obtain queued | drawn := List.mem_append.mp mem
  · exact .inl (List.mem_map_of_mem queued)
  · exact .inr (inv.baking q drawn)

theorem Inv.sublist (queue : s'.service.queue.Sublist s.service.queue)
    (next : s'.service.nextFrameId = s.service.nextFrameId)
    (baking : ∀ q ∈ s'.bakes, q.bufferId ∈ s'.service.bakingIds) : s'.Inv where
  fresh q mem := next ▸ inv.fresh q (queue.subset mem)
  distinct := inv.distinct.sublist (queue.map _)
  baking := baking

theorem Inv.closeSession (pushes : List PendingPush) :
    Inv { s with service := s.service.closeSession, pushes } := by
  refine inv.sublist ?_ rfl inv.baking
  exact List.nil_sublist _

theorem Inv.accept (desc : InjectionFrameDesc) (pin : BufferPin)
    (pushes : List PendingPush) :
    Inv { s with service := s.service.accept cfg desc pin, pushes } := by
  unfold InjectionService.accept
  extract_lets full
  have kept : (if full then s.service.queue.drop 1 else s.service.queue).Sublist
      s.service.queue := by
    split
    · exact List.drop_sublist 1 _
    · exact List.Sublist.refl _
  refine ⟨fun q mem => ?_, ?_, inv.baking⟩
  · obtain old | new := List.mem_append.mp mem
    · exact Nat.lt_succ_of_lt (inv.fresh q (kept.subset old))
    · rw [List.mem_singleton.mp new]
      exact Nat.lt_succ_self _
  · rw [List.map_append, List.map_singleton]
    refine (inv.distinct.sublist (kept.map _)).append (List.nodup_singleton _) ?_
    rw [List.disjoint_singleton]
    intro there
    obtain ⟨q, old, same⟩ := List.mem_map.mp there
    exact absurd same (Nat.ne_of_lt (inv.fresh q (kept.subset old)))

theorem Inv.pushLocked (push : PendingPush) (pushes : List PendingPush) :
    Inv { s with service := (s.service.pushLocked cfg push).2, pushes } := by
  have same : Inv { s with pushes } := ⟨inv.fresh, inv.distinct, inv.baking⟩
  cases push with
  | endOfStream =>
    simp only [InjectionService.pushLocked]
    split
    · exact inv.closeSession pushes
    · exact same
  | frame desc pin =>
    simp only [InjectionService.pushLocked]
    split_ifs
    · exact same
    · exact same
    · exact inv.accept desc pin pushes

/-- The frame that is taken is the one that was chosen, so its own buffer is noted. -/
theorem Inv.take (streamName : String) (width height : UInt32) (frameTsNs : UInt64) :
    Inv (s.step cfg (.take streamName width height frameTsNs)) := by
  simp only [step, InjectionService.takeFrame]
  split
  · simpa only [Option.toList_none, List.append_nil] using inv
  next chosen last =>
    have queued : chosen ∈ s.service.queue :=
      List.mem_of_mem_filter (List.mem_of_getLast? last)
    split
    · simp only [Option.toList_none, List.append_nil]
      refine inv.sublist ?_ rfl inv.baking
      exact List.filter_sublist
    next out found =>
      refine inv.sublist ?_ rfl fun q mem => ?_
      · exact List.eraseP_sublist.trans List.filter_sublist
      obtain old | new := List.mem_append.mp mem
      · exact List.mem_insert_of_mem (inv.baking q old)
      · obtain rfl : q = out := by simpa using new
        have there : q ∈ s.service.queue := List.mem_of_mem_filter (List.mem_of_find?_eq_some found)
        have same : q.frameId = chosen.frameId := by simpa using List.find?_some found
        rw [List.inj_on_of_nodup_map inv.distinct there queued same]
        exact List.mem_insert_self

theorem Inv.bakeDone {i : ℕ} (once : s.DrawnOnce (.bakeDone i)) :
    Inv (s.step cfg (.bakeDone i)) := by
  simp only [step]
  split
  · exact inv
  next q found =>
    refine ⟨inv.fresh, inv.distinct, fun q' mem => ?_⟩
    have others : (s.bakes.eraseIdx i).countP (·.bufferId = q.bufferId) = 0 := by
      have sole := once q found
      obtain ⟨lt, rfl⟩ := List.getElem?_eq_some_iff.mp found
      rw [← (List.getElem_cons_eraseIdx_perm lt).countP_eq, List.countP_cons_of_pos (by simp)] at sole
      exact Nat.succ.inj sole
    have differs := List.countP_eq_zero.mp others q' mem
    simp only [decide_eq_true_eq] at differs
    simp only [InjectionService.noteBakeDone, List.mem_filter, ne_eq, decide_eq_true_eq]
    exact ⟨inv.baking q' (List.mem_of_mem_eraseIdx mem), differs⟩

theorem Inv.step (action : InjectionAction) (once : s.DrawnOnce action) :
    Inv (s.step cfg action) := by
  cases action with
  | start => exact ⟨inv.fresh, inv.distinct, inv.baking⟩
  | clearRunning => exact ⟨inv.fresh, inv.distinct, inv.baking⟩
  | push desc pinned =>
    simp only [Injection.step]
    split
    · exact inv
    · exact ⟨inv.fresh, inv.distinct, inv.baking⟩
  | lock i =>
    simp only [Injection.step]
    split
    · exact inv
    · exact inv.pushLocked _ _
  | stopInjection =>
    simp only [Injection.step, InjectionService.stopInjection]
    split
    · exact inv.closeSession s.pushes
    · refine inv.sublist ?_ rfl inv.baking
      exact List.nil_sublist _
  | releaseOwner clientFd =>
    simp only [Injection.step, InjectionService.releaseOwner]
    split
    · exact inv.closeSession s.pushes
    · exact inv
  | take streamName width height frameTsNs => exact inv.take streamName width height frameTsNs
  | bakeDone i => exact inv.bakeDone once

end

/-- If no buffer is drawn twice when one of its frames is done, the buffers that wait or are drawn
are reported. -/
theorem frames_leased (cfg : InjectionServiceConfig) (actions : List InjectionAction)
    (once : AlongLog (report cfg) DrawnOnce {} actions) :
    ∀ s ∈ (runLog (report cfg) {} actions).2, s.Leased := by
  have start : Inv {} := ⟨by simp, List.nodup_nil, by simp⟩
  refine AlongLog.forall_mem Inv (fun s action inv once reached mem => ?_)
    (fun s action inv once => inv.step action once) start once
  rw [List.mem_singleton.mp mem]
  exact (inv.step action once).leased

def sampleConfig : InjectionServiceConfig := { enabled := true }

def samplePush (streamId : String) : List InjectionAction :=
  [.push { bufferId := 7, width := 64, height := 48, stride := 64, mode := .replace, ptsNs := 0
           destX := 0, destY := 0, endOfStream := false, streamId, sessionId := "" }
    (.ok { fb := some { format := .nv12, dmabuf := true, numPlanes := 2, width := 64, height := 48 }
           ownerFd := 5 }),
    .lock 0]

/-- Two streams take the buffer, one after the other. -/
theorem frames_leased_in_turn :
    (runLog (report sampleConfig) {} (.start :: samplePush "main" ++ samplePush "sub" ++
      [.take "main" 64 48 0, .bakeDone 0, .take "sub" 64 48 0, .stopInjection, .bakeDone 0])).2.Forall
        Leased :=
  List.forall_iff_forall_mem.mpr (frames_leased sampleConfig _ (by decide +kernel))

/-- Two streams draw the buffer at the same time, and the first one is done. -/
theorem lease_lost_while_drawn :
    let s := (runLog (report sampleConfig) {} (.start :: samplePush "main" ++ samplePush "sub" ++
      [.take "main" 64 48 0, .take "sub" 64 48 0, .bakeDone 0])).1
    s.bakes.map (·.bufferId) = [7] ∧ s.service.inFlightBufferIds = [] := by
  decide +kernel

end Injection

end NeoRuntime.CameraDaemon
