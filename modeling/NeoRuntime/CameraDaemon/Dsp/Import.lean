import Mathlib.Algebra.Group.Nat.Defs
import Mathlib.Logic.Function.Basic
import NeoRuntime.Lib.Dict
import NeoRuntime.Lib.Run

/-!
# Imported planes

`DspService::import_buffer_impl` (platform/camera-daemon/src/dsp_service.cpp) registers a buffer whose
planes are files of the client.  A file that is not sealed against shrinking, growing and writing is
copied into a memfd of the daemon.  The client works on its files between any two system calls of the
import, and after it.
-/

namespace NeoRuntime.CameraDaemon.Dsp

/-! ## Formats -/

inductive PixelFormat
  | nv12
  | rgb24
  | gray8
  | argb32
  deriving DecidableEq

def planeCountOf : PixelFormat → ℕ
  | .nv12 => 2
  | _ => 1

def minStrideOf (format : PixelFormat) (width : ℕ) : ℕ :=
  match format with
  | .rgb24 => width * 3
  | .argb32 => width * 4
  | _ => width

def planeRowsOf (format : PixelFormat) (height plane : ℕ) : ℕ :=
  if format = .nv12 ∧ plane = 1 then height / 2 else height

/-! ## Files and seals -/

structure File where
  bytes : List UInt8
  /-- Only a memfd takes seals. -/
  memfd : Bool
  sealSeal : Bool
  sealShrink : Bool
  sealGrow : Bool
  sealWrite : Bool

/-- The file has `kStableSeals`. -/
def File.isStable (f : File) : Bool := f.sealShrink && f.sealGrow && f.sealWrite

/-- Bytes of a file, cut or filled with zeros to a size. -/
def resized (bytes : List UInt8) (size : ℕ) : List UInt8 :=
  bytes.take size ++ List.replicate (size - bytes.length) 0

inductive FileOp
  | write (offset : ℕ) (data : List UInt8)
  | truncate (size : ℕ)
  | addSeals (toSeal toShrink toGrow toWrite : Bool)

/-- The file after an operation; one that a seal forbids changes nothing. -/
def File.apply (f : File) : FileOp → File
  | .write offset data =>
    if data.isEmpty || f.sealWrite || (f.sealGrow && f.bytes.length < offset + data.length) then f
    else { f with
      bytes := resized f.bytes offset ++ data ++ f.bytes.drop (offset + data.length) }
  | .truncate size =>
    if (f.sealShrink && size < f.bytes.length) || (f.sealGrow && f.bytes.length < size) then f
    else { f with bytes := resized f.bytes size }
  | .addSeals toSeal toShrink toGrow toWrite =>
    if !f.memfd || f.sealSeal then f
    else { f with
      sealSeal := toSeal
      sealShrink := f.sealShrink || toShrink
      sealGrow := f.sealGrow || toGrow
      sealWrite := f.sealWrite || toWrite }

structure ClientOp where
  file : ℕ
  op : FileOp

variable (files : ℕ → File)

def applyClient (c : ClientOp) : ℕ → File :=
  Function.update files c.file ((files c.file).apply c.op)

def applyClients (ops : List ClientOp) : ℕ → File := ops.foldl applyClient files

/-! ## The import -/

structure ImportPlane where
  file : ℕ
  stride : ℕ
  size : ℕ

structure ImportRequest where
  width : ℕ
  height : ℕ
  format : PixelFormat
  planes : List ImportPlane

/-- A file of the client or a memfd of the daemon. -/
inductive Inode
  | client (file : ℕ)
  | own (file : ℕ)
  deriving DecidableEq

/-- The next system call of the import, or its result. -/
inductive ImportPc
  | enter
  | stat (plane : ℕ)
  | getSeals (plane : ℕ) (stSize : ℕ)
  | reserve
  | dup (plane : ℕ)
  | copyOpen (plane : ℕ)
  | copyChunk (plane : ℕ) (mfd : ℕ) (off : ℕ)
  | map (plane : ℕ)
  | register
  | accepted
  | rejected (message : String)
  deriving DecidableEq

structure ImportState where
  files : ℕ → File
  own : List File
  pc : ImportPc
  copyUserptr : List Bool
  importBytes : ℕ
  mappings : List Inode

def ImportState.start : ImportState :=
  { files, own := [], pc := .enter, copyUserptr := [], importBytes := 0, mappings := [] }

inductive ImportEvent
  | client (c : ClientOp)
  /-- The session, the quota or the registry answers, with a message if it refuses. -/
  | service (refusal : Option String)
  /-- The daemon's next system call; `fails` if it returns an error. -/
  | syscall (fails : Bool)

/-- The checks before the planes; the message of the first that fails. -/
def checkRequest (maxPixelsPerOp : ℕ) (r : ImportRequest) : Option String :=
  if r.width < 16 ∨ r.height < 16 ∨ 8192 < r.width ∨ 8192 < r.height then
    some "width/height out of range [16, 8192]"
  else if r.format = .nv12 ∧ (r.width % 2 = 1 ∨ r.height % 2 = 1) then
    some "NV12 width and height must be even"
  else if maxPixelsPerOp < r.width * r.height then some "buffer exceeds max_pixels_per_op"
  else if r.planes.length ≠ planeCountOf r.format then
    some ("num_planes " ++ toString r.planes.length ++ " does not match format (" ++
      toString (planeCountOf r.format) ++ " expected)")
  else none

section

variable (r : ImportRequest)

/-- The check of one plane's stride and size. -/
def geometryImplausible (p : ℕ) (plane : ImportPlane) : Bool :=
  plane.stride < minStrideOf r.format r.width ||
    plane.size < plane.stride * planeRowsOf r.format r.height p

section

variable (s : ImportState)

def ImportState.refuse (refusal : Option String) (next : ImportPc) : ImportState :=
  { s with pc := refusal.elim next .rejected }

def importStat (p : ℕ) (fails : Bool) : ImportState :=
  match r.planes[p]? with
  | none => { s with pc := .reserve }
  | some plane =>
    if geometryImplausible r p plane then
      { s with pc := .rejected ("plane " ++ toString p ++ " geometry implausible (stride " ++
        toString plane.stride ++ ", size " ++ toString plane.size ++ ")") }
    else if plane.size = 0 ∨ fails ∨ (s.files plane.file).bytes.length < plane.size then
      { s with pc := .rejected "import plane shorter than declared size" }
    else { s with pc := .getSeals p (s.files plane.file).bytes.length }

/-- What an import is charged for a plane: the copy, or the whole file. -/
def retainedBytes (plane : ImportPlane) (stSize : ℕ) (copies : Bool) : ℕ :=
  if copies then plane.size else stSize

def importGetSeals (p stSize : ℕ) (fails : Bool) : ImportState :=
  match r.planes[p]? with
  | none => s
  | some plane =>
    -- a file that takes no seals answers with an error
    let f := s.files plane.file
    let copies := fails || !f.memfd || !f.isStable
    if 2 ^ 64 - 1 - s.importBytes < retainedBytes plane stSize copies then
      { s with pc := .rejected "import backing size overflow" }
    else { s with
      copyUserptr := s.copyUserptr ++ [copies]
      importBytes := s.importBytes + retainedBytes plane stSize copies
      pc := .stat (p + 1) }

def importDup (p : ℕ) (fails : Bool) : ImportState :=
  if r.planes.length ≤ p then { s with pc := .copyOpen 0 }
  else if fails then { s with pc := .rejected "dup of client buffer fd failed" }
  else { s with pc := .dup (p + 1) }

def unreadable : ImportPc := .rejected "import plane unreadable or shorter than declared size"

/-- The start of `copy_to_sealed_memfd`, for a plane that is copied. -/
def importCopyOpen (p : ℕ) (fails : Bool) : ImportState :=
  match r.planes[p]? with
  | none => { s with pc := .register }
  | some plane =>
    if !s.copyUserptr.getD p false then { s with pc := .map p }
    else if fails then { s with pc := unreadable }
    else { s with
      own := s.own ++ [⟨List.replicate plane.size 0, true, false, false, false, false⟩]
      pc := .copyChunk p s.own.length 0 }

def chunkSize : ℕ := 65536

/-- One turn of the copy loop, or the seals at its end. -/
def importCopyChunk (p mfd off : ℕ) (fails : Bool) : ImportState :=
  match r.planes[p]?, s.own[mfd]? with
  | some plane, some copy =>
    if fails then { s with pc := unreadable }
    else if off < plane.size then
      let buf := ((s.files plane.file).bytes.drop off).take (min chunkSize (plane.size - off))
      if buf.isEmpty then { s with pc := unreadable }
      else { s with
        own := s.own.set mfd (copy.apply (.write off buf))
        pc := .copyChunk p mfd (off + buf.length) }
    else { s with
      own := s.own.set mfd (copy.apply (.addSeals true true true true))
      pc := .map p }
  | _, _ => s

/-- The `mmap` of a plane: of `dup_fds[p]`, also when `map_fd` is the copy. -/
def importMap (p : ℕ) (fails : Bool) : ImportState :=
  match r.planes[p]? with
  | none => s
  | some plane =>
    if fails then { s with pc := .rejected "import plane not mappable" }
    else { s with mappings := s.mappings ++ [.client plane.file], pc := .copyOpen (p + 1) }

def importSyscall (fails : Bool) : Option ImportState :=
  match s.pc with
  | .stat p => some (importStat r s p fails)
  | .getSeals p stSize => some (importGetSeals r s p stSize fails)
  | .dup p => some (importDup r s p fails)
  | .copyOpen p => some (importCopyOpen r s p fails)
  | .copyChunk p mfd off => some (importCopyChunk r s p mfd off fails)
  | .map p => some (importMap r s p fails)
  | _ => none

end

end

def importService (maxPixelsPerOp : ℕ) (r : ImportRequest) (s : ImportState)
    (refusal : Option String) : Option ImportState :=
  match s.pc with
  | .enter => some (s.refuse (refusal.or (checkRequest maxPixelsPerOp r)) (.stat 0))
  | .reserve => some (s.refuse refusal (.dup 0))
  | .register => some (s.refuse refusal .accepted)
  | _ => none

def importStep (maxPixelsPerOp : ℕ) (r : ImportRequest) (s : ImportState) :
    ImportEvent → Option ImportState
  | .client c => some { s with files := applyClient s.files c }
  | .service refusal => importService maxPixelsPerOp r s refusal
  | .syscall fails => importSyscall r s fails

def clientOps (events : List ImportEvent) : List ClientOp :=
  events.filterMap fun
    | .client c => some c
    | _ => none

def ImportState.fileAt (s : ImportState) : Inode → File
  | .client file => s.files file
  | .own file => s.own.getD file ⟨[], true, false, false, false, false⟩

def ImportState.later (s : ImportState) (ops : List ClientOp) : ImportState :=
  { s with files := applyClients s.files ops }

/-- The inode has the size, the client can neither write nor resize it, and it holds `s`. -/
def ImportState.Keeps (s : ImportState) (inode : Inode) (size : ℕ) : Prop :=
  ∀ ops, size ≤ ((s.later ops).fileAt inode).bytes.length ∧
    (∀ c, ((s.later (ops ++ [c])).fileAt inode).bytes = ((s.later ops).fileAt inode).bytes) ∧
    ((s.later ops).fileAt inode).bytes.take size = (s.fileAt inode).bytes.take size

def ImportState.PlanesKept (s : ImportState) (r : ImportRequest) : Prop :=
  ∀ (p : ℕ) (plane : ImportPlane), r.planes[p]? = some plane →
    ∃ inode, s.mappings[p]? = some inode ∧ s.Keeps inode plane.size

theorem File.apply_of_isStable {f : File} (stable : f.isStable = true) (op : FileOp) :
    (f.apply op).bytes = f.bytes ∧ (f.apply op).isStable = true := by
  have seals := stable
  simp only [File.isStable, Bool.and_eq_true] at seals
  obtain ⟨⟨shrink, grow⟩, write⟩ := seals
  cases op with
  | write offset data => simp [File.apply, write, stable]
  | truncate size =>
    simp only [File.apply, shrink, grow, Bool.true_and]
    split
    · exact ⟨rfl, stable⟩
    · rename_i same
      have equal : size = f.bytes.length := by simp at same; omega
      exact ⟨by simp [resized, equal], by simp [File.isStable, write]⟩
  | addSeals toSeal toShrink toGrow toWrite =>
    simp only [File.apply]
    split
    · exact ⟨rfl, stable⟩
    · simp [File.isStable, shrink, grow, write]

theorem applyClients_of_isStable {files : ℕ → File} {file : ℕ}
    (stable : (files file).isStable = true) (ops : List ClientOp) :
    (applyClients files ops file).bytes = (files file).bytes ∧
      (applyClients files ops file).isStable = true := by
  refine foldl_inv (fun files' : ℕ → File => (files' file).bytes = (files file).bytes ∧
    (files' file).isStable = true) (fun files' c kept => ?_) ⟨rfl, stable⟩ ops
  obtain ⟨bytes, stable⟩ := kept
  by_cases same : file = c.file
  · subst same
    have applied := File.apply_of_isStable stable c.op
    simp only [applyClient, Function.update_self]
    exact ⟨applied.1.trans bytes, applied.2⟩
  · rw [applyClient, Function.update_of_ne same]
    exact ⟨bytes, stable⟩

theorem File.isStable_of_apply {f : File} (nonempty : f.bytes ≠ [])
    (fixed : ∀ op, (f.apply op).bytes = f.bytes) : f.isStable = true := by
  have positive : 0 < f.bytes.length := List.length_pos_iff.mpr nonempty
  have shrink : f.sealShrink = true := by
    by_contra open_
    have cut := congrArg List.length (fixed (.truncate 0))
    simp [File.apply, open_, resized] at cut
    omega
  have grow : f.sealGrow = true := by
    by_contra open_
    have extended := congrArg List.length (fixed (.truncate (f.bytes.length + 1)))
    have short : ¬ f.bytes.length + 1 < f.bytes.length := by omega
    simp [File.apply, open_, resized, short] at extended
  have write : f.sealWrite = true := by
    by_contra open_
    obtain ⟨first, rest, bytes⟩ := List.exists_cons_of_ne_nil nonempty
    have written := fixed (.write 0 [first + 1])
    simp [File.apply, open_, resized, bytes] at written
  simp [File.isStable, shrink, grow, write]

/-! ## What is mapped -/

@[simp] def ImportPc.mapped (planes : ℕ) : ImportPc → ℕ
  | .copyOpen p | .copyChunk p _ _ | .map p => min p planes
  | .register | .accepted => planes
  | _ => 0

/-- The number of planes whose size was checked so far. -/
@[simp] def ImportPc.checked (planes : ℕ) : ImportPc → ℕ
  | .enter | .rejected _ => 0
  | .stat p => min p planes
  | .getSeals p _ => min (p + 1) planes
  | _ => planes

/-- The planes so far are mapped from the client's files, and have a size. -/
structure ImportState.Sound (r : ImportRequest) (s : ImportState) : Prop where
  mappings_eq : s.mappings =
    (r.planes.take (s.pc.mapped r.planes.length)).map fun plane => .client plane.file
  sized : ∀ plane ∈ r.planes.take (s.pc.checked r.planes.length), plane.size ≠ 0

def ImportState.Progress (r : ImportRequest) (s : ImportState) : Prop :=
  (∃ message, s.pc = .rejected message) ∨ s.Sound r

variable {r : ImportRequest} {s : ImportState} {p maxPixelsPerOp : ℕ}

theorem progress_rejected (message : String)
    (pc : s.pc = .rejected message) : s.Progress r := .inl ⟨message, pc⟩

theorem progress_of_eq {s' : ImportState} (sound : s.Sound r) (same : s'.mappings = s.mappings)
    (mapped : s'.pc.mapped r.planes.length = s.pc.mapped r.planes.length)
    (checked : s'.pc.checked r.planes.length = s.pc.checked r.planes.length) : s'.Progress r :=
  .inr ⟨by rw [same, mapped]; exact sound.mappings_eq, by rw [checked]; exact sound.sized⟩

variable (fails : Bool)

theorem importStat_progress
    (pc : s.pc = .stat p) (sound : s.Sound r) : (importStat r s p fails).Progress r := by
  unfold importStat
  cases lookup : r.planes[p]? with
  | none =>
    have all : r.planes.length ≤ p := List.getElem?_eq_none_iff.mp lookup
    exact progress_of_eq sound rfl (by simp [pc]) (by simp [pc, all])
  | some plane =>
    have bound : p < r.planes.length := (List.getElem?_eq_some_iff.mp lookup).1
    dsimp only
    split
    · exact progress_rejected _ rfl
    · split
      · exact progress_rejected _ rfl
      · rename_i fits
        refine .inr ⟨by simpa [pc, ImportPc.mapped] using sound.mappings_eq, ?_⟩
        have before := sound.sized
        simp only [pc, ImportPc.checked, Nat.min_eq_left (Nat.le_of_lt bound)] at before
        simp only [ImportPc.checked, Nat.min_eq_left bound, List.take_add_one, lookup,
          Option.toList_some, List.mem_append, List.mem_singleton]
        rintro other (earlier | rfl)
        · exact before other earlier
        · exact fun empty => fits (.inl empty)

theorem importGetSeals_progress {stSize : ℕ} (fails : Bool)
    (pc : s.pc = .getSeals p stSize) (sound : s.Sound r) :
    (importGetSeals r s p stSize fails).Progress r := by
  unfold importGetSeals
  cases r.planes[p]? with
  | none => exact .inr sound
  | some plane =>
    dsimp only
    split
    · exact progress_rejected _ rfl
    · exact progress_of_eq sound rfl (by simp [pc]) (by simp [pc])

theorem importDup_progress
    (pc : s.pc = .dup p) (sound : s.Sound r) : (importDup r s p fails).Progress r := by
  unfold importDup
  split
  · exact progress_of_eq sound rfl (by simp [pc]) (by simp [pc])
  · split
    · exact progress_rejected _ rfl
    · exact progress_of_eq sound rfl (by simp [pc]) (by simp [pc])

theorem importCopyOpen_progress
    (pc : s.pc = .copyOpen p) (sound : s.Sound r) : (importCopyOpen r s p fails).Progress r := by
  unfold importCopyOpen
  cases lookup : r.planes[p]? with
  | none =>
    have all : r.planes.length ≤ p := List.getElem?_eq_none_iff.mp lookup
    exact progress_of_eq sound rfl (by simp [pc, all]) (by simp [pc])
  | some plane =>
    dsimp only
    split
    · exact progress_of_eq sound rfl (by simp [pc]) (by simp [pc])
    · split
      · exact progress_rejected _ rfl
      · exact progress_of_eq sound rfl (by simp [pc]) (by simp [pc])

theorem importCopyChunk_progress {mfd off : ℕ} (fails : Bool)
    (pc : s.pc = .copyChunk p mfd off) (sound : s.Sound r) :
    (importCopyChunk r s p mfd off fails).Progress r := by
  unfold importCopyChunk
  split
  · split
    · exact progress_rejected _ rfl
    · split
      · dsimp only
        split
        · exact progress_rejected _ rfl
        · exact progress_of_eq sound rfl (by simp [pc]) (by simp [pc])
      · exact progress_of_eq sound rfl (by simp [pc]) (by simp [pc])
  · exact .inr sound

theorem importMap_progress
    (pc : s.pc = .map p) (sound : s.Sound r) : (importMap r s p fails).Progress r := by
  unfold importMap
  cases lookup : r.planes[p]? with
  | none => exact .inr sound
  | some plane =>
    have bound : p < r.planes.length := (List.getElem?_eq_some_iff.mp lookup).1
    have before := sound.mappings_eq
    simp only [pc, ImportPc.mapped, Nat.min_eq_left (Nat.le_of_lt bound)] at before
    dsimp only
    split
    · exact progress_rejected _ rfl
    · refine .inr ⟨?_, by simpa [pc, ImportPc.checked] using sound.sized⟩
      simp only [before, ImportPc.mapped, Nat.min_eq_left bound, List.take_add_one, lookup,
        Option.toList_some, List.map_append, List.map_cons, List.map_nil]

theorem importSyscall_progress {s' : ImportState} {fails : Bool}
    (sound : s.Sound r) (step : importSyscall r s fails = some s') : s'.Progress r := by
  unfold importSyscall at step
  cases pc : s.pc <;> simp only [pc, Option.some.injEq, reduceCtorEq] at step <;> subst step
  · exact importStat_progress fails pc sound
  · exact importGetSeals_progress fails pc sound
  · exact importDup_progress fails pc sound
  · exact importCopyOpen_progress fails pc sound
  · exact importCopyChunk_progress fails pc sound
  · exact importMap_progress fails pc sound

theorem refuse_progress (sound : s.Sound r) (refusal : Option String) (next : ImportPc)
    (mapped : next.mapped r.planes.length = s.pc.mapped r.planes.length)
    (checked : next.checked r.planes.length = s.pc.checked r.planes.length) :
    (s.refuse refusal next).Progress r := by
  cases refusal with
  | none => exact progress_of_eq sound rfl mapped checked
  | some message => exact progress_rejected message rfl

theorem importService_progress {s' : ImportState} {refusal : Option String} (sound : s.Sound r)
    (step : importService maxPixelsPerOp r s refusal = some s') : s'.Progress r := by
  unfold importService at step
  cases pc : s.pc <;> simp only [pc, Option.some.injEq, reduceCtorEq] at step <;> subst step <;>
    exact refuse_progress sound _ _ (by simp [pc]) (by simp [pc])

theorem importStep_rejected {s' : ImportState}
    {event : ImportEvent} {message : String} (pc : s.pc = .rejected message)
    (step : importStep maxPixelsPerOp r s event = some s') : s'.pc = .rejected message := by
  cases event with
  | client c =>
    simp only [importStep, Option.some.injEq] at step
    subst step
    exact pc
  | service refusal => simp [importStep, importService, pc] at step
  | syscall fails => simp [importStep, importSyscall, pc] at step

theorem importStep_progress {s' : ImportState} {event : ImportEvent} (progress : s.Progress r)
    (step : importStep maxPixelsPerOp r s event = some s') : s'.Progress r := by
  obtain ⟨message, pc⟩ | sound := progress
  · exact progress_rejected message (importStep_rejected pc step)
  · cases event with
    | client c =>
      simp only [importStep, Option.some.injEq] at step
      subst step
      exact .inr ⟨sound.mappings_eq, sound.sized⟩
    | service refusal => exact importService_progress sound step
    | syscall fails => exact importSyscall_progress sound step

/-- When an import is accepted, every plane is mapped from the client's file. -/
theorem ImportState.mappings_eq {files : ℕ → File} {events : List ImportEvent}
    (run : events.foldlM (importStep maxPixelsPerOp r) (.start files) = some s)
    (accepted : s.pc = .accepted) :
    s.mappings = r.planes.map (fun plane => .client plane.file) ∧
      ∀ plane ∈ r.planes, plane.size ≠ 0 := by
  have start : (ImportState.start files).Progress r :=
    .inr ⟨by simp [ImportState.start], by simp [ImportState.start]⟩
  have progress := foldlM_inv (ImportState.Progress r)
    (fun _ _ _ progress step => importStep_progress progress step) start run
  obtain ⟨message, pc⟩ | sound := progress
  · simp [accepted] at pc
  · have mappings := sound.mappings_eq
    have sized := sound.sized
    simp only [accepted, ImportPc.mapped, ImportPc.checked, List.take_length] at mappings sized
    exact ⟨mappings, sized⟩

theorem importSyscall_files {s' : ImportState} {fails : Bool}
    (step : importSyscall r s fails = some s') : s'.files = s.files := by
  unfold importSyscall at step
  cases pc : s.pc <;> simp only [pc, Option.some.injEq, reduceCtorEq] at step <;> subst step
  · unfold importStat
    repeat' split
    all_goals rfl
  · unfold importGetSeals
    dsimp only
    repeat' split
    all_goals rfl
  · unfold importDup
    repeat' split
    all_goals rfl
  · unfold importCopyOpen
    repeat' split
    all_goals rfl
  · unfold importCopyChunk
    dsimp only
    repeat' split
    all_goals rfl
  · unfold importMap
    repeat' split
    all_goals rfl

theorem importService_files {s' : ImportState}
    {refusal : Option String} (step : importService maxPixelsPerOp r s refusal = some s') :
    s'.files = s.files := by
  unfold importService at step
  cases pc : s.pc <;> simp only [pc, Option.some.injEq, reduceCtorEq] at step <;> subst step <;> rfl

theorem ImportState.files_eq {events : List ImportEvent}
    {s' : ImportState} (run : events.foldlM (importStep maxPixelsPerOp r) s = some s') :
    s'.files = applyClients s.files (clientOps events) := by
  induction events generalizing s with
  | nil =>
    obtain rfl : s = s' := by simpa using run
    rfl
  | cons event events ih =>
    obtain ⟨m, first, rest⟩ := foldlM_cons_eq_some.1 run
    rw [ih rest]
    cases event with
    | client c =>
      simp only [importStep, Option.some.injEq] at first
      subst first
      rfl
    | service refusal => rw [importService_files first]; rfl
    | syscall fails => rw [importSyscall_files first]; rfl

/-! ## What the client can do to a mapping -/

/-- A mapping of a file of the client is kept exactly if the file has the size and the seals. -/
theorem keeps_client_iff {file size : ℕ} (sized : size ≠ 0) : s.Keeps (.client file) size ↔
      (s.files file).isStable = true ∧ size ≤ (s.files file).bytes.length := by
  constructor
  · intro kept
    obtain ⟨long, fixed, -⟩ := kept []
    simp only [ImportState.later, ImportState.fileAt, applyClients, List.foldl_nil,
      List.nil_append, List.foldl_cons] at long fixed
    refine ⟨File.isStable_of_apply (fun empty => ?_) (fun op => ?_), long⟩
    · rw [empty, List.length_nil] at long
      omega
    · have unchanged := fixed ⟨file, op⟩
      rwa [applyClient, Function.update_self] at unchanged
  · rintro ⟨stable, long⟩ ops
    have bytes : ∀ ops, (applyClients s.files ops file).bytes = (s.files file).bytes := fun ops =>
      (applyClients_of_isStable stable ops).1
    simp only [ImportState.later, ImportState.fileAt, bytes]
    exact ⟨long, fun _ => trivial, trivial⟩

/-- Imported planes are kept exactly if every plane's file has the three seals and the declared
size: a copy is never what is mapped. -/
theorem imported_planes_kept_iff {maxPixelsPerOp : ℕ} {r : ImportRequest} {files : ℕ → File}
    {events : List ImportEvent} {s : ImportState}
    (run : events.foldlM (importStep maxPixelsPerOp r) (.start files) = some s)
    (accepted : s.pc = .accepted) :
    s.PlanesKept r ↔ ∀ plane ∈ r.planes,
      (applyClients files (clientOps events) plane.file).isStable = true ∧
        plane.size ≤ (applyClients files (clientOps events) plane.file).bytes.length := by
  obtain ⟨mappings, sized⟩ := ImportState.mappings_eq run accepted
  have kept : ∀ plane ∈ r.planes, s.Keeps (.client plane.file) plane.size ↔
      (applyClients files (clientOps events) plane.file).isStable = true ∧
        plane.size ≤ (applyClients files (clientOps events) plane.file).bytes.length := by
    intro plane member
    rw [keeps_client_iff (sized plane member), ImportState.files_eq run]
    rfl
  have mapping : ∀ {p : ℕ} {plane : ImportPlane}, r.planes[p]? = some plane →
      s.mappings[p]? = some (.client plane.file) := by
    intro p plane lookup
    simp [mappings, lookup]
  constructor
  · intro planes plane member
    obtain ⟨p, lookup⟩ := List.mem_iff_getElem?.mp member
    obtain ⟨inode, mapped, keeps⟩ := planes p plane lookup
    obtain rfl : inode = .client plane.file := by
      simpa using mapped.symm.trans (mapping lookup)
    exact (kept plane member).mp keeps
  · intro all p plane lookup
    have member : plane ∈ r.planes := List.mem_of_getElem? lookup
    exact ⟨_, mapping lookup, (kept plane member).mpr (all plane member)⟩

/-! ## Two imports of one plane -/

def zeros (size : ℕ) (sealed : Bool) : File :=
  ⟨List.replicate size 0, true, sealed, sealed, sealed, sealed⟩

def grayRequest : ImportRequest := ⟨16, 16, .gray8, [⟨0, 16, 256⟩]⟩

def daemonEvents (syscalls : List ℕ) : List ImportEvent :=
  syscalls.flatMap fun count => .service none :: List.replicate count (.syscall false)

def grayImport (sealed : Bool) (syscalls : List ℕ) : ImportState :=
  ((daemonEvents syscalls).foldlM (importStep 256 grayRequest) (.start fun _ => zeros 256 sealed)).getD
    (.start fun _ => zeros 0 false)

theorem grayImport_run {sealed : Bool} {syscalls : List ℕ}
    (runs : ((daemonEvents syscalls).foldlM (importStep 256 grayRequest)
      (.start fun _ => zeros 256 sealed)).isSome = true) :
    (daemonEvents syscalls).foldlM (importStep 256 grayRequest) (.start fun _ => zeros 256 sealed) =
      some (grayImport sealed syscalls) := by
  obtain ⟨s, run⟩ := Option.isSome_iff_exists.mp runs
  simp only [grayImport, run, Option.getD_some]

/-- The planes of a sealed file are kept. -/
theorem imported_planes_kept_iff_sealed : (grayImport true [3, 5, 0]).PlanesKept grayRequest :=
  (imported_planes_kept_iff (grayImport_run (by decide +kernel)) (by decide +kernel)).mpr
    (by decide +kernel)

/-- An unsealed file is copied, and the client then changes or cuts the mapped plane. -/
theorem imported_plane_changed :
    (daemonEvents [3, 7, 0]).foldlM (importStep 256 grayRequest) (.start fun _ => zeros 256 false) =
        some (grayImport false [3, 7, 0]) ∧
      (grayImport false [3, 7, 0]).pc = .accepted ∧
      (grayImport false [3, 7, 0]).copyUserptr = [true] ∧
      (grayImport false [3, 7, 0]).mappings = [.client 0] ∧
      (((grayImport false [3, 7, 0]).later [⟨0, .write 0 [1]⟩]).fileAt (.client 0)).bytes.head? =
        some 1 ∧
      (((grayImport false [3, 7, 0]).later [⟨0, .truncate 0⟩]).fileAt (.client 0)).bytes = [] :=
  ⟨grayImport_run (by decide +kernel), by decide +kernel, by decide +kernel, by decide +kernel,
    by decide +kernel, by decide +kernel⟩

end NeoRuntime.CameraDaemon.Dsp
