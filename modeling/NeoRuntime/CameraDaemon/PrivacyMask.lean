import Mathlib.Data.Fin.VecNotation
import Mathlib.Data.List.FinRange
import Mathlib.Algebra.Order.Ring.Int
import Mathlib.Tactic.Common
import NeoRuntime.Lib.Run

/-!
# The privacy mask

Every cycle of `DpmWorker::worker_loop` (platform/camera-daemon/src/dpm_worker.cpp) joins what the
models find in a frame into one mask.  If nothing was found, `publish` keeps the last mask for
`stale_ms`.  A model that fails contributes nothing, also if another one finds something
(`unmasked_by_a_failure`).  Otherwise the mask is held if the failing cycle publishes within
`stale_ms` of the *start* of the cycle that made it (`mask_held`).
-/

namespace NeoRuntime.CameraDaemon

namespace PrivacyMask

/-- A model that was loaded: `DetectorSpec`. -/
structure DetectorSpec where
  keepLabels : List String
  isSeg : Bool
  isGridDet : Bool
  gateLabel : String

/-- A detection; it is confident unless its confidence is below `kDetConfFloor`. -/
structure Detection (β : Type) where
  confident : Bool
  label : String
  bbox : β

structure Segmentation where
  width : ℕ
  height : ℕ
  data : ℕ → UInt8

/-- What a model answers; the plates are the boxes that `decode_plate_grid` keeps. -/
structure HalRun (β : Type) where
  tensorOk : Bool
  runOk : Bool
  plates : List β
  postOk : Bool
  detections : List (Detection β)
  segmentation : Option Segmentation

abbrev Mask := ℕ → ℕ → Bool

/-- `DpmMaskState`. -/
structure MaskState where
  frameW : ℕ
  frameH : ℕ
  mask : Mask

/-- The masks that a cycle fills, and the results of its models. -/
structure Buffers where
  mask : Mask
  personGate : Mask
  segAccum : Mask
  anyOk : Bool
  allOk : Bool

/-- The size of the frame, the time since the last cycle, its duration, and the runs of the models.
-/
structure Cycle (n : ℕ) (β : Type) where
  fw : ℕ
  fh : ℕ
  wait : ℕ
  work : ℕ
  runs : Fin n → HalRun β

structure Worker where
  clock : ℕ
  lastNonempty : Option MaskState
  lastDetNs : ℕ

structure Published where
  allOk : Bool
  at_ : ℕ
  fw : ℕ
  fh : ℕ
  state : Option MaskState

/-! ## One cycle -/

section Model

variable {n : ℕ} {β : Type} (rect : β → ℕ → ℕ → ℤ × ℤ × ℤ × ℤ) (fw fh : ℕ)

def clamp (v : ℤ) (bound : ℕ) : ℤ := max 0 (min v bound)

/-- `fill_bbox_rect`; `rect` are the corners of the box in the frame. -/
def fillBboxRect (mask : Mask) (box : β) : Mask := fun x y =>
  let (x0, y0, x1, y1) := rect box fw fh
  mask x y || decide (clamp y0 fh ≤ y ∧ y < clamp y1 fh ∧ clamp x0 fw ≤ x ∧ x < clamp x1 fw)

variable (spec : DetectorSpec)

def Detection.kept (d : Detection β) : Bool :=
  d.confident && (spec.keepLabels.isEmpty || spec.keepLabels.contains d.label)

def addDetection (b : Buffers) (d : Detection β) : Buffers :=
  if d.kept spec then
    if spec.gateLabel ≠ "" ∧ d.label = spec.gateLabel
    then { b with personGate := fillBboxRect rect fw fh b.personGate d.bbox }
    else { b with mask := fillBboxRect rect fw fh b.mask d.bbox }
  else b

variable (run : HalRun β)

/-- The first `HAL_MAX_DETECTIONS` detections. -/
def HalRun.seen : List (Detection β) := run.detections.take 256

def runDetector (b : Buffers) : Bool × Buffers :=
  if !run.tensorOk || !run.runOk then (false, b)
  else if spec.isGridDet then
    (true, { b with mask := run.plates.foldl (fillBboxRect rect fw fh) b.mask })
  else if !run.postOk then (false, b)
  else (true, run.seen.foldl (addDetection rect fw fh spec) b)

/-- A byte of the model's mask that stands for the foreground. -/
def foreground (cid : UInt8) : Bool := cid == 1 || cid ≥ 128

/-- The byte for a pixel of the frame, by nearest neighbour in 32 bit arithmetic. -/
def Segmentation.at_ (seg : Segmentation) (x y : ℕ) : UInt8 :=
  seg.data (y * seg.height % 2 ^ 32 / fh * seg.width + x * seg.width % 2 ^ 32 / fw)

def addSilhouette (seg : Segmentation) (mask : Mask) : Mask := fun x y =>
  mask x y || decide (x < fw) && decide (y < fh) && foreground (seg.at_ fw fh x y)

def runSegmenter (b : Buffers) : Bool × Buffers :=
  if !run.tensorOk || !run.runOk || !run.postOk then (false, b)
  else match run.segmentation with
    | none => (false, b)
    | some seg =>
      if seg.width = 0 ∨ seg.height = 0 then (false, b)
      else (true, { b with segAccum := addSilhouette fw fh seg b.segAccum })

def runModel (b : Buffers) : Buffers :=
  let (ok, b) := if spec.isSeg then runSegmenter fw fh run b else runDetector rect fw fh spec run b
  { b with anyOk := b.anyOk || ok, allOk := b.allOk && ok }

def Buffers.empty : Buffers :=
  { mask := fun _ _ => false, personGate := fun _ _ => false, segAccum := fun _ _ => false
    anyOk := false, allOk := true }

variable (detectors : Fin n → DetectorSpec)

def runModels (runs : Fin n → HalRun β) : Buffers :=
  (List.finRange n).foldl (fun b d => runModel rect fw fh (detectors d) (runs d) b) .empty

/-- The mask: the silhouettes count inside the boxes of persons, if some model gates them. -/
def compose (b : Buffers) : Mask :=
  let haveSeg := (List.finRange n).any fun d => (detectors d).isSeg
  let needGate := (List.finRange n).any fun d => !(detectors d).isSeg && (detectors d).gateLabel ≠ ""
  fun x y => b.mask x y || haveSeg && b.segAccum x y && (!needGate || b.personGate x y)

def maskNonempty (m : MaskState) : Bool :=
  (List.range m.frameH).any fun y => (List.range m.frameW).any fun x => m.mask x y

/-- `publish` without a mask: the last one is kept for `stale_ms`. -/
def publishNone (staleMs : ℕ) (w : Worker) : Worker × Option MaskState :=
  if w.clock - w.lastDetNs ≤ staleMs * 1000000 then (w, w.lastNonempty)
  else ({ w with lastNonempty := none }, none)

/-- One iteration of `worker_loop`. -/
def workerCycle (staleMs : ℕ) (w : Worker) (c : Cycle n β) : Worker × Option Published :=
  let now := w.clock + c.wait
  let w := { w with clock := now + c.work }
  if c.fw = 0 ∨ c.fh = 0 then (w, none)
  else
    let b := runModels rect c.fw c.fh detectors c.runs
    let state : MaskState := ⟨c.fw, c.fh, compose detectors b⟩
    let (w, published) :=
      if b.anyOk && maskNonempty state
      then ({ w with lastDetNs := now, lastNonempty := some state }, some state)
      else publishNone staleMs w
    (w, some { allOk := b.allOk, at_ := w.clock, fw := c.fw, fh := c.fh, state := published })

/-! ## What should be held -/

variable (staleMs : ℕ)

def Fails : Prop :=
  run.tensorOk = false ∨ run.runOk = false ∨
  if spec.isSeg then
    run.postOk = false ∨ run.segmentation.all fun seg => seg.width = 0 ∨ seg.height = 0
  else spec.isGridDet = false ∧ run.postOk = false

instance (spec : DetectorSpec) (run : HalRun β) : Decidable (Fails spec run) := by
  unfold Fails
  infer_instance

def Blank : Prop :=
  if spec.isSeg then
    run.segmentation.all fun seg =>
      decide (∀ i < seg.height * seg.width, foreground (seg.data i) = false)
  else if spec.isGridDet then run.plates = []
  else ∀ d ∈ run.seen, d.kept spec = false

instance (spec : DetectorSpec) (run : HalRun β) : Decidable (Blank spec run) := by
  unfold Blank
  infer_instance

def Covers (m : MaskState) (m' : Option MaskState) : Prop :=
  ∀ y < m.frameH, ∀ x < m.frameW, m.mask x y = true →
    m'.any (fun m' => x < m'.frameW ∧ y < m'.frameH ∧ m'.mask x y) = true

/-- What a cycle published after the last sound one: it covers that mask for `stale_ms`. -/
def Held (o : Option Published × Published) : Prop :=
  ∀ g ∈ o.1, o.2.allOk = false → o.2.at_ - g.at_ ≤ staleMs * 1000000 →
    ∀ m ∈ g.state, Covers m o.2.state

instance (o : Option Published × Published) : Decidable (Held staleMs o) :=
  inferInstanceAs (Decidable (∀ g ∈ _, _ → _ → ∀ m ∈ _, ∀ y < _, ∀ x < _, _ → _))

/-- The worker, and what the last cycle without failures published. -/
structure Monitored where
  worker : Worker
  reference : Option Published

/-- The reference for a cycle: none after a change of the frame size. -/
def Monitored.referenceFor (s : Monitored) (c : Cycle n β) : Option Published :=
  s.reference.filter fun g => g.fw = c.fw ∧ g.fh = c.fh

def monitorStep (s : Monitored) (c : Cycle n β) : Monitored × List (Option Published × Published) :=
  match workerCycle rect detectors staleMs s.worker c with
  | (w, none) => (⟨w, s.reference⟩, [])
  | (w, some p) => (⟨w, if p.allOk then some p else s.referenceFor c⟩, [(s.referenceFor c, p)])

def Monitored.start : Monitored := ⟨⟨0, none, 0⟩, none⟩

/-- If a model fails while a mask should be held, no model finds anything, and the mask is not stale by
the time of the cycle that found it. -/
def Holds (s : Monitored) (c : Cycle n β) : Prop :=
  let at_ := s.worker.clock + c.wait + c.work
  ∀ g ∈ s.referenceFor c, g.state.isSome → (∃ d, Fails (detectors d) (c.runs d)) →
    at_ - g.at_ ≤ staleMs * 1000000 →
    (∀ d, Fails (detectors d) (c.runs d) ∨ Blank (detectors d) (c.runs d)) ∧
    at_ - s.worker.lastDetNs ≤ staleMs * 1000000

instance (s : Monitored) (c : Cycle n β) : Decidable (Holds detectors staleMs s c) :=
  inferInstanceAs (Decidable (∀ g ∈ _, _ → (∃ _, _) → _ → (∀ _, _ ∨ _) ∧ _))

/-! ## Failures and findings of the models -/

section Models

variable {rect fw fh} {spec : DetectorSpec} {run : HalRun β} {b : Buffers}

theorem runSegmenter_cases (segments : spec.isSeg = true) :
    Fails spec run ∧ runSegmenter fw fh run b = (false, b) ∨
    ¬ Fails spec run ∧ ∃ seg, run.segmentation = some seg ∧ ¬ (seg.width = 0 ∨ seg.height = 0) ∧
      runSegmenter fw fh run b =
        (true, { b with segAccum := addSilhouette fw fh seg b.segAccum }) := by
  unfold runSegmenter Fails
  split_ifs with answered
  · refine .inl ⟨?_, rfl⟩
    simp only [Bool.or_eq_true, Bool.not_eq_true', or_assoc] at answered
    exact answered.imp_right (Or.imp_right .inl)
  · cases found : run.segmentation with
    | none => exact .inl ⟨by simp, rfl⟩
    | some seg =>
      by_cases empty : seg.width = 0 ∨ seg.height = 0
      · exact .inl ⟨by simp [empty], if_pos empty⟩
      · exact .inr ⟨by simp_all, seg, rfl, empty, if_neg empty⟩

theorem runDetector_cases (detects : spec.isSeg = false) :
    Fails spec run ∧ runDetector rect fw fh spec run b = (false, b) ∨
    ¬ Fails spec run ∧ spec.isGridDet = true ∧ runDetector rect fw fh spec run b =
      (true, { b with mask := run.plates.foldl (fillBboxRect rect fw fh) b.mask }) ∨
    ¬ Fails spec run ∧ spec.isGridDet = false ∧ runDetector rect fw fh spec run b =
      (true, run.seen.foldl (addDetection rect fw fh spec) b) := by
  unfold runDetector Fails
  cases run.tensorOk <;> cases run.runOk <;> cases run.postOk <;> cases spec.isGridDet <;>
    simp [detects]

theorem addDetection_allOk (d : Detection β) : (addDetection rect fw fh spec b d).allOk = b.allOk := by
  unfold addDetection
  split_ifs <;> rfl

theorem runModel_allOk : (runModel rect fw fh spec run b).allOk = true ↔
    b.allOk = true ∧ ¬ Fails spec run := by
  unfold runModel
  cases kind : spec.isSeg with
  | true =>
    obtain ⟨fails, result⟩ | ⟨works, seg, -, -, result⟩ :=
      @runSegmenter_cases β fw fh spec run b kind
    · simp [result, fails]
    · simp [result, works]
  | false =>
    obtain ⟨fails, result⟩ | ⟨works, -, result⟩ | ⟨works, -, result⟩ :=
      @runDetector_cases β rect fw fh spec run b kind
    · simp [result, fails]
    · simp [result, works]
    · have kept : (run.seen.foldl (addDetection rect fw fh spec) b).allOk = b.allOk :=
        foldl_inv (fun b' : Buffers => b'.allOk = b.allOk)
          (fun b' d same => (addDetection_allOk d).trans same) rfl run.seen
      simp [result, works, kept]

def Buffers.Nothing (b : Buffers) : Prop :=
  (∀ x y, b.mask x y = false) ∧ (∀ x y, b.personGate x y = false) ∧ ∀ x y, b.segAccum x y = false

theorem Segmentation.index_lt {seg : Segmentation} (some_ : ¬ (seg.width = 0 ∨ seg.height = 0))
    {x y : ℕ} (inX : x < fw) (inY : y < fh) :
    y * seg.height % 2 ^ 32 / fh * seg.width + x * seg.width % 2 ^ 32 / fw <
      seg.height * seg.width := by
  have row : y * seg.height % 2 ^ 32 / fh < seg.height := by
    refine Nat.div_lt_of_lt_mul (lt_of_le_of_lt (Nat.mod_le _ _) ?_)
    exact Nat.mul_lt_mul_of_pos_right inY (by omega)
  have column : x * seg.width % 2 ^ 32 / fw < seg.width := by
    refine Nat.div_lt_of_lt_mul (lt_of_le_of_lt (Nat.mod_le _ _) ?_)
    exact Nat.mul_lt_mul_of_pos_right inX (by omega)
  calc _ < y * seg.height % 2 ^ 32 / fh * seg.width + seg.width := Nat.add_lt_add_left column _
    _ = (y * seg.height % 2 ^ 32 / fh + 1) * seg.width := by rw [Nat.add_mul, Nat.one_mul]
    _ ≤ seg.height * seg.width := Nat.mul_le_mul_right _ row

theorem addSilhouette_dark {seg : Segmentation} {mask : Mask}
    (some_ : ¬ (seg.width = 0 ∨ seg.height = 0))
    (dark : ∀ i < seg.height * seg.width, foreground (seg.data i) = false)
    (nothing : ∀ x y, mask x y = false) (x y : ℕ) : addSilhouette fw fh seg mask x y = false := by
  by_cases inside : x < fw ∧ y < fh
  · have shown : foreground (seg.at_ fw fh x y) = false :=
      dark _ (Segmentation.index_lt some_ inside.1 inside.2)
    simp [addSilhouette, nothing x y, shown]
  · rw [not_and_or] at inside
    rcases inside with out | out <;> simp [addSilhouette, nothing x y, out]

theorem foldl_addDetection_dropped {ds : List (Detection β)}
    (dropped : ∀ d ∈ ds, d.kept spec = false) : ds.foldl (addDetection rect fw fh spec) b = b := by
  induction ds with
  | nil => rfl
  | cons d ds ih =>
    have same : addDetection rect fw fh spec b d = b := if_neg (by simp [dropped d])
    rw [List.foldl_cons, same]
    exact ih fun d' mem => dropped d' (List.mem_cons_of_mem d mem)

theorem runModel_nothing (blank : Fails spec run ∨ Blank spec run) (nothing : b.Nothing) :
    (runModel rect fw fh spec run b).Nothing := by
  unfold runModel
  cases kind : spec.isSeg with
  | true =>
    obtain ⟨fails, result⟩ | ⟨works, seg, found, some_, result⟩ :=
      @runSegmenter_cases β fw fh spec run b kind
    · simp only [if_true, result]
      exact nothing
    · have dark : ∀ i < seg.height * seg.width, foreground (seg.data i) = false := by
        simpa [Blank, kind, found] using blank.resolve_left works
      simp only [if_true, result]
      exact ⟨nothing.1, nothing.2.1, addSilhouette_dark some_ dark nothing.2.2⟩
  | false =>
    obtain ⟨fails, result⟩ | ⟨works, grid, result⟩ | ⟨works, grid, result⟩ :=
      @runDetector_cases β rect fw fh spec run b kind
    · simp only [Bool.false_eq_true, if_false, result]
      exact nothing
    · have none : run.plates = [] := by simpa [Blank, kind, grid] using blank.resolve_left works
      simp only [Bool.false_eq_true, if_false, result, none]
      exact nothing
    · have dropped : ∀ d ∈ run.seen, d.kept spec = false := by
        simpa [Blank, kind, grid] using blank.resolve_left works
      rw [foldl_addDetection_dropped dropped] at result
      simp only [Bool.false_eq_true, if_false, result]
      exact nothing

end Models

/-! ## Cycles -/

section Cycles

variable {rect detectors staleMs}

theorem runModels_allOk (runs : Fin n → HalRun β) :
    (runModels rect fw fh detectors runs).allOk = true ↔ ∀ d, ¬ Fails (detectors d) (runs d) := by
  have all : ∀ (ds : List (Fin n)) (b : Buffers),
      (ds.foldl (fun b d => runModel rect fw fh (detectors d) (runs d) b) b).allOk = true ↔
        b.allOk = true ∧ ∀ d ∈ ds, ¬ Fails (detectors d) (runs d) := by
    intro ds
    induction ds with
    | nil => simp
    | cons d ds ih =>
      intro b
      rw [List.foldl_cons, ih, runModel_allOk, List.forall_mem_cons, and_assoc]
  simpa [runModels, Buffers.empty] using all (List.finRange n) .empty

/-- A cycle whose models fail or find nothing has an empty mask. -/
theorem maskNonempty_of_blank {runs : Fin n → HalRun β}
    (blank : ∀ d, Fails (detectors d) (runs d) ∨ Blank (detectors d) (runs d)) :
    maskNonempty ⟨fw, fh, compose detectors (runModels rect fw fh detectors runs)⟩ = false := by
  have nothing : (runModels rect fw fh detectors runs).Nothing :=
    foldl_inv Buffers.Nothing (fun b d => runModel_nothing (blank d))
      ⟨fun _ _ => rfl, fun _ _ => rfl, fun _ _ => rfl⟩ (List.finRange n)
  simp [maskNonempty, compose, nothing.1, nothing.2.2]

theorem publishNone_lastNonempty {w : Worker} {m : MaskState}
    (published : (publishNone staleMs w).2 = some m) :
    (publishNone staleMs w).1.lastNonempty = some m := by
  unfold publishNone at published ⊢
  split_ifs at published ⊢
  exact published

theorem publishNone_clock (w : Worker) : (publishNone staleMs w).1.clock = w.clock := by
  unfold publishNone
  split_ifs <;> rfl

variable {c : Cycle n β} {s : Monitored}

theorem workerCycle_cases {w w' : Worker} {p : Published}
    (cycle : workerCycle rect detectors staleMs w c = (w', some p)) :
    w'.clock = w.clock + c.wait + c.work ∧ p.at_ = w'.clock ∧ p.fw = c.fw ∧ p.fh = c.fh ∧
    (p.allOk = true ↔ ∀ d, ¬ Fails (detectors d) (c.runs d)) ∧
    (∀ m, p.state = some m → w'.lastNonempty = some m) ∧
    ((∀ d, Fails (detectors d) (c.runs d) ∨ Blank (detectors d) (c.runs d)) →
      w'.clock - w.lastDetNs ≤ staleMs * 1000000 → p.state = w.lastNonempty) := by
  unfold workerCycle at cycle
  dsimp only at cycle
  split_ifs at cycle with empty found
  · simp at cycle
  · simp only [Prod.mk.injEq, Option.some.injEq] at cycle
    obtain ⟨rfl, rfl⟩ := cycle
    refine ⟨rfl, rfl, rfl, rfl, runModels_allOk c.fw c.fh c.runs, fun m same => same,
      fun blank _ => ?_⟩
    simp [maskNonempty_of_blank c.fw c.fh blank] at found
  · simp only [Prod.mk.injEq, Option.some.injEq] at cycle
    obtain ⟨rfl, rfl⟩ := cycle
    refine ⟨publishNone_clock _, rfl, rfl, rfl, runModels_allOk c.fw c.fh c.runs,
      fun m published => publishNone_lastNonempty published, fun _ recent => ?_⟩
    rw [publishNone_clock] at recent
    rw [publishNone, if_pos recent]

theorem workerCycle_none {w w' : Worker}
    (cycle : workerCycle rect detectors staleMs w c = (w', none)) :
    w.clock ≤ w'.clock ∧ w'.lastNonempty = w.lastNonempty := by
  unfold workerCycle at cycle
  dsimp only at cycle
  split_ifs at cycle
  all_goals simp only [Prod.mk.injEq, reduceCtorEq, and_false, and_true] at cycle
  subst cycle
  exact ⟨Nat.le_add_right_of_le (Nat.le_add_right _ _), rfl⟩

/-- While the reference is fresh, the worker remembers its mask. -/
def Remembers (staleMs : ℕ) (s : Monitored) : Prop :=
  ∀ g ∈ s.reference, ∀ m ∈ g.state, s.worker.clock - g.at_ ≤ staleMs * 1000000 →
    s.worker.lastNonempty = some m

theorem Monitored.mem_reference {g : Published} (mem : g ∈ s.referenceFor c) : g ∈ s.reference :=
  (Option.mem_filter_iff.1 mem).1

theorem workerCycle_holds {w : Worker} {p g : Published}
    {m : MaskState} (remembers : Remembers staleMs s) (holds : Holds detectors staleMs s c)
    (cycle : workerCycle rect detectors staleMs s.worker c = (w, some p))
    (reference : g ∈ s.referenceFor c) (mask : m ∈ g.state) (failed : p.allOk = false)
    (fresh : w.clock - g.at_ ≤ staleMs * 1000000) : p.state = some m := by
  obtain ⟨clock, -, -, -, ok, -, keeps⟩ := workerCycle_cases cycle
  have fails : ∃ d, Fails (detectors d) (c.runs d) := by
    simpa [failed] using ok
  have before : s.worker.lastNonempty = some m :=
    remembers g (Monitored.mem_reference reference) m mask (by omega)
  obtain ⟨blank, recent⟩ := holds g reference (by simp [Option.mem_def.1 mask]) fails (clock ▸ fresh)
  rw [keeps blank (clock ▸ recent), before]

theorem remembers_step (remembers : Remembers staleMs s) (holds : Holds detectors staleMs s c) :
    Remembers staleMs (monitorStep rect detectors staleMs s c).1 := by
  unfold monitorStep
  cases cycle : workerCycle rect detectors staleMs s.worker c with
  | mk w p =>
    cases p with
    | none =>
      obtain ⟨later, same⟩ := workerCycle_none cycle
      intro g mem m mask fresh
      dsimp only at fresh ⊢
      rw [same]
      exact remembers g mem m mask (by omega)
    | some p =>
      obtain ⟨-, -, -, -, -, last, -⟩ := workerCycle_cases cycle
      intro g mem m mask fresh
      dsimp only at mem fresh ⊢
      split_ifs at mem with ok
      · obtain rfl := Option.mem_some_iff.1 mem
        exact last m mask
      · exact last m (workerCycle_holds remembers holds cycle mem mask (by simpa using ok) fresh)

theorem held_step (remembers : Remembers staleMs s) (holds : Holds detectors staleMs s c) :
    ∀ o ∈ (monitorStep rect detectors staleMs s c).2, Held staleMs o := by
  unfold monitorStep
  cases cycle : workerCycle rect detectors staleMs s.worker c with
  | mk w p =>
    cases p with
    | none => simp
    | some p =>
      obtain ⟨-, at_, -⟩ := workerCycle_cases cycle
      refine List.forall_mem_singleton.2 fun g reference failed fresh m mask y inY x inX set => ?_
      rw [workerCycle_holds remembers holds cycle reference mask failed (at_ ▸ fresh)]
      simp [inX, inY, set]

end Cycles

/-- In every run of cycles that meet the condition, the mask is held. -/
theorem mask_held (cycles : List (Cycle n β))
    (along : AlongLog (monitorStep rect detectors staleMs) (Holds detectors staleMs) .start cycles) :
    ∀ o ∈ (runLog (monitorStep rect detectors staleMs) .start cycles).2, Held staleMs o :=
  along.forall_mem (Remembers staleMs) (fun s c => held_step) (fun s c => remembers_step)
    (fun g mem => by simp [Monitored.start] at mem)

end Model

/-! ## Two detectors -/

def twoDetectors : Fin 2 → DetectorSpec := ![⟨["face"], false, false, ""⟩, ⟨[], false, true, ""⟩]

def foundRun (box : ℤ × ℤ × ℤ × ℤ) : HalRun (ℤ × ℤ × ℤ × ℤ) :=
  ⟨true, true, [box], true, [⟨true, "face", box⟩], none⟩

def failedRun : HalRun (ℤ × ℤ × ℤ × ℤ) := ⟨true, false, [], true, [], none⟩

def bothFound : Cycle 2 (ℤ × ℤ × ℤ × ℤ) :=
  ⟨2, 1, 80000000, 40000000, ![foundRun (0, 0, 1, 1), foundRun (1, 0, 2, 1)]⟩

/-- Both detectors fail for a while: their mask is held. -/
theorem mask_held_through_failures :
    List.Forall (Held 500) (runLog (monitorStep (fun box _ _ => box) twoDetectors 500) .start
      [bothFound, { bothFound with runs := fun _ => failedRun },
        { bothFound with runs := fun _ => failedRun }]).2 :=
  List.forall_iff_forall_mem.2 (mask_held _ twoDetectors 500 _ (by decide +kernel))

/-- The face detector fails while the plate is still found: the face is not masked. -/
theorem unmasked_by_a_failure :
    ¬ List.Forall (Held 500) (runLog (monitorStep (fun box _ _ => box) twoDetectors 500) .start
      [bothFound, { bothFound with runs := ![failedRun, foundRun (1, 0, 2, 1)] }]).2 := by
  decide +kernel

end PrivacyMask

end NeoRuntime.CameraDaemon
