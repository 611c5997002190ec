import Mathlib.Algebra.GroupWithZero.Nat
import Mathlib.Algebra.Order.Ring.Int
import Mathlib.Data.List.Induction

/-!
# The cells of the privacy mosaic

`build_mosaic_cells` (platform/camera-daemon/src/dpm_worker.cpp) covers a mask with rectangles.  The
frame is divided into squares of `stride` pixels; the squares of a row with a masked pixel are joined
to runs, and the runs to rectangles that grow downwards.
-/

namespace NeoRuntime.CameraDaemon

/-- Arithmetic of `uint32_t`. -/
def u32 (n : ℕ) : ℕ := n % 2 ^ 32

theorem u32_of_lt {n : ℕ} (small : n < 2 ^ 32) : u32 n = n := Nat.mod_eq_of_lt small

/-! ## The squares -/

def cellCount (size stride : ℕ) : ℕ := u32 (size + stride - 1) / stride

def cellStart (stride i : ℕ) : ℕ := u32 (i * stride)

def cellEnd (size stride i : ℕ) : ℕ := min (u32 (cellStart stride i + stride)) size

variable (mask : List UInt8)

def maskAt (fw x y : ℕ) : Bool := mask.getD (y * fw + x) 0 ≠ 0

def occupied (fw fh stride cy cx : ℕ) : Bool :=
  let y0 := cellStart stride cy
  let x0 := cellStart stride cx
  (List.range' y0 (cellEnd fh stride cy - y0)).any fun y =>
    (List.range' x0 (cellEnd fw stride cx - x0)).any fun x => maskAt mask fw x y

/-! ## Runs -/

structure MaskRun where
  row : ℕ
  x0 : ℕ
  x1 : ℕ
  deriving DecidableEq

/-- One square of a row; the state is the begin of the open run and the closed runs. -/
def scanCell (occ : ℕ → Bool) (row : ℕ) (st : Option ℕ × List MaskRun) (cx : ℕ) :
    Option ℕ × List MaskRun :=
  match st.1, occ cx with
  | none, true => (some cx, st.2)
  | some x0, true => (some x0, st.2)
  | some x0, false => (none, st.2 ++ [⟨row, x0, cx - 1⟩])
  | none, false => (none, st.2)

def rowRuns (occ : ℕ → Bool) (cw row : ℕ) : List MaskRun :=
  let st := (List.range cw).foldl (scanCell occ row) (none, [])
  match st.1 with
  | some x0 => st.2 ++ [⟨row, x0, cw - 1⟩]
  | none => st.2

variable (occ : ℕ → ℕ → Bool)

def allRuns (cw ch : ℕ) : List MaskRun :=
  (List.range ch).flatMap fun cy => rowRuns (occ cy) cw cy

/-! ## Rectangles -/

structure MaskRect where
  row0 : ℕ
  row1 : ℕ
  x0 : ℕ
  x1 : ℕ
  deriving DecidableEq

def touches (rc : MaskRect) (r : MaskRun) : Bool :=
  u32 (rc.row1 + 1) = r.row && r.x0 ≤ u32 (rc.x1 + 1) && rc.x0 ≤ u32 (r.x1 + 1)

/-- A run joins the first rectangle that it touches, or begins a new one. -/
def mergeRun : List MaskRect → MaskRun → List MaskRect
  | [], r => [⟨r.row, r.row, r.x0, r.x1⟩]
  | rc :: rects, r =>
    if touches rc r then ⟨rc.row0, r.row, min rc.x0 r.x0, max rc.x1 r.x1⟩ :: rects
    else rc :: mergeRun rects r

def mergeRuns (runs : List MaskRun) : List MaskRect := runs.foldl mergeRun []

/-! ## Cells -/

/-- `DpmMaskState::Cell`. -/
structure MosaicCell where
  x : ℤ
  y : ℤ
  w : ℕ
  h : ℕ
  deriving DecidableEq

def toInt32 (n : ℕ) : ℤ := if u32 n < 2 ^ 31 then u32 n else (u32 n : ℤ) - 2 ^ 32

/-- The extent of the squares from `i` to `j` along one side. -/
def cellExtent (size stride i j : ℕ) : ℕ :=
  u32 (min (u32 (u32 (j + 1) * stride)) size + 2 ^ 32 - cellStart stride i)

def rectCell (fw fh stride : ℕ) (rc : MaskRect) : MosaicCell where
  x := toInt32 (cellStart stride rc.x0)
  y := toInt32 (cellStart stride rc.row0)
  w := cellExtent fw stride rc.x0 rc.x1
  h := cellExtent fh stride rc.row0 rc.row1

def buildMosaicCells (fw fh stride maxCells : ℕ) : List MosaicCell :=
  if fw = 0 ∨ fh = 0 ∨ stride = 0 then []
  else
    let runs := allRuns (occupied mask fw fh stride) (cellCount fw stride) (cellCount fh stride)
    ((mergeRuns runs).take maxCells).map (rectCell fw fh stride)

/-! ## What the runs of a row hold -/

section

variable (occ : ℕ → Bool) (row : ℕ)

/-- A square that begins a run: it is occupied, and the one before it is not. -/
def isRunStart (cx : ℕ) : Bool := occ cx && (cx == 0 || !occ (cx - 1))

/-- The state of the scan after `k` squares. -/
structure ScanInv (k : ℕ) (st : Option ℕ × List MaskRun) : Prop where
  opened : ∀ x0 ∈ st.1, x0 < k ∧ occ x0 = true
  isOpen : st.1.isSome = (0 < k && occ (k - 1))
  closed : ∀ r ∈ st.2, r.row = row ∧ r.x0 ≤ r.x1 ∧ r.x1 < k ∧ occ r.x0 = true
  covered : ∀ cx < k, occ cx = true →
    (∃ x0 ∈ st.1, x0 ≤ cx) ∨ ∃ r ∈ st.2, r.x0 ≤ cx ∧ cx ≤ r.x1
  count : st.2.length + st.1.toList.length = (List.range k).countP (isRunStart occ)

variable {occ row}

theorem ScanInv.step {k : ℕ} {st : Option ℕ × List MaskRun} (inv : ScanInv occ row k st) :
    ScanInv occ row (k + 1) (scanCell occ row st k) := by
  obtain ⟨opened, isOpen, closed, covered, count⟩ := inv
  obtain ⟨first, runs⟩ := st
  have starts : (List.range (k + 1)).countP (isRunStart occ) =
      (List.range k).countP (isRunStart occ) + if isRunStart occ k then 1 else 0 := by
    simp [List.range_succ, List.countP_append, List.countP_cons]
  have wider : ∀ r ∈ runs, r.row = row ∧ r.x0 ≤ r.x1 ∧ r.x1 < k + 1 ∧ occ r.x0 = true :=
    fun r mem => by
      obtain ⟨same, le, lt, occupied⟩ := closed r mem
      exact ⟨same, le, by omega, occupied⟩
  cases first with
  | none =>
    have before : ¬ (0 < k ∧ occ (k - 1) = true) := by simpa using isOpen
    cases here : occ k with
    | true =>
      have start : isRunStart occ k = true := by
        rcases Nat.eq_zero_or_pos k with rfl | pos
        · simp [isRunStart, here]
        · have free : occ (k - 1) = false := by simpa [pos] using before
          simp [isRunStart, here, free]
      simp only [scanCell, here]
      refine ⟨by simp [here], by simp [here], wider, fun cx cx_lt occupied => ?_, ?_⟩
      · rcases Nat.lt_succ_iff_lt_or_eq.1 cx_lt with lt | rfl
        · obtain ⟨x0, mem, -⟩ | held := covered cx lt occupied
          · cases mem
          · exact .inr held
        · exact .inl ⟨cx, rfl, le_rfl⟩
      · rw [starts, start, ← count]
        simp
    | false =>
      simp only [scanCell, here]
      refine ⟨by simp, by simp [here], wider, fun cx cx_lt occupied => ?_, ?_⟩
      · rcases Nat.lt_succ_iff_lt_or_eq.1 cx_lt with lt | rfl
        · exact covered cx lt occupied
        · rw [here] at occupied
          cases occupied
      · rw [starts, ← count]
        simp [isRunStart, here]
  | some x0 =>
    have inside := opened x0 rfl
    have before : 0 < k ∧ occ (k - 1) = true := by simpa using isOpen.symm
    have noStart : isRunStart occ k = false := by
      simp [isRunStart, before.2, before.1.ne']
    cases here : occ k with
    | true =>
      simp only [scanCell, here]
      refine ⟨fun x mem => ?_, by simp [here], wider, fun cx cx_lt occupied => ?_, ?_⟩
      · cases mem
        exact ⟨by omega, inside.2⟩
      · rcases Nat.lt_succ_iff_lt_or_eq.1 cx_lt with lt | rfl
        · exact covered cx lt occupied
        · exact .inl ⟨x0, rfl, by omega⟩
      · rw [starts, noStart, ← count]
        rfl
    | false =>
      simp only [scanCell, here]
      refine ⟨by simp, by simp [here], fun r mem => ?_, fun cx cx_lt occupied => ?_, ?_⟩
      · obtain mem | mem := List.mem_append.1 mem
        · exact wider r mem
        · cases List.mem_singleton.1 mem
          exact ⟨rfl, by dsimp only; omega, by dsimp only; omega, inside.2⟩
      · right
        rcases Nat.lt_succ_iff_lt_or_eq.1 cx_lt with lt | rfl
        · obtain ⟨x, mem, le⟩ | ⟨r, mem, held⟩ := covered cx lt occupied
          · cases mem
            exact ⟨_, List.mem_append_right _ (List.mem_singleton_self _), le, by dsimp only; omega⟩
          · exact ⟨r, List.mem_append_left _ mem, held⟩
        · rw [here] at occupied
          cases occupied
      · rw [starts, noStart, ← count]
        simp

theorem scanInv_range (occ : ℕ → Bool) (row k : ℕ) :
    ScanInv occ row k ((List.range k).foldl (scanCell occ row) (none, [])) := by
  induction k with
  | zero => exact ⟨by simp, by simp, by simp, by simp, rfl⟩
  | succ k ih =>
    rw [List.range_succ, List.foldl_append]
    exact ih.step

/-- Each run of a row begins with an occupied square, every occupied square is in one, and there are
as many as squares that begin a run. -/
theorem rowRuns_spec (occ : ℕ → Bool) (cw row : ℕ) :
    (∀ r ∈ rowRuns occ cw row, r.row = row ∧ r.x0 ≤ r.x1 ∧ r.x1 < cw ∧ occ r.x0 = true) ∧
    (∀ cx < cw, occ cx = true → ∃ r ∈ rowRuns occ cw row, r.x0 ≤ cx ∧ cx ≤ r.x1) ∧
    (rowRuns occ cw row).length = (List.range cw).countP (isRunStart occ) := by
  have inv := scanInv_range occ row cw
  unfold rowRuns
  generalize (List.range cw).foldl (scanCell occ row) (none, []) = st at inv
  obtain ⟨first, runs⟩ := st
  cases first with
  | none =>
    refine ⟨inv.closed, fun cx cx_lt occupied => ?_, by simpa using inv.count⟩
    obtain ⟨x0, mem, -⟩ | held := inv.covered cx cx_lt occupied
    · cases mem
    · exact held
  | some x0 =>
    have inside := inv.opened x0 rfl
    refine ⟨fun r mem => ?_, fun cx cx_lt occupied => ?_, by simpa using inv.count⟩
    · obtain mem | mem := List.mem_append.1 mem
      · exact inv.closed r mem
      · cases List.mem_singleton.1 mem
        exact ⟨rfl, by dsimp only; omega, by dsimp only; omega, inside.2⟩
    · obtain ⟨x, mem, le⟩ | ⟨r, mem, held⟩ := inv.covered cx cx_lt occupied
      · cases mem
        exact ⟨_, List.mem_append_right _ (List.mem_singleton_self _), le, by dsimp only; omega⟩
      · exact ⟨r, List.mem_append_left _ mem, held⟩

end

/-! ## What the rectangles hold -/

def MaskRect.Holds (rc : MaskRect) (r : MaskRun) : Prop :=
  rc.row0 ≤ r.row ∧ r.row ≤ rc.row1 ∧ rc.x0 ≤ r.x0 ∧ r.x1 ≤ rc.x1

/-- Rectangles inside `cw × ch` squares: each run is in one, and each row of one has a run in it. -/
structure MergeInv (cw ch : ℕ) (runs : List MaskRun) (rects : List MaskRect) : Prop where
  held : ∀ r ∈ runs, ∃ rc ∈ rects, rc.Holds r
  inside : ∀ rc ∈ rects, rc.row0 ≤ rc.row1 ∧ rc.row1 < ch ∧ rc.x0 ≤ rc.x1 ∧ rc.x1 < cw
  tight : ∀ rc ∈ rects, ∀ row, rc.row0 ≤ row → row ≤ rc.row1 →
    ∃ r ∈ runs, r.row = row ∧ rc.Holds r
  count : rects.length ≤ runs.length

theorem mem_mergeRun {rects : List MaskRect} {r : MaskRun} {rc' : MaskRect}
    (mem : rc' ∈ mergeRun rects r) :
    rc' ∈ rects ∨ rc' = ⟨r.row, r.row, r.x0, r.x1⟩ ∨
      ∃ rc ∈ rects, touches rc r = true ∧
        rc' = ⟨rc.row0, r.row, min rc.x0 r.x0, max rc.x1 r.x1⟩ := by
  induction rects with
  | nil => exact .inr (.inl (List.mem_singleton.1 mem))
  | cons rc rects ih =>
    unfold mergeRun at mem
    split_ifs at mem with touch
    · obtain rfl | mem := List.mem_cons.1 mem
      · exact .inr (.inr ⟨rc, List.mem_cons_self, touch, rfl⟩)
      · exact .inl (List.mem_cons_of_mem _ mem)
    · obtain rfl | mem := List.mem_cons.1 mem
      · exact .inl List.mem_cons_self
      · obtain old | new | ⟨rc, there, joined⟩ := ih mem
        · exact .inl (List.mem_cons_of_mem _ old)
        · exact .inr (.inl new)
        · exact .inr (.inr ⟨rc, List.mem_cons_of_mem _ there, joined⟩)

theorem length_mergeRun_le (rects : List MaskRect) (r : MaskRun) :
    (mergeRun rects r).length ≤ rects.length + 1 := by
  induction rects with
  | nil => rfl
  | cons rc rects ih =>
    unfold mergeRun
    split_ifs
    · exact Nat.le_succ _
    · exact Nat.succ_le_succ ih

theorem mergeRun_holds (rects : List MaskRect) (r : MaskRun)
    (below : ∀ rc ∈ rects, touches rc r = true → rc.row0 ≤ r.row) :
    ∃ rc ∈ mergeRun rects r, rc.Holds r := by
  induction rects with
  | nil => exact ⟨_, List.mem_singleton_self _, le_rfl, le_rfl, le_rfl, le_rfl⟩
  | cons rc rects ih =>
    obtain ⟨first, rest⟩ := List.forall_mem_cons.1 below
    unfold mergeRun
    split_ifs with touch
    · exact ⟨_, List.mem_cons_self, first touch, le_rfl, Nat.min_le_right _ _, Nat.le_max_right _ _⟩
    · obtain ⟨rc', mem, holds⟩ := ih rest
      exact ⟨rc', List.mem_cons_of_mem _ mem, holds⟩

theorem mergeRun_still_holds {rects : List MaskRect} {r old : MaskRun}
    (above : ∀ rc ∈ rects, touches rc r = true → rc.row1 ≤ r.row)
    (held : ∃ rc ∈ rects, rc.Holds old) : ∃ rc ∈ mergeRun rects r, rc.Holds old := by
  induction rects with
  | nil => simp at held
  | cons rc rects ih =>
    obtain ⟨first, rest⟩ := List.forall_mem_cons.1 above
    obtain ⟨rc', mem, holds⟩ := held
    unfold mergeRun
    split_ifs with touch
    · obtain rfl | mem := List.mem_cons.1 mem
      · obtain ⟨top, bottom, left, right⟩ := holds
        exact ⟨_, List.mem_cons_self, top, bottom.trans (first touch),
          (Nat.min_le_left _ _).trans left, right.trans (Nat.le_max_left _ _)⟩
      · exact ⟨rc', List.mem_cons_of_mem _ mem, holds⟩
    · obtain rfl | mem := List.mem_cons.1 mem
      · exact ⟨rc', List.mem_cons_self, holds⟩
      · obtain ⟨rc'', mem, holds⟩ := ih rest ⟨rc', mem, holds⟩
        exact ⟨rc'', List.mem_cons_of_mem _ mem, holds⟩

theorem MergeInv.step {cw ch : ℕ} {runs : List MaskRun} {rects : List MaskRect} {r : MaskRun}
    (inv : MergeInv cw ch runs rects) (small : ch < 2 ^ 32)
    (fits : r.row < ch ∧ r.x0 ≤ r.x1 ∧ r.x1 < cw) :
    MergeInv cw ch (runs ++ [r]) (mergeRun rects r) := by
  have next {rc : MaskRect} (mem : rc ∈ rects) (touch : touches rc r = true) :
      rc.row1 + 1 = r.row := by
    simp only [touches, Bool.and_eq_true, decide_eq_true_eq] at touch
    have bound := (inv.inside rc mem).2.1
    rw [u32_of_lt (by omega)] at touch
    exact touch.1.1
  refine ⟨fun old mem => ?_, fun rc mem => ?_, fun rc mem row top bottom => ?_, ?_⟩
  · obtain mem | mem := List.mem_append.1 mem
    · refine mergeRun_still_holds (fun rc there touch => ?_) (inv.held old mem)
      have := next there touch
      omega
    · rw [List.mem_singleton.1 mem]
      refine mergeRun_holds rects r fun rc there touch => ?_
      have := next there touch
      have := (inv.inside rc there).1
      omega
  · obtain old | rfl | ⟨rc, there, touch, rfl⟩ := mem_mergeRun mem
    · exact inv.inside rc old
    · exact ⟨le_rfl, fits.1, fits.2.1, fits.2.2⟩
    · have := next there touch
      have := inv.inside rc there
      dsimp only
      omega
  · have new : r ∈ runs ++ [r] := List.mem_append_right _ (List.mem_singleton_self _)
    obtain old | rfl | ⟨rc, there, touch, rfl⟩ := mem_mergeRun mem
    · obtain ⟨run, mem, same, holds⟩ := inv.tight rc old row top bottom
      exact ⟨run, List.mem_append_left _ mem, same, holds⟩
    · exact ⟨r, new, le_antisymm top bottom, le_rfl, le_rfl, le_rfl, le_rfl⟩
    · dsimp only at top bottom
      have below := next there touch
      by_cases last : row = r.row
      · exact ⟨r, new, last.symm, by dsimp only; omega, le_rfl, Nat.min_le_right _ _,
          Nat.le_max_right _ _⟩
      · obtain ⟨run, mem, same, rowTop, rowBottom, left, right⟩ :=
          inv.tight rc there row top (by omega)
        exact ⟨run, List.mem_append_left _ mem, same, rowTop, by dsimp only; omega,
          (Nat.min_le_left _ _).trans left, right.trans (Nat.le_max_left _ _)⟩
  · have := length_mergeRun_le rects r
    have := inv.count
    rw [List.length_append, List.length_singleton]
    omega

/-- Merging keeps all runs, and adds no row without one. -/
theorem mergeRuns_spec {cw ch : ℕ} (small : ch < 2 ^ 32) {runs : List MaskRun}
    (fits : ∀ r ∈ runs, r.row < ch ∧ r.x0 ≤ r.x1 ∧ r.x1 < cw) :
    MergeInv cw ch runs (mergeRuns runs) := by
  -- The list is taken from its end, so that a merge is the last step.
  induction runs using List.reverseRecOn with
  | nil => exact ⟨by simp, by simp [mergeRuns], by simp [mergeRuns], le_rfl⟩
  | append_singleton runs r ih =>
    rw [mergeRuns, List.foldl_append]
    exact (ih fun r mem => fits r (List.mem_append_left _ mem)).step small
      (fits r (List.mem_append_right _ (List.mem_singleton_self _)))

/-! ## Pixels -/

section

variable {size stride : ℕ}

theorem lt_cellCount_iff (pos : 0 < stride) (small : size + stride < 2 ^ 31) {i : ℕ} :
    i < cellCount size stride ↔ i * stride < size := by
  rw [cellCount, u32_of_lt (by omega), ← Nat.succ_le_iff, Nat.le_div_iff_mul_le pos, Nat.succ_mul]
  omega

theorem cellStart_eq {i : ℕ} (small : size + stride < 2 ^ 31) (inside : i * stride < size) :
    cellStart stride i = i * stride := u32_of_lt (by omega)

theorem cellEnd_eq {i : ℕ} (small : size + stride < 2 ^ 31) (inside : i * stride < size) :
    cellEnd size stride i = min ((i + 1) * stride) size := by
  rw [cellEnd, cellStart_eq small inside, u32_of_lt (by omega), Nat.succ_mul]

theorem mem_square {p i : ℕ} (pos : 0 < stride) (small : size + stride < 2 ^ 31)
    (inside : i * stride < size) :
    p ∈ List.range' (cellStart stride i) (cellEnd size stride i - cellStart stride i) ↔
      p < size ∧ p / stride = i := by
  have next : (i + 1) * stride = i * stride + stride := Nat.succ_mul i stride
  rw [List.mem_range'_1, cellStart_eq small inside, cellEnd_eq small inside, Nat.div_eq_iff pos]
  omega

end

section

variable {mask : List UInt8} {fw fh stride : ℕ}

theorem occupied_iff (pos : 0 < stride) (smallW : fw + stride < 2 ^ 31)
    (smallH : fh + stride < 2 ^ 31) {cx cy : ℕ} (inW : cx * stride < fw) (inH : cy * stride < fh) :
    occupied mask fw fh stride cy cx = true ↔
      ∃ x y, (x < fw ∧ x / stride = cx) ∧ (y < fh ∧ y / stride = cy) ∧
        maskAt mask fw x y = true := by
  simp only [occupied, List.any_eq_true, mem_square pos smallW inW, mem_square pos smallH inH]
  constructor
  · rintro ⟨y, inY, x, inX, set⟩
    exact ⟨x, y, inX, inY, set⟩
  · rintro ⟨x, y, inX, inY, set⟩
    exact ⟨y, inY, x, inX, set⟩

end

theorem cellExtent_eq {size stride i j : ℕ} (pos : 0 < stride) (small : size + stride < 2 ^ 31)
    (le : i ≤ j) (inside : j * stride < size) :
    i * stride + cellExtent size stride i j = min ((j + 1) * stride) size ∧
      0 < cellExtent size stride i j := by
  have start : i * stride ≤ j * stride := Nat.mul_le_mul_right _ le
  have next : (j + 1) * stride = j * stride + stride := Nat.succ_mul j stride
  have few : j ≤ j * stride := Nat.le_mul_of_pos_right j pos
  rw [cellExtent, cellStart_eq small (by omega), u32_of_lt (n := j + 1) (by omega),
    u32_of_lt (n := (j + 1) * stride) (by omega), u32]
  omega

theorem toInt32_eq {size stride i : ℕ} (small : size + stride < 2 ^ 31) (inside : i * stride < size) :
    toInt32 (cellStart stride i) = (i * stride : ℕ) := by
  rw [cellStart_eq small inside, toInt32, u32_of_lt (by omega), if_pos (by omega)]

def MosaicCell.Has (c : MosaicCell) (x y : ℕ) : Prop :=
  c.x ≤ x ∧ (x : ℤ) < c.x + c.w ∧ c.y ≤ y ∧ (y : ℤ) < c.y + c.h

/-- The number of maximal horizontal runs of occupied squares. -/
def runCount (fw fh stride : ℕ) : ℕ :=
  ((List.range (cellCount fh stride)).map fun cy =>
    (List.range (cellCount fw stride)).countP (isRunStart (occupied mask fw fh stride cy))).sum

section

variable {mask : List UInt8} {fw fh stride : ℕ}

theorem allRuns_length (cw ch : ℕ) : (allRuns occ cw ch).length =
      ((List.range ch).map fun cy => (List.range cw).countP (isRunStart (occ cy))).sum := by
  simp only [allRuns, List.length_flatMap, (rowRuns_spec _ _ _).2.2]

theorem allRuns_fit (cw ch : ℕ) :
    ∀ r ∈ allRuns occ cw ch, (r.row < ch ∧ r.x0 ≤ r.x1 ∧ r.x1 < cw) ∧ occ r.row r.x0 = true := by
  intro r mem
  obtain ⟨cy, cy_lt, mem⟩ := List.mem_flatMap.1 mem
  obtain ⟨rfl, le, lt, occupied⟩ := (rowRuns_spec (occ cy) cw cy).1 r mem
  exact ⟨⟨List.mem_range.1 cy_lt, le, lt⟩, occupied⟩

theorem rectCell_has (pos : 0 < stride) (smallW : fw + stride < 2 ^ 31)
    (smallH : fh + stride < 2 ^ 31) {rc : MaskRect}
    (inside : rc.row0 ≤ rc.row1 ∧ rc.row1 < cellCount fh stride ∧ rc.x0 ≤ rc.x1 ∧
      rc.x1 < cellCount fw stride) {x y : ℕ} (x_lt : x < fw) (y_lt : y < fh) :
    (rectCell fw fh stride rc).Has x y ↔
      (rc.x0 ≤ x / stride ∧ x / stride ≤ rc.x1) ∧ rc.row0 ≤ y / stride ∧ y / stride ≤ rc.row1 := by
  obtain ⟨rows, lastRow, cols, lastCol⟩ := inside
  rw [lt_cellCount_iff pos smallH] at lastRow
  rw [lt_cellCount_iff pos smallW] at lastCol
  have firstRow : rc.row0 * stride ≤ rc.row1 * stride := Nat.mul_le_mul_right _ rows
  have firstCol : rc.x0 * stride ≤ rc.x1 * stride := Nat.mul_le_mul_right _ cols
  have width := (cellExtent_eq pos smallW cols lastCol).1
  have height := (cellExtent_eq pos smallH rows lastRow).1
  have upto (p j : ℕ) : p / stride ≤ j ↔ p < (j + 1) * stride := by
    rw [← Nat.lt_succ_iff, Nat.div_lt_iff_lt_mul pos]
  rw [MosaicCell.Has, rectCell, toInt32_eq smallW (by omega), toInt32_eq smallH (by omega),
    Nat.le_div_iff_mul_le pos, Nat.le_div_iff_mul_le pos, upto, upto]
  dsimp only
  omega

end

/-- With a cell per run, the cells cover the mask, are inside the frame, and have a masked pixel in
each row of squares. -/
theorem mosaic_covers_mask (mask : List UInt8) (fw fh stride maxCells : ℕ) (fw_pos : 0 < fw)
    (fh_pos : 0 < fh) (pos : 0 < stride) (smallW : fw + stride < 2 ^ 31)
    (smallH : fh + stride < 2 ^ 31) (room : runCount mask fw fh stride ≤ maxCells) :
    (∀ x < fw, ∀ y < fh, maskAt mask fw x y = true →
      ∃ c ∈ buildMosaicCells mask fw fh stride maxCells, c.Has x y) ∧
    ∀ c ∈ buildMosaicCells mask fw fh stride maxCells,
      (0 ≤ c.x ∧ 0 < c.w ∧ c.x + c.w ≤ fw ∧ 0 ≤ c.y ∧ 0 < c.h ∧ c.y + c.h ≤ fh) ∧
      ∀ k : ℕ, c.y ≤ (k * stride : ℕ) → ((k * stride : ℕ) : ℤ) < c.y + c.h →
        ∃ x y, y / stride = k ∧ c.Has x y ∧ maskAt mask fw x y = true := by
  have fits := allRuns_fit (occupied mask fw fh stride) (cellCount fw stride) (cellCount fh stride)
  have countSmall : cellCount fh stride < 2 ^ 32 := by
    rw [cellCount, u32]
    exact (Nat.div_le_self _ _).trans_lt (Nat.mod_lt _ (by omega))
  have merged := mergeRuns_spec countSmall fun r mem => (fits r mem).1
  have enough := merged.count
  rw [allRuns_length] at enough
  have cells : buildMosaicCells mask fw fh stride maxCells =
      (mergeRuns (allRuns (occupied mask fw fh stride) (cellCount fw stride)
        (cellCount fh stride))).map (rectCell fw fh stride) := by
    rw [buildMosaicCells, if_neg (by omega)]
    dsimp only
    rw [List.take_of_length_le (enough.trans room)]
  rw [cells]
  refine ⟨fun x x_lt y y_lt set => ?_, fun c mem => ?_⟩
  · have col : x / stride * stride < fw := (Nat.div_mul_le_self x stride).trans_lt x_lt
    have row : y / stride * stride < fh := (Nat.div_mul_le_self y stride).trans_lt y_lt
    have here := (occupied_iff pos smallW smallH col row).2 ⟨x, y, ⟨x_lt, rfl⟩, ⟨y_lt, rfl⟩, set⟩
    obtain ⟨r, inRow, left, right⟩ := (rowRuns_spec (occupied mask fw fh stride (y / stride))
      (cellCount fw stride) (y / stride)).2.1 _ ((lt_cellCount_iff pos smallW).2 col) here
    have sameRow := ((rowRuns_spec _ _ _).1 r inRow).1
    obtain ⟨rc, there, top, bottom, begins, ends⟩ := merged.held r (List.mem_flatMap.2
      ⟨_, List.mem_range.2 ((lt_cellCount_iff pos smallH).2 row), inRow⟩)
    refine ⟨_, List.mem_map_of_mem there, ?_⟩
    rw [rectCell_has pos smallW smallH (merged.inside rc there) x_lt y_lt]
    omega
  · obtain ⟨rc, there, rfl⟩ := List.mem_map.1 mem
    have inside := merged.inside rc there
    obtain ⟨rows, lastRow, cols, lastCol⟩ := inside
    rw [lt_cellCount_iff pos smallH] at lastRow
    rw [lt_cellCount_iff pos smallW] at lastCol
    have firstRow : rc.row0 * stride ≤ rc.row1 * stride := Nat.mul_le_mul_right _ rows
    have firstCol : rc.x0 * stride ≤ rc.x1 * stride := Nat.mul_le_mul_right _ cols
    have width := cellExtent_eq pos smallW cols lastCol
    have height := cellExtent_eq pos smallH rows lastRow
    have left := toInt32_eq (i := rc.x0) smallW (by omega)
    have top := toInt32_eq (i := rc.row0) smallH (by omega)
    refine ⟨?_, fun k above below => ?_⟩
    · simp only [rectCell, left, top]
      omega
    · simp only [rectCell, top] at above below
      have first : rc.row0 ≤ k := Nat.le_of_mul_le_mul_right (by omega) pos
      have last : k < rc.row1 + 1 := Nat.lt_of_mul_lt_mul_right (a := stride) (by omega)
      obtain ⟨r, inRuns, rfl, -, -, begins, ends⟩ := merged.tight rc there k first (by omega)
      obtain ⟨⟨row_lt, le, x1_lt⟩, occ⟩ := fits r inRuns
      obtain ⟨x, y, ⟨x_lt, sameCol⟩, ⟨y_lt, same⟩, set⟩ := (occupied_iff pos smallW smallH
        ((lt_cellCount_iff pos smallW).1 (by omega)) ((lt_cellCount_iff pos smallH).1 row_lt)).1 occ
      refine ⟨x, y, same, ?_, set⟩
      rw [rectCell_has pos smallW smallH (merged.inside rc there) x_lt y_lt]
      omega

def sampleMask : List UInt8 := [1, 0, 0, 0, 0, 0, 0, 0, 0, 0, 0, 1]

example : buildMosaicCells sampleMask 4 3 2 2 = [⟨0, 0, 4, 3⟩] := by decide +kernel

theorem mosaic_covers_corner : ∃ c ∈ buildMosaicCells sampleMask 4 3 2 2, c.Has 3 2 :=
  (mosaic_covers_mask sampleMask 4 3 2 2 (by decide) (by decide) (by decide) (by decide) (by decide)
    (by decide +kernel)).1 3 (by decide) 2 (by decide) rfl

end NeoRuntime.CameraDaemon
