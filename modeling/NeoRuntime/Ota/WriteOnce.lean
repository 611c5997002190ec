import NeoRuntime.Ota.FlashProof

/-!
# Chunks written to erased flash

A sequence of chunks that continue each other, followed by a flush, leaves the bytes of all chunks
in the flash, at any start address and for any split (`chunks_written`).  A start inside a double
word leaves its mask incomplete, so it waits in the cache until a write goes past it.  No double
word is programmed twice (`Once`).
-/

namespace NeoRuntime.Ota.Flash

/-! ## The double words that are programmed -/

namespace Traced

/-- The chunks are written one after the other, then the cache is flushed; with the results of the
calls. -/
def writeAll : Traced → UInt32 → List (List UInt8) → List Bool × Traced
  | t, addr, [] =>
      let (ok, t) := t.write addr []
      ([ok], t)
  | t, addr, chunk :: chunks =>
      let (ok, t) := t.write addr chunk
      let (oks, t) := t.writeAll (addr + UInt32.ofNat chunk.length) chunks
      (ok :: oks, t)

/-- No double word was programmed twice, since none that was is still erased. -/
structure Once (t : Traced) : Prop where
  nodup : t.programmed.Nodup
  written : ∀ w ∈ t.programmed, w % 8 = 0 ∧ ∃ j : Fin 8, t.flash.doubleWord w j ≠ erasedByte
  cached : ∀ c ∈ t.flash.cache, c.addr % 8 = 0

namespace Once

variable {t : Traced}

theorem setCache (once : Once t) {cache : Option DwCache} (aligned : ∀ c ∈ cache, c.addr % 8 = 0) :
    Once (t.setCache cache) :=
  ⟨once.nodup, once.written, aligned⟩

theorem programDoubleWord (once : Once t) {addr : ℕ} (aligned : addr % 8 = 0) {desired : DoubleWord}
    (ok : (t.programDoubleWord addr desired).1 = true) : Once (t.programDoubleWord addr desired).2 := by
  simp only [Traced.programDoubleWord, halProgram] at ok ⊢
  by_cases same : t.flash.doubleWord addr = desired
  · rwa [if_pos same]
  by_cases raised : ∃ j, t.flash.doubleWord addr j &&& desired j ≠ desired j
  · simp [same, raised] at ok
  by_cases erased : ∀ j, t.flash.doubleWord addr j = erasedByte
  · rw [if_neg same, if_neg raised, if_pos erased]
    have fresh : addr ∉ t.programmed := by
      intro member
      obtain ⟨-, j, kept⟩ := once.written addr member
      exact kept (erased j)
    refine ⟨List.nodup_cons.mpr ⟨fresh, once.nodup⟩, fun w member => ?_, once.cached⟩
    obtain rfl | member := List.mem_cons.mp member
    · obtain ⟨j, differs⟩ := Function.ne_iff.mp same
      refine ⟨aligned, j, ?_⟩
      rw [erased] at differs
      simp only [doubleWord, store]
      rw [dif_pos (by omega)]
      simpa using Ne.symm differs
    · obtain ⟨words, j, kept⟩ := once.written w member
      have apart : w ≠ addr := fun here => fresh (here ▸ member)
      refine ⟨words, j, ?_⟩
      change store t.flash.mem addr desired (w + j) ≠ erasedByte
      rw [store_apart (by omega)]
      exact kept
  · simp [same, raised, erased] at ok

theorem flush (once : Once t) (ok : t.flush.1 = true) : Once t.flush.2 := by
  revert ok
  rw [Traced.flush]
  split
  · exact fun _ => once
  · next c cached =>
    intro ok
    exact (once.programDoubleWord (once.cached c cached) ok).setCache (by simp)

theorem programLoop {addr stop lastDw : ℕ} {data : List UInt8} {rounds cur : ℕ} (once : Once t)
    (aligned : cur % 8 = 0)
    (ok : (Traced.programLoop addr stop lastDw data rounds cur t).1 = true) :
    Once (Traced.programLoop addr stop lastDw data rounds cur t).2 := by
  induction rounds generalizing cur t with
  | zero => exact once
  | succ rounds ih =>
    revert ok
    rw [Traced.programLoop]
    split
    · exact ih (once.setCache (by simpa using aligned)) (by omega)
    · dsimp only
      split
      · next programmed =>
        have now := once.programDoubleWord aligned programmed
        refine ih (now.setCache fun c kept => ?_) (by omega)
        exact now.cached c (Option.filter_eq_some_iff.mp kept).1
      · intro ok
        cases ok

theorem write (once : Once t) {addr : UInt32} {data : List UInt8}
    (ok : (t.write addr data).1 = true) : Once (t.write addr data).2 := by
  have aligned : (alignDown addr 8).toNat % 8 = 0 := by
    rw [alignDown_toNat addr (by decide), show (8 : UInt32).toNat = 8 from rfl]
    omega
  revert ok
  simp only [Traced.write, programBytes]
  split
  · exact once.flush
  · split
    · split
      · next flushed => exact (once.flush flushed).programLoop aligned
      · intro ok
        cases ok
    · exact once.programLoop aligned

end Once

end Traced

/-! ## Streams that begin inside a double word -/

section Padded

variable {mem : ℕ → UInt8} {start word limit off : ℕ} {bytes data : List UInt8} {addr : UInt32}
  {t : Traced}

/-- The bytes of a stream, after the erased bytes of its first double word. -/
def padded (off : ℕ) (bytes : List UInt8) : List UInt8 := List.replicate off erasedByte ++ bytes

def begun (mem : ℕ → UInt8) (word off : ℕ) (bytes : List UInt8) : Flash where
  mem := mem
  cache :=
    if bytes = [] then none
    else
      some { addr := word
             buf := fun j => ((padded off bytes)[(j : ℕ)]?).getD erasedByte
             mask := fun j => off ≤ j ∧ j < off + bytes.length }

theorem length_padded (off : ℕ) (bytes : List UInt8) :
    (padded off bytes).length = off + bytes.length := by
  rw [padded, List.length_append, List.length_replicate]

theorem padded_append (off : ℕ) (bytes data : List UInt8) :
    padded off (bytes ++ data) = padded off bytes ++ data := by
  simp only [padded, List.append_assoc]

theorem put_padded (erased : ∀ a, word ≤ a → a < word + off → mem a = erasedByte) :
    put mem word (padded off bytes) = put mem (word + off) bytes := by
  funext a
  simp only [put, padded, List.getElem?_append, List.length_replicate, List.getElem?_replicate]
  by_cases before : a < word
  · rw [if_neg (by omega), if_neg (by omega)]
  by_cases inside : a < word + off
  · rw [if_pos (by omega), if_pos (by omega), if_pos (by omega), if_neg (by omega),
      erased a (by omega) inside]
    rfl
  · rw [if_pos (by omega), if_neg (by omega), if_pos (by omega),
      show a - word - off = a - (word + off) by omega]

section

variable (blank : Blank mem word limit)

include blank

theorem doubleWord_begun (room : 8 ≤ limit) (j : Fin 8) :
    (begun mem word off bytes).doubleWord word j = erasedByte :=
  blank.erased _ (by omega) (by omega)

theorem base_begun (room : 8 ≤ limit) : (begun mem word off bytes).base word =
      (fun j : Fin 8 => ((padded off bytes)[(j : ℕ)]?).getD erasedByte,
        fun j : Fin 8 => decide (off ≤ j ∧ j < off + bytes.length)) := by
  by_cases empty : bytes = []
  · have none : (begun mem word off bytes).cache = none := if_pos empty
    simp only [base, none, Prod.mk.injEq]
    refine ⟨funext fun j => ?_, funext fun j => ?_⟩
    · rw [doubleWord_begun blank room, empty, padded, List.append_nil, List.getElem?_replicate]
      split <;> rfl
    · simp only [empty, List.length_nil, false_eq_decide_iff]
      omega
  · simp [base, begun, empty]

theorem desired_begun (room : 8 ≤ limit) :
    (begun mem word off bytes).desired (word + (off + bytes.length))
        (word + (off + (bytes ++ data).length)) data word =
      fun j : Fin 8 => ((padded off (bytes ++ data))[(j : ℕ)]?).getD erasedByte := by
  funext j
  simp only [desired, base_begun blank room, given, padded_append, List.length_append]
  split
  · next new =>
    simp only [decide_eq_true_eq] at new
    rw [List.getElem?_append_right (by rw [length_padded]; omega), length_padded,
      List.getD_eq_getElem?_getD, List.getElem?_eq_getElem (by omega),
      List.getElem?_eq_getElem (by omega)]
    simp only [Option.getD_some, show word + (j : ℕ) - (word + (off + bytes.length)) =
      j - (off + bytes.length) by omega]
  · next old =>
    simp only [decide_eq_true_eq, not_and_or] at old
    by_cases before : (j : ℕ) < off + bytes.length
    · rw [List.getElem?_append_left (by rwa [length_padded])]
    · rw [List.getElem?_eq_none (by rw [length_padded]; omega),
        List.getElem?_eq_none (by rw [List.length_append, length_padded]; omega)]

theorem mask_begun (room : 8 ≤ limit) :
    (begun mem word off bytes).mask (word + (off + bytes.length))
        (word + (off + (bytes ++ data).length)) word =
      fun j : Fin 8 => decide (off ≤ j ∧ j < off + (bytes ++ data).length) := by
  funext j
  simp only [mask, base_begun blank room, given, List.length_append]
  rw [← Bool.decide_or, decide_eq_decide]
  omega

theorem store_begun (room : 8 ≤ limit) (bytes : List UInt8) :
    store mem word (fun j : Fin 8 => (bytes[(j : ℕ)]?).getD erasedByte) =
      put mem word (bytes.take 8) := by
  have first : store (midway mem word bytes 0 0).mem _ _ = _ := store_midway blank (by omega)
  have nothing : (midway mem word bytes 0 0).mem = mem := put_nil mem word
  simpa [nothing] using first

omit blank in
theorem notPassed_begun (now : t.flash = begun mem word off bytes) :
    (t.flash.cache.any fun c => decide (word > c.addr)) = false := by
  simp only [now, begun]
  split <;> simp

/-- The first double word is programmed, from the cache or by a write that goes past it. -/
theorem programDoubleWord_begun (room : 8 ≤ limit) (now : t.flash = begun mem word off bytes)
    (all : List UInt8) :
    untraced (t.programDoubleWord word fun j : Fin 8 => (all[(j : ℕ)]?).getD erasedByte) =
      (true, { t.flash with mem := put mem word (all.take 8) }) := by
  rw [programDoubleWord_erased (by rw [now]; exact doubleWord_begun blank room),
    ← store_begun blank room, now]
  rfl

theorem write_begun_inside (below : word + limit < 2 ^ 32)
    (room : 8 ≤ limit) (aligned : word % 8 = 0) (inner : 0 < off) (some : data ≠ [])
    (inside : off + (bytes ++ data).length ≤ 8) (next : addr.toNat = word + (off + bytes.length))
    (now : t.flash = begun mem word off bytes) :
    untraced (t.write addr data) = (true, begun mem word off (bytes ++ data)) := by
  have pos : 0 < data.length := List.length_pos_of_ne_nil some
  rw [List.length_append] at inside
  have first : (word + (off + bytes.length)) / 8 * 8 = word := by omega
  have stop : word + (off + bytes.length) + data.length = word + (off + (bytes ++ data).length) := by
    rw [List.length_append]
    omega
  have last : (word + (off + (bytes ++ data).length) - 1) / 8 * 8 = word := by
    rw [List.length_append]
    omega
  have rounds : (word + (off + (bytes ++ data).length) - word + 7) / 8 = 1 := by
    rw [List.length_append]
    omega
  rw [write_eq some (by omega)]
  simp only [next, first, stop, last, rounds, notPassed_begun now, Bool.false_eq_true, if_false, if_true]
  -- byte 0 is not of the stream, so the mask is not full
  have waits : word = word ∧ ¬ ∀ j, (begun mem word off bytes).mask (word + (off + bytes.length))
      (word + (off + (bytes ++ data).length)) word j := by
    refine ⟨rfl, fun full => ?_⟩
    have first := full 0
    rw [mask_begun blank room, decide_eq_true_eq] at first
    simp only [Fin.val_zero] at first
    omega
  rw [Traced.programLoop, now, if_pos waits, Traced.programLoop, desired_begun blank room,
    mask_begun blank room]
  simp [untraced, Traced.setCache, now, begun, some]

theorem write_begun_past (below : word + limit < 2 ^ 32)
    (aligned : word % 8 = 0) (short : off < 8) (some : data ≠ [])
    (inside : off + bytes.length ≤ 8) (past : 8 < off + (bytes ++ data).length)
    (fits : off + (bytes ++ data).length ≤ limit) (next : addr.toNat = word + (off + bytes.length))
    (now : t.flash = begun mem word off bytes) :
    untraced (t.write addr data) = (true, streamed mem word (padded off (bytes ++ data))) := by
  have pos : 0 < data.length := List.length_pos_of_ne_nil some
  have room : 8 ≤ limit := by omega
  have length := length_padded off (bytes ++ data)
  have stop : word + (off + bytes.length) + data.length =
      word + (padded off (bytes ++ data)).length := by
    rw [length, List.length_append]
    omega
  have last : (word + (padded off (bytes ++ data)).length - 1) / 8 * 8 =
      word + ((padded off (bytes ++ data)).length - 1) / 8 * 8 := by omega
  have rest : (padded off (bytes ++ data)).drop (off + bytes.length) = data := by
    rw [padded_append, List.drop_left' (length_padded off bytes)]
  have uncached : midway mem word (padded off (bytes ++ data)) 1 (off + bytes.length) =
      { mem := put mem word ((padded off (bytes ++ data)).take 8), cache := none } := by
    simp only [midway, if_neg (show ¬ 8 * 1 < off + bytes.length by omega), Nat.mul_one]
  have loop := fun {t : Traced} => programLoop_midway (t := t) (i := 1) (n := off + bytes.length) blank
    (show (padded off (bytes ++ data)).length ≤ limit by omega)
    (by rw [length, List.length_append]; omega) (by omega) (by omega) rfl
  rw [rest, uncached] at loop
  rw [write_eq some (by rw [List.length_append] at fits; omega)]
  simp only [next, stop, last]
  by_cases complete : off + bytes.length = 8
  · -- the first double word is complete, but still cached
    have nonempty : bytes ≠ [] := by
      rintro rfl
      rw [List.length_nil] at complete
      omega
    have first : (word + (off + bytes.length)) / 8 * 8 = word + 8 := by omega
    have cached : (begun mem word off bytes).cache = .some _ := if_neg nonempty
    have whole : (padded off (bytes ++ data)).take 8 = (padded off bytes).take 8 := by
      rw [padded_append, List.take_append_of_le_length (by rw [length_padded]; omega)]
    obtain ⟨ok, flash⟩ := Prod.mk.inj (programDoubleWord_begun blank room now (padded off bytes))
    have flushed : t.flush.1 = true ∧ t.flush.2.flash =
        { mem := put mem word ((padded off (bytes ++ data)).take 8), cache := none } := by
      simp only [Traced.flush, now, cached, ok, Traced.setCache, flash, whole, and_self]
    have passed : (t.flash.cache.any fun c => decide (word + 8 > c.addr)) = true := by
      rw [now, cached]
      simp
    have rounds : (word + (padded off (bytes ++ data)).length - (word + 8) + 7) / 8 =
        ((padded off (bytes ++ data)).length - 8 * 1 + 7) / 8 := by omega
    simp only [first, passed, if_true, flushed.1, rounds]
    exact loop flushed.2
  · have first : (word + (off + bytes.length)) / 8 * 8 = word := by omega
    obtain ⟨rounds, more⟩ : ∃ rounds, (word + (padded off (bytes ++ data)).length - word + 7) / 8 =
        rounds + 1 := ⟨_, (Nat.succ_pred_eq_of_pos (by omega)).symm⟩
    simp only [first, notPassed_begun now, more, Bool.false_eq_true, if_false, if_true]
    simp only [Traced.programLoop, now]
    have onward : ¬ (word = word + ((padded off (bytes ++ data)).length - 1) / 8 * 8 ∧
        ¬ ∀ j, (begun mem word off bytes).mask (word + (off + bytes.length))
          (word + (padded off (bytes ++ data)).length) word j) := by omega
    obtain ⟨ok, flash⟩ :=
      Prod.mk.inj (programDoubleWord_begun blank room now (padded off (bytes ++ data)))
    rw [if_neg onward, length, desired_begun blank room, if_pos ok,
      show rounds = ((padded off (bytes ++ data)).length - 8 * 1 + 7) / 8 by omega, ← length]
    refine loop ?_
    simp only [Traced.dropCached, Traced.setCache, flash, now, begun]
    split <;> simp

end

/-- The flash after `bytes` have been written from any start. -/
def progress (mem : ℕ → UInt8) (start : ℕ) (bytes : List UInt8) : Flash :=
  if start % 8 = 0 then streamed mem start bytes
  else if start % 8 + bytes.length ≤ 8 then begun mem (start / 8 * 8) (start % 8) bytes
  else streamed mem (start / 8 * 8) (padded (start % 8) bytes)

/-- The area of a stream: erased double words below the end of the address space. -/
structure Area (mem : ℕ → UInt8) (start size : ℕ) : Prop where
  blank : Blank mem (start / 8 * 8) ((start % 8 + size + 7) / 8 * 8)
  below : (start + size + 7) / 8 * 8 < 2 ^ 32

theorem Area.mono {size' : ℕ} (area : Area mem start size) (le : size' ≤ size) :
    Area mem start size' where
  blank := ⟨fun a above inside => area.blank.erased a above (by omega), by omega⟩
  below := by have := area.below; omega

theorem write_progress (area : Area mem start (bytes ++ data).length) (some : data ≠ [])
    (next : addr.toNat = start + bytes.length) (now : t.flash = progress mem start bytes) :
    untraced (t.write addr data) = (true, progress mem start (bytes ++ data)) := by
  have below := area.below
  have blank := area.blank
  have longer : (bytes ++ data).length = bytes.length + data.length := List.length_append
  by_cases aligned : start % 8 = 0
  · simp only [progress, if_pos aligned] at now ⊢
    rw [show start / 8 * 8 = start by omega] at blank
    exact traced_write_streamed blank (by omega) aligned some (by omega) next now
  simp only [progress, if_neg aligned] at now ⊢
  by_cases inside : start % 8 + bytes.length ≤ 8
  · rw [if_pos inside] at now
    have next : addr.toNat = start / 8 * 8 + (start % 8 + bytes.length) := by omega
    by_cases still : start % 8 + (bytes ++ data).length ≤ 8
    · rw [if_pos still]
      exact write_begun_inside blank (by omega) (by omega) (by omega) (by omega) some still next now
    · rw [if_neg still]
      exact write_begun_past blank (by omega) (by omega) (by omega) some inside (by omega) (by omega)
        next now
  · rw [if_neg inside] at now
    rw [if_neg (by omega), padded_append]
    refine traced_write_streamed blank (by omega) (by omega) some ?_ ?_ now
    · rw [length_padded]
      omega
    · rw [length_padded]
      omega

theorem flush_progress (area : Area mem start bytes.length)
    (now : t.flash = progress mem start bytes) :
    untraced t.flush = (true, { mem := put mem start bytes, cache := none }) := by
  have blank := area.blank
  have pads : put mem (start / 8 * 8) (padded (start % 8) bytes) = put mem start bytes := by
    rw [put_padded fun a above inside => blank.erased a above (by omega),
      show start / 8 * 8 + start % 8 = start by omega]
  by_cases aligned : start % 8 = 0
  · rw [progress, if_pos aligned] at now
    rw [show start / 8 * 8 = start by omega] at blank
    exact flush_streamed blank (by omega) now
  rw [progress, if_neg aligned] at now
  by_cases inside : start % 8 + bytes.length ≤ 8
  · rw [if_pos inside] at now
    by_cases empty : bytes = []
    · have uncached : (begun mem (start / 8 * 8) (start % 8) bytes).cache = none := if_pos empty
      simp only [Traced.flush, now, uncached, untraced]
      rw [empty, put_nil, begun, if_pos rfl]
    · have cached : (begun mem (start / 8 * 8) (start % 8) bytes).cache = some _ := if_neg empty
      obtain ⟨ok, flash⟩ :=
        Prod.mk.inj (programDoubleWord_begun blank (by omega) now (padded (start % 8) bytes))
      rw [List.take_of_length_le (by rw [length_padded]; exact inside), pads] at flash
      simp only [Traced.flush, now, cached, untraced, ok, Traced.setCache, flash]
  · rw [if_neg inside] at now
    rw [flush_streamed blank (by rw [length_padded]; omega) now, pads]

theorem writeAll_progress {chunks : List (List UInt8)} {t : Traced}
    (area : Area mem start (bytes ++ chunks.flatten).length) (nonempty : ∀ chunk ∈ chunks, chunk ≠ [])
    (now : t.flash = progress mem start bytes) (once : t.Once)
    (next : addr.toNat = start + bytes.length) :
    (∀ ok ∈ (t.writeAll addr chunks).1, ok = true) ∧
    (t.writeAll addr chunks).2.flash = { mem := put mem start (bytes ++ chunks.flatten), cache := none } ∧
    (t.writeAll addr chunks).2.Once := by
  induction chunks generalizing bytes t addr with
  | nil =>
    rw [List.flatten_nil, List.append_nil] at area ⊢
    have result := Prod.mk.inj ((congrArg untraced (traced_write_nil t addr)).trans
      (flush_progress area now))
    exact ⟨by simpa [Traced.writeAll] using result.1, result.2, once.write result.1⟩
  | cons chunk chunks ih =>
    rw [List.flatten_cons, ← List.append_assoc] at area ⊢
    have first : Area mem start (bytes ++ chunk).length := area.mono (by simp)
    have some : chunk ≠ [] := nonempty chunk List.mem_cons_self
    have result := Prod.mk.inj (write_progress first some next now)
    have next' : (addr + UInt32.ofNat chunk.length).toNat = start + (bytes ++ chunk).length := by
      have below := first.below
      rw [List.length_append] at below ⊢
      rw [UInt32.toNat_add, UInt32.toNat_ofNat', next, Nat.mod_eq_of_lt (a := chunk.length) (by omega),
        Nat.mod_eq_of_lt (by omega), Nat.add_assoc]
    obtain ⟨oks, flash, last⟩ := ih area (fun c mem => nonempty c (List.mem_cons_of_mem _ mem)) result.2
      (once.write result.1) next'
    refine ⟨fun ok member => ?_, flash, last⟩
    obtain rfl | member := List.mem_cons.mp member
    · exact result.1
    · exact oks ok member

/-- Chunks written in order into an erased area, and flushed, are in the flash, and no double word
was programmed twice. -/
theorem chunks_written (chunks : List (List UInt8)) (nonempty : ∀ chunk ∈ chunks, chunk ≠ [])
    (area : Area mem addr.toNat chunks.flatten.length) :
    let (oks, t) := Traced.writeAll { flash := { mem, cache := none } } addr chunks
    (∀ ok ∈ oks, ok = true) ∧
    (∀ a, t.flash.mem a =
      if addr.toNat ≤ a then (chunks.flatten[a - addr.toNat]?).getD (mem a) else mem a) ∧
    t.flash.cache = none ∧ t.programmed.Nodup := by
  have start : Flash.mk mem none = progress mem addr.toNat [] := by
    rw [progress]
    split
    · rw [streamed_nil]
    · rw [if_pos (by simp; omega), begun, if_pos rfl]
  obtain ⟨oks, flash, once⟩ := writeAll_progress (t := { flash := { mem, cache := none } })
    (show Area mem _ ([] ++ _ : List UInt8).length by simpa using area) nonempty start ⟨List.nodup_nil, by simp, by simp⟩ rfl
  refine ⟨oks, fun a => ?_, ?_, once.nodup⟩
  · rw [flash]
    rfl
  · rw [flash]

end Padded

/-- Ten bytes in three chunks, from the third byte of a double word on. -/
theorem chunks_written_inner :
    let (oks, t) := Traced.writeAll { flash := { mem := fun _ => erasedByte, cache := none } } 0x08010002
      [[1, 2], [3, 4, 5, 6], [7, 8, 9, 10]]
    (∀ ok ∈ oks, ok = true) ∧
    (∀ a, t.flash.mem a = if 0x08010002 ≤ a then
      ([1, 2, 3, 4, 5, 6, 7, 8, 9, 10][a - 0x08010002]?).getD erasedByte else erasedByte) ∧
    t.flash.cache = none ∧ t.programmed.Nodup :=
  chunks_written [[1, 2], [3, 4, 5, 6], [7, 8, 9, 10]] (by decide)
    ⟨⟨fun _ _ _ => rfl, by decide⟩, by decide⟩

end NeoRuntime.Ota.Flash
