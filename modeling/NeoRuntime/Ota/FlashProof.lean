import NeoRuntime.Ota.Flash
import Mathlib.Tactic.Common
import Mathlib.Algebra.Group.Nat.Defs

/-!
# What the flash functions leave behind

A write touches the double words of its range and the cached one, and no others (`write_within`).  A
write into an erased area that continues where the last one has ended appends its bytes
(`write_streamed`), and a flush completes them (`write_nil_streamed`).
-/

namespace NeoRuntime.Ota

/-! ## Alignment -/

theorem one_le_toNat {a : UInt32} (pos : a ≠ 0) : 1 ≤ a.toNat := by
  rw [Nat.one_le_iff_ne_zero, ne_eq, ← UInt32.toNat_zero, UInt32.toNat_inj]
  exact pos

theorem alignDown_toNat (v : UInt32) {a : UInt32} (pos : a ≠ 0) :
    (alignDown v a).toNat = v.toNat / a.toNat * a.toNat := by
  have le : v.toNat / a.toNat * a.toNat ≤ v.toNat := Nat.div_mul_le_self _ _
  rw [alignDown, if_neg pos, UInt32.toNat_mul, UInt32.toNat_div,
    Nat.mod_eq_of_lt (le.trans_lt v.toNat_lt)]

theorem alignUp_toNat {v a : UInt32} (pos : a ≠ 0) (fits : v.toNat + a.toNat ≤ 2 ^ 32) :
    (alignUp v a).toNat = (v.toNat + a.toNat - 1) / a.toNat * a.toNat := by
  have one := one_le_toNat pos
  have sum : (v + a - 1).toNat = v.toNat + a.toNat - 1 := by
    rw [UInt32.toNat_sub, UInt32.toNat_add, show (1 : UInt32).toNat = 1 from rfl]
    omega
  have le : (v.toNat + a.toNat - 1) / a.toNat * a.toNat ≤ v.toNat + a.toNat - 1 :=
    Nat.div_mul_le_self _ _
  rw [alignUp, if_neg pos, UInt32.toNat_mul, UInt32.toNat_div, sum, Nat.mod_eq_of_lt (by omega)]

theorem alignDown_of_aligned {v a : UInt32} (pos : a ≠ 0) (aligned : v.toNat % a.toNat = 0) :
    alignDown v a = v := by
  rw [← UInt32.toNat_inj, alignDown_toNat v pos]
  exact Nat.div_mul_cancel (Nat.dvd_of_mod_eq_zero aligned)

theorem le_alignUp {v a : UInt32} (pos : a ≠ 0) (fits : v.toNat + a.toNat ≤ 2 ^ 32) :
    v.toNat ≤ (alignUp v a).toNat := by
  have one := one_le_toNat pos
  have div := Nat.div_add_mod' (v.toNat + a.toNat - 1) a.toNat
  have mod := Nat.mod_lt (v.toNat + a.toNat - 1) one
  rw [alignUp_toNat pos fits]
  omega

theorem alignUp_mod {v a : UInt32} (pos : a ≠ 0) (fits : v.toNat + a.toNat ≤ 2 ^ 32) :
    (alignUp v a).toNat % a.toNat = 0 := by
  rw [alignUp_toNat pos fits, Nat.mul_mod_left]

theorem alignUp_le {v a : UInt32} (pos : a ≠ 0) {limit : ℕ} (le : v.toNat ≤ limit)
    (fits : v.toNat + a.toNat ≤ 2 ^ 32) (aligned : limit % a.toNat = 0) :
    (alignUp v a).toNat ≤ limit := by
  have one := one_le_toNat pos
  obtain ⟨k, rfl⟩ := Nat.dvd_of_mod_eq_zero aligned
  have div : (v.toNat + a.toNat - 1) / a.toNat < k + 1 := by
    refine Nat.div_lt_of_lt_mul ?_
    rw [Nat.mul_succ]
    omega
  rw [alignUp_toNat pos fits, Nat.mul_comm]
  exact Nat.mul_le_mul_left _ (Nat.le_of_lt_succ div)

theorem alignUp_of_aligned {v a : UInt32} (pos : a ≠ 0) (fits : v.toNat + a.toNat ≤ 2 ^ 32)
    (aligned : v.toNat % a.toNat = 0) : alignUp v a = v := by
  rw [← UInt32.toNat_inj]
  exact Nat.le_antisymm (alignUp_le pos le_rfl fits aligned) (le_alignUp pos fits)

namespace Flash

/-! ## Which addresses are touched -/

/-- `g` differs from `f` only in double words that satisfy `P`, the cached one included. -/
structure Within (P : ℕ → Prop) (f g : Flash) : Prop where
  mem : ∀ a, (∀ d, P d → a < d ∨ d + 8 ≤ a) → g.mem a = f.mem a
  cache : ∀ c, g.cache = some c → P c.addr

section Frame

variable {P : ℕ → Prop} {f g h : Flash} {t : Traced}

theorem Within.trans (first : Within P f g) (second : Within P g h) : Within P f h where
  mem := fun a apart => (second.mem a apart).trans (first.mem a apart)
  cache := second.cache

theorem Within.of_mem_eq (same : f.mem = g.mem) (touched : Within P g h) : Within P f h where
  mem := fun a apart => same ▸ touched.mem a apart
  cache := touched.cache

theorem store_apart {mem : ℕ → UInt8} {addr a : ℕ} {dw : DoubleWord}
    (apart : a < addr ∨ addr + 8 ≤ a) : store mem addr dw a = mem a := by
  rw [store, dif_neg (by omega)]

namespace Traced

theorem programDoubleWord_within {addr : ℕ} (desired : DoubleWord) (here : P addr)
    (cached : ∀ c, t.flash.cache = some c → P c.addr) :
    Within P t.flash (t.programDoubleWord addr desired).2.flash := by
  unfold programDoubleWord halProgram
  split
  · exact ⟨fun a _ => rfl, cached⟩
  · split
    · exact ⟨fun a _ => rfl, cached⟩
    · dsimp only
      split
      · exact ⟨fun a apart => store_apart (apart addr here), cached⟩
      · exact ⟨fun a _ => rfl, cached⟩

theorem flush_within (cached : ∀ c, t.flash.cache = some c → P c.addr) :
    Within P t.flash t.flush.2.flash := by
  unfold flush
  split
  · exact ⟨fun a _ => rfl, cached⟩
  · next c eq =>
    have touched := programDoubleWord_within c.buf (cached c eq) cached
    exact ⟨touched.mem, by simp [setCache]⟩

theorem programLoop_within {addr stop lastDw : ℕ} {data : List UInt8} {rounds cur : ℕ}
    (range : ∀ k < rounds, P (cur + 8 * k)) (cached : ∀ c, t.flash.cache = some c → P c.addr) :
    Within P t.flash (programLoop addr stop lastDw data rounds cur t).2.flash := by
  induction rounds generalizing cur t with
  | zero => exact ⟨fun a _ => rfl, cached⟩
  | succ rounds ih =>
    have here : P cur := range 0 (Nat.succ_pos rounds)
    have rest : ∀ k < rounds, P (cur + 8 + 8 * k) := by
      intro k lt
      have next := range (k + 1) (Nat.succ_lt_succ lt)
      rwa [Nat.mul_add, Nat.mul_one, Nat.add_comm (8 * k), ← Nat.add_assoc] at next
    simp only [programLoop]
    split
    · refine .of_mem_eq ?_ (ih rest ?_)
      · rfl
      · rintro c ⟨⟩
        exact here
    · have touched := programDoubleWord_within (t.flash.desired addr stop data cur) here cached
      split
      · refine touched.trans (.of_mem_eq ?_ (ih rest ?_))
        · rfl
        · intro c eq
          exact touched.cache c (Option.eq_some_of_filter_eq_some eq)
      · exact touched

theorem programBytes_within {addr : UInt32} {data : List UInt8}
    (range : ∀ k, addr.toNat / 8 * 8 + 8 * k < (addr + UInt32.ofNat data.length).toNat →
      P (addr.toNat / 8 * 8 + 8 * k)) (cached : ∀ c, t.flash.cache = some c → P c.addr) :
    Within P t.flash (t.programBytes addr data).2.flash := by
  have first : (alignDown addr 8).toNat = addr.toNat / 8 * 8 := alignDown_toNat addr (by decide)
  simp only [programBytes, first]
  have flushed : Within P t.flash (if t.flash.cache.any fun c => addr.toNat / 8 * 8 > c.addr then t.flush
      else (true, t)).2.flash := by
    split
    · exact flush_within cached
    · exact ⟨fun a _ => rfl, cached⟩
  generalize (if t.flash.cache.any fun c => addr.toNat / 8 * 8 > c.addr then t.flush
    else (true, t)) = r at flushed ⊢
  split
  · refine flushed.trans (programLoop_within (fun k lt => range k ?_) flushed.cache)
    omega
  · exact flushed

end Traced

theorem write_within {addr : UInt32} {data : List UInt8}
    (range : ∀ k, addr.toNat / 8 * 8 + 8 * k < (addr + UInt32.ofNat data.length).toNat →
      P (addr.toNat / 8 * 8 + 8 * k)) (cached : ∀ c, f.cache = some c → P c.addr) :
    Within P f (f.write addr data).2 := by
  rw [write, untraced, Traced.write]
  split
  · exact Traced.flush_within (t := { flash := f }) cached
  · exact Traced.programBytes_within (t := { flash := f }) range cached

end Frame

theorem erase_of_aligned {page addr size : UInt32} (pos : page ≠ 0) (some : size ≠ 0)
    (start : addr.toNat % page.toNat = 0) (length : size.toNat % page.toNat = 0)
    (fits : size.toNat + page.toNat ≤ 2 ^ 32) (f : Flash) :
    f.erase page addr size =
      { mem := fun a => if addr.toNat ≤ a ∧ a < addr.toNat + size.toNat then erasedByte else f.mem a
        cache := none } := by
  rw [erase, if_neg some, alignDown_of_aligned pos start, alignUp_of_aligned pos fits length]

/-! ## Writing a stream of bytes -/

variable (mem : ℕ → UInt8)

def put (start : ℕ) (bytes : List UInt8) : ℕ → UInt8 := fun a =>
  if start ≤ a then (bytes[a - start]?).getD (mem a) else mem a

/-- The double words before `start + 8 * i` are programmed, and of the next one the bytes before
`start + n` are cached. -/
def midway (start : ℕ) (bytes : List UInt8) (i n : ℕ) : Flash where
  mem := put mem start (bytes.take (8 * i))
  cache :=
    if 8 * i < n then
      some { addr := start + 8 * i
             buf := fun j => ((bytes.take n)[8 * i + j]?).getD erasedByte
             mask := fun j => 8 * i + j < n }
    else none

/-- The flash after `bytes` have been written from `start` on: the whole double words are
programmed, the rest is cached. -/
def streamed (start : ℕ) (bytes : List UInt8) : Flash :=
  midway mem start bytes (bytes.length / 8) bytes.length

section Stream

variable {mem : ℕ → UInt8} {start limit i n : ℕ} {bytes : List UInt8} {t : Traced}

/-- The area of a stream is erased and ends with a whole double word. -/
structure Blank (mem : ℕ → UInt8) (start limit : ℕ) : Prop where
  erased : ∀ a, start ≤ a → a < start + limit → mem a = erasedByte
  words : limit % 8 = 0

variable (blank : Blank mem start limit)

include blank

theorem doubleWord_midway (room : 8 * i + 8 ≤ limit) (j : Fin 8) :
    (midway mem start bytes i n).doubleWord (start + 8 * i) j = erasedByte := by
  have outside : (bytes.take (8 * i))[start + 8 * i + j - start]? = none := by
    rw [List.getElem?_eq_none_iff, List.length_take]
    omega
  simp only [doubleWord, midway, put, outside, Option.getD_none, ite_self]
  exact blank.erased _ (by omega) (by omega)

theorem base_midway (room : 8 * i + 8 ≤ limit) :
    (midway mem start bytes i n).base (start + 8 * i) =
      (fun j : Fin 8 => ((bytes.take n)[8 * i + j]?).getD erasedByte,
        fun j : Fin 8 => decide (8 * i + j < n)) := by
  by_cases pending : 8 * i < n
  · simp [base, midway, pending]
  · have empty : ∀ j : Fin 8, (bytes.take n)[8 * i + j]? = none := by
      intro j
      rw [List.getElem?_eq_none_iff, List.length_take]
      omega
    have none : (midway mem start bytes i n).cache = none := by simp [midway, pending]
    simp only [base, none, Prod.mk.injEq]
    refine ⟨funext fun j => ?_, funext fun j => ?_⟩
    · rw [doubleWord_midway blank room, empty, Option.getD_none]
    · simp only [false_eq_decide_iff]
      omega

theorem desired_midway (room : 8 * i + 8 ≤ limit) (n : ℕ) :
    (midway mem start bytes i n).desired (start + n) (start + bytes.length) (bytes.drop n)
        (start + 8 * i) = fun j : Fin 8 => (bytes[8 * i + j]?).getD erasedByte := by
  funext j
  simp only [desired, base_midway blank room, given]
  split
  · next new =>
    simp only [decide_eq_true_eq] at new
    rw [List.getD_eq_getElem?_getD, List.getElem?_drop,
      show n + (start + 8 * i + j - (start + n)) = 8 * i + j by omega]
    rw [List.getElem?_eq_getElem (by omega)]
    rfl
  · next old =>
    simp only [decide_eq_true_eq, not_and_or] at old
    rw [List.getElem?_take]
    split
    · rfl
    · rw [List.getElem?_eq_none_iff.mpr (by omega)]

theorem mask_midway (room : 8 * i + 8 ≤ limit)
    (le : n ≤ bytes.length) :
    (midway mem start bytes i n).mask (start + n) (start + bytes.length) (start + 8 * i) =
      fun j : Fin 8 => decide (8 * i + j < bytes.length) := by
  funext j
  simp only [mask, base_midway blank room, given]
  rw [← Bool.decide_or, decide_eq_decide]
  omega

omit blank in
theorem erasedByte_and (b : UInt8) : erasedByte &&& b = b :=
  UInt8.eq_of_toBitVec_eq BitVec.allOnes_and

omit blank in
theorem programDoubleWord_erased {addr : ℕ} (erased : ∀ j, t.flash.doubleWord addr j = erasedByte)
    (dw : DoubleWord) :
    untraced (t.programDoubleWord addr dw) =
      (true, { t.flash with mem := store t.flash.mem addr dw }) := by
  unfold Traced.programDoubleWord
  split
  · next same =>
    have stored : store t.flash.mem addr dw = t.flash.mem := by
      funext a
      unfold store
      split
      · next here =>
        rw [← same, doubleWord]
        congr 1
        simp only
        omega
      · rfl
    rw [stored]
    rfl
  · rw [if_neg, Traced.halProgram]
    · dsimp only
      rw [if_pos erased]
      rfl
    · rintro ⟨j, cleared⟩
      exact cleared (by rw [erased, erasedByte_and])

theorem store_midway (room : 8 * i + 8 ≤ limit) :
    store (midway mem start bytes i n).mem (start + 8 * i)
        (fun j : Fin 8 => (bytes[8 * i + j]?).getD erasedByte) =
      put mem start (bytes.take (8 * (i + 1))) := by
  funext a
  change store (put mem start (bytes.take (8 * i))) _ _ a = _
  unfold store
  split
  · next here =>
    rw [put, if_pos (by omega), List.getElem?_take, if_pos (by omega),
      blank.erased a (by omega) (by omega)]
    simp only [show 8 * i + (a - (start + 8 * i)) = a - start by omega]
  · next apart =>
    unfold put
    split
    · next after =>
      rw [List.getElem?_take, List.getElem?_take]
      split
      · rw [if_pos (by omega)]
      · rw [if_neg (by omega)]
    · rfl

theorem programLoop_midway (fits : bytes.length ≤ limit)
    (le : n ≤ bytes.length) (near : n < 8 * i + 8) (within : 8 * i ≤ bytes.length)
    {rounds : ℕ} (enough : rounds = (bytes.length - 8 * i + 7) / 8)
    (now : t.flash = midway mem start bytes i n) :
    untraced (Traced.programLoop (start + n) (start + bytes.length)
        (start + (bytes.length - 1) / 8 * 8) (bytes.drop n) rounds (start + 8 * i) t) =
      (true, streamed mem start bytes) := by
  induction rounds generalizing i t with
  | zero =>
    have all : 8 * i = bytes.length := by omega
    have done : midway mem start bytes i n = streamed mem start bytes := by
      rw [streamed, show bytes.length / 8 = i by omega]
      simp only [midway, if_neg (show ¬ 8 * i < n by omega),
        if_neg (show ¬ 8 * i < bytes.length by omega)]
    rw [Traced.programLoop, untraced, now, done]
  | succ rounds ih =>
    have room : 8 * i + 8 ≤ limit := by
      have := blank.words
      omega
    simp only [Traced.programLoop, now, mask_midway blank room le, desired_midway blank room n,
      decide_eq_true_eq]
    split
    · next last =>
      -- the last double word is incomplete and goes into the cache
      obtain ⟨last, incomplete⟩ := last
      have short : bytes.length < 8 * i + 8 := by
        by_contra long
        exact incomplete fun j => by omega
      obtain rfl : rounds = 0 := by omega
      rw [Traced.programLoop, streamed, show bytes.length / 8 = i by omega]
      simp only [untraced, Traced.setCache, now, midway, if_pos (show 8 * i < bytes.length by omega),
        List.take_length]
    · next complete =>
      have whole : 8 * i + 8 ≤ bytes.length := by
        by_contra short
        refine complete ⟨by omega, fun all => ?_⟩
        have := all 7
        simp at this
        omega
      obtain ⟨ok, flash⟩ := Prod.mk.inj (programDoubleWord_erased (t := t)
        (by rw [now]; exact doubleWord_midway blank room)
        (fun j : Fin 8 => (bytes[8 * i + j]?).getD erasedByte))
      rw [now, store_midway blank room] at flash
      rw [if_pos ok]
      refine ih (i := i + 1) (by omega) (by omega) (by omega) ?_
      have uncached : ¬ 8 * (i + 1) < n := by omega
      simp only [Traced.dropCached, Traced.setCache, flash, midway, uncached, if_false]
      split <;> simp

omit blank in
theorem put_nil (mem : ℕ → UInt8) (start : ℕ) : put mem start [] = mem := by
  funext a
  simp [put]

omit blank in
theorem streamed_nil (mem : ℕ → UInt8) (start : ℕ) :
    streamed mem start [] = { mem := mem, cache := none } := by
  simp [streamed, midway, put_nil]

omit blank in
theorem write_eq {addr : UInt32} {data : List UInt8} (some : data ≠ [])
    (below : addr.toNat + data.length < 2 ^ 32) :
    t.write addr data =
      let firstDw := addr.toNat / 8 * 8
      let stop := addr.toNat + data.length
      let passed : Bool := t.flash.cache.any fun c => firstDw > c.addr
      let (ok, t) := if passed then t.flush else (true, t)
      if ok then
        t.programLoop addr.toNat stop ((stop - 1) / 8 * 8) data ((stop - firstDw + 7) / 8) firstDw
      else (false, t) := by
  have pos : 0 < data.length := List.length_pos_of_ne_nil some
  have size : (UInt32.ofNat data.length).toNat = data.length := by
    rw [UInt32.toNat_ofNat', Nat.mod_eq_of_lt (by omega)]
  have stop : (addr + UInt32.ofNat data.length).toNat = addr.toNat + data.length := by
    rw [UInt32.toNat_add, size, Nat.mod_eq_of_lt (by omega)]
  have first : (alignDown addr 8).toNat = addr.toNat / 8 * 8 := by
    rw [alignDown_toNat addr (by decide), show (8 : UInt32).toNat = 8 from rfl]
  have last : (alignDown (addr + UInt32.ofNat data.length - 1) 8).toNat =
      (addr.toNat + data.length - 1) / 8 * 8 := by
    rw [alignDown_toNat _ (by decide), UInt32.toNat_sub, stop, show (8 : UInt32).toNat = 8 from rfl,
      show (1 : UInt32).toNat = 1 from rfl]
    omega
  have nonzero : UInt32.ofNat data.length ≠ 0 := by
    intro zero
    rw [zero] at size
    exact absurd size.symm pos.ne'
  rw [Traced.write, if_neg nonzero]
  simp only [Traced.programBytes, first, last, stop]

theorem traced_write_streamed (below : start + limit < 2 ^ 32)
    (aligned : start % 8 = 0) {data : List UInt8} (some : data ≠ [])
    (fits : bytes.length + data.length ≤ limit) {addr : UInt32}
    (next : addr.toNat = start + bytes.length) (now : t.flash = streamed mem start bytes) :
    untraced (t.write addr data) = (true, streamed mem start (bytes ++ data)) := by
  have pos : 0 < data.length := List.length_pos_of_ne_nil some
  have first : (start + bytes.length) / 8 * 8 = start + 8 * (bytes.length / 8) := by omega
  have stop : start + bytes.length + data.length = start + (bytes ++ data).length := by
    rw [List.length_append, Nat.add_assoc]
  have last : (start + (bytes ++ data).length - 1) / 8 * 8 =
      start + ((bytes ++ data).length - 1) / 8 * 8 := by
    rw [List.length_append]
    omega
  have same : streamed mem start bytes =
      midway mem start (bytes ++ data) (bytes.length / 8) bytes.length := by
    simp only [streamed, midway, List.take_length, List.take_left]
    rw [List.take_append_of_le_length (Nat.mul_div_le _ _)]
  have notPassed : (t.flash.cache.any fun c =>
      decide (start + 8 * (bytes.length / 8) > c.addr)) = false := by
    simp only [now, streamed, midway]
    split <;> simp
  rw [write_eq some (by omega)]
  simp only [next, first, stop, last, notPassed]
  have rounds : start + (bytes ++ data).length - (start + 8 * (bytes.length / 8)) =
      (bytes ++ data).length - 8 * (bytes.length / 8) := Nat.add_sub_add_left _ _ _
  have loop := programLoop_midway (i := bytes.length / 8) (n := bytes.length) blank
    (show (bytes ++ data).length ≤ limit by rwa [List.length_append]) (by simp) (by omega)
    (by rw [List.length_append]; omega) rfl (now.trans same)
  rw [List.drop_left] at loop
  rw [rounds]
  exact loop

theorem write_streamed (below : start + limit < 2 ^ 32) (aligned : start % 8 = 0)
    {data : List UInt8} (some : data ≠ []) (fits : bytes.length + data.length ≤ limit) {addr : UInt32}
    (next : addr.toNat = start + bytes.length) :
    (streamed mem start bytes).write addr data = (true, streamed mem start (bytes ++ data)) :=
  traced_write_streamed blank below aligned some fits next rfl

omit blank in
theorem traced_write_nil (t : Traced) (addr : UInt32) : t.write addr [] = t.flush := if_pos rfl

theorem flush_streamed (fits : bytes.length ≤ limit) (now : t.flash = streamed mem start bytes) :
    untraced t.flush = (true, { mem := put mem start bytes, cache := none }) := by
  have := blank.words
  by_cases pending : 8 * (bytes.length / 8) < bytes.length
  · have room : 8 * (bytes.length / 8) + 8 ≤ limit := by omega
    have cached : (streamed mem start bytes).cache = some _ := if_pos pending
    obtain ⟨ok, flash⟩ := Prod.mk.inj (programDoubleWord_erased (t := t)
      (by rw [now]; exact doubleWord_midway blank room)
      (fun j : Fin 8 => (bytes[8 * (bytes.length / 8) + j]?).getD erasedByte))
    rw [now, streamed, store_midway blank room, List.take_of_length_le (by omega)] at flash
    simp only [Traced.flush, now, cached, List.take_length, untraced, ok, Traced.setCache, flash]
  · have uncached : (streamed mem start bytes).cache = none := if_neg pending
    simp only [Traced.flush, now, uncached, untraced]
    simp only [streamed, midway, if_neg pending]
    rw [List.take_of_length_le (by omega)]

theorem write_nil_streamed (fits : bytes.length ≤ limit) (addr : UInt32) :
    (streamed mem start bytes).write addr [] = (true, { mem := put mem start bytes, cache := none }) := by
  rw [write, traced_write_nil]
  exact flush_streamed blank fits rfl

end Stream

end Flash

end NeoRuntime.Ota
