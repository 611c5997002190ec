import Mathlib.Algebra.BigOperators.Group.List.Basic
import Mathlib.Algebra.Group.Nat.Even
import Mathlib.Data.List.Perm.Basic
import NeoRuntime.CameraDaemon.Dsp.Retention

/-!
# The retention ledger

The order list, the footprint and the number of parked buffers agree with the queues, and the
footprint stays under the cap (`Ledger`).  The chunks that are kept alive do so too if every queue
has chunks of one size (`retention_ledger`); otherwise only the first chunk is credited
(`chunk_not_credited`).
-/

namespace NeoRuntime.CameraDaemon.Dsp

structure Books (s : Retention) : Prop where
  nodup : s.order.Nodup
  listed : ∀ g, g ∈ s.order ↔ g ∈ s.parked
  filled : ∀ g q, s.parked.lookup g = some q → q.bufs ≠ []
  footprint : s.footprint = ((Dict.values s.parked).map (·.addedChunk)).sum
  count : s.retentionParked = ((Dict.values s.parked).map (·.bufs.length)).sum

section Books

variable {s s' : Retention} {g : Geometry} {q : ParkedQueue}

theorem sum_values_of_lookup (f : ParkedQueue → ℕ) (found : s.parked.lookup g = some q) :
    ((Dict.values s.parked).map f).sum = f q + ((Dict.values (s.parked.erase g)).map f).sum := by
  rw [((Dict.values_perm_of_lookup found).map f).sum_eq, List.map_cons, List.sum_cons]

theorem Books.remove (books : Books s) (found : s.parked.lookup g = some q)
    (parked : s'.parked = s.parked.erase g) (order : s'.order = s.order.erase g)
    (footprint : s'.footprint = s.footprint - q.addedChunk)
    (count : s'.retentionParked = s.retentionParked - q.bufs.length) : Books s' where
  nodup := by
    rw [order]
    exact books.nodup.erase g
  listed g' := by
    rw [order, parked, books.nodup.mem_erase_iff, AList.mem_erase, books.listed]
  filled g' q' found' := by
    rw [parked] at found'
    by_cases same : g' = g
    · rw [same, AList.lookup_erase] at found'
      exact absurd found' (Option.some_ne_none q').symm
    · exact books.filled g' q' (by rwa [AList.lookup_erase_ne same] at found')
  footprint := by
    rw [footprint, parked, books.footprint, sum_values_of_lookup _ found, Nat.add_sub_cancel_left]
  count := by
    rw [count, parked, books.count, sum_values_of_lookup _ found, Nat.add_sub_cancel_left]

theorem Books.replace (books : Books s) (found : s.parked.lookup g = some q) (q' : ParkedQueue)
    (filled : q'.bufs ≠ []) (added : q'.addedChunk = q.addedChunk)
    (parked : s'.parked = s.parked.insert g q') (order : s'.order = s.order)
    (footprint : s'.footprint = s.footprint)
    (count : s'.retentionParked + q.bufs.length = s.retentionParked + q'.bufs.length) : Books s' where
  nodup := order ▸ books.nodup
  listed g' := by
    rw [order, parked, AList.mem_insert, books.listed]
    refine ⟨.inr, fun mem => mem.elim (fun same => ?_) id⟩
    rw [same, ← AList.lookup_isSome, found]
    rfl
  filled g' q'' found' := by
    rw [parked] at found'
    by_cases same : g' = g
    · rw [same, AList.lookup_insert] at found'
      obtain rfl := Option.some.inj found'
      exact filled
    · exact books.filled g' q'' (by rwa [AList.lookup_insert_ne same] at found')
  footprint := by
    rw [footprint, parked, books.footprint, sum_values_of_lookup _ found, Dict.values_insert,
      List.map_cons, List.sum_cons, added]
  count := by
    rw [parked, Dict.values_insert, List.map_cons, List.sum_cons]
    have before := books.count
    rw [sum_values_of_lookup _ found] at before
    omega

theorem Books.add (books : Books s) (missing : s.parked.lookup g = none) (filled : q.bufs ≠ [])
    (parked : s'.parked = s.parked.insert g q) (order : s'.order = s.order ++ [g])
    (footprint : s'.footprint = s.footprint + q.addedChunk)
    (count : s'.retentionParked = s.retentionParked + q.bufs.length) : Books s' where
  nodup := by
    have new : g ∉ s.order := by
      rw [books.listed, ← AList.lookup_eq_none, missing]
    rw [order]
    exact List.nodup_append.2 ⟨books.nodup, List.nodup_singleton g, fun a mem b last same =>
      new (List.mem_singleton.1 last ▸ same ▸ mem)⟩
  listed g' := by
    rw [order, parked, AList.mem_insert, List.mem_append, List.mem_singleton, books.listed, or_comm]
  filled g' q' found := by
    rw [parked] at found
    by_cases same : g' = g
    · rw [same, AList.lookup_insert] at found
      obtain rfl := Option.some.inj found
      exact filled
    · exact books.filled g' q' (by rwa [AList.lookup_insert_ne same] at found)
  footprint := by
    rw [footprint, parked, Dict.values_insert, Dict.values_erase_of_lookup missing, List.map_cons,
      List.sum_cons, books.footprint, Nat.add_comm]
  count := by
    rw [count, parked, Dict.values_insert, Dict.values_erase_of_lookup missing, List.map_cons,
      List.sum_cons, books.count, Nat.add_comm]

theorem Books.same (books : Books s) (parked : s'.parked = s.parked) (order : s'.order = s.order)
    (footprint : s'.footprint = s.footprint) (count : s'.retentionParked = s.retentionParked) :
    Books s' where
  nodup := order ▸ books.nodup
  listed := by
    rw [order, parked]
    exact books.listed
  filled := by
    rw [parked]
    exact books.filled
  footprint := by rw [footprint, parked, books.footprint]
  count := by rw [count, parked, books.count]

end Books

/-! ## Eviction -/

variable {s : Retention}

theorem Books.footprint_eq_zero (books : Books s) (none : s.order = []) : s.footprint = 0 := by
  have keys : s.parked.keys = [] := List.eq_nil_iff_forall_not_mem.2 fun g mem => by
    have listed := (books.listed g).2 mem
    simp [none] at listed
  have entries : s.parked.entries = [] := List.map_eq_nil_iff.1 keys
  simp [books.footprint, Dict.values, entries]

theorem evictGeometry_order (s : Retention) (victim : Geometry) :
    (evictGeometry s victim).order = s.order := by
  unfold evictGeometry
  cases s.parked.lookup victim with
  | none => rfl
  | some q => dsimp only; split_ifs <;> rfl

theorem Books.evictGeometry {victim : Geometry} {rest : List Geometry}
    (books : Books s) (front : s.order = victim :: rest) :
    Books (evictGeometry { s with order := rest } victim) := by
  obtain ⟨q, found⟩ := Option.isSome_iff_exists.1
    (AList.lookup_isSome.2 ((books.listed victim).1 (by simp [front])))
  simp only [Dsp.evictGeometry, found]
  rw [if_neg (by simpa using books.filled victim q found)]
  exact books.remove found rfl (by simp [front]) rfl rfl

theorem Books.evict {cap : ℕ} : ∀ (fuel : ℕ) {s : Retention}, Books s → s.order.length ≤ fuel →
    Books (evict cap fuel s) ∧ (evict cap fuel s).footprint ≤ cap
  | 0, s, books, enough => by
    have none : s.order = [] := List.eq_nil_of_length_eq_zero (Nat.le_zero.1 enough)
    refine ⟨books, ?_⟩
    rw [Dsp.evict, books.footprint_eq_zero none]
    exact Nat.zero_le cap
  | fuel + 1, s, books, enough => by
    rw [Dsp.evict]
    split_ifs with fits
    · exact ⟨books, fits⟩
    · cases front : s.order with
      | nil =>
        rw [books.footprint_eq_zero front] at fits
        exact absurd (Nat.zero_le cap) fits
      | cons victim rest =>
        refine Books.evict fuel (books.evictGeometry front) ?_
        rw [evictGeometry_order]
        rw [front, List.length_cons] at enough
        exact Nat.le_of_succ_le_succ enough

/-! ## Reuse and expiry -/

section Leaving

variable {s s' : Retention} {g : Geometry} {q : ParkedQueue}

theorem Books.setQueue (books : Books s) (found : s.parked.lookup g = some q)
    {rest : List ParkedBuffer} (dead : List ParkedBuffer)
    (split : q.bufs.length = dead.length + rest.length) (parked : s'.parked = s.parked)
    (order : s'.order = s.order) (footprint : s'.footprint = s.footprint)
    (count : s'.retentionParked = s.retentionParked - dead.length) : Books (setQueue s' g q rest) := by
  have counted : q.bufs.length ≤ s.retentionParked := by
    rw [books.count, sum_values_of_lookup _ found]
    exact Nat.le_add_right _ _
  unfold Dsp.setQueue
  split_ifs with none
  · have gone : rest = [] := List.isEmpty_iff.1 none
    refine books.remove found ?_ ?_ ?_ ?_
    · simp [endResidency, parked]
    · simp [endResidency, order]
    · simp [endResidency, footprint]
    · simp [endResidency, count, split, gone]
  · refine books.replace found { q with bufs := rest } (by simpa using none) rfl ?_ order
      footprint ?_
    · simp [parked]
    · simp only [count]
      omega

theorem length_takeWhile_add (p : ParkedBuffer → Bool) (bufs : List ParkedBuffer) :
    bufs.length = (bufs.takeWhile p).length + (bufs.dropWhile p).length := by
  rw [← List.length_append, List.takeWhile_append_dropWhile]

theorem Books.takeParked (books : Books s) (now : ℕ) : Books (takeParked s g now).1 := by
  unfold Dsp.takeParked
  cases found : s.parked.lookup g with
  | none => exact books
  | some q =>
    dsimp only
    rw [if_neg (by simpa using books.filled g q found)]
    have split := length_takeWhile_add (·.isExpired now) q.bufs
    cases left : q.bufs.dropWhile (·.isExpired now) with
    | nil =>
      rw [left] at split
      exact books.setQueue found _ split rfl rfl rfl rfl
    | cons buf rest =>
      rw [left] at split
      refine books.setQueue found (q.bufs.takeWhile (·.isExpired now) ++ [buf]) ?_ rfl rfl rfl ?_
      · simp only [List.length_append, List.length_cons, List.length_nil] at split ⊢
        omega
      · simp only [List.length_append, List.length_cons, List.length_nil]
        omega

def countExpired (s : Retention) (dead : List ParkedBuffer) : Retention :=
  { s with
    retentionReleases := s.retentionReleases + dead.length
    retentionParked := s.retentionParked - dead.length }

/-- A queue that is not empty becomes empty only by expiry. -/
theorem sweepGeometry_eq {acc : Retention × List ℕ} (found : acc.1.parked.lookup g = some q)
    (filled : q.bufs ≠ []) (now : ℕ) :
    sweepGeometry now acc g =
      (setQueue (countExpired acc.1 (q.bufs.takeWhile (·.isExpired now))) g q
        (q.bufs.dropWhile (·.isExpired now)), acc.2 ++ (q.bufs.takeWhile (·.isExpired now)).map (·.fb)) := by
  simp only [sweepGeometry, found, Dsp.setQueue, countExpired]
  cases none : (q.bufs.dropWhile (·.isExpired now)).isEmpty with
  | true =>
    have split := length_takeWhile_add (·.isExpired now) q.bufs
    rw [List.isEmpty_iff.1 none, List.length_nil, Nat.add_zero] at split
    have some_ : (q.bufs.takeWhile (·.isExpired now)).isEmpty = false := by
      rw [List.isEmpty_eq_false_iff]
      exact List.length_pos_iff.1 (split ▸ List.length_pos_iff.2 filled)
    rw [some_]
    rfl
  | false => rfl

theorem Books.sweepGeometry {acc : Retention × List ℕ} (books : Books acc.1) (now : ℕ) :
    Books (sweepGeometry now acc g).1 := by
  cases found : acc.1.parked.lookup g with
  | none => simpa only [Dsp.sweepGeometry, found] using books
  | some q =>
    rw [sweepGeometry_eq found (books.filled g q found)]
    exact books.setQueue found _ (length_takeWhile_add (·.isExpired now) q.bufs) rfl rfl rfl rfl

theorem Books.sweepParked (books : Books s) (now : ℕ) : Books (sweepParked s now).1 :=
  foldl_inv (fun acc : Retention × List ℕ => Books acc.1) (fun _ _ books => books.sweepGeometry now)
    books s.parked.keys

end Leaving

theorem setQueue_footprint (s : Retention) (g : Geometry) (q : ParkedQueue) (rest : List ParkedBuffer) :
    (setQueue s g q rest).footprint ≤ s.footprint := by
  unfold setQueue
  split_ifs
  · exact Nat.sub_le _ _
  · exact le_rfl

theorem takeParked_footprint (s : Retention) (g : Geometry) (now : ℕ) :
    (takeParked s g now).1.footprint ≤ s.footprint := by
  unfold takeParked
  cases s.parked.lookup g with
  | none => exact le_rfl
  | some q =>
    dsimp only
    split_ifs
    · exact le_rfl
    · cases q.bufs.dropWhile (·.isExpired now) <;> exact setQueue_footprint _ _ _ _

theorem sweepParked_footprint (books : Books s) (now : ℕ) :
    (sweepParked s now).1.footprint ≤ s.footprint := by
  refine (foldl_inv (fun acc : Retention × List ℕ => Books acc.1 ∧ acc.1.footprint ≤ s.footprint)
    (fun acc g kept => ⟨kept.1.sweepGeometry now, ?_⟩) ⟨books, le_rfl⟩ s.parked.keys).2
  cases found : acc.1.parked.lookup g with
  | none => simpa only [sweepGeometry, found] using kept.2
  | some q =>
    rw [sweepGeometry_eq found (kept.1.filled g q found)]
    exact (setQueue_footprint _ _ _ _).trans kept.2

/-! ## The ledger -/

/-- The books agree with the queues, and the credited chunks fit. -/
structure Ledger (cfg : RetentionConfig) (s : Retention) : Prop extends Books s where
  fits : s.footprint ≤ cfg.poolRetentionMaxBytes

theorem ledger_empty (cfg : RetentionConfig) : Ledger cfg .empty where
  nodup := List.nodup_nil
  listed g := by simp [Retention.empty]
  filled g q found := by simp [Retention.empty] at found
  footprint := rfl
  count := rfl
  fits := Nat.zero_le _

section Ledger

variable {cfg : RetentionConfig} {s : Retention}

theorem Ledger.parkOrFree (ledger : Ledger cfg s) (bound : cfg.poolRetentionMaxBytes < 2 ^ 63)
    (g : Geometry) (fb chunkBytes now : ℕ) : Ledger cfg (parkOrFree cfg s g fb chunkBytes now) := by
  unfold Dsp.parkOrFree
  split_ifs with parks
  · suffices books : Books (addParked s g ⟨fb, now + cfg.poolRetentionMs, chunkBytes⟩) by
      obtain ⟨kept, fits⟩ := books.evict _ le_rfl
      exact ⟨kept, fits⟩
    unfold addParked
    cases found : s.parked.lookup g with
    | none =>
      refine ledger.add found (by simp) rfl rfl ?_ rfl
      have fits := ledger.fits
      have chunk := parks.2.2.2
      refine Nat.mod_eq_of_lt ?_
      dsimp only
      omega
    | some q =>
      refine ledger.replace found { q with bufs := q.bufs ++ [_] } (by simp) rfl rfl rfl rfl ?_
      simp only [List.length_append, List.length_cons, List.length_nil]
      omega
  · exact ⟨ledger.same rfl rfl rfl rfl, ledger.fits⟩

theorem length_parkedFbs (s : Retention) :
    s.parkedFbs.length = ((Dict.values s.parked).map (·.bufs.length)).sum := by
  simp [Retention.parkedFbs, List.length_flatMap]

theorem flushParked_parked (s : Retention) : (flushParked s).1.parked = ∅ := by
  unfold flushParked
  dsimp only
  split_ifs <;> rfl

theorem Ledger.flush (ledger : Ledger cfg s) : Ledger cfg (flushParked s).1 := by
  have none : (flushParked s).1.parked = ∅ ∧ (flushParked s).1.order = [] ∧
      (flushParked s).1.footprint = 0 ∧ (flushParked s).1.retentionParked = 0 := by
    unfold flushParked
    dsimp only
    split_ifs with empty
    · refine ⟨rfl, rfl, rfl, ?_⟩
      dsimp only
      rw [ledger.count, ← length_parkedFbs, List.isEmpty_iff.1 empty, List.length_nil]
    · exact ⟨rfl, rfl, rfl, rfl⟩
  obtain ⟨parked, order, footprint, count⟩ := none
  have empty := ledger_empty cfg
  exact ⟨empty.same parked order footprint count, footprint.trans_le (Nat.zero_le _)⟩

theorem Ledger.step (ledger : Ledger cfg s) (bound : cfg.poolRetentionMaxBytes < 2 ^ 63)
    (event : RetentionEvent) : Ledger cfg (retentionStep cfg s event).1 := by
  cases event with
  | start => exact ⟨ledger.same rfl rfl rfl rfl, ledger.fits⟩
  | halt => exact ⟨ledger.same rfl rfl rfl rfl, ledger.fits⟩
  | park g fb chunkBytes now => exact ledger.parkOrFree bound g fb chunkBytes now
  | take g now => exact ⟨ledger.takeParked now, (takeParked_footprint s g now).trans ledger.fits⟩
  | sweep now =>
    exact ⟨ledger.sweepParked now, (sweepParked_footprint ledger.toBooks now).trans ledger.fits⟩
  | flush => exact ledger.flush

end Ledger

/-! ## The chunks that are kept alive -/

def Retention.aliveChunks (s : Retention) : List (Geometry × ℕ) :=
  (s.parked.entries.flatMap fun e => e.2.bufs.map fun buf => (e.1, buf.chunkBytes)).dedup

def Retention.aliveBytes (s : Retention) : ℕ := (s.aliveChunks.map (·.2)).sum

/-- The buffers of every queue come from chunks of the size that was credited. -/
def Uniform (s : Retention) : Prop :=
  ∀ g q, s.parked.lookup g = some q → ∀ buf ∈ q.bufs, buf.chunkBytes = q.addedChunk

/-- Then every queue keeps one chunk alive. -/
theorem Uniform.aliveChunks_perm (uniform : Uniform s) (books : Books s) :
    s.aliveChunks.Perm (s.parked.entries.map fun e => (e.1, e.2.addedChunk)) := by
  have lookup : ∀ e ∈ s.parked.entries, s.parked.lookup e.1 = some e.2 :=
    fun e mem => AList.mem_lookup_iff.2 mem
  refine (List.perm_ext_iff_of_nodup (List.nodup_dedup _) ?_).2 fun x => ?_
  · refine List.Nodup.of_map Prod.fst ?_
    rw [List.map_map]
    exact s.parked.nodupKeys
  · simp only [List.mem_dedup, List.mem_flatMap, List.mem_map]
    constructor
    · rintro ⟨e, mem, buf, inQueue, rfl⟩
      exact ⟨e, mem, by rw [uniform e.1 e.2 (lookup e mem) buf inQueue]⟩
    · rintro ⟨e, mem, rfl⟩
      obtain ⟨buf, inQueue⟩ := List.exists_mem_of_ne_nil _ (books.filled e.1 e.2 (lookup e mem))
      exact ⟨e, mem, buf, inQueue, by rw [uniform e.1 e.2 (lookup e mem) buf inQueue]⟩

theorem Uniform.aliveBytes_eq (uniform : Uniform s) (books : Books s) :
    s.aliveBytes = s.footprint := by
  rw [Retention.aliveBytes, ((uniform.aliveChunks_perm books).map _).sum_eq, books.footprint,
    Dict.values, List.map_map, List.map_map]
  rfl

/-- Buffers and geometries have left, and none has come. -/
def Shrinks (s s' : Retention) : Prop :=
  ∀ g q', s'.parked.lookup g = some q' →
    ∃ q, s.parked.lookup g = some q ∧ q'.addedChunk = q.addedChunk ∧ q'.bufs ⊆ q.bufs

section Shrinks

variable {s s' : Retention}

theorem Shrinks.same (parked : s'.parked = s.parked) : Shrinks s s' := fun _ q' found =>
  ⟨q', parked ▸ found, rfl, List.Subset.refl _⟩

theorem Shrinks.trans {s'' : Retention} (first : Shrinks s s') (second : Shrinks s' s'') :
    Shrinks s s'' := by
  intro g q'' found
  obtain ⟨q', found', added', subset'⟩ := second g q'' found
  obtain ⟨q, found, added, subset⟩ := first g q' found'
  exact ⟨q, found, added'.trans added, List.Subset.trans subset' subset⟩

theorem Shrinks.uniform (shrinks : Shrinks s s') (uniform : Uniform s) : Uniform s' := by
  intro g q' found buf mem
  obtain ⟨q, before, added, subset⟩ := shrinks g q' found
  rw [uniform g q before buf (subset mem), added]

theorem Shrinks.erase {g : Geometry} (parked : s'.parked = s.parked.erase g) : Shrinks s s' := by
  intro g' q' found
  rw [parked] at found
  by_cases same : g' = g
  · rw [same, AList.lookup_erase] at found
    exact absurd found (Option.some_ne_none q').symm
  · exact ⟨q', by rwa [AList.lookup_erase_ne same] at found, rfl, List.Subset.refl _⟩

theorem Shrinks.setQueue {g : Geometry} {q : ParkedQueue} {rest : List ParkedBuffer}
    (found : s.parked.lookup g = some q) (subset : rest ⊆ q.bufs) (parked : s'.parked = s.parked) :
    Shrinks s (setQueue s' g q rest) := by
  unfold Dsp.setQueue
  split_ifs
  · exact Shrinks.erase (g := g) (by simp [endResidency, parked])
  · intro g' q' found'
    rw [parked] at found'
    by_cases same : g' = g
    · rw [same, AList.lookup_insert] at found'
      obtain rfl := Option.some.inj found'
      exact ⟨q, same ▸ found, rfl, subset⟩
    · exact ⟨q', by rwa [AList.lookup_insert_ne same] at found', rfl, List.Subset.refl _⟩

theorem shrinks_evictGeometry (s : Retention) (victim : Geometry) :
    Shrinks s (evictGeometry s victim) := by
  unfold evictGeometry
  cases s.parked.lookup victim with
  | none => exact Shrinks.same rfl
  | some q => dsimp only; split_ifs <;> exact Shrinks.erase rfl

theorem shrinks_evict (cap : ℕ) : ∀ (fuel : ℕ) (s : Retention), Shrinks s (evict cap fuel s)
  | 0, s => Shrinks.same rfl
  | fuel + 1, s => by
    rw [evict]
    split_ifs
    · exact Shrinks.same rfl
    · cases s.order with
      | nil => exact Shrinks.same rfl
      | cons victim rest =>
        have first : Shrinks s { s with order := rest } := Shrinks.same rfl
        exact (first.trans (shrinks_evictGeometry _ victim)).trans (shrinks_evict cap fuel _)

theorem shrinks_takeParked (s : Retention) (g : Geometry) (now : ℕ) :
    Shrinks s (takeParked s g now).1 := by
  unfold takeParked
  cases found : s.parked.lookup g with
  | none => exact Shrinks.same rfl
  | some q =>
    dsimp only
    split_ifs
    · exact Shrinks.same rfl
    · have subset := (List.dropWhile_suffix (l := q.bufs) (·.isExpired now)).subset
      cases left : q.bufs.dropWhile (·.isExpired now) with
      | nil => exact Shrinks.setQueue found (by simp) rfl
      | cons buf rest =>
        rw [left] at subset
        exact Shrinks.setQueue found (List.Subset.trans (List.subset_cons_self _ _) subset) rfl

theorem shrinks_sweepParked (books : Books s) (now : ℕ) : Shrinks s (sweepParked s now).1 := by
  refine (foldl_inv (fun acc : Retention × List ℕ => Books acc.1 ∧ Shrinks s acc.1)
    (fun acc g kept => ⟨kept.1.sweepGeometry now, kept.2.trans ?_⟩)
    ⟨books, Shrinks.same rfl⟩ s.parked.keys).2
  cases found : acc.1.parked.lookup g with
  | none => simpa only [sweepGeometry, found] using Shrinks.same rfl
  | some q =>
    rw [sweepGeometry_eq found (kept.1.filled g q found)]
    exact Shrinks.setQueue found (List.dropWhile_suffix _).subset rfl

end Shrinks

/-- Buffers are parked in a queue only from chunks of the size that was credited. -/
def OneChunk (cfg : RetentionConfig) (s : Retention) : RetentionEvent → Prop
  | .park g _ chunkBytes _ =>
    Parks cfg s chunkBytes → ∀ q ∈ s.parked.lookup g, q.addedChunk = chunkBytes
  | _ => True

instance (cfg : RetentionConfig) (s : Retention) (event : RetentionEvent) :
    Decidable (OneChunk cfg s event) := by
  cases event <;> unfold OneChunk <;> infer_instance

theorem Uniform.addParked {g : Geometry} {buf : ParkedBuffer} (uniform : Uniform s)
    (one : ∀ q ∈ s.parked.lookup g, q.addedChunk = buf.chunkBytes) : Uniform (addParked s g buf) := by
  unfold Dsp.addParked
  cases found : s.parked.lookup g with
  | none =>
    intro g' q' found' buf' mem
    dsimp only at found'
    by_cases same : g' = g
    · rw [same, AList.lookup_insert] at found'
      obtain rfl := Option.some.inj found'
      rw [List.mem_singleton.1 mem]
    · exact uniform g' q' (by rwa [AList.lookup_insert_ne same] at found') buf' mem
  | some q =>
    intro g' q' found' buf' mem
    dsimp only at found'
    by_cases same : g' = g
    · rw [same, AList.lookup_insert] at found'
      obtain rfl := Option.some.inj found'
      obtain old | new := List.mem_append.1 mem
      · exact uniform g q found buf' old
      · rw [List.mem_singleton.1 new, one q found]
    · exact uniform g' q' (by rwa [AList.lookup_insert_ne same] at found') buf' mem

theorem Uniform.step {cfg : RetentionConfig} (uniform : Uniform s) (books : Books s)
    (event : RetentionEvent) (one : OneChunk cfg s event) : Uniform (retentionStep cfg s event).1 := by
  cases event with
  | start => exact (Shrinks.same rfl).uniform uniform
  | halt => exact (Shrinks.same rfl).uniform uniform
  | take g now => exact (shrinks_takeParked s g now).uniform uniform
  | sweep now => exact (shrinks_sweepParked books now).uniform uniform
  | flush =>
    intro g q found
    rw [retentionStep, flushParked_parked, AList.lookup_empty] at found
    exact absurd found (Option.some_ne_none q).symm
  | park g fb chunkBytes now =>
    simp only [retentionStep, parkOrFree]
    split_ifs with parks
    · exact (shrinks_evict _ _ _).uniform (uniform.addParked (one parks))
    · exact (Shrinks.same rfl).uniform uniform

/-- The books are right, and so is what is kept alive if every queue has one size of chunk. -/
theorem retention_ledger (cfg : RetentionConfig) (bound : cfg.poolRetentionMaxBytes < 2 ^ 63)
    (events : List RetentionEvent) :
    let s := (runLog (retentionStep cfg) .empty events).1
    Ledger cfg s ∧ (AlongLog (retentionStep cfg) (OneChunk cfg) .empty events →
      s.aliveBytes ≤ cfg.poolRetentionMaxBytes) := by
  intro s
  have ledger : Ledger cfg s :=
    runLog_inv (Ledger cfg) (fun s event ledger => ledger.step bound event) (ledger_empty cfg) events
  refine ⟨ledger, fun along => ?_⟩
  have uniform : Ledger cfg s ∧ Uniform s := along.inv (fun s => Ledger cfg s ∧ Uniform s)
    (fun s event kept one => ⟨kept.1.step bound event, kept.2.step kept.1.toBooks event one⟩)
    ⟨ledger_empty cfg, fun g q found => by simp [Retention.empty] at found⟩
  rw [uniform.2.aliveBytes_eq ledger.toBooks]
  exact ledger.fits

/-- Two geometries that together do not fit: the first one is evicted. -/
theorem retention_ledger_evicts : Ledger ⟨50, 100⟩ (runLog (retentionStep ⟨50, 100⟩) .empty
      [.start, .park (16, 16, 0) 1 60 0, .park (32, 32, 0) 2 70 10]).1 ∧
    (runLog (retentionStep ⟨50, 100⟩) .empty
      [.start, .park (16, 16, 0) 1 60 0, .park (32, 32, 0) 2 70 10]).1.aliveBytes ≤ 100 :=
  ⟨(retention_ledger ⟨50, 100⟩ (by decide) _).1,
    (retention_ledger ⟨50, 100⟩ (by decide) _).2 (by decide +kernel)⟩

/-- A buffer from a larger chunk joins a queue: 130 bytes are kept alive and 60 are credited. -/
theorem chunk_not_credited :
    let s := (runLog (retentionStep ⟨50, 100⟩) .empty
      [.start, .park (16, 16, 0) 1 60 0, .park (16, 16, 0) 2 70 10]).1
    s.footprint = 60 ∧ s.aliveBytes = 130 ∧ ¬ s.aliveBytes ≤ 100 := by
  decide +kernel

end NeoRuntime.CameraDaemon.Dsp
