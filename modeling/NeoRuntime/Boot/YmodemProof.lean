import NeoRuntime.Boot.Ymodem
import Mathlib.Data.List.Chain

/-!
# The assembly buffers of the Ymodem receiver

A buffer that is not being parsed holds less than one frame.  That is kept by every step but two:
after a data block that is answered with `full_reset` a frame is removed from an empty buffer, and a
chunk that `handle_eot` takes may not fit behind the bytes that are still to be parsed.
`trace_good_iff` is the exact statement.
-/

namespace NeoRuntime.Boot

def maxHeld : ℕ := frameLen ymStx - 1

/-- A `memmove` within the bytes held, a return with less than a frame held. -/
def Event.Good : Event → Prop
  | .memmove len held => 0 ≤ len ∧ len ≤ held
  | .appendReturned held => held ≤ maxHeld
  | .streamOverflow => False

instance : DecidablePred Event.Good := fun e => by
  cases e <;> simp only [Event.Good] <;> infer_instance

section Blocks

variable {ω : Type} (api : OtaApi ω)

open YmodemState

section

variable (s : YmodemState ω)

include s

@[simp] theorem held_setHeld_self (u : Uart) (bytes : List UInt8) :
    (s.setHeld u bytes).held u = bytes := by
  simp [setHeld]

theorem held_setHeld_ne {u v : Uart} (ne : v ≠ u) (bytes : List UInt8) :
    (s.setHeld u bytes).held v = s.held v := by
  simp [setHeld, ne]

@[simp] theorem setHeld_held (u : Uart) : s.setHeld u (s.held u) = s := by
  have same : (fun v => if v = u then s.held u else s.held v) = s.held := by
    funext v
    split
    · next eq => rw [eq]
    · rfl
  simp only [setHeld, same]

@[simp] theorem held_tx (b : UInt8) : (s.tx b).held = s.held := rfl

@[simp] theorem held_sendYmodemCancelOn (u : Uart) : (s.sendYmodemCancelOn u).held = s.held := rfl

@[simp] theorem held_sendYmodemCancel : s.sendYmodemCancel.held = s.held := by
  unfold sendYmodemCancel
  cases s.active <;> rfl

@[simp] theorem held_sendCDiscovery : s.sendCDiscovery.held = s.held := by
  unfold sendCDiscovery
  split <;> rfl

@[simp] theorem held_fullReset : (s.fullReset api).held = fun _ => [] := rfl

theorem held_lockIfFree_self (u : Uart) : (s.lockIfFree u).held u = s.held u := by
  unfold lockIfFree
  split <;> simp [lockPorts]

theorem held_lockIfFree (u v : Uart) :
    (s.lockIfFree u).held v = s.held v ∨ (s.lockIfFree u).held v = [] := by
  by_cases eq : v = u
  · exact .inl (by rw [eq, held_lockIfFree_self])
  · unfold lockIfFree
    split <;> simp [lockPorts, eq]

@[simp] theorem held_appendBody (p : List UInt8) : (appendBody api s p).held = s.held := by
  simp only [appendBody]
  split <;> (try split) <;> (try split) <;> rfl

@[simp] theorem held_appendFilePayload (p : List UInt8) :
    (appendFilePayload api s p).held = s.held := by
  simp only [appendFilePayload]
  split
  · rw [held_appendBody]
  · split
    · rfl
    · split
      · split
        · rw [held_appendBody]
        · rfl
      · rfl

end

/-- The data blocks that are answered with `full_reset`: one out of sequence after 20 refusals, and
one after whose data `s_nak_streak` stands at 20. -/
def Resets (s : YmodemState ω) (seq : UInt8) (payload : List UInt8) : Prop :=
  (seq ≠ s.expectedSeq ∧ seq ≠ s.lastAckedSeq ∧ nakRetries ≤ s.nakStreak) ∨
    (seq = s.expectedSeq ∧ s.inFilenamePhase = false ∧
      nakRetries ≤ (appendFilePayload api s payload).nakStreak)

theorem held_handleDataBlock_of_resets {s : YmodemState ω} {seq : UInt8} {payload : List UInt8}
    (resets : Resets api s seq payload) :
    (handleDataBlock api s seq payload).held = fun _ => [] := by
  obtain ⟨unexpected, fresh, streak⟩ | ⟨expected, phase, streak⟩ := resets
  · have reset : s.nakStreak + 1 > nakRetries := by omega
    simp [handleDataBlock, unexpected, fresh, tx, reset]
  · simp [handleDataBlock, expected, phase, streak]

theorem held_handleDataBlock_of_not_resets {s : YmodemState ω} {seq : UInt8}
    {payload : List UInt8} (kept : ¬ Resets api s seq payload) :
    (handleDataBlock api s seq payload).held = s.held := by
  simp only [Resets, not_or, not_and, Nat.not_le] at kept
  simp only [handleDataBlock]
  split
  · next unexpected =>
    split
    · rfl
    · next fresh =>
      have streak : ¬ s.nakStreak + 1 > nakRetries := by
        have := kept.1 unexpected fresh
        omega
      simp [tx, streak]
  · next expected =>
    split
    · rfl
    · next phase =>
      have streak := kept.2 (not_not.mp expected) (by simpa using phase)
      rw [if_neg (Nat.not_le.mpr streak)]
      simp

end Blocks

/-! ## One round of the parser -/

section Rounds

variable {ω : Type} (api : OtaApi ω)

open YmodemState

def skipNoise (u : Uart) (s : YmodemState ω) : YmodemState ω :=
  s.setHeld u ((s.held u).dropWhile fun b => !isFrameByte b)

def blockState (u : Uart) (s : YmodemState ω) : YmodemState ω :=
  { skipNoise u s with canCount := 0 }.lockIfFree u

def isBlock (s : YmodemState ω) (buf : List UInt8) : Bool :=
  (startOf buf = ymSoh ∨ startOf buf = ymStx) ∧ frameLen (startOf buf) ≤ buf.length ∧
    seqOf buf + nseqOf buf = 255 ∧ crcRxOf buf = ymodemCrc16 (payOf buf) ∧ !isClosing s buf

/-- The next round hands a block to `handle_data_block`, which answers with `full_reset`. -/
def RoundResets (u : Uart) (s : YmodemState ω) : Prop :=
  s.shouldListen u ∧ isBlock s ((skipNoise u s).held u) ∧
    Resets api (blockState u s) (seqOf ((skipNoise u s).held u)) (payOf ((skipNoise u s).held u))

/-- A round without a reset moves in range, returns with less than a frame held, and leaves the
other buffer as it was or empty. -/
structure Round (u : Uart) (before : Uart → List UInt8) (r : YmodemState ω × List Event × Flow) :
    Prop where
  good : ∀ e ∈ r.2.1, e.Good
  done : r.2.2 = .done → (r.1.held u).length ≤ maxHeld
  other : ∀ v, v ≠ u → r.1.held v = before v ∨ r.1.held v = []

variable {s : YmodemState ω} {u : Uart}

theorem good_shift {k : ℕ} (le : k ≤ (s.held u).length) : (shift s u k).2.Good := by
  simp only [shift, Event.Good]
  omega

@[simp] theorem held_shift_ne (s : YmodemState ω) {v : Uart} (ne : v ≠ u) (k : ℕ) :
    (shift s u k).1.held v = s.held v :=
  held_setHeld_ne s ne _

theorem Round.move {before : Uart → List UInt8} {t : YmodemState ω} {k : ℕ}
    (after : YmodemState ω) {flow : Flow} (le : k ≤ (t.held u).length) (on : flow ≠ .done)
    (other : ∀ v, v ≠ u → after.held v = before v ∨ after.held v = []) :
    Round u before (after, [(shift t u k).2], flow) where
  good := by
    intro e mem
    rw [List.mem_singleton] at mem
    rw [mem]
    exact good_shift le
  done := fun eq => absurd eq on
  other := other

theorem frameLen_le (st : UInt8) : frameLen st ≤ maxHeld + 1 := by
  unfold frameLen dataLen
  split <;> decide

theorem round_consumeData
    (start : startOf (s.held u) = ymSoh ∨ startOf (s.held u) = ymStx) (some : s.held u ≠ [])
    (kept : isBlock s (s.held u) → ¬ Resets api (s.lockIfFree u) (seqOf (s.held u)) (payOf (s.held u))) :
    Round u s.held (consumeData api u s) := by
  have pos : 1 ≤ (s.held u).length := List.length_pos_of_ne_nil some
  have short := frameLen_le (startOf (s.held u))
  simp only [consumeData]
  split
  · refine ⟨by simp, fun _ => ?_, fun v _ => .inl rfl⟩
    show (s.held u).length ≤ maxHeld
    omega
  · next long =>
    have whole : frameLen (startOf (s.held u)) ≤ (s.held u).length := Nat.not_lt.mp long
    split
    · exact .move _ pos (by decide) fun v ne => .inl (by simp [ne])
    · next seqOk =>
      split
      · split
        · exact .move _ pos (by decide) fun v ne => .inl (by simp [ne])
        · refine .move _ pos (by decide) fun v ne => ?_
          split
          · exact .inr (by simp)
          · exact .inl (by simp [ne])
      · next crcOk =>
        split
        · refine .move _ (by rwa [held_tx, held_lockIfFree_self]) (by decide) fun v ne => ?_
          simpa [ne] using held_lockIfFree s u v
        · next block =>
          have same := held_handleDataBlock_of_not_resets api (kept (by
            simp only [isBlock, decide_eq_true_eq]
            exact ⟨start, whole, not_not.mp seqOk, not_not.mp crcOk, by simpa using block⟩))
          refine .move _ (by rwa [same, held_lockIfFree_self]) (by decide) fun v ne => ?_
          rw [held_shift_ne _ ne, same]
          exact held_lockIfFree s u v

theorem not_good_consumeData (block : isBlock s (s.held u))
    (resets : Resets api (s.lockIfFree u) (seqOf (s.held u)) (payOf (s.held u))) :
    ¬ ∀ e ∈ (consumeData api u s).2.1, e.Good := by
  simp only [isBlock, decide_eq_true_eq] at block
  obtain ⟨-, whole, seqOk, crcOk, closing⟩ := block
  have moved : (consumeData api u s).2.1 = [(shift (handleDataBlock api (s.lockIfFree u)
      (seqOf (s.held u)) (payOf (s.held u))) u (frameLen (startOf (s.held u)))).2] := by
    simp only [consumeData]
    rw [if_neg (Nat.not_lt.mpr whole), if_neg (not_not.mpr seqOk), if_neg (not_not.mpr crcOk),
      if_neg (by simpa using closing)]
  -- the reset has emptied the buffer from which the frame is now removed
  rw [moved]
  have pos : frameLen (startOf (s.held u)) ≠ 0 := Nat.succ_ne_zero _
  simp [shift, held_handleDataBlock_of_resets api resets, Event.Good, pos]

@[simp] theorem held_handleEot (s : YmodemState ω) : (handleEot s).1.held = s.held := by
  simp only [handleEot]
  split
  · rfl
  · split
    · rfl
    · split
      · rfl
      · rw [held_sendCDiscovery, held_tx]

theorem handleEot_goes_on (s : YmodemState ω) : (handleEot s).2 ≠ .done := by
  simp only [handleEot]
  split <;> (try split) <;> (try split) <;> simp

theorem round_consumeEot (pos : 1 ≤ (s.held u).length) : Round u s.held (consumeEot u s) := by
  simp only [consumeEot]
  split
  · exact .move _ pos (by decide) fun v ne => .inl (held_shift_ne s ne 1)
  · refine .move _ pos (handleEot_goes_on _) fun v ne => .inl ?_
    rw [held_handleEot, held_shift_ne s ne]

theorem round_consumeCan (pos : 1 ≤ (s.held u).length) : Round u s.held (consumeCan api u s) := by
  simp only [consumeCan]
  split
  · exact .move _ pos (by decide) fun v ne => .inl (held_shift_ne s ne 1)
  · refine .move _ pos (by decide) fun v ne => ?_
    split
    · exact .inr (by simp)
    · exact .inl (held_shift_ne _ ne 1)

theorem round_consumeFrame (frame : ∀ b ∈ (s.held u).head?, isFrameByte b)
    (kept : s.shouldListen u → isBlock s (s.held u) →
      ¬ Resets api ({ s with canCount := 0 }.lockIfFree u) (seqOf (s.held u)) (payOf (s.held u))) :
    Round u s.held (consumeFrame api u s) := by
  unfold consumeFrame
  split
  · next empty => exact ⟨by simp, fun _ => by simp [empty], fun v _ => .inl rfl⟩
  · next b rest buf =>
    have pos : 1 ≤ (s.held u).length := by simp [buf]
    split
    · exact ⟨by simp, fun _ => by simp, fun v ne => .inl (held_setHeld_ne s ne [])⟩
    · next here =>
      have listens : s.shouldListen u := by
        simp only [shouldListen, decide_eq_true_eq]
        tauto
      split
      · exact round_consumeCan api pos
      · next notCan =>
        split
        · exact round_consumeEot (s := { s with canCount := 0 }) pos
        · next notEot =>
          have start : b = ymSoh ∨ b = ymStx := by
            have known := frame b (by simp [buf])
            simp only [isFrameByte, decide_eq_true_eq] at known
            tauto
          rw [if_neg (by tauto)]
          refine round_consumeData (s := { s with canCount := 0 }) api ?_ (by simp [buf])
            (kept listens)
          simpa [startOf, buf] using start

theorem not_good_consumeFrame (listens : s.shouldListen u) (block : isBlock s (s.held u))
    (resets : Resets api ({ s with canCount := 0 }.lockIfFree u) (seqOf (s.held u))
      (payOf (s.held u))) :
    ¬ ∀ e ∈ (consumeFrame api u s).2.1, e.Good := by
  have bad := not_good_consumeData (s := { s with canCount := 0 }) api block resets
  simp only [shouldListen, decide_eq_true_eq] at listens
  simp only [isBlock, decide_eq_true_eq] at block
  obtain ⟨start, whole, -⟩ := block
  unfold consumeFrame
  split
  · next empty => simp [empty, frameLen] at whole
  · next b rest buf =>
    simp only [buf, startOf, List.getD_cons_zero] at start
    have notCan : b ≠ ymCan := by
      rintro rfl
      exact absurd start (by decide)
    have notEot : b ≠ ymEot := by
      rintro rfl
      exact absurd start (by decide)
    rwa [if_neg (by tauto), if_neg notCan, if_neg notEot, if_neg (by tauto)]

theorem drop_noise (bytes : List UInt8) :
    bytes.drop (bytes.takeWhile fun b => !isFrameByte b).length =
      bytes.dropWhile fun b => !isFrameByte b := by
  induction bytes with
  | nil => rfl
  | cons b bytes ih => cases frame : isFrameByte b <;> simp [frame, ih]

theorem tryConsumeFrame_eq (u : Uart) (s : YmodemState ω) :
    ∃ noise : List Event, (∀ e ∈ noise, e.Good) ∧ tryConsumeFrame api u s =
      ((consumeFrame api u (skipNoise u s)).1, noise ++ (consumeFrame api u (skipNoise u s)).2.1,
        (consumeFrame api u (skipNoise u s)).2.2) := by
  have skipped : (shift s u ((s.held u).takeWhile fun b => !isFrameByte b).length).1 =
      skipNoise u s := by
    simp only [shift, drop_noise, skipNoise]
  simp only [tryConsumeFrame]
  split
  · next none =>
    rw [none] at skipped
    have same : skipNoise u s = s := by
      rw [← skipped]
      simp [shift]
    exact ⟨[], by simp, by simp [same]⟩
  · refine ⟨[(shift s u _).2], ?_, by rw [skipped]; rfl⟩
    have le := (List.takeWhile_prefix (l := s.held u) fun b => !isFrameByte b).length_le
    simpa using good_shift le

/-- A round that hands no block to a reset. -/
theorem round_tryConsumeFrame (kept : ¬ RoundResets api u s) :
    Round u s.held (tryConsumeFrame api u s) := by
  obtain ⟨noise, noiseGood, eq⟩ := tryConsumeFrame_eq api u s
  have round : Round u (skipNoise u s).held (consumeFrame api u (skipNoise u s)) := by
    refine round_consumeFrame api ?_ fun listens block resets => kept ⟨listens, block, resets⟩
    intro b first
    have stops := List.head?_dropWhile_not (fun b => !isFrameByte b) (s.held u)
    rw [skipNoise, held_setHeld_self, Option.mem_def] at first
    rw [first] at stops
    simpa using stops
  rw [eq]
  refine ⟨?_, round.done, fun v ne => ?_⟩
  · exact List.forall_mem_append.mpr ⟨noiseGood, round.good⟩
  · have same := round.other v ne
    rwa [skipNoise, held_setHeld_ne s ne] at same

theorem not_good_tryConsumeFrame (resets : RoundResets api u s) :
    ¬ ∀ e ∈ (tryConsumeFrame api u s).2.1, e.Good := by
  obtain ⟨noise, -, eq⟩ := tryConsumeFrame_eq api u s
  obtain ⟨listens, block, resets⟩ := resets
  intro good
  rw [eq] at good
  exact not_good_consumeFrame (s := skipNoise u s) api listens block resets
    (List.forall_mem_append.mp good).2

end Rounds

/-! ## Runs -/

section Runs

variable {ω : Type} (api : OtaApi ω)

open YmodemState

/-- `append_stream` returns right after `try_consume_frame` does. -/
def Follows (before after : Task) : Prop := ∀ u, after = .returned u → before = .consume u

/-- Every buffer holds less than a frame or is about to be parsed. -/
structure Framed (held : Uart → List UInt8) (tasks : List Task) : Prop where
  fits : ∀ u, (held u).length ≤ maxHeld ∨ .consume u ∈ tasks
  nested : tasks.IsChain Follows
  settled : ∀ u, .returned u ∈ tasks.head? → (held u).length ≤ maxHeld

variable {held after : Uart → List UInt8} {tasks : List Task}

theorem framed_nil : Framed (fun _ => []) [] where
  fits := fun _ => .inl (Nat.zero_le _)
  nested := .nil
  settled := by simp

theorem Framed.length_le (framed : Framed held []) (u : Uart) : (held u).length ≤ maxHeld := by
  simpa using framed.fits u

theorem Framed.not_returned {task : Task} (framed : Framed held (task :: tasks))
    (other : ∀ u, task ≠ .consume u) (u : Uart) : .returned u ∉ tasks.head? := by
  intro head
  exact other u ((List.isChain_cons.mp framed.nested).1 _ head u rfl)

theorem Framed.pop {task : Task} (framed : Framed held (task :: tasks))
    (other : ∀ u, task ≠ .consume u) (kept : ∀ u, after u = held u ∨ after u = []) :
    Framed after tasks where
  fits := by
    intro u
    obtain same | empty := kept u
    · have fits := framed.fits u
      rw [List.mem_cons, same] at *
      exact fits.imp id fun parsed => parsed.resolve_left (other u).symm
    · exact .inl (by simp [empty])
  nested := framed.nested.tail
  settled := fun u head => absurd head (framed.not_returned other u)

theorem Framed.push (framed : Framed held tasks) (inside : ∀ u, .returned u ∉ tasks.head?)
    {new : List Task} (calls : ∀ t ∈ new, ∀ u, t ≠ .returned u) : Framed held (new ++ tasks) := by
  induction new with
  | nil => exact framed
  | cons t new ih =>
    have rest := ih fun t mem => calls t (List.mem_cons_of_mem _ mem)
    have head : ∀ u, .returned u ∉ (new ++ tasks).head? := by
      cases new with
      | nil => exact inside
      | cons next new =>
        intro u mem
        exact calls next (by simp) u (by simpa using mem)
    refine ⟨fun u => (rest.fits u).imp id (List.mem_cons_of_mem _), ?_, fun u mem => ?_⟩
    · exact List.isChain_cons.mpr ⟨fun next mem u eq => absurd (eq ▸ mem) (head u), rest.nested⟩
    · exact absurd (by simpa using mem) (calls t List.mem_cons_self u)

theorem Framed.parse (framed : Framed held tasks) (inside : ∀ u, .returned u ∉ tasks.head?)
    {u : Uart} (kept : ∀ v, v ≠ u → after v = held v) :
    Framed after (.consume u :: .returned u :: tasks) := by
  refine ⟨fun v => ?_, ?_, by simp⟩
  · by_cases eq : v = u
    · exact .inr (by simp [eq])
    · rw [kept v eq]
      exact (framed.fits v).imp id fun parsed => by simp [parsed]
  · refine .cons_cons (fun v eq => by injection eq with eq; rw [eq]) ?_
    exact List.isChain_cons.mpr ⟨fun t head v eq => absurd (eq ▸ head) (inside v), framed.nested⟩

/-- The step is none of the two that spoil a buffer. -/
def Harmless (m : Machine ω) (env : Env) : Prop :=
  m.halted = false → match m.tasks, env with
    | .consume u :: _, _ => ¬ RoundResets api u m.state
    | .drainLoop :: _, .chunk u data =>
        m.state.shouldListen u → (m.state.held u).length + data.val.length ≤ streamMax
    | _, _ => True

theorem appendStream_of_le {u : Uart} {data : Chunk} {s : YmodemState ω}
    (le : (s.held u).length + data.val.length ≤ streamMax) :
    appendStream api u data s =
      (s.setHeld u (s.held u ++ data.val), [], [.consume u, .returned u]) := by
  rw [appendStream, if_neg (Nat.not_lt.mpr le)]

@[simp] theorem held_eotFinish (s : YmodemState ω) (u : Uart) :
    (eotFinish api s).1.held u = s.held u ∨ (eotFinish api s).1.held u = [] := by
  simp only [eotFinish]
  split
  · split
    · split
      · exact .inl rfl
      · exact .inr rfl
    · exact .inr rfl
  · exact .inr rfl

variable {m : Machine ω}

theorem poll_framed (framed : Framed m.state.held []) (idle : m.tasks = []) (env : Env) :
    (∀ e ∈ (m.poll api env).2, e.Good) ∧
      Framed (m.poll api env).1.state.held (m.poll api env).1.tasks := by
  unfold Machine.poll
  split
  · next u data polling =>
    split
    · have le : (m.state.held u).length + data.val.length ≤ streamMax := by
        have room : maxHeld + rxDmaBuf ≤ streamMax := by decide
        exact (Nat.add_le_add (framed.length_le u) data.property).trans room
      rw [appendStream_of_le api le]
      exact ⟨by simp, framed.parse (by simp) fun v ne => held_setHeld_ne _ ne _⟩
    · exact ⟨by simp, idle ▸ framed⟩
  · exact ⟨by simp, idle ▸ framed⟩
  · exact ⟨by simp, idle ▸ framed_nil⟩
  · refine ⟨by simp, idle ▸ ?_⟩
    dsimp only
    split
    · rwa [held_sendCDiscovery]
    · exact framed
  · dsimp only
    split
    · refine ⟨by simp, idle ▸ ?_⟩
      rwa [held_sendYmodemCancel]
    · exact ⟨by simp, idle ▸ framed_nil⟩
  · exact ⟨by simp, idle ▸ framed⟩

theorem framed_round {u : Uart} {s : YmodemState ω} {r : YmodemState ω × List Event × Flow}
    (framed : Framed s.held (.consume u :: tasks)) (round : Round u s.held r) :
    Framed r.1.held (match r.2.2 with
      | .again => .consume u :: tasks
      | .done => tasks
      | .eot => eotTasks u ++ .consume u :: tasks) := by
  have on : Framed r.1.held (.consume u :: tasks) := by
    refine ⟨fun v => ?_, framed.nested, by simp⟩
    by_cases eq : v = u
    · exact .inr (by simp [eq])
    · obtain same | empty := round.other v eq
      · rw [same]
        exact framed.fits v
      · exact .inl (by simp [empty])
  cases flow : r.2.2 with
  | again => exact on
  | eot => exact on.push (by simp) (by simp [eotTasks])
  | done =>
    have short := round.done flow
    refine ⟨fun v => ?_, framed.nested.tail, fun v head => ?_⟩
    · obtain fits | parsed := on.fits v
      · exact .inl fits
      · obtain same | parsed := List.mem_cons.mp parsed
        · injection same with same
          exact .inl (same ▸ short)
        · exact .inr parsed
    · have same := (List.isChain_cons.mp framed.nested).1 _ head v rfl
      injection same with same
      exact same ▸ short

theorem perform_framed {task : Task} {tasks : List Task}
    (framed : Framed m.state.held (task :: tasks)) (eq : m.tasks = task :: tasks)
    (on : m.halted = false) {env : Env} (harmless : Harmless api m env) :
    (∀ e ∈ (m.perform api env tasks task).2, e.Good) ∧
      Framed (m.perform api env tasks task).1.state.held
        (m.perform api env tasks task).1.tasks := by
  have safe := harmless on
  rw [eq] at safe
  cases task with
  | consume u =>
    have round := round_tryConsumeFrame api safe
    exact ⟨round.good, framed_round framed round⟩
  | returned u =>
    refine ⟨by simpa [Machine.perform, Event.Good] using framed.settled u rfl, ?_⟩
    exact framed.pop (by simp) fun v => .inl rfl
  | drainChunks =>
    have inside := framed.not_returned (by simp)
    have looped : Framed m.state.held ([.drainLoop] ++ tasks) :=
      (framed.pop (by simp) fun v => .inl rfl).push inside (by simp)
    cases env with
    | chunkOverflow v => exact ⟨by simp [Machine.perform], framed.pop (by simp) fun w => .inr rfl⟩
    | quiet => exact ⟨by simp [Machine.perform], looped⟩
    | chunk v data => exact ⟨by simp [Machine.perform], looped⟩
    | discovery => exact ⟨by simp [Machine.perform], looped⟩
    | rxIdle => exact ⟨by simp [Machine.perform], looped⟩
  | drainLoop =>
    have inside := framed.not_returned (by simp)
    have left : Framed m.state.held tasks := framed.pop (by simp) fun v => .inl rfl
    cases env with
    | chunk u data =>
      simp only [Machine.perform]
      split
      · next listens =>
        rw [appendStream_of_le api (safe listens)]
        refine ⟨by simp, framed.parse ?_ fun v ne => held_setHeld_ne _ ne _⟩
        simp
      · rw [← eq] at framed
        exact ⟨by simp, framed⟩
    | quiet => exact ⟨by simp [Machine.perform], left⟩
    | chunkOverflow v => exact ⟨by simp [Machine.perform], left⟩
    | discovery => exact ⟨by simp [Machine.perform], left⟩
    | rxIdle => exact ⟨by simp [Machine.perform], left⟩
  | eotTail => exact ⟨by simp [Machine.perform], framed.pop (by simp) fun v => .inl rfl⟩
  | eotFinish => exact ⟨by simp [Machine.perform], framed.pop (by simp) (held_eotFinish api m.state)⟩

theorem step_framed (framed : Framed m.state.held m.tasks) {env : Env}
    (harmless : Harmless api m env) :
    (∀ e ∈ (m.step api env).2, e.Good) ∧
      Framed (m.step api env).1.state.held (m.step api env).1.tasks := by
  unfold Machine.step
  split
  · exact ⟨by simp, framed⟩
  · next on =>
    split
    · next idle => exact poll_framed api (idle ▸ framed) idle env
    · next task tasks eq => exact perform_framed api (eq ▸ framed) eq (by simpa using on) harmless

theorem harmless_of_good {env : Env} (good : ∀ e ∈ (m.step api env).2, e.Good) :
    Harmless api m env := by
  intro on
  split
  · next u tasks eq =>
    intro resets
    refine not_good_tryConsumeFrame api resets ?_
    simpa [Machine.step, on, eq, Machine.perform] using good
  · next tasks u data eq =>
    intro listens
    by_contra long
    simp [Machine.step, on, eq, Machine.perform, listens, appendStream, Nat.not_le.mp long,
      Event.Good] at good
  · trivial

/-- The moves are in range and nothing overflows exactly if no data block is answered with a reset
and every chunk that `handle_eot` takes fits. -/
theorem trace_good_iff (ota : ω) (envs : List Env) :
    (∀ e ∈ (Machine.init ota).trace api envs, e.Good) ↔
      AlongLog (Machine.step api) (Harmless api) (Machine.init ota) envs := by
  refine runLog_forall_iff (fun m => Framed m.state.held m.tasks) ?_ ?_ framed_nil envs
  · intro m env framed
    exact ⟨harmless_of_good api, fun harmless => (step_framed api framed harmless).1⟩
  · intro m env framed harmless
    exact (step_framed api framed harmless).2

end Runs

/-! ## A refused package -/

def refusingApi : OtaApi Unit where
  downloadStart := fun _ ota => (false, ota)
  download := fun _ _ ota => (false, ota)
  downloadFinish := fun ota => (false, ota)
  downloadAbort := fun ota => ota
  setBootYmodemFlag := fun _ ota => ota
  bootPreprocess := fun ota => (false, ota)
  hasActiveAppRegion := fun _ => false

def zeroBlock (seq : UInt8) : List UInt8 :=
  ymSoh :: seq :: (255 - seq) :: List.replicate 130 0

theorem length_zeroBlock (seq : UInt8) : (zeroBlock seq).length = 133 := by
  rw [zeroBlock, List.length_cons, List.length_cons, List.length_cons, List.length_replicate]

def refusedChunk : Chunk :=
  ⟨zeroBlock 0 ++ zeroBlock 1, by
    rw [List.length_append, length_zeroBlock, length_zeroBlock]
    decide⟩

set_option maxRecDepth 100000 in
/-- The reset on the refusal makes the parser move -133 bytes. -/
theorem trace_refused :
    (Machine.init ()).trace refusingApi [.quiet, .chunk .uart1 refusedChunk, .quiet, .quiet] =
        [.memmove 133 266, .memmove (-133) 0] ∧
      ¬ (Event.memmove (-133) 0).Good := by
  decide +kernel

end NeoRuntime.Boot
