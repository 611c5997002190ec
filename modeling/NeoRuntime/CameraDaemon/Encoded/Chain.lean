import Mathlib.Data.List.Chain
import NeoRuntime.CameraDaemon.Encoded.Publisher

/-!
# Reference chains of encoded streams

A client whose socket was full is marked and gets nothing until the next keyframe.  The numbers of
the packets of a stream that are to be sent are consecutive as long as none is dropped from the
queue; then each client is either marked or has the last frame that was sent (`Fits`).
-/

namespace NeoRuntime.CameraDaemon.Encoded

/-! ## One frame for one client -/

theorem sendRest_cases (started : Bool) (rest : List UInt8) (sends : List Send) :
    sendRest started rest sends = (.sent, rest) ∨
      (∃ bytes, bytes <+: rest ∧ sendRest started rest sends = (.fail, bytes)) ∨
      started = false ∧ sendRest started rest sends = (.skipAgain, []) := by
  induction sends generalizing started rest with
  | nil =>
    cases rest with
    | nil => exact .inl rfl
    | cons b bs => exact .inr (.inl ⟨[], List.nil_prefix, rfl⟩)
  | cons send more ih =>
    cases rest with
    | nil => exact .inl rfl
    | cons b bs =>
      cases send with
      | accepted n =>
        simp only [sendRest]
        obtain sent | ⟨bytes, part, failed⟩ | ⟨absurd, -⟩ := ih true ((b :: bs).drop (n + 1))
        · left
          rw [sent]
          simp only [List.take_append_drop]
        · right; left
          refine ⟨(b :: bs).take (n + 1) ++ bytes, ?_, by rw [failed]⟩
          conv_rhs => rw [← List.take_append_drop (n + 1) (b :: bs)]
          exact (List.prefix_append_right_inj _).mpr part
        · cases absurd
      | interrupted => exact ih started (b :: bs)
      | again writable =>
        simp only [sendRest]
        cases started with
        | false => exact .inr (.inr ⟨rfl, rfl⟩)
        | true =>
          cases writable with
          | false => exact .inr (.inl ⟨[], List.nil_prefix, rfl⟩)
          | true => exact ih true (b :: bs)
      | error => exact .inr (.inl ⟨[], List.nil_prefix, rfl⟩)

/-- The frame `b` may be decoded after the frame `a`. -/
def Linked (config : StreamConfig) (a b : Packet) : Prop :=
  a.seq < b.seq ∧ (b.seq = a.seq + 1 ∨ isKeyframe config b = true)

instance (config : StreamConfig) : DecidableRel (Linked config) := fun _ _ =>
  inferInstanceAs (Decidable (_ ∧ (_ ∨ _)))

/-- The client has received whole frames, chained, and part of one only if its connection is closed.
-/
structure Received (config : StreamConfig) (name : String) (c : Client) (frames : List Packet)
    (tail : List UInt8) : Prop where
  bytes : c.received = frames.flatMap (framed config) ++ tail
  whole : tail ≠ [] → c.alive = false
  part : ∃ k, tail <+: framed config k
  own : ∀ k ∈ frames, k.stream = name
  chain : frames.IsChain (Linked config)

/-- A client that is not marked has packet number `done` of the stream. -/
def Fits (config : StreamConfig) (name : String) (done : ℕ) (c : Client) : Prop :=
  ∃ frames tail, Received config name c frames tail ∧ (∀ k ∈ frames, k.seq ≤ done) ∧
    (c.alive = true → c.needsKeyframe = false → ∀ k ∈ frames.getLast?, k.seq = done)

section Client

variable {config : StreamConfig} {name : String} {done : ℕ} {c : Client}

theorem fits_new : Fits config name done {} :=
  ⟨[], [], ⟨rfl, by simp, ⟨⟨"", 0, 0, []⟩, List.nil_prefix⟩, by simp, .nil⟩, by simp, by simp⟩

/-- A client that is gone or marked has no part in what is sent. -/
theorem Fits.idle (fits : Fits config name done c) {c' : Client} {done' : ℕ}
    (later : done ≤ done') (same : c'.received = c.received)
    (closed : c.alive = false → c'.alive = false)
    (idle : c'.alive = true → c'.needsKeyframe = true) : Fits config name done' c' := by
  obtain ⟨frames, tail, received, old, -⟩ := fits
  refine ⟨frames, tail, ⟨same.trans received.bytes, fun some => closed (received.whole some),
    received.part, received.own, received.chain⟩, fun k mem => (old k mem).trans later, ?_⟩
  intro alive unmarked
  simp [idle alive] at unmarked

theorem Fits.dead (fits : Fits config name done c) {done' : ℕ} (later : done ≤ done')
    (gone : c.alive = false) : Fits config name done' c :=
  fits.idle later rfl id (by simp [gone])

theorem Fits.serve (fits : Fits config name done c) {k : Packet} (own : k.stream = name)
    (next : k.seq = done + 1) (t : Turn) :
    Fits config name (done + 1) (c.serve true (framed config k) (isKeyframe config k) t) := by
  have later := Nat.le_succ done
  unfold Client.serve
  by_cases gone : (!c.alive) = true
  · rw [if_pos gone]
    exact fits.dead later (by simpa using gone)
  rw [if_neg gone]
  have alive : c.alive = true := by simpa using gone
  by_cases left : (!t.present) = true
  · simp only [if_true, if_pos left]
    exact fits.idle later rfl (fun _ => rfl) (by simp)
  simp only [if_true, if_neg left]
  unfold sendFrame
  by_cases waits : (c.needsKeyframe && !isKeyframe config k) = true
  · simp only [if_pos waits]
    exact fits.idle later (List.append_nil _) id fun _ => rfl
  rw [if_neg waits]
  obtain sent | ⟨bytes, part, failed⟩ | ⟨-, full⟩ := sendRest_cases false (framed config k) t.sends
  · obtain ⟨frames, tail, received, old, current⟩ := fits
    have complete : tail = [] := by
      by_contra some
      rw [received.whole some] at alive
      cases alive
    have linked : ∀ a ∈ frames.getLast?, Linked config a k := by
      intro a last
      have before := old a (List.mem_of_getLast? last)
      refine ⟨by omega, ?_⟩
      by_cases marked : c.needsKeyframe = true
      · exact .inr (by simpa [marked] using waits)
      · have := current alive (by simpa using marked) a last
        exact .inl (by omega)
    simp only [sent]
    refine ⟨frames ++ [k], [], ⟨?_, by simp, ⟨k, List.nil_prefix⟩, ?_, ?_⟩, ?_, ?_⟩
    · simp [received.bytes, complete]
    · simpa [or_imp, forall_and, own] using received.own
    · refine received.chain.append (.singleton k) fun a last b first => ?_
      obtain rfl : k = b := by simpa using first
      exact linked a last
    · intro a mem
      obtain earlier | rfl : a ∈ frames ∨ a = k := by simpa using mem
      · exact (old a earlier).trans later
      · exact next.le
    · simp [next]
  · obtain ⟨frames, tail, received, old, -⟩ := fits
    have complete : tail = [] := by
      by_contra some
      rw [received.whole some] at alive
      cases alive
    simp only [failed]
    refine ⟨frames, bytes, ⟨?_, fun _ => rfl, ⟨k, part⟩, received.own, received.chain⟩,
      fun a mem => (old a mem).trans later, by simp⟩
    rw [received.bytes, complete, List.append_nil]
  · simp only [full]
    exact fits.idle later (List.append_nil _) id fun _ => rfl

theorem serveAll_mem {serve : Client → Turn → Client} {cs : List Client} {turns : List Turn}
    {c' : Client} (mem : c' ∈ serveAll serve cs turns) : ∃ c ∈ cs, ∃ t, c' = serve c t := by
  induction cs generalizing turns with
  | nil => cases mem
  | cons c cs ih =>
    obtain rfl | later := List.mem_cons.mp mem
    · exact ⟨c, List.mem_cons_self, _, rfl⟩
    · obtain ⟨d, inside, t, rfl⟩ := ih later
      exact ⟨d, List.mem_cons_of_mem _ inside, t, rfl⟩

end Client

/-! ## The packets of a stream -/

/-- The packets of the stream that are still to be sent. -/
def Publisher.pendingOf (p : Publisher) (name : String) : List Packet :=
  (p.current.toList ++ p.queue).filter (·.stream = name)

structure Chained (config : StreamConfig) (name : String) (p : Publisher) (done : ℕ) : Prop where
  numbers : (p.pendingOf name).map (·.seq) = List.range' (done + 1) (p.pendingOf name).length
  next : done + (p.pendingOf name).length = p.nextSeq name
  clients : ∀ c ∈ p.clients name, Fits config name done c
  closed : ∀ c ∈ p.closed name, c.alive = false ∧ Fits config name done c

/-- No packet of the stream is dropped from the queue. -/
def KeepsQueued (streams : Streams) (name : String) (p : Publisher) : Event → Prop
  | .onPacket other _ data => ∀ k ∈ p.evicted streams other data, k.stream ≠ name
  | _ => True

instance (streams : Streams) (name : String) (p : Publisher) :
    ∀ e : Event, Decidable (KeepsQueued streams name p e)
  | .onPacket other _ data =>
    inferInstanceAs (Decidable (∀ k ∈ p.evicted streams other data, k.stream ≠ name))
  | .take | .broadcast _ | .probe _ _ | .accept _ _ => .isTrue trivial

namespace Chained

variable {streams : Streams} {config : StreamConfig} {name : String} {p p' : Publisher} {done : ℕ}

section

variable (chained : Chained config name p done)

include chained

theorem of_same (pending : p'.pendingOf name = p.pendingOf name)
    (next : p'.nextSeq = p.nextSeq) (clients : ∀ c ∈ p'.clients name, Fits config name done c)
    (closed : ∀ c ∈ p'.closed name, c.alive = false ∧ Fits config name done c) :
    Chained config name p' done :=
  ⟨by rw [pending]; exact chained.numbers, by rw [pending, next]; exact chained.next, clients, closed⟩

omit chained in
theorem pendingOf_onPacket {other : String} {timestamp : ℕ} {data : List UInt8}
    (keeps : KeepsQueued streams name p (.onPacket other timestamp data))
    (accepted : ((streams other).isSome && data ≠ []) = true) :
    (p.onPacket streams other timestamp data).pendingOf name = p.pendingOf name ++
      if other = name then [⟨other, p.nextSeq other + 1, timestamp, data⟩] else [] := by
  have left : (if maxQueueSize ≤ p.queue.length then p.queue.tail else p.queue).filter
      (·.stream = name) = p.queue.filter (·.stream = name) := by
    by_cases full : maxQueueSize ≤ p.queue.length
    · obtain ⟨k, rest, queued⟩ := List.exists_cons_of_length_pos
        (lt_of_lt_of_le (by decide : 0 < maxQueueSize) full)
      have foreign : k.stream ≠ name := keeps k (by
        rw [Publisher.evicted, accepted, Bool.true_and, decide_eq_true full, if_pos rfl, queued]
        rfl)
      rw [if_pos full, queued, List.tail_cons, List.filter_cons_of_neg (by simpa using foreign)]
    · rw [if_neg full]
  unfold Publisher.onPacket
  rw [if_pos accepted]
  simp only [Publisher.pendingOf, List.filter_append, left, List.append_assoc, List.filter_singleton]
  by_cases this : other = name <;> simp [this]

theorem onPacket {other : String} {timestamp : ℕ}
    {data : List UInt8} (keeps : KeepsQueued streams name p (.onPacket other timestamp data)) :
    Chained config name (p.onPacket streams other timestamp data) done := by
  by_cases accepted : ((streams other).isSome && data ≠ []) = true
  swap
  · rwa [Publisher.onPacket, if_neg accepted]
  have pending := pendingOf_onPacket keeps accepted
  have fields : (p.onPacket streams other timestamp data).nextSeq =
        Function.update p.nextSeq other (p.nextSeq other + 1) ∧
      (p.onPacket streams other timestamp data).clients = p.clients ∧
      (p.onPacket streams other timestamp data).closed = p.closed := by
    rw [Publisher.onPacket, if_pos accepted]
    exact ⟨rfl, rfl, rfl⟩
  refine ⟨?_, ?_, fields.2.1 ▸ chained.clients, fields.2.2 ▸ chained.closed⟩
  · by_cases this : other = name
    · subst this
      simp only [pending, if_true, List.map_append, chained.numbers, List.map_cons, List.map_nil,
        List.length_append, List.length_singleton, List.range'_1_concat, ← chained.next]
      congr 2
      omega
    · rw [pending, if_neg this, List.append_nil]
      exact chained.numbers
  · have before := chained.next
    by_cases this : other = name
    · subst this
      simp only [pending, fields.1, if_true, Function.update_self, List.length_append,
        List.length_singleton]
      omega
    · rw [pending, fields.1, if_neg this, List.append_nil, Function.update_of_ne (Ne.symm this)]
      exact before

theorem reap {done' : ℕ} (later : done ≤ done')
    {cs : List Client} (served : ∀ c ∈ cs, Fits config name done' c) :
    (∀ c ∈ (p.reap name cs).clients name, Fits config name done' c) ∧
      ∀ c ∈ (p.reap name cs).closed name, c.alive = false ∧ Fits config name done' c := by
  simp only [Publisher.reap, Function.update_self, List.mem_append, List.mem_filter]
  refine ⟨fun c mem => served c mem.1, ?_⟩
  rintro c (old | ⟨new, gone⟩)
  · obtain ⟨gone, fits⟩ := chained.closed c old
    exact ⟨gone, fits.dead later gone⟩
  · exact ⟨by simpa using gone, served c new⟩

omit chained in
theorem broadcast (video : config.codec.isVideo = true) (known : streams name = some config)
    (chained : Chained config name p done) {turns : List Turn}
    (next : p.broadcast streams turns = some p') : ∃ done', Chained config name p' done' := by
  obtain ⟨k, current, foreign⟩ := Publisher.broadcast_cases next
  by_cases own : k.stream = name
  · obtain ⟨unknown, -⟩ | ⟨config', known', rfl⟩ := foreign
    · rw [own, known] at unknown
      cases unknown
    rw [own, known] at known'
    obtain rfl := Option.some.inj known'
    have numbers := chained.numbers
    have length := chained.next
    rw [Publisher.pendingOf, current] at numbers length
    simp only [Option.toList_some, List.singleton_append, own, decide_true,
      List.filter_cons_of_pos, List.map_cons, List.length_cons, List.range'_succ,
      List.cons.injEq] at numbers length
    have served : ∀ c ∈ serveAll (Client.serve config.codec.isVideo (framed config k)
        (isKeyframe config k)) (p.clients name) turns, Fits config name (done + 1) c := by
      intro c mem
      obtain ⟨d, inside, t, rfl⟩ := serveAll_mem mem
      rw [video]
      exact (chained.clients d inside).serve own numbers.1 t
    obtain ⟨first, second⟩ := chained.reap (Nat.le_succ done) served
    refine ⟨done + 1, ?_, ?_, own ▸ first, own ▸ second⟩
    · simpa [Publisher.pendingOf, Publisher.reap] using numbers.2
    · simp only [Publisher.pendingOf, Publisher.reap, Option.toList_none, List.nil_append]
      omega
  · refine ⟨done, ?_⟩
    have pending : p.queue.filter (·.stream = name) = p.pendingOf name := by
      simp [Publisher.pendingOf, current, own]
    obtain ⟨-, rfl⟩ | ⟨config', -, rfl⟩ := foreign
    · exact chained.of_same pending rfl chained.clients chained.closed
    · refine chained.of_same pending rfl ?_ ?_
      · simpa [Publisher.reap, Function.update_of_ne (Ne.symm own)] using chained.clients
      · simpa [Publisher.reap, Function.update_of_ne (Ne.symm own)] using chained.closed

theorem probe (other : String) (turns : List Turn) :
    Chained config name (p.probe other turns) done := by
  by_cases own : other = name
  · subst own
    have served : ∀ c ∈ serveAll (fun c t => { c with alive := c.alive && t.present })
        (p.clients other) turns, Fits config other done c := by
      intro c mem
      obtain ⟨d, inside, t, rfl⟩ := serveAll_mem mem
      cases here : t.present with
      | false => exact (chained.clients d inside).idle le_rfl rfl (by simp) (by simp)
      | true => simpa [here] using chained.clients d inside
    obtain ⟨first, second⟩ := chained.reap le_rfl served
    exact ⟨chained.numbers, chained.next, first, second⟩
  · refine ⟨chained.numbers, chained.next, ?_, ?_⟩
    · simpa [Publisher.probe, Publisher.reap, Function.update_of_ne (Ne.symm own)]
        using chained.clients
    · simpa [Publisher.probe, Publisher.reap, Function.update_of_ne (Ne.symm own)]
        using chained.closed

theorem accept (other : String) (turns : List Turn) :
    Chained config name (p.accept other turns) done := by
  have probed := chained.probe other turns
  unfold Publisher.accept
  dsimp only
  split_ifs
  · exact probed
  · refine ⟨probed.numbers, probed.next, ?_, probed.closed⟩
    by_cases own : other = name
    · subst own
      intro c mem
      obtain old | rfl : c ∈ (p.probe other turns).clients other ∨ c = {} := by simpa using mem
      · exact probed.clients c old
      · exact fits_new
    · simpa [Function.update_of_ne (Ne.symm own)] using probed.clients

end

theorem step (video : config.codec.isVideo = true) (known : streams name = some config)
    (chained : ∃ done, Chained config name p done) {e : Event}
    (keeps : KeepsQueued streams name p e) (next : step streams p e = some p') :
    ∃ done, Chained config name p' done := by
  obtain ⟨done, chained⟩ := chained
  cases e with
  | onPacket other timestamp data =>
    obtain rfl := Option.some.inj next
    exact ⟨done, chained.onPacket keeps⟩
  | take =>
    obtain ⟨k, rest, none, queued, rfl⟩ := Publisher.take_cases next
    have pending : (k :: rest).filter (·.stream = name) = p.pendingOf name := by
      simp [Publisher.pendingOf, none, queued]
    exact ⟨done, chained.of_same pending rfl chained.clients chained.closed⟩
  | broadcast turns => exact chained.broadcast video known next
  | probe other turns =>
    obtain rfl := Option.some.inj next
    exact ⟨done, chained.probe other turns⟩
  | accept other turns =>
    obtain rfl := Option.some.inj next
    exact ⟨done, chained.accept other turns⟩

end Chained

/-- Clients of a video stream receive whole frames, and after a gap a keyframe. -/
theorem frames_chained {streams : Streams} {name : String} {config : StreamConfig}
    (known : streams name = some config) (video : config.codec.isVideo = true)
    {events : List Event} {p : Publisher}
    (along : Along (step streams) (KeepsQueued streams name) {} events)
    (run : events.foldlM (step streams) {} = some p) {c : Client}
    (mem : c ∈ p.clients name ∨ c ∈ p.closed name) :
    ∃ frames tail, Received config name c frames tail := by
  have initial : Chained config name {} 0 := ⟨rfl, rfl, by simp, by simp⟩
  obtain ⟨done, chained⟩ := foldlM_inv_along (fun p => ∃ done, Chained config name p done)
    (fun _ _ _ inv keeps next => Chained.step video known inv keeps next) ⟨0, initial⟩ along run
  obtain ⟨frames, tail, received, -⟩ : Fits config name done c :=
    mem.elim (chained.clients c) fun closed => (chained.closed c closed).2
  exact ⟨frames, tail, received⟩

def slice : List UInt8 := [0, 0, 1, 0x41, 0x9A]

def missedFrame : List Event :=
  [.accept "main" [], .onPacket "main" 0 slice, .take, .broadcast [{ sends := [.accepted 99] }],
    .onPacket "main" 0 slice, .take, .broadcast [{ sends := [.again false] }]]

theorem missedFrame_runs : (missedFrame.foldlM (step twoStreams) {}).isSome := by decide +kernel

theorem frames_chained_missedFrame : ∃ p,
    missedFrame.foldlM (step twoStreams) {} = some p ∧ ∃ c ∈ p.clients "main",
      c.received.length = 43 ∧ ∃ frames tail, Received ⟨.h264, 0, 0⟩ "main" c frames tail :=
  ⟨_, (Option.some_get missedFrame_runs).symm,
    { needsKeyframe := true, received := framed ⟨.h264, 0, 0⟩ ⟨"main", 1, 0, slice⟩ },
    by decide +kernel, by decide +kernel,
    frames_chained rfl rfl (by decide +kernel) (Option.some_get missedFrame_runs).symm (.inl (by decide +kernel))⟩

/-- A client gets packet 1 and then packet 3, no keyframe, as the queue has overflowed. -/
def lostPacket : List Event :=
  [.accept "main" [], .onPacket "main" 0 slice, .take, .broadcast [{ sends := [.accepted 99] }]] ++
    List.replicate 121 (.onPacket "main" 0 slice) ++
    [.take, .broadcast [{ sends := [.accepted 99] }]]

theorem broken_chain : ∃ p, lostPacket.foldlM (step twoStreams) {} = some p ∧
    (p.clients "main").map (·.received) =
      [framed ⟨.h264, 0, 0⟩ ⟨"main", 1, 0, slice⟩ ++ framed ⟨.h264, 0, 0⟩ ⟨"main", 3, 0, slice⟩] ∧
    ¬ Linked ⟨.h264, 0, 0⟩ ⟨"main", 1, 0, slice⟩ ⟨"main", 3, 0, slice⟩ :=
  ⟨_, (Option.some_get (by decide +kernel)).symm, by decide +kernel, by decide +kernel⟩

end NeoRuntime.CameraDaemon.Encoded
