import Mathlib.Algebra.Group.Nat.Defs
import NeoRuntime.CameraDaemon.Encoded.Chain
import NeoRuntime.Lib.AnnexB

/-!
# The relay of encoded frames to browsers

`H264Stream.connectAndRead` (platform/platform-api/handlers/h264_stream.go) reads the messages of
the encoded publisher, cuts each payload into NAL units and broadcasts these, every unit behind its
length.  It tells headers of 22 and of 30 bytes apart by the size of the message.  The publisher
writes 38: the sequence number becomes the beginning of the payload.
-/

namespace NeoRuntime.PlatformApi.H264Stream

open AnnexB CameraDaemon.Encoded

/-! ## NAL units -/

/-- The offsets behind the start codes; a long code is found twice. -/
def starts (i : ℕ) : List UInt8 → List ℕ
  | [] => []
  | b :: bs =>
    (if codeLength (b :: bs) = 0 then [] else [i + codeLength (b :: bs)]) ++ starts (i + 1) bs

variable (data : List UInt8)

/-- The end of a unit, from the offset behind the next start code. -/
def backUp (stop : ℕ) : ℕ :=
  if 4 ≤ stop ∧ (data.drop (stop - 4)).take 4 = [0, 0, 0, 1] then stop - 4
  else if 3 ≤ stop ∧ (data.drop (stop - 3)).take 3 = [0, 0, 1] then stop - 3
  else stop

def unitsAt (data : List UInt8) : List ℕ → List (List UInt8)
  | [] => []
  | [start] => if data.length > start then [data.drop start] else []
  | start :: next :: rest =>
    (if backUp data next > start then [AnnexB.slice data start (backUp data next)] else []) ++
      unitsAt data (next :: rest)

def splitNALUnits : List (List UInt8) := unitsAt data (starts 0 data)

def avcc (nal : List UInt8) : List UInt8 := beBytes 4 nal.length ++ nal

/-- `processAnnexB`: the frame that it broadcasts, if any. -/
def processAnnexB : Option (List UInt8) :=
  let frame := ((splitNALUnits data).filter (· ≠ [])).flatMap avcc
  if frame = [] then none else some frame

/-! ## The connection -/

def headerSizeV1 : ℕ := 22
def headerSizeV2 : ℕ := 30
def maxPayload : ℕ := 4 * 1024 * 1024

inductive Read
  | eof
  /-- The size makes no sense; only the header was read. -/
  | invalid (rest : List UInt8)
  | frame (keyframe : Bool) (payload rest : List UInt8)

def readFrame (bytes : List UInt8) : Read :=
  if bytes.length < headerSizeV1 then .eof
  else
    let totalSize := ofLeBytes (bytes.take 4)
    let flags := bytes.getD 5 0
    let header := if totalSize ≥ headerSizeV2 then headerSizeV2 else headerSizeV1
    if bytes.length < header then .eof
    else
      let payloadSize := (totalSize + (2 ^ 32 - header)) % 2 ^ 32
      if payloadSize = 0 || payloadSize > maxPayload then .invalid (bytes.drop header)
      else if bytes.length < header + payloadSize then .eof
      else .frame (flags &&& 1 ≠ 0) ((bytes.drop header).take payloadSize)
        (bytes.drop (header + payloadSize))

/-- `trackKeyframes`, as far as its result goes. -/
def trackKeyframes (payload : List UInt8) (flag : Bool) : Bool :=
  flag || (splitNALUnits payload).any fun nal => nal.headD 0 &&& 0x1F = 5

structure Relay where
  consecutiveSlow : ℕ := 0
  droppingPframes : Bool := false

def Relay.after (r : Relay) (ms : ℕ) : Relay :=
  let slow := if ms > 50 then r.consecutiveSlow + 1
    else if ms < 33 then r.consecutiveSlow - 1 else r.consecutiveSlow
  { consecutiveSlow := slow
    droppingPframes :=
      if !r.droppingPframes && slow ≥ 5 then true
      else if r.droppingPframes && slow = 0 then false
      else r.droppingPframes }

/-- Rounds of `connectAndRead`: whether each began in degraded mode, and what it broadcast. -/
def connectAndRead : Relay → List ℕ → List UInt8 → List (Bool × Option (List UInt8))
  | _, [], _ => []
  | r, ms :: durations, bytes =>
    match readFrame bytes with
    | .eof => []
    | .invalid rest => (r.droppingPframes, none) :: connectAndRead r durations rest
    | .frame flag payload rest =>
      if r.droppingPframes && !trackKeyframes payload flag then
        (r.droppingPframes, none) :: connectAndRead r durations rest
      else
        (r.droppingPframes, processAnnexB payload) :: connectAndRead (r.after ms) durations rest

theorem starts_tight {unit rest : List UInt8} (tight : Tight unit rest) (i : ℕ) :
    starts i (unit ++ rest) = starts (i + unit.length) rest := by
  induction unit generalizing i with
  | nil => rfl
  | cons b bs ih =>
    obtain ⟨none, inside⟩ := tight
    rw [List.cons_append] at none ⊢
    rw [starts, if_pos none, List.nil_append, ih inside, List.length_cons]
    congr 1
    omega

theorem starts_code_tail (i : ℕ) (rest : List UInt8) :
    starts i (0 :: 1 :: rest) = starts (i + 2) rest := by
  have first : codeLength (0 :: 1 :: rest) = 0 := by simp [codeLength]
  have second : codeLength (1 :: rest) = 0 := by simp [codeLength]
  rw [starts, if_pos first, List.nil_append, starts, if_pos second, List.nil_append]

theorem starts_code (long : Bool) (i : ℕ) (rest : List UInt8) : starts i (code long ++ rest) =
      (if long then [i + 4, i + 4] else [i + 3]) ++ starts (i + (code long).length) rest := by
  have short (j : ℕ) : starts j (0 :: 0 :: 1 :: rest) = (j + 3) :: starts (j + 3) rest := by
    rw [starts, show codeLength (0 :: 0 :: 1 :: rest) = 3 from codeLength_code false rest,
      if_neg (by decide), starts_code_tail]
    rfl
  cases long with
  | false => exact short i
  | true =>
    change starts i (0 :: 0 :: 0 :: 1 :: rest) = _
    rw [starts, show codeLength (0 :: 0 :: 0 :: 1 :: rest) = 4 from codeLength_code true rest,
      if_neg (by decide), short]
    rfl

/-! ## Units -/

theorem backUp_le (stop : ℕ) : backUp data stop ≤ stop := by
  unfold backUp
  split_ifs <;> omega

theorem unitsAt_again (start : ℕ) (rest : List ℕ) :
    unitsAt data (start :: start :: rest) = unitsAt data (start :: rest) := by
  rw [unitsAt, if_neg (by have := backUp_le data start; omega), List.nil_append]

theorem unitsAt_cons_congr {data : List UInt8} {start : ℕ} {s t : List ℕ}
    (head : s.head? = t.head?) (units : unitsAt data s = unitsAt data t) :
    unitsAt data (start :: s) = unitsAt data (start :: t) := by
  obtain _ | ⟨a, s⟩ := s <;> obtain _ | ⟨b, t⟩ := t
  · rfl
  · cases head
  · cases head
  · obtain rfl : a = b := by simpa using head
    rw [unitsAt, unitsAt, units]

variable {units : List (Bool × List UInt8)}

theorem unitsAt_starts (tight : AllTight units) (data : List UInt8) (i : ℕ) :
    (starts i (stream units)).head? = (positions i units).head? ∧
      unitsAt data (starts i (stream units)) = unitsAt data (positions i units) := by
  induction units generalizing i with
  | nil => exact ⟨rfl, rfl⟩
  | cons u us ih =>
    obtain ⟨long, unit⟩ := u
    obtain ⟨first, others⟩ := tight
    obtain ⟨head, rest⟩ := ih others (i + (code long).length + unit.length)
    rw [stream_cons, List.append_assoc, starts_code, starts_tight first, positions]
    cases long with
    | false => exact ⟨rfl, unitsAt_cons_congr head rest⟩
    | true =>
      refine ⟨rfl, ?_⟩
      rw [if_pos rfl, List.cons_append, List.cons_append, List.nil_append, unitsAt_again]
      exact unitsAt_cons_congr head rest

/-- A start code stands before the offset. -/
def AfterCode (o : ℕ) : Prop :=
  3 ≤ o ∧ (data.drop (o - 3)).take 3 = [0, 0, 1]

theorem afterCode_positions (units : List (Bool × List UInt8)) (before : List UInt8) :
    ∀ o ∈ positions before.length units, AfterCode (before ++ stream units) o := by
  induction units generalizing before with
  | nil => simp [positions]
  | cons u us ih =>
    have rest := ih (before ++ code u.1 ++ u.2)
    have whole : before ++ code u.1 ++ u.2 ++ stream us = before ++ stream (u :: us) := by
      simp [stream_cons]
    rw [whole, List.length_append, List.length_append] at rest
    refine List.forall_mem_cons.mpr ⟨?_, rest⟩
    obtain ⟨front, code_eq⟩ : ∃ front, code u.1 = front ++ [0, 0, 1] := by
      cases u.1
      · exact ⟨[], rfl⟩
      · exact ⟨[0], rfl⟩
    have shape : before ++ stream (u :: us) = (before ++ front) ++ ([0, 0, 1] ++ (u.2 ++ stream us)) := by
      simp [stream_cons, code_eq]
    have offset : before.length + (code u.1).length = (before ++ front).length + 3 := by
      simp [code_eq, Nat.add_assoc]
    refine ⟨by omega, ?_⟩
    rw [shape, offset, Nat.add_sub_cancel, List.drop_left]
    rfl

theorem backUp_eq {data : List UInt8} {o : ℕ} (after : AfterCode data o) :
    backUp data o = codeBegin data o := by
  unfold backUp codeBegin
  rw [if_pos (show 3 ≤ o ∧ _ from after)]

/-- The loop finds the units that lie between the offsets, if they are not empty. -/
theorem unitsAt_eq {data : List UInt8} {os : List ℕ} (after : ∀ o ∈ os, AfterCode data o) :
    unitsAt data os = (cut data os).filter (· ≠ []) := by
  induction os with
  | nil => rfl
  | cons o os ih =>
    obtain ⟨-, others⟩ := List.forall_mem_cons.mp after
    cases os with
    | nil =>
      rw [unitsAt, cut]
      by_cases inside : data.length > o
      · simp [inside]
      · simp [Nat.le_of_not_lt inside]
    | cons o' os =>
      have next := others o' List.mem_cons_self
      have bound : o' ≤ data.length := by
        have := congrArg List.length next.2
        simp only [List.length_take, List.length_drop, List.length_cons, List.length_nil] at this
        have := next.1
        omega
      rw [unitsAt, cut, backUp_eq next, ih others, List.filter_cons]
      have before : codeBegin data o' + 3 ≤ o' := by
        have := next.1
        unfold codeBegin
        split_ifs <;> omega
      by_cases some : codeBegin data o' > o
      · have length : (AnnexB.slice data o (codeBegin data o')).length = codeBegin data o' - o := by
          rw [AnnexB.slice, List.length_take, List.length_drop]
          omega
        have ne : AnnexB.slice data o (codeBegin data o') ≠ [] := fun none => by
          rw [none] at length
          simp only [List.length_nil] at length
          omega
        rw [if_pos some, if_pos (by simpa using ne)]
        rfl
      · have none : AnnexB.slice data o (codeBegin data o') = [] := by
          rw [AnnexB.slice, Nat.sub_eq_zero_of_le (Nat.le_of_not_lt some), List.take_zero]
        rw [if_neg some, none]
        rfl

theorem splitNALUnits_eq {before : List UInt8}
    (first : Tight before (stream units)) (tight : AllTight units) :
    splitNALUnits (before ++ stream units) = (units.map Prod.snd).filter (· ≠ []) := by
  rw [splitNALUnits, starts_tight first, Nat.zero_add, (unitsAt_starts tight _ _).2,
    unitsAt_eq (afterCode_positions _ _), cut_stream tight]

/-- Bytes without a start code before a stream do not change its units. -/
theorem splitNALUnits_append {before : List UInt8} (free : ¬ [0, 0, 1] <:+: before)
    (some : units ≠ []) (clean : ∀ u ∈ units, Clean u.2) :
    splitNALUnits (before ++ stream units) = units.map Prod.snd := by
  have all : splitNALUnits (before ++ stream units) = (units.map Prod.snd).filter (· ≠ []) := by
    obtain ⟨⟨long, unit⟩, us, rfl⟩ := List.exists_cons_of_ne_nil some
    obtain tight | ⟨front, rfl, rfl, tight⟩ := tight_before free long (unit ++ stream us)
    · rw [← List.append_assoc, ← stream_cons (long, unit)] at tight
      exact splitNALUnits_eq tight (allTight_of_clean clean)
    -- the last zero belongs to the start code
    · rw [← List.append_assoc, ← stream_cons (true, unit)] at tight
      have whole : front ++ [0] ++ stream ((false, unit) :: us) =
          front ++ stream ((true, unit) :: us) := by simp [stream_cons, code]
      have clean' : ∀ u ∈ (true, unit) :: us, Clean u.2 := by simpa using clean
      rw [whole]
      exact splitNALUnits_eq tight (allTight_of_clean clean')
  rw [all, List.filter_eq_self]
  rintro nal mem
  obtain ⟨v, inside, rfl⟩ := List.mem_map.mp mem
  simpa using (clean v inside).nonempty

/-- The sequence number before a payload does no harm, unless it contains a start code. -/
theorem processAnnexB_payload {before : List UInt8} (free : ¬ [0, 0, 1] <:+: before)
    (some : units ≠ []) (clean : ∀ u ∈ units, Clean u.2) :
    processAnnexB (before ++ stream units) = Option.some (units.flatMap fun u => avcc u.2) := by
  have nonempty : (units.map Prod.snd).filter (· ≠ []) = units.map Prod.snd := by
    rw [List.filter_eq_self]
    intro nal mem
    obtain ⟨v, inside, rfl⟩ := List.mem_map.mp mem
    simpa using (clean v inside).nonempty
  have frame : ((units.map Prod.snd).filter (· ≠ [])).flatMap avcc =
      units.flatMap fun u => avcc u.2 := by
    rw [nonempty, List.flatMap_map]
  obtain ⟨u, us, rfl⟩ := List.exists_cons_of_ne_nil some
  have ne : ((u :: us).flatMap fun u => avcc u.2) ≠ [] := by
    intro none
    simpa [avcc] using congrArg List.length none
  rw [processAnnexB, splitNALUnits_append free some clean, frame, if_neg ne]

/-! ## Messages -/

section Messages

variable {config : StreamConfig} {k : Packet}

/-- The reader takes the first 30 bytes of a message for its header. -/
theorem framed_eq (config : StreamConfig) (k : Packet) : ∃ front : List UInt8,
    framed config k = leBytes 4 (headerSize + k.data.length) ++
        ((if config.codec = .h265 then 1 else 0) ::
          ((if isKeyframe config k then 1 else 0) ||| 2) :: front) ++ (leBytes 8 k.seq ++ k.data) ∧
      front.length = 24 :=
  ⟨leBytes 8 k.timestamp ++ leBytes 4 config.width ++ leBytes 4 config.height ++
    leBytes 8 k.timestamp, by simp [framed, headerFields], by simp⟩

theorem readFrame_framed (small : k.data.length + 8 ≤ maxPayload) (rest : List UInt8) :
    readFrame (framed config k ++ rest) =
      .frame (isKeyframe config k) (leBytes 8 k.seq ++ k.data) rest := by
  obtain ⟨front, shape, length⟩ := framed_eq config k
  have bound : headerSize + k.data.length < 256 ^ 4 := by
    unfold headerSize maxPayload at *
    omega
  have total : ofLeBytes ((framed config k ++ rest).take 4) = headerSize + k.data.length := by
    rw [shape, List.append_assoc, List.append_assoc, List.take_left' (by simp),
      ofLeBytes_leBytes bound]
  have flags : (framed config k ++ rest).getD 5 0 = (if isKeyframe config k then 1 else 0) ||| 2 := by
    rw [shape]
    simp [leBytes]
  have after : (framed config k ++ rest).drop headerSizeV2 =
      (leBytes 8 k.seq ++ k.data) ++ rest := by
    rw [shape, List.append_assoc, List.drop_left' (by simp [length, headerSizeV2])]
  have size : (framed config k ++ rest).length = 38 + k.data.length + rest.length := by
    rw [shape]
    simp [length]
    omega
  have payload : (headerSize + k.data.length + (2 ^ 32 - headerSizeV2)) % 2 ^ 32 =
      (leBytes 8 k.seq ++ k.data).length := by
    rw [List.length_append, length_leBytes]
    unfold headerSize headerSizeV2 maxPayload at *
    omega
  have long : headerSize + k.data.length ≥ headerSizeV2 := by
    unfold headerSize headerSizeV2
    omega
  have complete : ¬ (framed config k ++ rest).length <
      headerSizeV2 + (leBytes 8 k.seq ++ k.data).length := by
    rw [size, List.length_append, length_leBytes]
    unfold headerSizeV2
    omega
  have fits : ¬ (decide ((leBytes 8 k.seq ++ k.data).length = 0) ||
      decide ((leBytes 8 k.seq ++ k.data).length > maxPayload)) = true := by
    simp only [List.length_append, length_leBytes, Bool.or_eq_true, decide_eq_true_eq]
    omega
  have flag : decide (((if isKeyframe config k then (1 : UInt8) else 0) ||| 2) &&& 1 ≠ 0) =
      isKeyframe config k := by
    cases isKeyframe config k <;> rfl
  unfold readFrame
  rw [if_neg (by unfold headerSizeV1; omega)]
  dsimp only
  rw [total, if_pos long, if_neg (by unfold headerSizeV2; omega), payload, if_neg fits,
    if_neg complete, flags, flag, ← List.drop_drop, after, List.take_left, List.drop_left]

/-- What the relay makes of a packet, in a round that began in degraded mode or not. -/
def Passes (config : StreamConfig) (units : Packet → List (Bool × List UInt8)) (k : Packet)
    (round : Bool × Option (List UInt8)) : Prop :=
  ¬ [0, 0, 1] <:+: leBytes 8 k.seq → (round.1 = true → isKeyframe config k = true) →
    round.2 = some ((units k).flatMap fun u => avcc u.2)

theorem connectAndRead_framed {units : Packet → List (Bool × List UInt8)} {packets : List Packet}
    (some : ∀ k ∈ packets, k.data ≠ [])
    (format : ∀ k ∈ packets, k.data = stream (units k) ∧ ∀ u ∈ units k, Clean u.2)
    (small : ∀ k ∈ packets, k.data.length + 8 ≤ maxPayload) {durations : List ℕ}
    (enough : packets.length ≤ durations.length) (r : Relay) :
    List.Forall₂ (Passes config units) packets
      (connectAndRead r durations (packets.flatMap (framed config))) := by
  induction packets generalizing r durations with
  | nil =>
    obtain _ | ⟨ms, durations⟩ := durations
    · exact .nil
    · exact .nil
  | cons k packets ih =>
    obtain ⟨someHere, someRest⟩ := List.forall_mem_cons.mp some
    obtain ⟨⟨data, clean⟩, formatRest⟩ := List.forall_mem_cons.mp format
    obtain ⟨smallHere, smallRest⟩ := List.forall_mem_cons.mp small
    obtain _ | ⟨ms, durations⟩ := durations
    · simp at enough
    have rest (r : Relay) : List.Forall₂ (Passes config units) packets
        (connectAndRead r durations (packets.flatMap (framed config))) :=
      ih someRest formatRest smallRest (by simpa using enough) r
    rw [List.flatMap_cons, connectAndRead, readFrame_framed smallHere]
    dsimp only
    by_cases dropped : (r.droppingPframes &&
        !trackKeyframes (leBytes 8 k.seq ++ k.data) (isKeyframe config k)) = true
    · rw [if_pos dropped]
      refine .cons (fun _ keyframe => ?_) (rest r)
      -- the publisher's flag is enough for the relay
      simp only [Bool.and_eq_true, Bool.not_eq_true', trackKeyframes, Bool.or_eq_false_iff] at dropped
      rw [keyframe dropped.1] at dropped
      cases dropped.2.1
    · rw [if_neg dropped]
      refine .cons (fun free _ => ?_) (rest _)
      have units : units k ≠ [] := by
        intro none
        rw [data, none] at someHere
        exact someHere rfl
      rw [data]
      exact processAnnexB_payload free units clean

end Messages

/-! ## From the publisher -/

/-- The publisher with one relay connected, after it has numbered some packets of every stream. -/
def connected (name : String) (seq : ℕ) : Publisher :=
  { nextSeq := fun _ => seq, clients := Function.update (fun _ => []) name [{}] }

def packetOf (name : String) (p : Publisher) : Event → List Packet
  | .onPacket other timestamp data =>
    if other = name ∧ data ≠ [] then [⟨other, p.nextSeq other + 1, timestamp, data⟩] else []
  | _ => []

/-- A step of the publisher, with the packets that were given to it for the stream. -/
def record (streams : Streams) (name : String) (s : Publisher × List Packet) (e : Event) :
    Option (Publisher × List Packet) :=
  (step streams s.1 e).map (·, s.2 ++ packetOf name s.1 e)

/-- The queue loses no packet, the relay is the only client, and the sends to it succeed. -/
def Delivers (streams : Streams) (config : StreamConfig) (name : String)
    (s : Publisher × List Packet) : Event → Prop
  | .onPacket other timestamp data => KeepsQueued streams name s.1 (.onPacket other timestamp data)
  | .take => True
  | .broadcast turns => (s.1.current.all fun k => k.stream ≠ name ||
      (turns.headD {}).present &&
        (sendRest false (framed config k) (turns.headD {}).sends).1 = .sent) = true
  | .probe other turns => other = name → (turns.headD {}).present = true
  | .accept other _ => other ≠ name

instance (streams : Streams) (config : StreamConfig) (name : String)
    (s : Publisher × List Packet) : ∀ e : Event, Decidable (Delivers streams config name s e)
  | .onPacket _ _ _ | .take | .broadcast _ | .probe _ _ | .accept _ _ => by
    dsimp only [Delivers]
    infer_instance

/-- The packets of the stream are with the relay or are still to be sent. -/
structure Relayed (config : StreamConfig) (name : String) (s : Publisher × List Packet)
    (sent : List Packet) : Prop where
  client : s.1.clients name = [{ received := sent.flatMap (framed config) }]
  packets : s.2 = sent ++ s.1.pendingOf name
  nonempty : ∀ k ∈ s.2, k.data ≠ []

namespace Relayed

variable {streams : Streams} {config : StreamConfig} {name : String} {p p' : Publisher}
  {given : List Packet} {sent : List Packet}

theorem of_same (relayed : Relayed config name (p, given) sent)
    (clients : p'.clients name = p.clients name) (pending : p'.pendingOf name = p.pendingOf name) :
    Relayed config name (p', given ++ []) sent := by
  rw [List.append_nil]
  exact ⟨clients.trans relayed.client, by rw [pending]; exact relayed.packets, relayed.nonempty⟩

theorem onPacket (known : streams name = some config) (relayed : Relayed config name (p, given) sent)
    {other : String} {timestamp : ℕ} {data : List UInt8}
    (keeps : KeepsQueued streams name p (.onPacket other timestamp data)) :
    Relayed config name (p.onPacket streams other timestamp data,
      given ++ packetOf name p (.onPacket other timestamp data)) sent := by
  by_cases accepted : ((streams other).isSome && data ≠ []) = true
  · have pending := Chained.pendingOf_onPacket keeps accepted
    have clients : (p.onPacket streams other timestamp data).clients = p.clients := by
      rw [Publisher.onPacket, if_pos accepted]
    have some : data ≠ [] := by simpa using (Bool.and_eq_true_iff.mp accepted).2
    by_cases own : other = name
    · rw [if_pos own] at pending
      rw [packetOf, if_pos ⟨own, some⟩]
      refine ⟨(congrFun clients name).trans relayed.client, ?_, ?_⟩
      · dsimp only
        rw [pending, ← List.append_assoc]
        exact congrArg (· ++ _) relayed.packets
      · simpa [or_imp, forall_and, some] using relayed.nonempty
    · rw [if_neg own, List.append_nil] at pending
      rw [packetOf, if_neg (by simp [own])]
      exact relayed.of_same (congrFun clients name) pending
  · have unchanged : p.onPacket streams other timestamp data = p := by
      rw [Publisher.onPacket, if_neg accepted]
    have nothing : ¬ (other = name ∧ data ≠ []) := by
      rintro ⟨rfl, some⟩
      simp [known, some] at accepted
    rw [unchanged, packetOf, if_neg nothing]
    exact relayed.of_same rfl rfl

theorem serve_sent {video keyframe : Bool} {frame received : List UInt8} {t : Turn}
    (present : t.present = true) (sent : (sendRest false frame t.sends).1 = .sent) :
    Client.serve video frame keyframe { received := received } t = { received := received ++ frame } := by
  have whole : sendRest false frame t.sends = (.sent, frame) := by
    obtain whole | ⟨bytes, -, failed⟩ | ⟨-, full⟩ := sendRest_cases false frame t.sends
    · exact whole
    · rw [failed] at sent
      cases sent
    · rw [full] at sent
      cases sent
  cases video <;> simp [Client.serve, sendFrame, present, whole]

theorem broadcast (known : streams name = some config)
    (relayed : Relayed config name (p, given) sent) {turns : List Turn}
    (delivers : Delivers streams config name (p, given) (.broadcast turns))
    (next : p.broadcast streams turns = some p') :
    ∃ sent', Relayed config name (p', given ++ []) sent' := by
  obtain ⟨k, current, foreign⟩ := Publisher.broadcast_cases next
  by_cases own : k.stream = name
  · obtain ⟨unknown, -⟩ | ⟨config', known', rfl⟩ := foreign
    · rw [own, known] at unknown
      cases unknown
    rw [own, known] at known'
    obtain rfl := Option.some.inj known'
    have success : (turns.headD {}).present = true ∧
        (sendRest false (framed config k) (turns.headD {}).sends).1 = .sent := by
      simpa [Delivers, current, own] using delivers
    have client := relayed.client
    dsimp only at client
    refine ⟨sent ++ [k], ?_, ?_, by simpa using relayed.nonempty⟩
    · dsimp only
      rw [own, client, serveAll, serve_sent success.1 success.2]
      simp [Publisher.reap, serveAll]
    · have packets := relayed.packets
      simp only [Publisher.pendingOf, current, Option.toList_some, List.singleton_append, own,
        decide_true, List.filter_cons_of_pos] at packets
      simpa [Publisher.pendingOf, Publisher.reap] using packets
  · refine ⟨sent, ?_⟩
    have pending : p.queue.filter (·.stream = name) = p.pendingOf name := by
      simp [Publisher.pendingOf, current, own]
    obtain ⟨-, rfl⟩ | ⟨config', -, rfl⟩ := foreign
    · exact relayed.of_same rfl pending
    · exact relayed.of_same (by simp [Publisher.reap, Function.update_of_ne (Ne.symm own)]) pending

theorem probe (relayed : Relayed config name (p, given) sent) {other : String} {turns : List Turn}
    (present : other = name → (turns.headD {}).present = true) :
    Relayed config name (p.probe other turns, given ++ []) sent := by
  refine relayed.of_same ?_ rfl
  by_cases own : other = name
  · subst own
    have client := relayed.client
    dsimp only at client
    rw [Publisher.probe, client, serveAll, present rfl]
    simp [Publisher.reap, serveAll]
  · simp [Publisher.probe, Publisher.reap, Function.update_of_ne (Ne.symm own)]

theorem accept (relayed : Relayed config name (p, given) sent) {other : String} {turns : List Turn}
    (foreign : other ≠ name) : Relayed config name (p.accept other turns, given ++ []) sent := by
  refine relayed.of_same ?_ ?_
  all_goals
    unfold Publisher.accept
    dsimp only
    split_ifs
  · simp [Publisher.probe, Publisher.reap, Function.update_of_ne (Ne.symm foreign)]
  · simp [Publisher.probe, Publisher.reap, Function.update_of_ne (Ne.symm foreign)]
  all_goals rfl

theorem record_step (known : streams name = some config) {s s' : Publisher × List Packet}
    (relayed : ∃ sent, Relayed config name s sent) {e : Event}
    (delivers : Delivers streams config name s e) (next : record streams name s e = some s') :
    ∃ sent, Relayed config name s' sent := by
  obtain ⟨p, given⟩ := s
  obtain ⟨sent, relayed⟩ := relayed
  obtain ⟨p', stepped, rfl⟩ := Option.map_eq_some_iff.mp next
  cases e with
  | onPacket other timestamp data =>
    obtain rfl := Option.some.inj stepped
    exact ⟨sent, relayed.onPacket known delivers⟩
  | take =>
    obtain ⟨k, rest, none, queued, rfl⟩ := Publisher.take_cases stepped
    dsimp only at none queued
    exact ⟨sent, relayed.of_same rfl (by simp [Publisher.pendingOf, none, queued])⟩
  | broadcast turns => exact relayed.broadcast known delivers stepped
  | probe other turns =>
    obtain rfl := Option.some.inj stepped
    exact ⟨sent, relayed.probe delivers⟩
  | accept other turns =>
    obtain rfl := Option.some.inj stepped
    exact ⟨sent, relayed.accept delivers⟩

end Relayed

/-- Every packet of the stream is broadcast as one message, which has its NAL units. -/
theorem frames_relayed {streams : Streams} {name : String} {config : StreamConfig}
    (known : streams name = some config) {seq : ℕ} {events : List Event} {p : Publisher}
    {given : List Packet}
    (along : Along (record streams name) (Delivers streams config name) (connected name seq, [])
      events)
    (run : events.foldlM (record streams name) (connected name seq, []) = some (p, given))
    (flushed : p.pendingOf name = []) {units : Packet → List (Bool × List UInt8)}
    (format : ∀ k ∈ given, k.data = stream (units k) ∧ ∀ u ∈ units k, Clean u.2)
    (small : ∀ k ∈ given, k.data.length + 8 ≤ maxPayload) {durations : List ℕ}
    (enough : given.length ≤ durations.length) :
    List.Forall₂ (Passes config units) given
      (connectAndRead {} durations ((p.clients name).flatMap (·.received))) := by
  have initial : Relayed config name (connected name seq, []) [] :=
    ⟨by simp [connected], rfl, by simp⟩
  obtain ⟨sent, relayed⟩ := foldlM_inv_along (fun s => ∃ sent, Relayed config name s sent)
    (fun _ _ _ inv delivers next => Relayed.record_step known inv delivers next) ⟨[], initial⟩
    along run
  have packets : given = sent := by
    have := relayed.packets
    rwa [flushed, List.append_nil] at this
  rw [relayed.client, List.flatMap_singleton, ← packets]
  exact connectAndRead_framed relayed.nonempty format small enough {}

def oneSlice : List Event :=
  [.onPacket "main" 0 CameraDaemon.Encoded.slice, .take, .broadcast [{ sends := [.accepted 99] }]]

def keyUnits : List (Bool × List UInt8) := [(true, [0x67, 0x42]), (false, [0x65, 0x88])]

/-- A packet with two units, sent in two pieces, one of another stream, and a slice. -/
def threePackets : List Event :=
  [.onPacket "main" 0 (stream keyUnits), .onPacket "sub" 0 CameraDaemon.Encoded.slice, .take,
    .onPacket "main" 40 CameraDaemon.Encoded.slice,
    .broadcast [{ sends := [.accepted 10, .accepted 99] }], .take, .broadcast [], .take,
    .broadcast [{ sends := [.accepted 99] }]]

theorem threePackets_runs :
    (threePackets.foldlM (record twoStreams "main") (connected "main" 4, [])).isSome := by
  decide +kernel

theorem frames_relayed_threePackets : ∃ p given,
    threePackets.foldlM (record twoStreams "main") (connected "main" 4, []) = some (p, given) ∧
      given.map (·.seq) = [5, 6] ∧
      List.Forall₂ (Passes ⟨.h264, 0, 0⟩ fun k => if k.seq = 5 then keyUnits else [(false, [0x41, 0x9A])])
        given (connectAndRead {} [0, 0] ((p.clients "main").flatMap (·.received))) :=
  ⟨_, _, (Option.some_get threePackets_runs).symm, by decide +kernel,
    frames_relayed rfl (by decide +kernel) (Option.some_get threePackets_runs).symm
      (by decide +kernel) (by decide +kernel) (by decide +kernel) (by decide +kernel)⟩

/-- Packet number 65536: the relay broadcasts a NAL unit that the packet does not have. -/
theorem unit_of_number : ∃ p given,
    oneSlice.foldlM (record twoStreams "main") (connected "main" 65535, []) = some (p, given) ∧
      given.map (·.seq) = [65536] ∧ given.map (·.data) = [stream [(false, [0x41, 0x9A])]] ∧
      connectAndRead {} [0] ((p.clients "main").flatMap (·.received)) =
        [(false, some (avcc [0, 0, 0, 0] ++ avcc [0x41, 0x9A]))] :=
  ⟨_, _, (Option.some_get (by decide +kernel)).symm, by decide +kernel, by decide +kernel,
    by decide +kernel⟩

end NeoRuntime.PlatformApi.H264Stream
