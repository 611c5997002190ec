import NeoRuntime.PlatformApi.NalUnits

/-!
# Browsers of the relay

`broadcastNAL` (platform/platform-api/handlers/h264_stream.go) puts a frame into the queue of every
browser that has room, and keeps frames that begin with a parameter set, with all their units, for
browsers that come later (`cache_of_parameter_sets`).  A browser with a full queue gets the next
frame whatever it is (`clients_resynchronise`).
-/

namespace NeoRuntime.PlatformApi.H264Stream

/-! ## Queues -/

def clientSendQueue : ℕ := 60

structure ClientSender where
  /-- The frames, each with whether it is a keyframe. -/
  ch : List (Bool × List UInt8) := []
  /-- A frame was not put into the queue after the last one that was. -/
  missed : Bool := false

structure Stream where
  relay : Relay := {}
  clients : List (ℕ × ClientSender) := []

inductive StreamEvent
  /-- A frame is read, and takes so many milliseconds. -/
  | frame (payload : List UInt8) (flag : Bool) (ms : ℕ)
  | addClient (conn : ℕ)
  | removeClient (conn : ℕ)
  | send (conn : ℕ)

structure Put where
  conn : ℕ
  keyframe : Bool
  missed : Bool
  deriving DecidableEq

def ClientSender.hasRoom (c : ClientSender) : Bool := c.ch.length < clientSendQueue

def ClientSender.offer (keyframe : Bool) (frame : List UInt8) (c : ClientSender) : ClientSender :=
  if c.hasRoom then { ch := c.ch ++ [(keyframe, frame)] } else { c with missed := true }

def Stream.skip (s : Stream) : Stream :=
  { s with clients := s.clients.map fun c => (c.1, { c.2 with missed := true }) }

def streamStep (s : Stream) : StreamEvent → Stream × List Put
  | .frame payload flag ms =>
    let keyframe := trackKeyframes payload flag
    if s.clients.isEmpty then (s, [])
    else if s.relay.droppingPframes && !keyframe then (s.skip, [])
    else
      match processAnnexB payload with
      | none => ({ s.skip with relay := s.relay.after ms }, [])
      | some frame =>
        ({ relay := s.relay.after ms
           clients := s.clients.map fun c => (c.1, c.2.offer keyframe frame) },
          (s.clients.filter (·.2.hasRoom)).map fun c => ⟨c.1, keyframe, c.2.missed⟩)
  | .addClient conn =>
    ({ s with clients := (conn, {}) :: s.clients.filter (·.1 ≠ conn) }, [])
  | .removeClient conn => ({ s with clients := s.clients.filter (·.1 ≠ conn) }, [])
  | .send conn =>
    ({ s with clients := s.clients.map fun c =>
        if c.1 = conn then (c.1, { c.2 with ch := c.2.ch.tail }) else c }, [])

/-- A frame that is not dropped has a NAL unit and finds room in all queues. -/
def Served (s : Stream) : StreamEvent → Prop
  | .frame payload flag _ => (s.relay.droppingPframes && !trackKeyframes payload flag) = true ∨
      (processAnnexB payload).isSome = true ∧ ∀ c ∈ s.clients, c.2.hasRoom = true
  | _ => True

instance (s : Stream) : DecidablePred (Served s) := fun e => by
  cases e <;> unfold Served <;> infer_instance

/-- Frames are missed in degraded mode only. -/
def MissedDegraded (s : Stream) : Prop :=
  ∀ c ∈ s.clients, c.2.missed = true → s.relay.droppingPframes = true

theorem MissedDegraded.step {s : Stream} {e : StreamEvent} (inv : MissedDegraded s)
    (served : Served s e) : MissedDegraded (streamStep s e).1 := by
  cases e with
  | addClient conn =>
    intro c mem missed
    obtain rfl | mem := List.mem_cons.1 mem
    · cases missed
    · exact inv c (List.mem_filter.1 mem).1 missed
  | removeClient conn =>
    intro c mem missed
    exact inv c (List.mem_filter.1 mem).1 missed
  | send conn =>
    intro c mem missed
    obtain ⟨d, inside, rfl⟩ := List.mem_map.1 mem
    refine inv d inside ?_
    split_ifs at missed <;> exact missed
  | frame payload flag ms =>
    rw [streamStep]
    split_ifs with none dropped
    · exact inv
    · intro c mem missed
      exact (Bool.and_eq_true_iff.1 dropped).1
    · obtain drops | ⟨some, room⟩ := served
      · exact absurd drops dropped
      obtain ⟨frame, processed⟩ := Option.isSome_iff_exists.1 some
      simp only [processed]
      intro c mem missed
      obtain ⟨d, inside, rfl⟩ := List.mem_map.1 mem
      rw [ClientSender.offer, if_pos (room d inside)] at missed
      cases missed

/-- After a missed frame a browser gets a keyframe, if queues are never full and frames have a NAL
unit. -/
theorem clients_resynchronise {events : List StreamEvent}
    (along : AlongLog streamStep Served {} events) :
    ∀ o ∈ (runLog streamStep {} events).2, o.missed = true → o.keyframe = true := by
  refine along.forall_mem MissedDegraded (fun s e inv served o mem missed => ?_)
    (fun s e inv served => inv.step served) (by simp [MissedDegraded])
  cases e with
  | addClient | removeClient | send => cases mem
  | frame payload flag ms =>
    rw [streamStep] at mem
    split_ifs at mem with none dropped
    · cases mem
    · cases mem
    · cases processed : processAnnexB payload with
      | none => simp [processed] at mem
      | some frame =>
        simp only [processed] at mem
        obtain ⟨c, inside, rfl⟩ := List.mem_map.1 mem
        have degraded := inv c (List.mem_filter.1 inside).1 missed
        simpa [degraded] using dropped

def pFrame (ms : ℕ) : StreamEvent := .frame [0, 0, 1, 0x41] false ms

def degradedRun : List StreamEvent :=
  .addClient 1 :: List.replicate 5 (pFrame 60) ++ [pFrame 0, .frame [0, 0, 1, 0x65] false 0]

theorem clients_resynchronise_degraded : ⟨1, true, true⟩ ∈ (runLog streamStep {} degradedRun).2 ∧
    ∀ o ∈ (runLog streamStep {} degradedRun).2, o.missed = true → o.keyframe = true :=
  ⟨by decide +kernel, clients_resynchronise (by decide +kernel)⟩

/-- A queue that is full for one frame: the next one is not a keyframe. -/
theorem slice_after_full_queue : ⟨1, false, true⟩ ∈ (runLog streamStep {}
    (.addClient 1 :: List.replicate 61 (pFrame 0) ++ [.send 1, pFrame 0])).2 := by
  decide +kernel

/-! ## Parameter sets -/

def nalType (nal : List UInt8) : UInt8 := nal.headD 0 &&& 0x1F

/-- What `broadcastNAL` does to the cache. -/
def cacheFrame (spsPPS : List (List UInt8)) (frameData : List UInt8) : List (List UInt8) :=
  if 5 ≤ frameData.length then
    let nalType := frameData.getD 4 0 &&& 0x1F
    if nalType = 7 then [frameData]
    else if nalType = 8 then
      let spsPPS := spsPPS ++ [frameData]
      if 2 < spsPPS.length then spsPPS.drop (spsPPS.length - 2) else spsPPS
    else spsPPS
  else spsPPS

structure Cache where
  spsPPS : List (List UInt8) := []
  /-- The NAL units since the cache was cleared. -/
  units : List (List UInt8) := []

inductive CacheEvent
  | processAnnexB (data : List UInt8)
  | clearSpsPpsCache
  | addClient

def Cache.processAnnexB (c : Cache) (data : List UInt8) : Cache where
  spsPPS := (H264Stream.processAnnexB data).elim c.spsPPS (cacheFrame c.spsPPS)
  units := c.units ++ splitNALUnits data

/-- A step, and the cache that a new browser is sent. -/
def cacheStep (c : Cache) : CacheEvent → Cache × List Cache
  | .processAnnexB data => (c.processAnnexB data, [])
  | .clearSpsPpsCache => ({}, [])
  | .addClient => (c, [c])

def latest (type : UInt8) (units : List (List UInt8)) : Option (List UInt8) :=
  (units.filter (nalType · = type)).getLast?

/-- The cache has parameter sets in AVCC form, the last ones of both types among them. -/
def Complete (c : Cache) : Prop :=
  ∃ frames : List (List (List UInt8)), c.spsPPS = frames.map (·.flatMap avcc) ∧
    (∀ nal ∈ frames.flatten, nalType nal = 7 ∨ nalType nal = 8) ∧
    ∀ type ∈ [7, 8], ∀ nal, latest type c.units = some nal → nal ∈ frames.flatten

/-- A frame has no parameter set, or is made of ones that can replace or join the cached ones. -/
def Joins (c : Cache) : CacheEvent → Prop
  | .processAnnexB data =>
    (∀ nal ∈ splitNALUnits data, nalType nal ≠ 7 ∧ nalType nal ≠ 8) ∨
    ((∀ nal ∈ splitNALUnits data, nalType nal = 7 ∨ nalType nal = 8) ∧
      (splitNALUnits data).head?.map nalType = some 7 ∧
      ((∃ nal ∈ splitNALUnits data, nalType nal = 8) ∨ ∀ nal ∈ c.units, nalType nal ≠ 8)) ∨
    ((∀ nal ∈ splitNALUnits data, nalType nal = 8) ∧
      (c.spsPPS.length ≤ 1 ∨ ∀ nal ∈ c.units, nalType nal ≠ 7))
  | _ => True

theorem latest_append (type : UInt8) (a b : List (List UInt8)) :
    latest type (a ++ b) = (latest type b).or (latest type a) := by
  rw [latest, List.filter_append, List.getLast?_append]
  rfl

theorem latest_eq_none {type : UInt8} {units : List (List UInt8)} :
    latest type units = none ↔ ∀ nal ∈ units, nalType nal ≠ type := by
  simp [latest]

theorem latest_mem {type : UInt8} {units : List (List UInt8)} {nal : List UInt8}
    (last : latest type units = some nal) : nal ∈ units ∧ nalType nal = type := by
  simpa using List.mem_filter.1 (List.mem_of_getLast? last)

theorem processAnnexB_eq {data nal : List UInt8} {rest : List (List UInt8)}
    (units : splitNALUnits data = nal :: rest) :
    processAnnexB data = some ((nal :: rest).flatMap avcc) ∧ nal ≠ [] := by
  have ne : ∀ u ∈ nal :: rest, u ≠ [] := by
    intro u mem
    rw [← units, splitNALUnits_parse] at mem
    simpa using (List.mem_filter.1 mem).2
  have all : (nal :: rest).filter (· ≠ []) = nal :: rest := by
    rw [List.filter_eq_self]
    simpa using ne
  refine ⟨?_, ne nal List.mem_cons_self⟩
  rw [processAnnexB, units, all, if_neg]
  intro none
  simpa [avcc] using congrArg List.length none

theorem cacheFrame_eq (spsPPS : List (List UInt8)) {nal : List UInt8} (ne : nal ≠ [])
    (rest : List (List UInt8)) :
    cacheFrame spsPPS ((nal :: rest).flatMap avcc) =
      if nalType nal = 7 then [(nal :: rest).flatMap avcc]
      else if nalType nal = 8 then
        if 2 < spsPPS.length + 1 then
          (spsPPS ++ [(nal :: rest).flatMap avcc]).drop (spsPPS.length + 1 - 2)
        else spsPPS ++ [(nal :: rest).flatMap avcc]
      else spsPPS := by
  obtain ⟨b, bs, rfl⟩ := List.exists_cons_of_ne_nil ne
  have long : 5 ≤ (((b :: bs) :: rest).flatMap avcc).length := by simp [avcc]; omega
  have type : (((b :: bs) :: rest).flatMap avcc).getD 4 0 = b := by
    rw [List.flatMap_cons, avcc, List.append_assoc, List.getD_append_right _ _ _ _ (by simp)]
    simp
  rw [cacheFrame, if_pos long, type]
  simp [nalType]

theorem complete_of_frames {c : Cache} {data : List UInt8} (frames : List (List (List UInt8)))
    (cached : (processAnnexB data).elim c.spsPPS (cacheFrame c.spsPPS) =
      frames.map (·.flatMap avcc))
    (params : ∀ nal ∈ frames.flatten, nalType nal = 7 ∨ nalType nal = 8)
    (new : ∀ nal ∈ splitNALUnits data, nalType nal = 7 ∨ nalType nal = 8 → nal ∈ frames.flatten)
    (old : ∀ type ∈ [7, 8], (∀ nal ∈ splitNALUnits data, nalType nal ≠ type) →
      ∀ nal, latest type c.units = some nal → nal ∈ frames.flatten) :
    Complete (c.processAnnexB data) := by
  refine ⟨frames, cached, params, fun type mem nal last => ?_⟩
  rw [Cache.processAnnexB, latest_append] at last
  cases found : latest type (splitNALUnits data) with
  | none =>
    rw [found] at last
    exact old type mem (latest_eq_none.1 found) nal last
  | some nal' =>
    rw [found] at last
    obtain rfl := Option.some.inj last
    obtain ⟨inside, rfl⟩ := latest_mem found
    exact new nal' inside (by simpa using mem)

theorem Complete.step {c : Cache} {e : CacheEvent} (complete : Complete c) (joins : Joins c e) :
    Complete (cacheStep c e).1 := by
  obtain ⟨frames, eq, params, last⟩ := complete
  cases e with
  | addClient => exact ⟨frames, eq, params, last⟩
  | clearSpsPpsCache => exact ⟨[], rfl, by simp, by simp [cacheStep, latest]⟩
  | processAnnexB data =>
    cases units : splitNALUnits data with
    | nil =>
      have same : processAnnexB data = none := by simp [processAnnexB, units]
      refine complete_of_frames frames (by rw [same]; exact eq) params (by simp [units]) ?_
      exact fun type mem _ => last type mem
    | cons nal rest =>
      obtain ⟨processed, ne⟩ := processAnnexB_eq units
      have cached : (processAnnexB data).elim c.spsPPS (cacheFrame c.spsPPS) = _ :=
        (congrArg (Option.elim · _ _) processed).trans (cacheFrame_eq c.spsPPS ne rest)
      rw [Joins, units] at joins
      obtain others | ⟨all, first, second⟩ | ⟨all, room⟩ := joins
      · obtain ⟨notSps, notPps⟩ := others nal List.mem_cons_self
        rw [if_neg notSps, if_neg notPps] at cached
        refine complete_of_frames frames (cached.trans eq) params ?_ fun type mem _ => last type mem
        rw [units]
        exact fun u mem param => absurd param (not_or.2 (others u mem))
      · rw [if_pos (by simpa using first)] at cached
        refine complete_of_frames [nal :: rest] cached (by simpa using all) ?_ ?_
        all_goals rw [units]
        · exact fun u mem _ => by simpa using mem
        · intro type mem none u latest
          obtain rfl | rfl : type = 7 ∨ type = 8 := by simpa using mem
          · exact absurd (by simpa using first) (none nal List.mem_cons_self)
          · obtain ⟨v, inside, pps⟩ | without := second
            · exact absurd pps (none v inside)
            · rw [latest_eq_none.2 without] at latest
              cases latest
      · have pps := all nal List.mem_cons_self
        have length : c.spsPPS.length = frames.length := by rw [eq, List.length_map]
        have trimmed : (processAnnexB data).elim c.spsPPS (cacheFrame c.spsPPS) =
            (frames.drop (frames.length - 1) ++ [nal :: rest]).map (·.flatMap avcc) := by
          rw [cached, if_neg (by rw [pps]; decide), if_pos pps, length, List.map_append,
            List.map_drop, ← eq]
          split_ifs with many
          · rw [List.drop_append_of_le_length (by omega)]
            rfl
          · rw [show frames.length - 1 = 0 by omega]
            rfl
        refine complete_of_frames _ trimmed ?_ ?_ ?_
        · simp only [List.flatten_append, List.mem_append]
          rintro u (mem | mem)
          · obtain ⟨frame, inside, mem⟩ := List.mem_flatten.1 mem
            exact params u (List.mem_flatten.2 ⟨frame, List.mem_of_mem_drop inside, mem⟩)
          · exact .inr (all u (by simpa using mem))
        · rw [units]
          exact fun u mem _ => by simp [List.mem_cons.1 mem]
        · rw [units]
          intro type mem none u latest
          obtain rfl | rfl : type = 7 ∨ type = 8 := by simpa using mem
          · obtain few | without := room
            · rw [show frames.length - 1 = 0 by omega, List.flatten_append]
              exact List.mem_append_left _ (last 7 (by simp) u latest)
            · rw [latest_eq_none.2 without] at latest
              cases latest
          · exact absurd pps (none nal List.mem_cons_self)

/-- A new browser is sent parameter sets, the last ones of both types among them, if each frame
without slices fits. -/
theorem cache_of_parameter_sets {events : List CacheEvent}
    (along : AlongLog cacheStep Joins {} events) :
    ∀ c ∈ (runLog cacheStep {} events).2, Complete c := by
  refine along.forall_mem Complete (fun c e complete _ sent mem => ?_)
    (fun c e complete joins => complete.step joins) ⟨[], rfl, by simp, by simp [latest]⟩
  cases e with
  | addClient =>
    obtain rfl := List.mem_singleton.1 mem
    exact complete
  | processAnnexB | clearSpsPpsCache => cases mem

theorem cache_of_parameter_sets_pair :
    AlongLog cacheStep Joins {} [.processAnnexB [0, 0, 1, 0x67, 0, 0, 1, 0x68], .addClient] ∧
      ∀ c ∈ (runLog cacheStep {} [.processAnnexB [0, 0, 1, 0x67, 0, 0, 1, 0x68], .addClient]).2,
        Complete c := by
  have along : AlongLog cacheStep Joins {}
      [.processAnnexB [0, 0, 1, 0x67, 0, 0, 1, 0x68], .addClient] :=
    ⟨.inr (.inl ⟨by decide, by decide, .inl ⟨[0x68], by decide⟩⟩), trivial, trivial⟩
  exact ⟨along, cache_of_parameter_sets along⟩

/-- The AVCC form determines the units. -/
theorem flatMap_avcc_inj {us vs : List (List UInt8)} (small : (vs.flatMap avcc).length < 256 ^ 4)
    (eq : us.flatMap avcc = vs.flatMap avcc) : us = vs := by
  induction us generalizing vs with
  | nil =>
    cases vs with
    | nil => rfl
    | cons v vs =>
      have := congrArg List.length eq
      simp [avcc] at this
      omega
  | cons u us ih =>
    cases vs with
    | nil => simpa [avcc] using congrArg List.length eq
    | cons v vs =>
      have total := congrArg List.length eq
      simp only [List.flatMap_cons, avcc, List.append_assoc, List.length_append] at eq total small
      obtain ⟨header, rest⟩ := List.append_inj eq (by simp)
      have length : u.length = v.length := by
        rw [← ofBeBytes_beBytes (k := 4) (v := u.length) (by omega), header,
          ofBeBytes_beBytes (by omega)]
      obtain ⟨rfl, after⟩ := List.append_inj rest length
      rw [ih (by omega) after]

/-- A keyframe as encoders make it: the cache holds the slice. -/
theorem slice_cached : ∃ c ∈ (runLog cacheStep {}
    [.processAnnexB [0, 0, 1, 0x67, 0, 0, 1, 0x68, 0, 0, 1, 0x65], .addClient]).2, ¬ Complete c := by
  refine ⟨_, List.mem_singleton_self _, ?_⟩
  rintro ⟨frames, eq, params, -⟩
  have bytes : [[[0x67], [0x68], [0x65]].flatMap avcc] = frames.map (·.flatMap avcc) := eq
  obtain ⟨units, rfl, flat⟩ := List.map_eq_singleton_iff.1 bytes.symm
  obtain rfl := flatMap_avcc_inj (by decide) flat
  exact absurd (params [0x65] (by decide)) (by decide)

end NeoRuntime.PlatformApi.H264Stream
