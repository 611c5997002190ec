import NeoRuntime.HostLink.Wire
import NeoRuntime.Lib.Run
import NeoRuntime.Lib.Segments

/-!
# The framer

What the receiver is for, without its buffers and counters: it holds the bytes of the frame that
it is collecting, at most one frame, and hands the frame on when it is complete.  The bytes it
holds are always the last ones of the stream, which is all that soundness needs.
-/

namespace NeoRuntime.HostLink

/-! ## Frames and their bytes -/

variable (f : HostLinkFrame)

namespace HostLinkFrame

def wire : List UInt8 := f.header.toBytes ++ f.payload ++ le16 f.payloadCrc

/-- The payload has the length the header gives, and the receiver has room for it. -/
structure Sized (f : HostLinkFrame) : Prop where
  length_payload : f.payload.length = f.header.len.toNat
  le_max : f.header.len.toNat ≤ hostLinkCfgMaxPayload

theorem length_wire : f.wire.length = f.payload.length + 16 := by
  simp only [wire, List.length_append, HostLinkHeader.length_toBytes, hostLinkHeaderWireLen,
    length_le16]
  omega

end HostLinkFrame

def headerOf (raw : List UInt8) : HostLinkHeader :=
  HostLinkHeader.ofBytes (raw.take hostLinkHeaderWireLen)

def lenOf (raw : List UInt8) : ℕ := (headerOf raw).len.toNat

def frameOf (raw : List UInt8) : HostLinkFrame where
  header := headerOf raw
  payload := (raw.drop hostLinkHeaderWireLen).take (lenOf raw)
  payloadCrc := readLe16 (raw.drop (hostLinkHeaderWireLen + lenOf raw))

theorem headerOf_append {raw : List UInt8} (long : hostLinkHeaderWireLen ≤ raw.length)
    (rest : List UInt8) : headerOf (raw ++ rest) = headerOf raw := by
  rw [headerOf, headerOf, List.take_append_of_le_length long]

theorem lenOf_append {raw : List UInt8} (long : hostLinkHeaderWireLen ≤ raw.length)
    (rest : List UInt8) : lenOf (raw ++ rest) = lenOf raw := by
  rw [lenOf, lenOf, headerOf_append long]

theorem headerOf_toBytes_append (h : HostLinkHeader) (rest : List UInt8) :
    headerOf (h.toBytes ++ rest) = h := by
  rw [headerOf_append (h.length_toBytes).ge, headerOf,
    List.take_of_length_le (h.length_toBytes).le, HostLinkHeader.ofBytes_toBytes]

theorem headerOf_wire : headerOf f.wire = f.header := by
  rw [HostLinkFrame.wire, List.append_assoc, headerOf_toBytes_append]

theorem lenOf_wire : lenOf f.wire = f.header.len.toNat := by
  rw [lenOf, headerOf_wire]

theorem frameOf_wire {f : HostLinkFrame} (sized : f.Sized) : frameOf f.wire = f := by
  have body : f.wire.drop hostLinkHeaderWireLen = f.payload ++ le16 f.payloadCrc := by
    rw [HostLinkFrame.wire, List.append_assoc, List.drop_left' f.header.length_toBytes]
  have trailer : f.wire.drop (hostLinkHeaderWireLen + f.header.len.toNat) = le16 f.payloadCrc := by
    rw [← List.drop_drop, body, List.drop_left' sized.length_payload]
  rw [frameOf, headerOf_wire, lenOf_wire, body, trailer, List.take_left' sized.length_payload,
    readLe16_le16]

theorem wire_frameOf {raw : List UInt8} (full : raw.length = lenOf raw + 16) :
    (frameOf raw).wire = raw := by
  have head : (headerOf raw).toBytes = raw.take hostLinkHeaderWireLen :=
    HostLinkHeader.toBytes_ofBytes (by
      rw [List.length_take, full, hostLinkHeaderWireLen]
      omega)
  have trailer : le16 (readLe16 (raw.drop (hostLinkHeaderWireLen + lenOf raw))) =
      raw.drop (hostLinkHeaderWireLen + lenOf raw) :=
    le16_readLe16_of_length (by
      rw [List.length_drop, full, hostLinkHeaderWireLen]
      omega)
  rw [HostLinkFrame.wire, frameOf, head, trailer, List.append_assoc, ← List.drop_drop,
    List.take_append_drop, List.take_append_drop]

/-! ## The framer -/

namespace Framer

/-- One more byte; `ok` is whether the allocation made at this byte succeeds. -/
def step (held : List UInt8) (input : UInt8 × Bool) : List UInt8 × List HostLinkFrame :=
  let (b, ok) := input
  let raw := held ++ [b]
  if raw.length = 1 then (if b = 0x48 then [0x48] else [], [])
  else if raw.length = 2 then
    (if b = 0x4C then [0x48, 0x4C] else if b = 0x48 then [0x48] else [], [])
  else if raw.length < hostLinkHeaderWireLen then (raw, [])
  else if raw.length = hostLinkHeaderWireLen then
    (if lenOf raw ≤ hostLinkCfgMaxPayload ∧ ok = true then raw else [], [])
  else if raw.length < lenOf raw + 16 then (raw, [])
  else
    let f := frameOf raw
    ([], if hostLinkCrc16 f.payload = f.payloadCrc ∧ (0 < lenOf raw → ok = true) then [f] else [])

def run : List UInt8 → List (UInt8 × Bool) → List UInt8 × List HostLinkFrame := runLog step

structure Started (held : List UInt8) : Prop where
  sync : [0x48, 0x4C] <+: held
  le_max : hostLinkHeaderWireLen ≤ held.length → lenOf held ≤ hostLinkCfgMaxPayload
  short : hostLinkHeaderWireLen ≤ held.length → held.length < lenOf held + 16

/-- What the framer can hold: nothing, the first sync byte, or the beginning of a frame. -/
inductive Held : List UInt8 → Prop where
  | nothing : Held []
  | half : Held [0x48]
  | started {held : List UInt8} : Started held → Held held

variable {held : List UInt8}

theorem Started.two_le (started : Started held) : 2 ≤ held.length :=
  started.sync.length_le

/-! ### One step, case by case -/

section Steps

variable {held : List UInt8} {b : UInt8} {ok : Bool}

theorem step_nothing : step [] (b, ok) = (if b = 0x48 then [0x48] else [], []) := by
  simp [step]

theorem step_half : step [0x48] (b, ok) =
      (if b = 0x4C then [0x48, 0x4C] else if b = 0x48 then [0x48] else [], []) := by
  simp [step]

theorem step_header (two : 2 ≤ held.length) (short : held.length + 1 < hostLinkHeaderWireLen) :
    step held (b, ok) = (held ++ [b], []) := by
  have := two
  simp only [step, List.length_append, List.length_singleton]
  rw [if_neg (by omega), if_neg (by omega), if_pos short]

theorem step_headerEnd (last : held.length + 1 = hostLinkHeaderWireLen) : step held (b, ok) =
      (if lenOf (held ++ [b]) ≤ hostLinkCfgMaxPayload ∧ ok = true then held ++ [b] else [], []) := by
  simp only [step, List.length_append, List.length_singleton, last, hostLinkHeaderWireLen]
  rfl

theorem step_body (long : hostLinkHeaderWireLen ≤ held.length)
    (short : held.length + 1 < lenOf held + 16) : step held (b, ok) = (held ++ [b], []) := by
  have := long
  rw [hostLinkHeaderWireLen] at this
  simp only [step, List.length_append, List.length_singleton, lenOf_append long,
    hostLinkHeaderWireLen]
  rw [if_neg (by omega), if_neg (by omega), if_neg (by omega), if_neg (by omega), if_pos short]

theorem step_bodyEnd (long : hostLinkHeaderWireLen ≤ held.length)
    (last : lenOf held + 16 ≤ held.length + 1) :
    step held (b, ok) =
      ([], if hostLinkCrc16 (frameOf (held ++ [b])).payload = (frameOf (held ++ [b])).payloadCrc ∧
        (0 < lenOf held → ok = true) then [frameOf (held ++ [b])] else []) := by
  have := long
  rw [hostLinkHeaderWireLen] at this
  simp only [step, List.length_append, List.length_singleton, lenOf_append long,
    hostLinkHeaderWireLen]
  rw [if_neg (by omega), if_neg (by omega), if_neg (by omega), if_neg (by omega),
    if_neg (by omega)]

end Steps

/-! ### Soundness -/

/-- What one step can do: drop what it held, hold one more byte, hold the sync byte alone, or hand
on the complete frame. -/
inductive Did (raw : List UInt8) : List UInt8 × List HostLinkFrame → Prop where
  | dropped : Did raw ([], [])
  | half : [0x48] <:+ raw → Did raw ([0x48], [])
  | kept : Started raw → Did raw (raw, [])
  | handed : [0x48, 0x4C] <+: raw → raw.length = lenOf raw + 16 →
      lenOf raw ≤ hostLinkCfgMaxPayload →
      hostLinkCrc16 (frameOf raw).payload = (frameOf raw).payloadCrc →
      Did raw ([], [frameOf raw])

theorem step_did (holds : Held held) (b : UInt8) (ok : Bool) :
    Did (held ++ [b]) (step held (b, ok)) := by
  cases holds with
  | nothing =>
    rw [step_nothing]
    split
    · rename_i h48
      subst h48
      exact .half (List.suffix_refl _)
    · exact .dropped
  | half =>
    rw [step_half]
    split_ifs with h4c h48
    · subst h4c
      exact .kept ⟨List.prefix_refl _, by simp [hostLinkHeaderWireLen],
        by simp [hostLinkHeaderWireLen]⟩
    · subst h48
      exact .half (by simp)
    · exact .dropped
  | started started =>
    have two := started.two_le
    have sync : [0x48, 0x4C] <+: held ++ [b] := started.sync.trans (List.prefix_append _ _)
    have grown : (held ++ [b]).length = held.length + 1 := by simp
    rcases Nat.lt_trichotomy (held.length + 1) hostLinkHeaderWireLen with short | last | long
    · rw [step_header two short]
      exact .kept ⟨sync, by omega, by omega⟩
    · rw [step_headerEnd last]
      split_ifs with fits
      · refine .kept ⟨sync, fun _ => fits.1, fun _ => ?_⟩
        rw [grown, last, hostLinkHeaderWireLen]
        omega
      · exact .dropped
    · have long : hostLinkHeaderWireLen ≤ held.length := by omega
      have same : lenOf (held ++ [b]) = lenOf held := lenOf_append long [b]
      have le_max := started.le_max long
      have short := started.short long
      rcases Nat.lt_or_ge (held.length + 1) (lenOf held + 16) with more | last
      · rw [step_body long more]
        exact .kept ⟨sync, fun _ => same ▸ le_max, fun _ => by omega⟩
      · rw [step_bodyEnd long last]
        split_ifs with crc
        · exact .handed sync (by omega) (by omega) crc.1
        · exact .dropped

theorem step_held (holds : Held held) (input : UInt8 × Bool) : Held (step held input).1 := by
  obtain ⟨b, ok⟩ := input
  have did := step_did holds b ok
  generalize step held (b, ok) = next at did
  cases did with
  | dropped => exact .nothing
  | half => exact .half
  | kept started => exact .started started
  | handed => exact .nothing

theorem run_held (holds : Held held) (inputs : List (UInt8 × Bool)) : Held (run held inputs).1 :=
  runLog_inv Held (fun _ input holds => step_held holds input) holds inputs

structure Checked (f : HostLinkFrame) : Prop extends f.Sized where
  sync : [0x48, 0x4C] <+: f.wire
  crc : hostLinkCrc16 f.payload = f.payloadCrc

theorem checked_frameOf {raw : List UInt8} (sync : [0x48, 0x4C] <+: raw)
    (full : raw.length = lenOf raw + 16) (le_max : lenOf raw ≤ hostLinkCfgMaxPayload)
    (crc : hostLinkCrc16 (frameOf raw).payload = (frameOf raw).payloadCrc) :
    Checked (frameOf raw) where
  length_payload := by
    change ((raw.drop hostLinkHeaderWireLen).take (lenOf raw)).length = lenOf raw
    rw [List.length_take, List.length_drop, full, hostLinkHeaderWireLen]
    omega
  le_max := le_max
  sync := by rwa [wire_frameOf full]
  crc := crc

/-- The stream so far is the segments of the frames handed on, with gaps, and then the bytes
held. -/
structure Accounts (stream held : List UInt8) (frames : List HostLinkFrame) : Prop where
  holds : Held held
  picks : ∃ past, stream = past ++ held ∧ Picks (frames.map HostLinkFrame.wire) past
  checked : ∀ f ∈ frames, Checked f

theorem accounts_step {stream : List UInt8} {frames : List HostLinkFrame}
    (acc : Accounts stream held frames) (input : UInt8 × Bool) :
    Accounts (stream ++ [input.1]) (step held input).1 (frames ++ (step held input).2) := by
  obtain ⟨b, ok⟩ := input
  obtain ⟨past, rfl, picks⟩ := acc.picks
  have did := step_did acc.holds b ok
  have holds := step_held acc.holds (b, ok)
  generalize step held (b, ok) = next at did holds
  refine ⟨holds, ?_, ?_⟩
  · rw [List.append_assoc]
    cases did with
    | dropped => exact ⟨past ++ (held ++ [b]), by simp, by simpa using picks.append_gap _⟩
    | half suffix =>
      obtain ⟨gap, split⟩ := suffix
      exact ⟨past ++ gap, by simp [← split], by simpa using picks.append_gap gap⟩
    | kept started => exact ⟨past, rfl, by simpa using picks⟩
    | handed sync full le_max crc =>
      refine ⟨past ++ (held ++ [b]), by simp, ?_⟩
      simpa [wire_frameOf full] using picks.snoc (held ++ [b])
  · cases did with
    | dropped | half | kept => simpa using acc.checked
    | handed sync full le_max crc =>
      intro f mem
      rcases List.mem_append.1 mem with old | new
      · exact acc.checked f old
      · rw [List.mem_singleton.1 new]
        exact checked_frameOf sync full le_max crc

/-- Every frame handed on is a segment of the stream that passes the checks; the segments are
disjoint and in order. -/
theorem run_accounts {stream : List UInt8} {frames : List HostLinkFrame}
    (acc : Accounts stream held frames) (inputs : List (UInt8 × Bool)) :
    Accounts (stream ++ inputs.map Prod.fst) (run held inputs).1
      (frames ++ (run held inputs).2) := by
  induction inputs generalizing stream held frames with
  | nil => simpa [run] using acc
  | cons input inputs ih =>
    have rest := ih (accounts_step acc input)
    rw [run, runLog_cons]
    simpa [run, List.append_assoc] using rest

/-! ### Complete frames -/

theorem run_collect {raw tail : List UInt8} {inputs : List (UInt8 × Bool)}
    (split : raw = held ++ inputs.map Prod.fst ++ tail) (tail_ne : tail ≠ [])
    (two : 2 ≤ held.length) (long : raw.length = lenOf raw + 16)
    (le_max : lenOf raw ≤ hostLinkCfgMaxPayload) (memory : ∀ i ∈ inputs, i.2 = true) :
    run held inputs = (held ++ inputs.map Prod.fst, []) := by
  induction inputs generalizing held with
  | nil => simp [run]
  | cons input inputs ih =>
    obtain ⟨b, ok⟩ := input
    have good : ok = true := memory (b, ok) (List.mem_cons_self ..)
    subst good
    have split' : raw = (held ++ [b]) ++ inputs.map Prod.fst ++ tail := by simp [split]
    have tail_pos : 0 < tail.length := List.length_pos_iff.2 tail_ne
    have total : raw.length = held.length + 1 + inputs.length + tail.length := by
      simp only [split', List.length_append, List.length_singleton, List.length_map]
    have collect : step held (b, true) = (held ++ [b], []) := by
      rcases Nat.lt_trichotomy (held.length + 1) hostLinkHeaderWireLen with short | last | more
      · exact step_header two short
      · have same : lenOf (held ++ [b]) = lenOf raw := by
          have long : hostLinkHeaderWireLen ≤ (held ++ [b]).length := by simp [last]
          rw [split', List.append_assoc (held ++ [b]), lenOf_append long]
        rw [step_headerEnd last, if_pos ⟨same ▸ le_max, rfl⟩]
      · have more : hostLinkHeaderWireLen ≤ held.length := by omega
        have same : lenOf held = lenOf raw := by
          rw [split', List.append_assoc, List.append_assoc, lenOf_append more]
        exact step_body more (by omega)
    rw [run, runLog_cons, collect]
    have rest := ih split' (by simp; omega) fun i mem => memory i (List.mem_cons_of_mem _ mem)
    rw [run] at rest
    simp only [rest, List.nil_append, List.map_cons, List.append_assoc, List.singleton_append]

theorem run_rest {f : HostLinkFrame} (checked : Checked f)
    {inputs : List (UInt8 × Bool)} (split : f.wire = held ++ inputs.map Prod.fst)
    (two : 2 ≤ held.length) (more : inputs ≠ []) (memory : ∀ i ∈ inputs, i.2 = true) :
    run held inputs = ([], [f]) := by
  have full : f.wire.length = lenOf f.wire + 16 := by
    rw [f.length_wire, lenOf_wire, checked.length_payload]
  have le_max : lenOf f.wire ≤ hostLinkCfgMaxPayload := by
    rw [lenOf_wire]
    exact checked.le_max
  -- all bytes but the last are collected; the last one completes the frame
  obtain ⟨body, ⟨b, ok⟩, rfl⟩ := List.eq_nil_or_concat' inputs |>.resolve_left more
  have good : ok = true := memory (b, ok) (by simp)
  subst good
  have split' : f.wire = held ++ body.map Prod.fst ++ [b] := by simpa using split
  have collect := run_collect split' (by simp) two full le_max fun i mem =>
    memory i (List.mem_append_left _ mem)
  have before : f.wire.length = (held ++ body.map Prod.fst).length + 1 := by
    rw [split', List.length_append, List.length_singleton]
  have long : hostLinkHeaderWireLen ≤ (held ++ body.map Prod.fst).length := by
    rw [hostLinkHeaderWireLen]
    omega
  have same : lenOf (held ++ body.map Prod.fst) = lenOf f.wire := by
    rw [split', lenOf_append long]
  have last : run (held ++ body.map Prod.fst) [(b, true)] = ([], [f]) := by
    simp only [run, runLog_cons, runLog_nil]
    rw [step_bodyEnd long (by omega), ← split', frameOf_wire checked.toSized,
      if_pos ⟨checked.crc, fun _ => rfl⟩]
    rfl
  rw [run] at collect last ⊢
  rw [runLog_append, collect, last]
  rfl

theorem run_frame {f : HostLinkFrame} (checked : Checked f)
    (hunting : held = [] ∨ held = [0x48]) {inputs : List (UInt8 × Bool)}
    (wire : inputs.map Prod.fst = f.wire) (memory : ∀ i ∈ inputs, i.2 = true) :
    run held inputs = ([], [f]) := by
  obtain ⟨rest, sync⟩ := checked.sync
  simp only [List.cons_append, List.nil_append] at sync
  rw [← sync] at wire
  obtain ⟨⟨b₀, ok₀⟩, inputs₁, rfl, rfl, wire₁⟩ := List.map_eq_cons_iff.1 wire
  obtain ⟨⟨b₁, ok₁⟩, inputs₂, rfl, rfl, wire₂⟩ := List.map_eq_cons_iff.1 wire₁
  have first : step held (0x48, ok₀) = ([0x48], []) := by
    rcases hunting with rfl | rfl
    · simp [step_nothing]
    · simp [step_half]
  have second : step [0x48] (0x4C, ok₁) = ([0x48, 0x4C], []) := by simp [step_half]
  have more : inputs₂ ≠ [] := by
    rintro rfl
    have := f.length_wire
    rw [← sync, ← wire₂] at this
    simp at this
  have last : run [0x48, 0x4C] inputs₂ = ([], [f]) :=
    run_rest checked (by simp [← sync, wire₂]) le_rfl more fun i mem =>
      memory i (by simp [mem])
  rw [run] at last ⊢
  simp only [runLog_cons, first, second, last, List.nil_append]

end Framer

end NeoRuntime.HostLink
