import NeoRuntime.CameraDaemon.Rtsp.Packets
import NeoRuntime.PlatformApi.H264Stream

/-!
# Three readers of start codes

The RTSP server and the relay cut a byte string into the same NAL units, those of `parse`
(`splitters_agree`).  The publisher looks for keyframes with a loop of its own, which passes over the
byte behind a start code.  Where a short code follows at once, it misses that code (`seen`).
-/

namespace NeoRuntime.PlatformApi.H264Stream

open AnnexB CameraDaemon.Encoded CameraDaemon.Rtsp

theorem splitNals_parse (data : List UInt8) :
    splitNals data = ((parse data).2.map Prod.snd).filter (· ≠ []) := by
  obtain ⟨eq, first, tight⟩ := parse_spec data
  have := splitNals_eq _ first tight
  rwa [← eq] at this

theorem splitNALUnits_parse (data : List UInt8) :
    splitNALUnits data = ((parse data).2.map Prod.snd).filter (· ≠ []) := by
  obtain ⟨eq, first, tight⟩ := parse_spec data
  have := splitNALUnits_eq first tight
  rwa [← eq] at this

theorem AllTight.noCode {units : List (Bool × List UInt8)} (tight : AllTight units) :
    ∀ u ∈ units, ¬ [0, 0, 1] <:+: u.2 := by
  induction units with
  | nil => simp
  | cons u us ih => exact List.forall_mem_cons.2 ⟨tight.1.noCode, ih tight.2⟩

/-- The splitters agree; their units are pieces of the string in order, without a start code, and
those of every well-formed stream. -/
theorem splitters_agree (data : List UInt8) : splitNals data = splitNALUnits data ∧
      (∃ before units, data = before ++ stream units ∧
        splitNals data = (units.map Prod.snd).filter (· ≠ [])) ∧
      (∀ nal ∈ splitNals data, nal ≠ [] ∧ ¬ [0, 0, 1] <:+: nal) ∧
      ∀ units : List (Bool × List UInt8), (∀ u ∈ units, Clean u.2) → data = stream units →
        splitNals data = units.map Prod.snd := by
  obtain ⟨eq, -, tight⟩ := parse_spec data
  refine ⟨by rw [splitNals_parse, splitNALUnits_parse], ⟨_, _, eq, splitNals_parse data⟩, ?_, ?_⟩
  · intro nal mem
    rw [splitNals_parse, List.mem_filter] at mem
    obtain ⟨u, inside, rfl⟩ := List.mem_map.1 mem.1
    exact ⟨by simpa using mem.2, AllTight.noCode tight u inside⟩
  · rintro units clean rfl
    exact splitNals_stream clean

theorem splitters_agree_mixed :
    splitNals [9, 0, 0, 0, 1, 0x67, 0, 0, 1, 0x68, 0xCE] = [[0x67], [0x68, 0xCE]] ∧
      splitNALUnits (stream [(true, [0x67]), (false, [0x68])]) = [[0x67], [0x68]] := by
  refine ⟨by decide, ?_⟩
  obtain ⟨same, -, -, found⟩ := splitters_agree (stream [(true, [0x67]), (false, [0x68])])
  rw [← same]
  exact found [(true, [0x67]), (false, [0x68])] (by decide) rfl

/-! ## Keyframes -/

/-- The units whose start code the publisher finds. -/
def seen : List (Bool × List UInt8) → List (List UInt8)
  | (_, []) :: (false, _) :: us => seen us
  | u :: us => u.2 :: seen us
  | [] => []

variable (codec : Codec)

/-- A unit of the type that the publisher looks for. -/
def isKey (nal : List UInt8) : Bool := startsSequence codec (nal.headD 0)

theorem startsSequence_zero : startsSequence codec 0 = false := by
  cases codec <;> rfl

theorem detectKeyframe_skip {b : UInt8} {bs : List UInt8}
    (none : codeLength (b :: bs) = 0) : detectKeyframe codec (b :: bs) = detectKeyframe codec bs := by
  rw [detectKeyframe]
  · rintro nal rest rfl rfl
    simp [codeLength] at none
  · rintro nal rest rfl rfl
    simp [codeLength] at none

theorem detectKeyframe_tight {unit rest : List UInt8} (tight : Tight unit rest) :
    detectKeyframe codec (unit ++ rest) = detectKeyframe codec rest := by
  induction unit with
  | nil => rfl
  | cons b bs ih => exact (detectKeyframe_skip codec tight.1).trans (ih tight.2)

theorem detectKeyframe_code (long : Bool) (nal : UInt8) (rest : List UInt8) :
    detectKeyframe codec (code long ++ nal :: rest) =
      (startsSequence codec nal || detectKeyframe codec rest) := by
  cases long <;> rfl

theorem detectKeyframe_stream {units : List (Bool × List UInt8)} (tight : AllTight units) :
    detectKeyframe codec (stream units) = (seen units).any (isKey codec) := by
  fun_induction seen units with
  | case1 long unit us ih =>
    obtain ⟨-, second, others⟩ := tight
    have shape : stream ((long, []) :: (false, unit) :: us) =
        code long ++ 0 :: ([0, 1] ++ (unit ++ stream us)) := by simp [stream_cons, code]
    have tail : Tight [0, 1] (unit ++ stream us) := ⟨by simp [codeLength], by simp [codeLength], trivial⟩
    rw [shape, detectKeyframe_code, startsSequence_zero, Bool.false_or, detectKeyframe_tight codec tail,
      detectKeyframe_tight codec second, ih others]
  | case2 u us other ih =>
    obtain ⟨first, others⟩ := tight
    obtain ⟨long, _ | ⟨nal, rest⟩⟩ := u
    · obtain _ | ⟨⟨_ | _, unit⟩, us⟩ := us
      · cases long <;> simp [stream, code, detectKeyframe, seen, isKey, startsSequence_zero]
      · exact absurd rfl (other long unit us rfl)
      -- without its first zero the long code is a short one
      · have shape : stream ((long, []) :: (true, unit) :: us) =
            code long ++ 0 :: (code false ++ (unit ++ stream us)) := by simp [stream_cons, code]
        have short : detectKeyframe codec (code false ++ (unit ++ stream us)) =
            detectKeyframe codec (stream ((true, unit) :: us)) := by
          rw [stream_cons, List.append_assoc]
          cases unit ++ stream us with
          | nil => rfl
          | cons nal rest => rw [detectKeyframe_code, detectKeyframe_code]
        rw [shape, detectKeyframe_code, short, ih others]
        rfl
    · rw [stream_cons, List.append_assoc, List.cons_append, detectKeyframe_code,
        detectKeyframe_tight codec first.2, ih others]
      rfl
  | case3 => rfl

theorem seen_subset (units : List (Bool × List UInt8)) : seen units ⊆ units.map Prod.snd := by
  fun_induction seen units with
  | case1 long unit us ih => exact fun nal mem => .tail _ (.tail _ (ih mem))
  | case2 u us other ih => exact List.cons_subset_cons _ ih
  | case3 => exact List.nil_subset _

/-- The publisher agrees with the splitter unless it misses the start codes of all keyframe units.
-/
theorem keyframe_agrees_iff (codec : Codec) (data : List UInt8) :
    detectKeyframe codec data = (splitNals data).any (isKey codec) ↔
      (((parse data).2.map Prod.snd).any (isKey codec) = true →
        (seen (parse data).2).any (isKey codec) = true) := by
  obtain ⟨eq, first, tight⟩ := parse_spec data
  have detected : detectKeyframe codec data = (seen (parse data).2).any (isKey codec) := by
    conv_lhs => rw [eq]
    rw [detectKeyframe_tight codec first, detectKeyframe_stream codec tight]
  have split : (splitNals data).any (isKey codec) =
      ((parse data).2.map Prod.snd).any (isKey codec) := by
    rw [splitNals_parse, List.any_filter]
    congr 1
    funext nal
    cases nal <;> simp [isKey, startsSequence_zero]
  rw [detected, split]
  constructor
  · exact fun same found => same.trans found
  · intro kept
    rw [Bool.eq_iff_iff]
    refine ⟨fun found => ?_, kept⟩
    obtain ⟨nal, mem, key⟩ := List.any_eq_true.1 found
    exact List.any_eq_true.2 ⟨nal, seen_subset _ mem, key⟩

/-- Two start codes before an IDR slice. -/
theorem keyframe_missed : detectKeyframe .h264 [0, 0, 1, 0, 0, 1, 0x65] = false ∧
      splitNals [0, 0, 1, 0, 0, 1, 0x65] = [[0x65]] ∧ isKey .h264 [0x65] = true := by decide

end NeoRuntime.PlatformApi.H264Stream
