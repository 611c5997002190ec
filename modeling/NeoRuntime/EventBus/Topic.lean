import Mathlib.Data.List.Basic
import Mathlib.Data.List.Infix
import Mathlib.Data.Nat.Notation

/-!
# Topics

`MatchTopic` (platform/common/utils/topic.go): topics are paths of segments between slashes, and a
pattern may hold `*` for one segment and `**` for any number of them.
-/

namespace NeoRuntime.EventBus

/-- The loop of `splitTopic`: `current` is `topic[start:i]`, and empty segments are left out. -/
def splitSegments (current : List Char) : List Char → List String
  | [] => if current = [] then [] else [String.ofList current]
  | c :: rest =>
      if c = '/' then
        if current = [] then splitSegments [] rest else String.ofList current :: splitSegments [] rest
      else splitSegments (current ++ [c]) rest

def splitTopic (topic : String) : List String := splitSegments [] topic.toList

/-- `matchParts`; a `**` tries every rest of the topic. -/
def matchParts (topicParts : List String) : List String → Bool
  | [] => topicParts = []
  | part :: patternParts =>
      if part = "**" then patternParts = [] || topicParts.tails.any (matchParts · patternParts)
      else
        match topicParts with
        | [] => false
        | segment :: rest => (part = "*" || part = segment) && matchParts rest patternParts

def matchTopic (topic pattern : String) : Bool :=
  pattern = topic || pattern = "**" || pattern = "*" ||
    matchParts (splitTopic topic) (splitTopic pattern)

/-! ## The grammar of patterns -/

/-- The non-empty parts between slashes. -/
def segments (topic : String) : List String :=
  ((topic.toList.splitOn '/').filter (· ≠ [])).map String.ofList

/-- The segments are matched by the segments of a pattern. -/
inductive Matches : List String → List String → Prop
  | nil : Matches [] []
  | many (skipped : List String) {rest pattern : List String} :
      Matches rest pattern → Matches (skipped ++ rest) ("**" :: pattern)
  | one (segment : String) {rest pattern : List String} :
      Matches rest pattern → Matches (segment :: rest) ("*" :: pattern)
  | same {segment : String} {rest pattern : List String} (plain : segment ≠ "**" ∧ segment ≠ "*") :
      Matches rest pattern → Matches (segment :: rest) (segment :: pattern)

theorem splitSegments_eq (current rest : List Char) : splitSegments current rest =
      ((((rest.splitOn '/').modifyHead (current ++ ·))).filter (· ≠ [])).map String.ofList := by
  induction rest generalizing current with
  | nil =>
    rw [splitSegments, List.splitOn, List.splitOnP_nil, List.modifyHead_cons, List.append_nil,
      List.filter_singleton]
    by_cases empty : current = [] <;> simp [empty]
  | cons c rest ih =>
    rw [splitSegments, List.splitOn, List.splitOnP_cons_eq_if_modifyHead]
    by_cases slash : c = '/'
    · have nothing : ((rest.splitOn '/').modifyHead ([] ++ ·)) = rest.splitOn '/' :=
        congrFun List.modifyHead_id _
      have here : (c == '/') = true := by simpa using slash
      rw [if_pos slash, if_pos here, ih, nothing, List.modifyHead_cons, List.append_nil,
        List.filter_cons, ← List.splitOn]
      by_cases empty : current = [] <;> simp [empty]
    · rw [if_neg slash, if_neg (by simpa using slash), ih, ← List.splitOn, List.modifyHead_modifyHead]
      congr 3
      funext front
      simp

theorem splitTopic_eq (topic : String) : splitTopic topic = segments topic := by
  rw [splitTopic, splitSegments_eq, segments]
  congr 2
  exact congrFun List.modifyHead_id _

theorem matchParts_many (topic pattern : List String) : matchParts topic ("**" :: pattern) =
      (decide (pattern = []) || topic.tails.any (matchParts · pattern)) := by
  cases topic <;> simp only [matchParts, if_true]

theorem Matches.of_matchParts {pattern topic : List String}
    (found : matchParts topic pattern = true) : Matches topic pattern := by
  induction pattern generalizing topic with
  | nil =>
    obtain rfl : topic = [] := by simpa [matchParts] using found
    exact .nil
  | cons part pattern ih =>
    by_cases many : part = "**"
    · subst many
      rw [matchParts_many, Bool.or_eq_true, decide_eq_true_eq, List.any_eq_true] at found
      obtain rfl | ⟨rest, inside, later⟩ := found
      · simpa using Matches.many topic .nil
      · obtain ⟨skipped, rfl⟩ := (List.mem_tails rest topic).mp inside
        exact .many skipped (ih later)
    · cases topic with
      | nil => simp [matchParts, many] at found
      | cons segment rest =>
        simp only [matchParts, if_neg many, Bool.and_eq_true, Bool.or_eq_true,
          decide_eq_true_eq] at found
        obtain ⟨here, later⟩ := found
        by_cases one : part = "*"
        · subst one
          exact .one segment (ih later)
        · obtain rfl := here.resolve_left one
          exact .same ⟨many, one⟩ (ih later)

theorem Matches.matchParts {topic pattern : List String} (matched : Matches topic pattern) :
    matchParts topic pattern = true := by
  induction matched with
  | nil => rfl
  | @many skipped rest pattern later ih =>
    rw [matchParts_many, Bool.or_eq_true, List.any_eq_true]
    exact .inr ⟨rest, (List.mem_tails rest _).mpr ⟨skipped, rfl⟩, ih⟩
  | one segment later ih => simpa [EventBus.matchParts] using ih
  | same plain later ih => simpa [EventBus.matchParts, plain.1] using ih

/-- A topic is matched as the grammar of patterns says. -/
theorem matchTopic_iff (topic pattern : String) :
    matchTopic topic pattern = true ↔ pattern = topic ∨ pattern = "*" ∨ pattern = "**" ∨
      Matches (segments topic) (segments pattern) := by
  have parts : matchParts (splitTopic topic) (splitTopic pattern) = true ↔
      Matches (segments topic) (segments pattern) := by
    rw [splitTopic_eq, splitTopic_eq]
    exact ⟨Matches.of_matchParts, Matches.matchParts⟩
  simp only [matchTopic, Bool.or_eq_true, decide_eq_true_eq, parts]
  tauto

example : matchTopic "app//a/b/events" "app/**/events" = true := by decide

end NeoRuntime.EventBus
