import Mathlib.Data.List.Nodup
import NeoRuntime.AppManager.Patch

/-!
# Null patches

A patch with a null value removes the key at its path.  `setPath` has walked down to the mapping of
the last key before it looks at the value, and has created the mappings that were missing.
-/

namespace NeoRuntime.AppManager.Patch

def nullNode : Node := .scalar { tag := "!!null" } "null"

/-- The document after a null patch; it is untouched when the patch is refused. -/
def afterNull (root : Node) (path : String) : Node :=
  match patchDocument root [⟨path, nullNode⟩] with
  | .ok root' => root'
  | .error _ => root

/-- The keys of every mapping that a path leads to are distinct. -/
def Distinct (root : Node) : Prop :=
  ∀ q info es, nodeAt root q = some (.mapping info es) → (es.map (·.1.value)).Nodup

def removeAt : List String → Node → Node
  | [last], .mapping info es => .mapping info (es.filter (·.1.value ≠ last))
  | seg :: rest, .mapping info es =>
    .mapping info (es.map fun e => if e.1.value = seg then (e.1, removeAt rest e.2) else e)
  | _, n => n

/-- A mapping on the way to the last key of the path lacks the next key. -/
def Missing (root : Node) (path : List String) : Prop :=
  ∃ q seg rest info es, path = q ++ seg :: rest ∧ rest ≠ [] ∧
    nodeAt root q = some (.mapping info es) ∧ lookup seg es = none

section Removal

variable {info : Info} {es : Entries} {root root' : Node} {seg : String} {rest : List String}

theorem Distinct.nodup (distinct : Distinct (.mapping info es)) : (es.map (·.1.value)).Nodup :=
  distinct [] info es rfl

theorem Distinct.child (distinct : Distinct (.mapping info es)) (seg : String) :
    Distinct (child seg es) := by
  intro q info' es' found
  cases q with
  | nil =>
    cases here : lookup seg es with
    | none =>
      rw [Patch.child, here] at found
      obtain ⟨-, rfl⟩ := Node.mapping.inj (Option.some.inj found)
      exact List.nodup_nil
    | some v =>
      rw [Patch.child, here] at found
      exact distinct [seg] info' es' (by rw [nodeAt_mapping, here]; exact found)
  | cons key q =>
    exact distinct (seg :: key :: q) info' es' ((nodeAt_child (by simp)).symm.trans found)

theorem lookup_eq_none_iff (key : String) (es : Entries) :
    lookup key es = none ↔ key ∉ es.map (·.1.value) := by
  simp only [lookup, Option.map_eq_none_iff, List.find?_eq_none, decide_eq_true_eq, List.mem_map,
    not_exists, not_and]

theorem eraseP_eq_filter (nodup : (es.map (·.1.value)).Nodup) (last : String) :
    es.eraseP (·.1.value = last) = es.filter (·.1.value ≠ last) := by
  induction es with
  | nil => rfl
  | cons e es ih =>
    rw [List.map_cons, List.nodup_cons] at nodup
    by_cases this : e.1.value = last
    · rw [List.eraseP_cons_of_pos (by simpa using this), List.filter_cons_of_neg (by simpa using this),
        List.filter_eq_self.mpr]
      intro e' inside
      have other : e'.1.value ≠ e.1.value := fun eq =>
        nodup.1 (eq ▸ List.mem_map_of_mem (f := fun e : Key × Node => e.1.value) inside)
      simpa [this] using other
    · rw [List.eraseP_cons_of_neg (by simpa using this), List.filter_cons_of_pos (by simpa using this),
        ih nodup.2]

theorem replace_eq_map (nodup : (es.map (·.1.value)).Nodup) (f : Node → Node) {old : Node}
    (found : lookup seg es = some old) :
    replace seg (fun _ => f old) es =
      es.map fun e => if e.1.value = seg then (e.1, f e.2) else e := by
  induction es with
  | nil => rfl
  | cons e es ih =>
    rw [List.map_cons, List.nodup_cons] at nodup
    rw [lookup_cons] at found
    rw [replace, List.map_cons]
    by_cases this : e.1.value = seg
    · rw [if_pos this] at found
      obtain rfl := Option.some.inj found
      have same : ∀ e' ∈ es, (if e'.1.value = seg then (e'.1, f e'.2) else e') = e' := by
        intro e' inside
        rw [if_neg]
        intro eq
        exact nodup.1 (this.trans eq.symm ▸
          List.mem_map_of_mem (f := fun e : Key × Node => e.1.value) inside)
      rw [if_pos this, if_pos this, List.map_congr_left same, List.map_id']
    · rw [if_neg this] at found
      rw [if_neg this, if_neg this, ih nodup.2 found]

theorem replace_self {old : Node} (found : lookup seg es = some old) :
    replace seg (fun _ => old) es = es := by
  induction es with
  | nil => rfl
  | cons e es ih =>
    rw [lookup_cons] at found
    rw [replace]
    by_cases this : e.1.value = seg
    · rw [if_pos this] at found ⊢
      obtain rfl := Option.some.inj found
      rfl
    · rw [if_neg this] at found
      rw [if_neg this, ih found]

theorem missing_cons (some : rest ≠ []) : Missing (.mapping info es) (seg :: rest) ↔
      lookup seg es = none ∨ ∃ v, lookup seg es = Option.some v ∧ Missing v rest := by
  constructor
  · rintro ⟨q, seg', rest', info', es', split, more, found, absent⟩
    cases q with
    | nil =>
      obtain ⟨rfl, rfl⟩ := List.cons.inj split
      obtain ⟨rfl, rfl⟩ := Node.mapping.inj (Option.some.inj found)
      exact .inl absent
    | cons key q =>
      obtain ⟨rfl, rfl⟩ := List.cons.inj split
      rw [nodeAt_mapping] at found
      obtain ⟨v, here, later⟩ := Option.bind_eq_some_iff.mp found
      exact .inr ⟨v, here, q, seg', rest', info', es', rfl, more, later, absent⟩
  · rintro (absent | ⟨v, here, q, seg', rest', info', es', rfl, more, found, absent⟩)
    · exact ⟨[], seg, rest, info, es, rfl, some, rfl, absent⟩
    · exact ⟨seg :: q, seg', rest', info', es', rfl, more, by rw [nodeAt_mapping, here]; exact found,
        absent⟩

variable {path : List String}

theorem not_missing_of_kind_ne (other : root.kind ≠ .mapping) : ¬ Missing root path := by
  rintro ⟨q, seg, rest, info, es, -, -, found, -⟩
  cases q with
  | nil =>
    obtain rfl := Option.some.inj found
    exact other rfl
  | cons key q =>
    rw [nodeAt_of_kind_ne other (by simp)] at found
    cases found

theorem setLast_null (nodup : (es.map (·.1.value)).Nodup) (last : String) :
    setLast last nullNode es = es.filter (·.1.value ≠ last) := by
  have null : nullNode.isNull = true := rfl
  rw [setLast, if_pos null, if_pos null]
  by_cases present : (lookup last es).isSome = true
  · rw [if_pos present, eraseP_eq_filter nodup]
  · rw [if_neg present, eq_comm, List.filter_eq_self]
    have absent := (lookup_eq_none_iff last es).mp (by simpa using present)
    intro e inside
    have other : e.1.value ≠ last := fun eq => absent (eq ▸ List.mem_map.mpr ⟨e, inside, rfl⟩)
    simpa using other

theorem setPath_null_found (distinct : Distinct root) (some : path ≠ [])
    (found : (nodeAt root path).isSome = true) :
    setPath root path nullNode = .ok (removeAt path root) := by
  induction path generalizing root with
  | nil => exact absurd rfl some
  | cons seg rest ih =>
    have mapping : root.kind = .mapping := by
      by_contra other
      rw [nodeAt_of_kind_ne other (by simp)] at found
      cases found
    obtain ⟨info, es, rfl⟩ := exists_of_kind mapping
    by_cases last : rest = []
    · subst last
      exact congrArg (fun es => Except.ok (Node.mapping info es)) (setLast_null distinct.nodup seg)
    · rw [← nodeAt_child last] at found
      have inner := ih (distinct.child seg) last found
      obtain ⟨-, other⟩ | ⟨-, down⟩ := setPath_down info es seg last nullNode
      · rw [nodeAt_of_kind_ne other last] at found
        cases found
      · cases here : lookup seg es with
        | none =>
          rw [child, here] at found
          exact absurd found (by simp [nodeAt_emptyMapping last])
        | some v =>
          obtain ⟨seg', rest, rfl⟩ := List.exists_cons_of_ne_nil last
          rw [down, inner, child, here]
          change Except.ok (Node.mapping info (put seg (removeAt (seg' :: rest) v) es)) =
            Except.ok (Node.mapping info _)
          rw [put_of_some here, replace_eq_map distinct.nodup _ here]

theorem setPath_null_absent (some : path ≠ []) (mapping : root.kind = .mapping)
    (absent : nodeAt root path = none) (complete : ¬ Missing root path) :
    setPath root path nullNode = .ok root ∨ ∃ e, setPath root path nullNode = .error e := by
  induction path generalizing root with
  | nil => exact absurd rfl some
  | cons seg rest ih =>
    obtain ⟨info, es, rfl⟩ := exists_of_kind mapping
    by_cases last : rest = []
    · subst last
      have none : lookup seg es = none := by
        rw [nodeAt_mapping] at absent
        cases here : lookup seg es with
        | none => rfl
        | some v =>
          rw [here] at absent
          cases absent
      left
      change Except.ok (Node.mapping info (setLast seg nullNode es)) = _
      rw [setLast, none]
      rfl
    · rw [missing_cons last] at complete
      cases here : lookup seg es with
      | none => exact absurd (.inl here) complete
      | some v =>
        have value : child seg es = v := by rw [child, here]; rfl
        obtain ⟨failed, -⟩ | ⟨inner, down⟩ := setPath_down info es seg last nullNode
        · exact .inr ⟨_, failed⟩
        · rw [← nodeAt_child last, value] at absent
          rw [value] at inner
          rw [down, value]
          obtain same | ⟨e, failed⟩ := ih last inner absent fun deeper => complete (.inr ⟨v, here, deeper⟩)
          · rw [same]
            exact .inl (congrArg (fun es => Except.ok (Node.mapping info es))
              ((put_of_some here v).trans (replace_self here)))
          · exact .inr ⟨e, by rw [failed]; rfl⟩

theorem setPath_null_missing (missing : Missing root path) :
    nodeAt root path = none ∧ ∃ root', setPath root path nullNode = .ok root' ∧ root' ≠ root := by
  induction path generalizing root with
  | nil =>
    obtain ⟨q, seg, rest, -, -, split, -⟩ := missing
    simp at split
  | cons seg rest ih =>
    have mapping : root.kind = .mapping := by
      by_contra other
      exact not_missing_of_kind_ne other missing
    obtain ⟨info, es, rfl⟩ := exists_of_kind mapping
    have last : rest ≠ [] := by
      rintro rfl
      obtain ⟨q, seg', rest, -, -, split, some, -⟩ := missing
      have := congrArg List.length split
      have := List.length_pos_iff.mpr some
      simp only [List.length_cons, List.length_append, List.length_nil] at *
      omega
    rw [missing_cons last] at missing
    obtain absent | ⟨v, here, deeper⟩ := missing
    · have new : child seg es = emptyMapping := by rw [child, absent]; rfl
      refine ⟨by rw [nodeAt_mapping, absent]; rfl, ?_⟩
      cases inner : setPath emptyMapping rest nullNode with
      | error e =>
        obtain ⟨q, -, n, -, some, -, found, -⟩ := exists_of_error rfl inner
        rw [nodeAt_emptyMapping some] at found
        cases found
      | ok next =>
        obtain ⟨-, other⟩ | ⟨-, down⟩ := setPath_down info es seg last nullNode
        · rw [new] at other
          exact absurd rfl other
        · rw [new, inner] at down
          refine ⟨_, down, fun same => ?_⟩
          have := congrArg List.length (Node.mapping.inj same).2
          simp [put_of_none absent] at this
    · obtain ⟨none, next, inner, other⟩ := ih deeper
      have value : child seg es = v := by rw [child, here]; rfl
      refine ⟨by rw [nodeAt_mapping, here]; exact none, ?_⟩
      obtain ⟨-, not⟩ | ⟨-, down⟩ := setPath_down info es seg last nullNode
      · rw [value] at not
        exact absurd deeper (not_missing_of_kind_ne not)
      · rw [value, inner] at down
        refine ⟨_, down, fun same => other ?_⟩
        have found := (updated_put next seg es).here
        rw [(Node.mapping.inj same).2, here] at found
        exact (Option.some.inj found).symm

theorem setPath_null_again (distinct : Distinct root) (mapping : root.kind = .mapping)
    (some : path ≠ []) (done : setPath root path nullNode = .ok root') :
    root'.kind = .mapping ∧ setPath root' path nullNode = .ok root' := by
  induction path generalizing root root' with
  | nil => exact absurd rfl some
  | cons seg rest ih =>
    obtain ⟨info, es, rfl⟩ := exists_of_kind mapping
    by_cases last : rest = []
    · subst last
      obtain rfl := Except.ok.inj done
      refine ⟨rfl, ?_⟩
      change Except.ok (Node.mapping info (setLast seg nullNode (setLast seg nullNode es))) =
        Except.ok (Node.mapping info (setLast seg nullNode es))
      have left : ((es.filter (·.1.value ≠ seg)).map (·.1.value)).Nodup :=
        distinct.nodup.sublist (List.filter_sublist.map _)
      rw [setLast_null distinct.nodup, setLast_null left, List.filter_filter]
      simp
    · obtain ⟨failed, -⟩ | ⟨inner, down⟩ := setPath_down info es seg last nullNode
      · rw [failed] at done
        cases done
      · rw [down] at done
        cases deeper : setPath (child seg es) rest nullNode with
        | error e =>
          rw [deeper] at done
          cases done
        | ok next =>
          rw [deeper] at done
          obtain rfl := Except.ok.inj done
          obtain ⟨kind, again⟩ := ih (distinct.child seg) inner last deeper
          have here := (updated_put next seg es).here
          have value : child seg (put seg next es) = next := by rw [child, here]; rfl
          refine ⟨rfl, ?_⟩
          dsimp only
          obtain ⟨-, other⟩ | ⟨-, down'⟩ := setPath_down info (put seg next es) seg last nullNode
          · rw [value] at other
            exact absurd kind other
          · rw [down', value, again]
            exact congrArg (fun es => Except.ok (Node.mapping info es))
              ((put_of_some here next).trans (replace_self here))

end Removal

theorem afterNull_eq {root : Node} (mapping : root.kind = .mapping) {path : String}
    (valid : validatePatchPath path = .ok ()) {result : Except PatchError Node}
    (set : setPath root (segments path) nullNode = result) :
    afterNull root path = result.toOption.getD root := by
  have whole : patchDocument root [⟨path, nullNode⟩] = result := by
    rw [patchDocument, if_pos mapping, List.foldlM_cons, applyPatch, valid]
    dsimp only
    rw [set]
    cases result with
    | ok root' => rfl
    | error e => rfl
  rw [afterNull, whole]
  cases result with
  | ok root' => rfl
  | error e => rfl

/-- A null patch removes the key at its path and changes nothing else, for exactly those paths on
which no mapping is missing. -/
theorem null_patch_iff {root : Node} (distinct : Distinct root) {path : String}
    (valid : validatePatchPath path = .ok ()) :
    ((nodeAt root (segments path) = none → afterNull root path = root) ∧
        ((nodeAt root (segments path)).isSome = true →
          afterNull root path = removeAt (segments path) root) ∧
        afterNull (afterNull root path) path = afterNull root path) ↔
      ¬ Missing root (segments path) := by
  have some := segments_ne_nil path
  by_cases mapping : root.kind = .mapping
  swap
  · have refused : afterNull root path = root := by
      rw [afterNull, patchDocument, if_neg mapping]
    refine ⟨fun _ => not_missing_of_kind_ne mapping, fun _ => ⟨fun _ => refused, fun found => ?_, ?_⟩⟩
    · rw [nodeAt_of_kind_ne mapping some] at found
      cases found
    · rw [refused, refused]
  constructor
  · rintro ⟨unchanged, -, -⟩ missing
    obtain ⟨absent, root', set, other⟩ := setPath_null_missing missing
    rw [afterNull_eq mapping valid set] at unchanged
    exact other (unchanged absent)
  · intro complete
    refine ⟨fun absent => ?_, fun found => ?_, ?_⟩
    · obtain set | ⟨e, set⟩ := setPath_null_absent some mapping absent complete
      · rw [afterNull_eq mapping valid set]
        rfl
      · rw [afterNull_eq mapping valid set]
        rfl
    · rw [afterNull_eq mapping valid (setPath_null_found distinct some found)]
      rfl
    · cases set : setPath root (segments path) nullNode with
      | error e =>
        have same : afterNull root path = root := afterNull_eq mapping valid set
        rw [same, same]
      | ok root' =>
        obtain ⟨kind, again⟩ := setPath_null_again distinct mapping some set
        have once : afterNull root path = root' := afterNull_eq mapping valid set
        rw [once, afterNull_eq kind valid again]
        rfl

def twoKeys : Node :=
  .mapping { tag := "!!map" }
    [(newKey "a", .scalar { tag := "!!int" } "1"), (newKey "b", .scalar { tag := "!!int" } "2")]

theorem twoKeys_distinct : Distinct twoKeys := by
  intro q info es found
  cases q with
  | nil =>
    obtain ⟨-, rfl⟩ := Node.mapping.inj (Option.some.inj found)
    decide
  | cons key q =>
    rw [twoKeys, nodeAt_mapping, lookup_cons, lookup_cons] at found
    split_ifs at found
    all_goals cases q <;> simp [nodeAt] at found

/-- The mapping below a key. -/
def nested : Node :=
  .mapping { tag := "!!map" } [(newKey "a", .scalar { tag := "!!int" } "0"), (newKey "m", twoKeys)]

theorem nested_distinct : Distinct nested := by
  intro q info es found
  cases q with
  | nil =>
    obtain ⟨-, rfl⟩ := Node.mapping.inj (Option.some.inj found)
    decide
  | cons key q =>
    rw [nested, nodeAt_mapping, lookup_cons, lookup_cons] at found
    split_ifs at found
    · cases q <;> simp [nodeAt] at found
    · exact twoKeys_distinct q info es found
    · cases found

theorem null_patch_found : segments "m.b" = ["m", "b"] ∧
    ((nodeAt nested (segments "m.b") = none → afterNull nested "m.b" = nested) ∧
      ((nodeAt nested (segments "m.b")).isSome = true →
        afterNull nested "m.b" = removeAt (segments "m.b") nested) ∧
      afterNull (afterNull nested "m.b") "m.b" = afterNull nested "m.b") := by
  have path : segments "m.b" = ["m", "b"] := by decide
  refine ⟨path, (null_patch_iff nested_distinct rfl).mpr ?_⟩
  rintro ⟨q, seg, rest, info, es, split, some, at_, absent⟩
  rw [path] at split
  cases q with
  | nil =>
    obtain ⟨rfl, -⟩ := List.cons.inj split
    obtain ⟨-, rfl⟩ := Node.mapping.inj (Option.some.inj at_)
    cases absent
  | cons key q => cases q <;> simp_all

/-- Removing a key from a mapping that is not there creates the mapping. -/
theorem mapping_created : nodeAt twoKeys (segments "c.d") = none ∧
      nodeAt (afterNull twoKeys "c.d") ["c"] = some emptyMapping ∧
      afterNull twoKeys "c.d" ≠ twoKeys := by
  refine ⟨rfl, rfl, fun same => ?_⟩
  have created : nodeAt (afterNull twoKeys "c.d") ["c"] = some emptyMapping := rfl
  rw [same] at created
  cases created

end NeoRuntime.AppManager.Patch
