import Mathlib.Data.List.Infix

/-!
# Patches of manifests

`PatchDocument` (platform/app-manager/manifest/patch.go) edits the tree of a YAML document.  A patch
names a value by the keys that lead to it; `setPath` walks down along them, creates what is missing,
and puts the value in place.  A null value removes the last key instead.
-/

namespace NeoRuntime.AppManager.Patch

structure Info where
  tag : String
  headComment : String := ""
  lineComment : String := ""
  footComment : String := ""
  deriving DecidableEq

structure Key where
  info : Info
  value : String
  deriving DecidableEq

/-- `yaml.Node`, for documents whose keys are scalars. -/
inductive Node
  | scalar (info : Info) (value : String)
  | sequence (info : Info) (items : List Node)
  | mapping (info : Info) (entries : List (Key × Node))
  | reference (info : Info) (anchor : String)

inductive Kind
  | scalar
  | sequence
  | mapping
  | reference
  deriving DecidableEq

inductive PatchError
  | emptyPath
  | emptySegment (path : String)
  | rootNotMapping
  | notMapping (key : String) (kind : Kind)
  | cannotDescend (kind : Kind) (key : String)
  deriving DecidableEq

namespace Node

def kind : Node → Kind
  | scalar .. => .scalar
  | sequence .. => .sequence
  | mapping .. => .mapping
  | reference .. => .reference

def info : Node → Info
  | scalar info _ | sequence info _ | mapping info _ | reference info _ => info

def withInfo (info : Info) : Node → Node
  | scalar _ value => .scalar info value
  | sequence _ items => .sequence info items
  | mapping _ entries => .mapping info entries
  | reference _ anchor => .reference info anchor

def isNull : Node → Bool
  | scalar info _ => info.tag = "!!null"
  | _ => false

/-- The new value, with the comments of the old one where it has none of its own. -/
def carry (value old : Node) : Node :=
  let comment (own old : String) : String := if own = "" then old else own
  value.withInfo
    { value.info with
      headComment := comment value.info.headComment old.info.headComment
      lineComment := comment value.info.lineComment old.info.lineComment
      footComment := comment value.info.footComment old.info.footComment }

end Node

abbrev Entries := List (Key × Node)

def lookup (key : String) (entries : Entries) : Option Node :=
  (entries.find? (·.1.value = key)).map (·.2)

/-- The first entry with the key gets another value. -/
def replace (key : String) (f : Node → Node) : Entries → Entries
  | [] => []
  | e :: es => if e.1.value = key then (e.1, f e.2) :: es else e :: replace key f es

def newKey (segment : String) : Key := { info := { tag := "!!str" }, value := segment }

def emptyMapping : Node := .mapping { tag := "!!map" } []

/-- The end of `setPath`, in the mapping of the last segment. -/
def setLast (last : String) (value : Node) (entries : Entries) : Entries :=
  if (lookup last entries).isSome then
    if value.isNull then entries.eraseP (·.1.value = last) else replace last value.carry entries
  else if value.isNull then entries
  else entries ++ [(newKey last, value)]

def childMapping (n : Node) (key : String) : Except PatchError (Option Node) :=
  match n with
  | .mapping _ entries =>
    match lookup key entries with
    | none => .ok none
    | some v => if v.kind = .mapping then .ok (some v) else .error (.notMapping key v.kind)
  | n => .error (.cannotDescend n.kind key)

def Node.withEntries (f : Entries → Entries) : Node → Node
  | .mapping info entries => .mapping info (f entries)
  | n => n

/-- `setPath`; a path has at least one segment. -/
def setPath (n : Node) : List String → Node → Except PatchError Node
  | [], _ => .ok n
  | [last], value => .ok (n.withEntries (setLast last value))
  | seg :: seg' :: rest, value =>
    match childMapping n seg with
    | .error e => .error e
    | .ok none => (setPath emptyMapping (seg' :: rest) value).map fun next =>
        n.withEntries (· ++ [(newKey seg, next)])
    | .ok (some child) => (setPath child (seg' :: rest) value).map fun next =>
        n.withEntries (replace seg fun _ => next)

/-- `strings.Split(path, ".")`. -/
def segments (path : String) : List String := (path.toList.splitOn '.').map String.ofList

def validatePatchPath (path : String) : Except PatchError Unit :=
  if path = "" then .error .emptyPath
  else if "" ∈ segments path then .error (.emptySegment path)
  else .ok ()

/-- `FieldPatch`, with the value that `jsonToNode` makes of it. -/
structure FieldPatch where
  path : String
  value : Node

/-- The body of the loop of `PatchDocument`. -/
def applyPatch (root : Node) (op : FieldPatch) : Except PatchError Node :=
  match validatePatchPath op.path with
  | .error e => .error e
  | .ok () => setPath root (segments op.path) op.value

/-- `PatchDocument`, between the parser and the encoder. -/
def patchDocument (root : Node) (ops : List FieldPatch) : Except PatchError Node :=
  if root.kind = .mapping then ops.foldlM applyPatch root else .error .rootNotMapping

/-! ## Values by path -/

def nodeAt : Node → List String → Option Node
  | n, [] => some n
  | .mapping _ entries, key :: q => (lookup key entries).bind (nodeAt · q)
  | _, _ :: _ => none

theorem nodeAt_mapping (info : Info) (es : Entries) (key : String) (q : List String) :
    nodeAt (.mapping info es) (key :: q) = (lookup key es).bind (nodeAt · q) := rfl

theorem exists_of_kind {n : Node} (mapping : n.kind = .mapping) :
    ∃ info es, n = .mapping info es := by
  cases n with
  | mapping info es => exact ⟨info, es, rfl⟩
  | scalar | sequence | reference => cases mapping

theorem nodeAt_of_kind_ne {n : Node} (other : n.kind ≠ .mapping) {q : List String} (some : q ≠ []) :
    nodeAt n q = none := by
  obtain ⟨key, q, rfl⟩ := List.exists_cons_of_ne_nil some
  cases n with
  | mapping => exact absurd rfl other
  | scalar | sequence | reference => rfl

theorem nodeAt_emptyMapping {q : List String} (some : q ≠ []) : nodeAt emptyMapping q = none := by
  obtain ⟨key, q, rfl⟩ := List.exists_cons_of_ne_nil some
  rfl

theorem segments_ne_nil (path : String) : segments path ≠ [] := by
  simp [segments, List.splitOn_ne_nil]

/-! ## One mapping -/

@[simp] theorem lookup_nil (key : String) : lookup key [] = none := rfl

theorem lookup_cons (key : String) (e : Key × Node) (es : Entries) :
    lookup key (e :: es) = if e.1.value = key then some e.2 else lookup key es := by
  by_cases here : e.1.value = key <;> simp [lookup, here]

/-- One key of a mapping has a new value, and is perhaps new itself. -/
structure Updated (key : String) (value : Node) (es es' : Entries) : Prop where
  here : lookup key es' = some value
  others : ∀ other, other ≠ key → lookup other es' = lookup other es
  keys : es.map Prod.fst <+: es'.map Prod.fst

theorem Updated.replace {key : String} {es : Entries} {old : Node} (found : lookup key es = some old)
    (f : Node → Node) : Updated key (f old) es (replace key f es) := by
  induction es with
  | nil => cases found
  | cons e es ih =>
    rw [lookup_cons] at found
    rw [Patch.replace]
    by_cases this : e.1.value = key
    · rw [if_pos this] at found ⊢
      obtain rfl := Option.some.inj found
      refine ⟨by rw [lookup_cons, if_pos this], fun other ne => ?_, by simp⟩
      have not : ¬ e.1.value = other := fun eq => ne (eq.symm.trans this)
      rw [lookup_cons, lookup_cons, if_neg not, if_neg not]
    · rw [if_neg this] at found ⊢
      have rest := ih found
      refine ⟨by rw [lookup_cons, if_neg this, rest.here], fun other ne => ?_, ?_⟩
      · rw [lookup_cons, lookup_cons, rest.others other ne]
      · exact List.cons_prefix_cons.mpr ⟨rfl, rest.keys⟩

theorem Updated.append {key : String} {es : Entries} (absent : lookup key es = none) (value : Node) :
    Updated key value es (es ++ [(newKey key, value)]) := by
  induction es with
  | nil =>
    refine ⟨by simp [lookup_cons, newKey], fun other ne => ?_, by simp⟩
    rw [List.nil_append, lookup_cons, if_neg (show ¬ (newKey key, value).1.value = other from Ne.symm ne)]
  | cons e es ih =>
    rw [lookup_cons] at absent
    by_cases this : e.1.value = key
    · rw [if_pos this] at absent
      cases absent
    · rw [if_neg this] at absent
      have rest := ih absent
      refine ⟨?_, fun other ne => ?_, by simp⟩
      · rw [List.cons_append, lookup_cons, if_neg this, rest.here]
      · rw [List.cons_append, lookup_cons, lookup_cons, rest.others other ne]

def carried (value : Node) : Option Node → Node
  | none => value
  | some old => value.carry old

theorem updated_setLast {value : Node} (present : value.isNull = false) (last : String)
    (es : Entries) : Updated last (carried value (lookup last es)) es (setLast last value es) := by
  unfold setLast
  rw [present]
  cases found : lookup last es with
  | none => exact .append found value
  | some old => exact .replace found value.carry

/-! ## One patch -/

section Path

variable {info : Info} {es : Entries} {root root' value : Node} {seg : String} {rest : List String}

def child (seg : String) (es : Entries) : Node := (lookup seg es).getD emptyMapping

def put (seg : String) (next : Node) (es : Entries) : Entries :=
  if (lookup seg es).isSome then replace seg (fun _ => next) es else es ++ [(newKey seg, next)]

theorem childMapping_mapping (info : Info) (es : Entries) (seg : String) :
    childMapping (.mapping info es) seg =
      if (child seg es).kind = .mapping then .ok (lookup seg es)
      else .error (.notMapping seg (child seg es).kind) := by
  rw [childMapping, child]
  cases lookup seg es with
  | none => rfl
  | some v => rfl

theorem setPath_down (info : Info) (es : Entries) (seg : String) (some : rest ≠ []) (value : Node) :
    (setPath (.mapping info es) (seg :: rest) value = .error (.notMapping seg (child seg es).kind) ∧
        (child seg es).kind ≠ .mapping) ∨
      (child seg es).kind = .mapping ∧
        setPath (.mapping info es) (seg :: rest) value =
          (setPath (child seg es) rest value).map fun next =>
            .mapping info (put seg next es) := by
  obtain ⟨seg', rest, rfl⟩ := List.exists_cons_of_ne_nil some
  rw [setPath, childMapping_mapping]
  by_cases mapping : (child seg es).kind = .mapping
  · right
    refine ⟨mapping, ?_⟩
    rw [if_pos mapping]
    unfold child put
    cases lookup seg es with
    | none => rfl
    | some v => rfl
  · exact .inl ⟨by rw [if_neg mapping], mapping⟩

theorem put_of_some {old : Node} (found : lookup seg es = some old) (next : Node) :
    put seg next es = replace seg (fun _ => next) es := by
  rw [put, if_pos (by rw [found]; rfl)]

theorem put_of_none (absent : lookup seg es = none) (next : Node) :
    put seg next es = es ++ [(newKey seg, next)] := by
  rw [put, if_neg (by simp [absent])]

theorem updated_put (next : Node) (seg : String) (es : Entries) :
    Updated seg next es (put seg next es) := by
  cases found : lookup seg es with
  | none => exact put_of_none found next ▸ .append found next
  | some old => exact put_of_some found next ▸ .replace found fun _ => next

section

variable (present : value.isNull = false)

include present

/-- One key of the mapping gets a new value: that of the patch, or what the patch makes of the old
one. -/
theorem setPath_cons
    (done : setPath (.mapping info es) (seg :: rest) value = .ok root') :
    ∃ next es', root' = .mapping info es' ∧ Updated seg next es es' ∧
      (rest = [] ∧ next = carried value (lookup seg es) ∨
        rest ≠ [] ∧ (child seg es).kind = .mapping ∧
          setPath (child seg es) rest value = .ok next) := by
  by_cases last : rest = []
  · subst last
    obtain rfl := Except.ok.inj done
    exact ⟨_, _, rfl, updated_setLast present seg es, .inl ⟨rfl, rfl⟩⟩
  · obtain ⟨failed, -⟩ | ⟨mapping, down⟩ := setPath_down info es seg last value
    · rw [failed] at done
      cases done
    · rw [down] at done
      cases inner : setPath (child seg es) rest value with
      | error e =>
        rw [inner] at done
        cases done
      | ok next =>
        rw [inner] at done
        obtain rfl := Except.ok.inj done
        exact ⟨next, _, rfl, updated_put next seg es, .inr ⟨last, mapping, rfl⟩⟩

omit present in
theorem nodeAt_child (some : rest ≠ []) :
    nodeAt (child seg es) rest = nodeAt (.mapping info es) (seg :: rest) := by
  rw [nodeAt_mapping, child]
  cases lookup seg es with
  | none => exact nodeAt_emptyMapping some
  | some v => rfl

variable (mapping : root.kind = .mapping)

include mapping

theorem kind_setPath
    {path : List String} (done : setPath root path value = .ok root') : root'.kind = .mapping := by
  obtain ⟨info, es, rfl⟩ := exists_of_kind mapping
  cases path with
  | nil => exact (Except.ok.inj done) ▸ mapping
  | cons seg rest =>
    obtain ⟨next, es', rfl, -⟩ := setPath_cons present done
    rfl

theorem nodeAt_path
    {path : List String} (some : path ≠ []) (done : setPath root path value = .ok root') :
    nodeAt root' path = Option.some (carried value (nodeAt root path)) := by
  induction path generalizing root root' with
  | nil => exact absurd rfl some
  | cons seg rest ih =>
    obtain ⟨info, es, rfl⟩ := exists_of_kind mapping
    obtain ⟨next, es', rfl, updated, ⟨rfl, rfl⟩ | ⟨more, inner, down⟩⟩ := setPath_cons present done
    · rw [nodeAt_mapping, updated.here, nodeAt_mapping]
      cases lookup seg es with
      | none => rfl
      | some old => rfl
    · rw [nodeAt_mapping, updated.here, ← nodeAt_child more]
      exact ih inner more down

theorem nodeAt_of_incomparable
    {path q : List String} (below : ¬ path <+: q) (above : ¬ q <+: path)
    (done : setPath root path value = .ok root') : nodeAt root' q = nodeAt root q := by
  induction path generalizing root root' q with
  | nil => exact absurd List.nil_prefix below
  | cons seg rest ih =>
    obtain ⟨info, es, rfl⟩ := exists_of_kind mapping
    obtain ⟨next, es', rfl, updated, cases⟩ := setPath_cons present done
    cases q with
    | nil => exact absurd List.nil_prefix above
    | cons key q =>
      by_cases same : key = seg
      · subst same
        rw [List.cons_prefix_cons] at below above
        obtain ⟨rfl, -⟩ | ⟨-, inner, down⟩ := cases
        · exact absurd ⟨rfl, List.nil_prefix⟩ below
        · have some : q ≠ [] := by
            rintro rfl
            exact above ⟨rfl, List.nil_prefix⟩
          rw [nodeAt_mapping, updated.here, ← nodeAt_child some]
          exact ih inner (fun inside => below ⟨rfl, inside⟩) (fun inside => above ⟨rfl, inside⟩) down
      · rw [nodeAt_mapping, nodeAt_mapping, updated.others key same]

/-- The mappings above the path and beside it keep their keys, with new ones behind them. -/
theorem keysAt
    {path q : List String} (below : ¬ path <+: q) (done : setPath root path value = .ok root')
    {info : Info} {es : Entries} (found : nodeAt root q = some (.mapping info es)) :
    ∃ es', nodeAt root' q = some (.mapping info es') ∧ es.map Prod.fst <+: es'.map Prod.fst := by
  induction path generalizing root root' q with
  | nil => exact absurd List.nil_prefix below
  | cons seg rest ih =>
    obtain ⟨info₀, es₀, rfl⟩ := exists_of_kind mapping
    obtain ⟨next, es', rfl, updated, cases⟩ := setPath_cons present done
    cases q with
    | nil =>
      obtain ⟨rfl, rfl⟩ := Node.mapping.inj (Option.some.inj found)
      exact ⟨es', rfl, updated.keys⟩
    | cons key q =>
      by_cases same : key = seg
      · subst same
        rw [List.cons_prefix_cons] at below
        obtain ⟨rfl, -⟩ | ⟨-, inner, down⟩ := cases
        · exact absurd ⟨rfl, List.nil_prefix⟩ below
        · rw [nodeAt_mapping] at found ⊢
          obtain ⟨old, here, later⟩ := Option.bind_eq_some_iff.mp found
          rw [updated.here]
          exact ih inner (fun inside => below ⟨rfl, inside⟩) down (by rwa [child, here])
      · rw [nodeAt_mapping] at found ⊢
        rw [updated.others key same]
        exact ⟨es, found, List.prefix_rfl⟩

end

/-- A refused patch has a value on its way that is not a mapping. -/
theorem exists_of_error (mapping : root.kind = .mapping) {path : List String} {e : PatchError}
    (refused : setPath root path value = .error e) :
    ∃ q rest n, path = q ++ rest ∧ q ≠ [] ∧ rest ≠ [] ∧ nodeAt root q = some n ∧
      n.kind ≠ .mapping := by
  induction path generalizing root e with
  | nil => cases refused
  | cons seg rest ih =>
    obtain ⟨info, es, rfl⟩ := exists_of_kind mapping
    by_cases last : rest = []
    · subst last
      cases refused
    obtain ⟨-, other⟩ | ⟨inner, down⟩ := setPath_down info es seg last value
    · refine ⟨[seg], rest, child seg es, rfl, by simp, last, ?_, other⟩
      rw [nodeAt_mapping]
      unfold child at other ⊢
      cases found : lookup seg es with
      | none =>
        rw [found] at other
        exact absurd rfl other
      | some v => rfl
    · rw [down] at refused
      cases failed : setPath (child seg es) rest value with
      | ok next =>
        rw [failed] at refused
        cases refused
      | error e' =>
        obtain ⟨q, left, n, rfl, some, more, found, other⟩ := ih inner failed
        exact ⟨seg :: q, left, n, rfl, by simp, more, (nodeAt_child some).symm.trans found, other⟩

end Path

/-! ## Documents -/

section Document

variable {root root' : Node} {op : FieldPatch} {ops : List FieldPatch}

theorem setPath_of_applyPatch (done : applyPatch root op = .ok root') :
    setPath root (segments op.path) op.value = .ok root' := by
  unfold applyPatch at done
  cases valid : validatePatchPath op.path with
  | error e =>
    rw [valid] at done
    cases done
  | ok u =>
    rw [valid] at done
    exact done

theorem foldlM_cons_ok (done : (op :: ops).foldlM applyPatch root = .ok root') :
    ∃ mid, applyPatch root op = .ok mid ∧ ops.foldlM applyPatch mid = .ok root' := by
  rw [List.foldlM_cons] at done
  cases first : applyPatch root op with
  | error e =>
    rw [first] at done
    cases done
  | ok mid =>
    rw [first] at done
    exact ⟨mid, rfl, done⟩

/-- What holds of the tree and is kept by every patch. -/
theorem patches_inv (Inv : Node → Prop) (present : ∀ op ∈ ops, op.value.isNull = false)
    (kept : ∀ op ∈ ops, ∀ n n', n.kind = .mapping → Inv n →
      setPath n (segments op.path) op.value = .ok n' → Inv n')
    (mapping : root.kind = .mapping) (start : Inv root)
    (done : ops.foldlM applyPatch root = .ok root') : Inv root' := by
  induction ops generalizing root with
  | nil => exact (Except.ok.inj done) ▸ start
  | cons op ops ih =>
    obtain ⟨mid, first, rest⟩ := foldlM_cons_ok done
    have set := setPath_of_applyPatch first
    obtain ⟨here, others⟩ := List.forall_mem_cons.mp present
    exact ih others (fun op inside => kept op (List.mem_cons_of_mem _ inside))
      (kind_setPath here mapping set)
      (kept op List.mem_cons_self root mid mapping start set) rest

theorem nodeAt_last (present : ∀ op ∈ ops, op.value.isNull = false) (mapping : root.kind = .mapping)
    (last : ops.getLast? = some op) (done : ops.foldlM applyPatch root = .ok root') :
    ∃ old, nodeAt root' (segments op.path) = some (carried op.value old) := by
  induction ops generalizing root with
  | nil => cases last
  | cons first ops ih =>
    obtain ⟨mid, set, rest⟩ := foldlM_cons_ok done
    have set := setPath_of_applyPatch set
    obtain ⟨here, others⟩ := List.forall_mem_cons.mp present
    by_cases only : ops = []
    · subst only
      obtain rfl : first = op := by simpa using last
      obtain rfl := Except.ok.inj rest
      exact ⟨_, nodeAt_path here mapping (segments_ne_nil _) set⟩
    · refine ih others (kind_setPath here mapping set) ?_ rest
      rwa [List.getLast?_cons_of_ne_nil only] at last

end Document

/-- Patches change only the values at their paths, keys keep their places, and a patch is refused
only for a value on its way that is not a mapping. -/
theorem patches_local :
    (∀ (root root' : Node) (ops : List FieldPatch), (∀ op ∈ ops, op.value.isNull = false) →
      patchDocument root ops = .ok root' →
      (∀ op, ops.getLast? = some op →
        ∃ old, nodeAt root' (segments op.path) = some (carried op.value old)) ∧
      (∀ q, (∀ op ∈ ops, ¬ segments op.path <+: q ∧ ¬ q <+: segments op.path) →
        nodeAt root' q = nodeAt root q) ∧
      ∀ q info es, (∀ op ∈ ops, ¬ segments op.path <+: q) →
        nodeAt root q = some (.mapping info es) →
        ∃ es', nodeAt root' q = some (.mapping info es') ∧
          es.map Prod.fst <+: es'.map Prod.fst) ∧
    ∀ (root value : Node) (path : List String) (e : PatchError), root.kind = .mapping →
      setPath root path value = .error e →
      ∃ q rest n, path = q ++ rest ∧ q ≠ [] ∧ rest ≠ [] ∧ nodeAt root q = some n ∧
        n.kind ≠ .mapping := by
  refine ⟨fun root root' ops present done => ?_, fun root value path e mapping refused =>
    exists_of_error mapping refused⟩
  unfold patchDocument at done
  by_cases mapping : root.kind = .mapping
  swap
  · rw [if_neg mapping] at done
    cases done
  rw [if_pos mapping] at done
  refine ⟨fun op last => nodeAt_last present mapping last done, fun q beside => ?_,
    fun q info es below found => ?_⟩
  · refine patches_inv (fun n => nodeAt n q = nodeAt root q) present ?_ mapping rfl done
    intro op inside n n' kind same set
    exact (nodeAt_of_incomparable (present op inside) kind (beside op inside).1 (beside op inside).2
      set).trans same
  · refine patches_inv (fun n => ∃ es', nodeAt n q = some (.mapping info es') ∧
      es.map Prod.fst <+: es'.map Prod.fst) present ?_ mapping ⟨es, found, List.prefix_rfl⟩ done
    rintro op inside n n' kind ⟨es', here, keys⟩ set
    obtain ⟨es'', later, more⟩ := keysAt (present op inside) kind (below op inside) set here
    exact ⟨es'', later, keys.trans more⟩

def sampleDocument : Node :=
  .mapping { tag := "!!map" }
    [(newKey "spec", .mapping { tag := "!!map", headComment := "# limits" }
        [(newKey "cpu", .scalar { tag := "!!int", lineComment := "# cores" } "2")]),
      (newKey "models", .sequence { tag := "!!seq" } [])]

def samplePatches : List FieldPatch :=
  [⟨"spec.cpu", .scalar { tag := "!!int" } "4"⟩, ⟨"meta.owner.name", .scalar { tag := "!!str" } "me"⟩]

theorem samplePatches_accepted : ∃ root', patchDocument sampleDocument samplePatches = .ok root' :=
  ⟨_, rfl⟩

theorem patches_local_sample : ∃ root', patchDocument sampleDocument samplePatches = .ok root' ∧
    nodeAt root' ["models"] = nodeAt sampleDocument ["models"] ∧
    ∃ old, nodeAt root' ["meta", "owner", "name"] =
      some (carried (.scalar { tag := "!!str" } "me") old) := by
  obtain ⟨root', accepted⟩ := samplePatches_accepted
  obtain ⟨last, beside, -⟩ := patches_local.1 sampleDocument root' samplePatches
    (by decide +kernel) accepted
  exact ⟨root', accepted, beside ["models"] (by decide +kernel), last _ rfl⟩

end NeoRuntime.AppManager.Patch
