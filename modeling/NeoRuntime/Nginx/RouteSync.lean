import Mathlib.Data.List.TakeWhile
import NeoRuntime.Nginx.AppRoutes

/-!
# Synchronising the generated files

`write_candidates` (deploy/nginx/sbin/aipc-nginx-app-route-sync.py) replaces the generated files one
after the other, and puts the old ones back if nginx rejects them.  Nothing is put back when a write
fails.  Every text contains the time at which it was made, so no two of them are the same.
-/

namespace NeoRuntime.Nginx

/-- `re.escape`. -/
def reEscape (s : String) : String :=
  String.ofList (s.toList.flatMap fun c =>
    if "()[]\x7b\x7d?*+-|^$\\.&~# \t\n\r\x0b\x0c".toList.contains c then ['\\', c] else [c])

/-- The text of `render_root_upstreams` and `render_root_prefixes`. -/
def renderRoot (nothing : String) (line : Route → String) (registryPath now : Line)
    (routes : List Route) : String :=
  generated registryPath now (if routes = [] then [nothing, ""] else routes.map line ++ [""])

def renderRootUpstreams : Line → Line → List Route → String :=
  renderRoot "# No running app root-path upstreams found." fun r =>
    "~^https?://[^/]+/apps/" ++ reEscape r.id ++ "(?:/|$) http://127.0.0.1:" ++ toString r.port ++ ";"

def renderRootPrefixes : Line → Line → List Route → String :=
  renderRoot "# No running app referer prefixes found." fun r =>
    "~^https?://[^/]+/apps/" ++ reEscape r.id ++ "(?:/|$) /apps/" ++ r.id ++ ";"

inductive GeneratedFile where
  | routes
  | rootUpstreams
  | rootPrefixes
  deriving DecidableEq

abbrev Files := GeneratedFile → Option ByteArray

/-- What fails: the look at a file, its replacement, `nginx -t`, and putting it back. -/
structure Faults where
  look : GeneratedFile → Bool := fun _ => false
  replace : GeneratedFile → Bool := fun _ => false
  test : Bool := false
  restore : GeneratedFile → Bool := fun _ => false

inductive Outcome where
  | unchanged
  | changed
  | raised
  deriving DecidableEq

variable (repair : ByteArray → String)

/-- `decode("utf-8", errors="replace")`, where `repair` decodes what is not UTF-8. -/
def decode (bytes : ByteArray) : String :=
  (String.fromUTF8? bytes).getD (repair bytes)

/-- `candidates`: the new text of every file. -/
abbrev Candidates := GeneratedFile → String

/-- The keys of `candidates` in their order. -/
def order : List GeneratedFile := [.routes, .rootUpstreams, .rootPrefixes]

section

variable (repair : ByteArray → String) (faults : Faults) (candidates : Candidates) (old : Files)

/-- `old_text != content`. -/
def stale (file : GeneratedFile) : Bool :=
  (old file).map (decode repair) ≠ some (candidates file)

/-- The second loop of `write_candidates`, and whether it comes to its end. -/
def replaceFiles : List GeneratedFile → Files → Files × Bool
  | [], files => (files, true)
  | file :: rest, files =>
    if ¬ stale repair candidates old file then replaceFiles rest files
    else if faults.replace file then (files, false)
    else replaceFiles rest (Function.update files file (some (candidates file).toUTF8))

/-- The loop that puts the old files back, up to an exception. -/
def restoreFiles : List GeneratedFile → Files → Files
  | [], files => files
  | file :: rest, files =>
    if faults.restore file then files
    else restoreFiles rest (Function.update files file (old file))

def writeCandidates : Files × Outcome :=
  if order.any faults.look then (old, .raised)
  else if ¬ order.any (stale repair candidates old) then (old, .unchanged)
  else
    let (files, complete) := replaceFiles repair faults candidates old order old
    if ¬ complete then (files, .raised)
    else if faults.test then (restoreFiles faults old order files, .raised)
    else (files, .changed)

/-- The times at which the texts are made. -/
abbrev Stamps := GeneratedFile → Line

end

/-- `sync_once` when there is a certificate, and whether it reloads nginx. -/
def syncOnce (faults : Faults) (registryPath : Line) (now : Stamps)
    (parse : Value → Parsed) (registry : Registry) (reload : Bool) (files : Files) :
    Files × Outcome × Bool :=
  match renderRoutes registryPath (now .routes) parse registry with
  | none => (files, .raised, false)
  | some (content, routes) =>
    let candidates : Candidates := fun
      | .routes => content
      | .rootUpstreams => renderRootUpstreams registryPath (now .rootUpstreams) routes
      | .rootPrefixes => renderRootPrefixes registryPath (now .rootPrefixes) routes
    let result := writeCandidates repair faults candidates files
    (result.1, result.2, reload && result.2 = .changed)

/-! ## The files after a call -/

/-- A call that does not succeed changes no file. -/
def AllOrNothing (old : Files) (result : Files × Outcome) : Prop :=
  result.2 = .raised → result.1 = old

/-- The files replaced before a failure come before the first that cannot be put back. -/
def Recovers (faults : Faults) (candidates : Candidates) (old : Files) : Prop :=
  let changed := order.filter (stale repair candidates old)
  order.any faults.look = true ∨ (∃ file ∈ changed.head?, faults.replace file = true) ∨
    (∀ file ∈ changed, faults.replace file = false) ∧
      (faults.test = true → ∀ file ∈ changed, file ∈ order.takeWhile fun file => !faults.restore file)

section

variable {repair : ByteArray → String} {faults : Faults} {candidates : Candidates} {old : Files}

@[simp] theorem decode_toByteArray (s : String) : decode repair s.toByteArray = s := by
  rw [decode, String.fromUTF8?, dif_pos s.isValidUTF8]
  rfl

/-- The files after some of them were replaced. -/
def replaced (candidates : Candidates) (files : Files) (changed : List GeneratedFile) : Files :=
  fun file => if file ∈ changed then some (candidates file).toUTF8 else files file

@[simp] theorem replaced_nil (files : Files) : replaced candidates files [] = files := by
  funext file
  simp [replaced]

theorem replaced_cons (files : Files) (file : GeneratedFile) (changed : List GeneratedFile) :
    replaced candidates (Function.update files file (some (candidates file).toUTF8)) changed =
      replaced candidates files (file :: changed) := by
  funext other
  by_cases same : other = file <;> simp [replaced, same]

theorem replaceFiles_eq (order : List GeneratedFile) (files : Files) :
    replaceFiles repair faults candidates old order files =
      (replaced candidates files ((order.filter (stale repair candidates old)).takeWhile
          fun file => !faults.replace file),
        (order.filter (stale repair candidates old)).all fun file => !faults.replace file) := by
  induction order generalizing files with
  | nil => simp [replaceFiles]
  | cons file rest ih =>
    rw [replaceFiles]
    cases differs : stale repair candidates old file with
    | false => simp [differs, ih]
    | true =>
      cases fails : faults.replace file with
      | true => simp [differs, fails]
      | false => simpa [differs, fails, ih] using replaced_cons ..

theorem restoreFiles_eq (order : List GeneratedFile) (files : Files) (file : GeneratedFile) :
    restoreFiles faults old order files file =
      if file ∈ order.takeWhile fun file => !faults.restore file then old file else files file := by
  induction order generalizing files with
  | nil => simp [restoreFiles]
  | cons first rest ih =>
    rw [restoreFiles]
    cases fails : faults.restore first with
    | true => simp [fails]
    | false =>
      rw [if_neg (by simp), ih, List.takeWhile_cons_of_pos (by simp [fails])]
      by_cases same : file = first
      · simp [same]
      · rw [Function.update_of_ne same]
        exact if_congr (by simp [same]) rfl rfl

theorem replaced_ne {changed : List GeneratedFile} {file : GeneratedFile} (mem : file ∈ changed)
    (differs : stale repair candidates old file = true) :
    replaced candidates old changed file ≠ old file := by
  intro same
  rw [replaced, if_pos mem] at same
  simp [stale, ← same] at differs

theorem replaced_eq_iff {changed : List GeneratedFile}
    (differ : ∀ file ∈ changed, stale repair candidates old file = true) :
    replaced candidates old changed = old ↔ changed = [] := by
  constructor
  · intro same
    cases changed with
    | nil => rfl
    | cons file rest =>
      have here := List.mem_cons_self (a := file) (l := rest)
      exact absurd (congrFun same file) (replaced_ne here (differ file here))
  · rintro rfl
    exact replaced_nil old

theorem restored_iff {changed : List GeneratedFile}
    (differ : ∀ file ∈ changed, stale repair candidates old file = true) :
    restoreFiles faults old order (replaced candidates old changed) = old ↔
      ∀ file ∈ changed, file ∈ order.takeWhile fun file => !faults.restore file := by
  simp only [funext_iff, restoreFiles_eq]
  refine forall_congr' fun file => ?_
  split_ifs with early
  · simp [early]
  · simp only [early, imp_false]
    refine ⟨fun same mem => replaced_ne mem (differ file mem) same, fun other => ?_⟩
    rw [replaced, if_neg other]

theorem allOrNothing_iff : AllOrNothing old (writeCandidates repair faults candidates old) ↔
    Recovers repair faults candidates old := by
  have any : order.any (stale repair candidates old) = true ↔
      order.filter (stale repair candidates old) ≠ [] := by simp [List.filter_eq_nil_iff]
  have differ : ∀ file ∈ order.filter (stale repair candidates old),
      stale repair candidates old file = true := fun file mem => (List.mem_filter.1 mem).2
  simp only [AllOrNothing, writeCandidates, Recovers, replaceFiles_eq, any]
  generalize order.filter (stale repair candidates old) = changed at *
  by_cases looks : order.any faults.look = true
  · simp [looks]
  obtain _ | ⟨first, rest⟩ := changed
  · simp [looks]
  rw [or_iff_right looks]
  by_cases complete : ∀ file ∈ first :: rest, faults.replace file = false
  · have all : ((first :: rest).all fun file => !faults.replace file) = true :=
      List.all_eq_true.2 fun file mem => by rw [complete file mem, Bool.not_false]
    have whole := List.takeWhile_eq_self_iff.2 (List.all_eq_true.1 all)
    have here : ¬ ∃ file ∈ (first :: rest).head?, faults.replace file = true := by
      simp [complete first List.mem_cons_self]
    rw [or_iff_right here, and_iff_right complete, ← restored_iff differ, all, whole]
    cases faults.test <;> simp [looks]
  · have all : ((first :: rest).all fun file => !faults.replace file) = false :=
      Bool.eq_false_iff.2 fun all => complete fun file mem => by
        simpa using List.all_eq_true.1 all file mem
    have part := replaced_eq_iff fun file mem =>
      differ file (List.takeWhile_sublist (fun file => !faults.replace file) |>.subset mem)
    rw [or_iff_left fun both => complete both.1, all, if_neg looks, if_neg (by simp), if_pos (by simp)]
    dsimp only
    rw [imp_iff_right rfl, part]
    cases here : faults.replace first <;> simp [here]

theorem writeCandidates_text (file : GeneratedFile) :
    ((writeCandidates repair {} candidates old).1 file).map (decode repair) =
      some (candidates file) := by
  have mem : file ∈ order := by cases file <;> decide
  have fresh (same : stale repair candidates old file = false) :
      (old file).map (decode repair) = some (candidates file) := by
    simpa [stale] using same
  rw [writeCandidates, if_neg (by simp)]
  by_cases any : order.any (stale repair candidates old) = true
  · have whole : (order.filter (stale repair candidates old)).takeWhile (fun _ => !false) =
        order.filter (stale repair candidates old) := List.takeWhile_eq_self_iff.2 (by simp)
    rw [if_neg (not_not.2 any), replaceFiles_eq, whole]
    cases differs : stale repair candidates old file with
    | true => simp [replaced, mem, differs]
    | false => simp [replaced, differs, fresh differs]
  · rw [if_pos any]
    exact fresh (Bool.eq_false_iff.2 fun differs => any (List.any_eq_true.2 ⟨file, mem, differs⟩))

theorem writeCandidates_again (text : ∀ file, (old file).map (decode repair) = some (candidates file)) :
    writeCandidates repair {} candidates old = (old, .unchanged) := by
  have fresh (file : GeneratedFile) : stale repair candidates old file = false := by
    simp [stale, text file]
  rw [writeCandidates, if_neg (by simp), if_pos (by simp [fresh])]

end

/-! ## The time in the texts -/

theorem generated_inj {registryPath now now' : Line} {body : List String}
    (same : generated registryPath now body = generated registryPath now' body) : now = now' := by
  have chars := congrArg String.toList same
  simp only [generated, String.toList_intercalate, headLines, List.cons_append, List.map_cons,
    List.nil_append, List.intercalate_cons_cons, String.toList_append, List.append_assoc,
    List.append_cancel_left_eq, List.append_cancel_right_eq] at chars
  exact Subtype.ext (String.toList_inj.1 chars)

/-- A second synchronisation changes no file and reloads nothing. -/
def Repeats (first second : Files × Outcome × Bool) : Prop :=
  second.1 = first.1 ∧ second.2.2 = false

theorem repeats_iff (registryPath : Line) (now later : Stamps)
    (parse : Value → Parsed) (registry : Registry) (reload : Bool) (old : Files) :
    Repeats (syncOnce repair {} registryPath now parse registry reload old)
        (syncOnce repair {} registryPath later parse registry reload
          (syncOnce repair {} registryPath now parse registry reload old).1) ↔
      discoverRoutes parse registry = none ∨ now = later := by
  cases found : discoverRoutes parse registry with
  | none => simp [Repeats, syncOnce, renderRoutes, found]
  | some result =>
    simp only [Repeats, syncOnce, renderRoutes, found, Option.bind_eq_bind, Option.bind_some,
      Option.pure_def, reduceCtorEq, false_or]
    constructor
    · rintro ⟨same, -⟩
      funext file
      have texts := congrArg (Option.map (decode repair)) (congrFun same file)
      rw [writeCandidates_text, writeCandidates_text, Option.some_inj] at texts
      cases file with
      | routes => exact (generated_inj texts).symm
      | rootUpstreams | rootPrefixes =>
        simp only [renderRootUpstreams, renderRootPrefixes, renderRoot] at texts
        exact (generated_inj texts).symm
    · rintro rfl
      rw [writeCandidates_again writeCandidates_text]
      simp

/-- `write_candidates` is all or nothing exactly if it recovers, and a synchronisation is repeated
exactly if the texts are made at the same times. -/
theorem route_sync_iff (faults : Faults) (candidates : Candidates)
    (registryPath : Line) (now later : Stamps) (parse : Value → Parsed) (registry : Registry)
    (reload : Bool) (old : Files) :
    (AllOrNothing old (writeCandidates repair faults candidates old) ↔
      Recovers repair faults candidates old) ∧
    (Repeats (syncOnce repair {} registryPath now parse registry reload old)
        (syncOnce repair {} registryPath later parse registry reload
          (syncOnce repair {} registryPath now parse registry reload old).1) ↔
      discoverRoutes parse registry = none ∨ now = later) :=
  ⟨allOrNothing_iff, repeats_iff repair registryPath now later parse registry reload old⟩

/-- The first file has been replaced and the second cannot be; and a year later all is written
again. -/
theorem route_sync_changes : ¬ AllOrNothing (fun _ => none) (writeCandidates (fun _ => "")
      { replace := fun file => file = .rootUpstreams } (fun _ => "") fun _ => none) ∧
    ¬ Repeats (syncOnce (fun _ => "") {} sampleLine (fun _ => sampleLine) (onPort 80) [] true
        fun _ => none)
      (syncOnce (fun _ => "") {} sampleLine (fun _ => ⟨"2027", by decide⟩) (onPort 80) [] true
        (syncOnce (fun _ => "") {} sampleLine (fun _ => sampleLine) (onPort 80) [] true
          fun _ => none).1) := by
  constructor
  · rw [allOrNothing_iff]
    simp [Recovers, order, stale]
  · rw [repeats_iff]
    simpa [discoverRoutes, sortedItems, sampleLine, funext_iff] using ⟨GeneratedFile.routes⟩

end NeoRuntime.Nginx
