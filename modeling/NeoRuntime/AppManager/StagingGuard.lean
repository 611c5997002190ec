import Mathlib.Data.List.Dedup
import NeoRuntime.Lib.FileTree

/-!
# Claiming staged uploads

`claimAppStaging` (platform/app-manager/server/staging_guard.go) renames every token directory with
an upload of the request, and changes the paths into it.  If a renaming fails, the earlier ones are
taken back.  A path that leads through a token directory, but not to a file directly in it, is
returned as it is (`claim_all_or_nothing_iff`).

The directories come in any order, the working directory is the root, and there are no links.
-/

namespace NeoRuntime.AppManager.Staging

abbrev Files := FileTree (List UInt8)

/-! ## The model -/

/-- `appStagingTokenPattern` -/
def stagingToken (token : String) : Bool :=
  let digits := token.toList.takeWhile Char.isDigit
  let rest := token.toList.dropWhile Char.isDigit
  10 ≤ digits.length && digits.length ≤ 20 && rest.head? == some '_' && rest.length == 9 &&
    rest.tail.all fun c => c.isDigit || ('a' ≤ c && c ≤ 'f')

section

variable (rootPath : Path)

/-- The staging root below `constants.RootPath()`. -/
def stagingRoot : Loc := clean rootPath ++ ["apps", "staging"]

/-- `filepath.Rel` of clean absolute paths. -/
def rel : Loc → Loc → Path
  | [], target => target
  | base, [] => base.map fun _ => ".."
  | b :: base, t :: target =>
    if b = t then rel base target else ((b :: base).map fun _ => "..") ++ t :: target

def base (p : Path) : String :=
  match (p.filter (· ≠ "")).getLast? with
  | some part => part
  | none => if 1 < p.length then "/" else "."

/-- `appStagingDir`: the token directory of a path. -/
def appStagingDir (files : Files) (p : Path) : Option Loc :=
  -- `filepath.IsAbs`
  if p.head? = some "" ∧ 1 < p.length then
    let dir := (rel (stagingRoot rootPath) (clean p)).dropLast
    let token := dir.getLast?.getD "."
    if 1 < dir.length ∨ stagingToken token = false then none
    else if files.find (stagingRoot rootPath ++ [token]) = some .dir then
      some (stagingRoot rootPath ++ [token])
    else none
  else none

/-- The directories that the paths claim, the keys of `byOld`. -/
def claimDirs (files : Files) (paths : List Path) : List Loc :=
  (paths.filterMap (appStagingDir rootPath files)).dedup

structure Move where
  oldDir : Loc
  newDir : Loc

def inflightName (taskID : String) (k : ℕ) : String := "inflight-" ++ taskID ++ "-" ++ toString k

/-- The earlier renamings are taken back, the last first. -/
def undo (files : Files) (moves : List Move) : Files :=
  moves.foldr (fun m files => (files.rename m.newDir m.oldDir).getD files) files

/-- The directories are renamed one by one; `fails` says which renamings fail. -/
def claimLoop (taskID : String) (fails : ℕ → Bool) :
    Files → List Move → List Loc → Files × Except Loc (List Move)
  | files, moves, [] => (files, .ok moves)
  | files, moves, oldDir :: rest =>
    let newDir := oldDir.dropLast ++ [inflightName taskID moves.length]
    match if fails moves.length then none else files.rename oldDir newDir with
    | some files' => claimLoop taskID fails files' (moves ++ [⟨oldDir, newDir⟩]) rest
    | none => (undo files moves, .error oldDir)

/-- `byOld[oldDir]` after the loop. -/
def newDirOf (moves : List Move) (oldDir : Loc) : Loc :=
  ((moves.find? (·.oldDir = oldDir)).map (·.newDir)).getD []

def claimedPath (files : Files) (moves : List Move) (p : Path) : Path :=
  match appStagingDir rootPath files p with
  | none => p
  | some oldDir => "" :: clean (newDirOf moves oldDir ++ [base p])

/-- `claimAppStaging`, when the keys of `byOld` come in this order. -/
def claimAppStaging (files : Files) (taskID : String) (paths : List Path)
    (order : List Loc) (fails : ℕ → Bool) : Files × Except Loc (List Path) :=
  let (files', moves) := claimLoop taskID fails files [] order
  (files', moves.map fun moves => paths.map (claimedPath rootPath files moves))

/-- The paths belong to the task: those recognised are in its directories, the others unchanged. -/
def Owned (files : Files) (taskID : String) (p claimed : Path) : Prop :=
  (appStagingDir rootPath files p = none → claimed = p) ∧
  (appStagingDir rootPath files p ≠ none →
    ∃ k name, claimed = "" :: (stagingRoot rootPath ++ [inflightName taskID k, name]))

/-- All paths lead to their files, or nothing is changed; and nothing outside the staging root is. -/
def AllOrNothing (taskID : String) (paths : List Path) (before : Files)
    (result : Files × Except Loc (List Path)) : Prop :=
  (match result.2 with
    | .ok claimed => List.Forall₂ (fun p c => ∀ bytes, before.fileAt p = some bytes →
        result.1.fileAt c = some bytes ∧ Owned rootPath before taskID p c) paths claimed
    | .error _ => result.1 = before) ∧
  ∀ loc, ¬ stagingRoot rootPath <+: loc → result.1.find loc = before.find loc

end

/-! ## Token directories -/

variable {rootPath p : Path} {files files' : Files} {taskID : String} {paths : List Path}
  {oldDir : Loc}

theorem rel_eq_two {b l : Loc} {x y : String} (two : rel b l = [x, y]) (down : x ≠ "..") :
    l = b ++ [x, y] := by
  fun_induction rel b l with
  | case1 target => simpa using two
  | case2 b ne =>
    cases b with
    | nil => cases two
    | cons => simp_all
  | case3 c b target ih => rw [ih two, List.cons_append]
  | case4 => simp_all

theorem stagingToken_up : stagingToken ".." = false := by decide

theorem stagingToken_cur : stagingToken "." = false := by decide

/-- Only a path with two parts below the root has a token. -/
theorem two_parts {r : Path} (short : r.dropLast.length ≤ 1)
    (is : stagingToken (r.dropLast.getLast?.getD ".") = true) : ∃ x y, r = [x, y] := by
  have none {r : Path} (empty : r.dropLast = [])
      (is : stagingToken (r.dropLast.getLast?.getD ".") = true) : False := by
    rw [empty, List.getLast?_nil, Option.getD_none, stagingToken_cur] at is
    cases is
  obtain _ | ⟨x, _ | ⟨y, _ | ⟨z, r⟩⟩⟩ := r
  · exact (none rfl is).elim
  · exact (none rfl is).elim
  · exact ⟨x, y, rfl⟩
  · simp at short

theorem appStagingDir_cases (found : appStagingDir rootPath files p = some oldDir) :
    ∃ token name, oldDir = stagingRoot rootPath ++ [token] ∧ stagingToken token = true ∧
      files.find oldDir = some .dir ∧ clean p = stagingRoot rootPath ++ [token, name] := by
  unfold appStagingDir at found
  dsimp only at found
  split_ifs at found with abs short dir
  rw [not_or, Nat.not_lt, Bool.not_eq_false] at short
  obtain ⟨short, token⟩ := short
  obtain rfl := Option.some.inj found
  generalize parts : rel (stagingRoot rootPath) (clean p) = r at *
  obtain ⟨x, y, rfl⟩ := two_parts short token
  have down : x ≠ ".." := by
    rintro rfl
    exact absurd token (by simp [stagingToken_up])
  exact ⟨x, y, rfl, token, dir, rel_eq_two parts down⟩

theorem inflightName_toList (taskID : String) (k : ℕ) :
    ∃ cs, (inflightName taskID k).toList = 'i' :: cs := by
  simp [inflightName]

theorem inflightName_inj {taskID : String} {k k' : ℕ}
    (same : inflightName taskID k = inflightName taskID k') : k = k' := by
  have numerals : toString k = toString k' := (String.append_right_inj _).mp same
  have digits : Nat.toDigits 10 k = Nat.toDigits 10 k' := by
    simpa [Nat.toString_eq_repr] using congrArg String.toList numerals
  rw [← Nat.ofDigitChars_ten_toDigits (n := k), digits, Nat.ofDigitChars_ten_toDigits]

theorem stagingToken_inflight (taskID : String) (k : ℕ) :
    stagingToken (inflightName taskID k) = false := by
  obtain ⟨cs, list⟩ := inflightName_toList taskID k
  simp [stagingToken, list]

theorem inflightName_proper (taskID : String) (k : ℕ) : Proper (inflightName taskID k) := by
  obtain ⟨cs, list⟩ := inflightName_toList taskID k
  refine ⟨?_, ?_, ?_⟩ <;>
  · intro same
    rw [same] at list
    simp at list

theorem stagingRoot_proper (rootPath : Path) : ∀ name ∈ stagingRoot rootPath, Proper name := by
  intro name mem
  obtain mem | mem := List.mem_append.1 mem
  · exact clean_proper _ name mem
  · simp only [List.mem_cons, List.not_mem_nil, or_false] at mem
    obtain rfl | rfl := mem <;> decide

/-! ## The loop -/

/-- Two directories with one parent do not overlap. -/
theorem same_before {root loc : Loc} {x y : String} (below : root ++ [x] <+: loc)
    (below' : root ++ [y] <+: loc) : x = y := by
  have same : root ++ [x] = root ++ [y] :=
    (List.prefix_of_prefix_length_le below below' (by simp)).eq_of_length (by simp)
  simpa using same

theorem apart {root : Loc} {x y : String} (ne : x ≠ y) :
    ¬ root ++ [x] <+: root ++ [y] ∧ ¬ root ++ [y] <+: root ++ [x] :=
  ⟨fun below => ne (same_before below List.prefix_rfl),
    fun below => ne (same_before List.prefix_rfl below)⟩

structure Claimed (root : Loc) (before : Files) (oldDir : Loc) : Prop where
  token : ∃ token, stagingToken token = true ∧ oldDir = root ++ [token]
  dir : before.find oldDir = some .dir

structure Moved (root : Loc) (taskID : String) (before files : Files) (moves : List Move) :
    Prop where
  claimed : ∀ m ∈ moves, Claimed root before m.oldDir
  inflight : ∀ m ∈ moves, ∃ k < moves.length, m.newDir = root ++ [inflightName taskID k]
  free : ∀ m ∈ moves, ∀ loc, m.newDir <+: loc → before.find loc = none
  there : ∀ m ∈ moves, ∀ rest, files.find (m.newDir ++ rest) = before.find (m.oldDir ++ rest)
  gone : ∀ m ∈ moves, ∀ rest, files.find (m.oldDir ++ rest) = none
  other : ∀ loc, (∀ m ∈ moves, ¬ m.oldDir <+: loc ∧ ¬ m.newDir <+: loc) →
    files.find loc = before.find loc
  undone : undo files moves = before
  /-- The next names are taken only by what was there before. -/
  spare : ∀ k, moves.length ≤ k → ((∀ e ∈ files, ¬ root ++ [inflightName taskID k] <+: e.1) ↔
    ∀ e ∈ before, ¬ root ++ [inflightName taskID k] <+: e.1)

variable {root : Loc} {before : Files} {moves : List Move}

theorem Claimed.ne_inflight (claimed : Claimed root before oldDir) (taskID : String) (k : ℕ) :
    oldDir ≠ root ++ [inflightName taskID k] := by
  obtain ⟨token, is, rfl⟩ := claimed.token
  intro same
  obtain rfl : token = inflightName taskID k := by simpa using same
  rw [stagingToken_inflight] at is
  cases is

/-- The renaming to this name does not fail, and there is nothing at it. -/
def Unhindered (root : Loc) (taskID : String) (before : Files) (fails : ℕ → Bool) (k : ℕ) : Prop :=
  fails k = false ∧ ∀ e ∈ before, ¬ root ++ [inflightName taskID k] <+: e.1

section

variable (moved : Moved root taskID before files moves)

include moved

theorem Moved.step
    (claimed : Claimed root before oldDir) (fresh : ∀ m ∈ moves, m.oldDir ≠ oldDir)
    (renamed : files.rename oldDir (root ++ [inflightName taskID moves.length]) = some files') :
    Moved root taskID before files'
      (moves ++ [⟨oldDir, root ++ [inflightName taskID moves.length]⟩]) := by
  generalize len : moves.length = k at renamed ⊢
  obtain ⟨token, is, rfl⟩ := claimed.token
  -- The directories of the earlier moves are beside the two of this one.
  have oldApart : ∀ m ∈ moves, ∀ loc, m.oldDir <+: loc →
      ¬ root ++ [token] <+: loc ∧ ¬ root ++ [inflightName taskID k] <+: loc := by
    intro m mem loc below
    obtain ⟨token', is', eq⟩ := (moved.claimed m mem).token
    rw [eq] at below
    refine ⟨fun below' => fresh m mem ?_,
      fun below' => (moved.claimed m mem).ne_inflight taskID k ?_⟩
    · rw [eq, same_before below below']
    · rw [eq, same_before below below']
  have newApart : ∀ m ∈ moves, ∀ loc, m.newDir <+: loc →
      ¬ root ++ [token] <+: loc ∧ ¬ root ++ [inflightName taskID k] <+: loc := by
    intro m mem loc below
    obtain ⟨k', -, eq⟩ := moved.inflight m mem
    rw [eq] at below
    refine ⟨fun below' => claimed.ne_inflight taskID k' ?_, fun below' => ?_⟩
    · rw [same_before below' below]
    have there := moved.there m mem []
    rw [List.append_nil, List.append_nil, (moved.claimed m mem).dir, eq,
      same_before below below', FileTree.find_free renamed List.prefix_rfl] at there
    cases there
  constructor
  · simpa [or_imp, forall_and] using ⟨moved.claimed, claimed⟩
  · intro m mem
    rw [List.length_append, List.length_singleton, len]
    rcases List.mem_append.1 mem with old | new
    · obtain ⟨k', lt, eq⟩ := moved.inflight m old
      exact ⟨k', by omega, eq⟩
    · obtain rfl := List.mem_singleton.1 new
      exact ⟨k, by omega, rfl⟩
  · intro m mem loc below
    obtain mem | mem := List.mem_append.1 mem
    · exact moved.free m mem loc below
    · obtain rfl := List.mem_singleton.1 mem
      rw [← moved.other loc fun m mem => ⟨fun below' => (oldApart m mem loc below').2 below,
        fun below' => (newApart m mem loc below').2 below⟩]
      exact FileTree.find_free renamed below
  · intro m mem rest
    obtain mem | mem := List.mem_append.1 mem
    · obtain ⟨out, out'⟩ := newApart m mem _ (List.prefix_append m.newDir rest)
      rw [FileTree.find_rename_other renamed out out', moved.there m mem]
    · obtain rfl := List.mem_singleton.1 mem
      rw [FileTree.find_rename_dst renamed]
      refine moved.other _ fun m mem => ⟨fun below => ?_, fun below => ?_⟩
      · exact (oldApart m mem _ below).1 (List.prefix_append _ _)
      · exact (newApart m mem _ below).1 (List.prefix_append _ _)
  · intro m mem rest
    obtain mem | mem := List.mem_append.1 mem
    · obtain ⟨out, out'⟩ := oldApart m mem _ (List.prefix_append m.oldDir rest)
      rw [FileTree.find_rename_other renamed out out', moved.gone m mem]
    · obtain rfl := List.mem_singleton.1 mem
      exact FileTree.find_rename_src renamed rest
  · intro loc out
    rw [List.forall_mem_append] at out
    obtain ⟨here, here'⟩ := out.2 _ (List.mem_singleton_self _)
    rw [FileTree.find_rename_other renamed here here', moved.other loc out.1]
  · rw [undo, List.foldr_append, List.foldr_cons, List.foldr_nil, FileTree.rename_back renamed]
    exact moved.undone
  · intro k' later
    rw [List.length_append, List.length_singleton, len] at later
    have token_ne : token ≠ inflightName taskID k' := fun same => claimed.ne_inflight taskID k' (by
      rw [same])
    have name_ne : inflightName taskID k ≠ inflightName taskID k' := fun same => by
      have := inflightName_inj same
      omega
    rw [FileTree.free_rename_iff renamed (apart token_ne) (apart name_ne)]
    exact moved.spare k' (by omega)

/-- Nothing but a taken name or a failure of the system call hinders the next renaming. -/
theorem Moved.rename_of_free (claimed : Claimed root before oldDir)
    (fresh : ∀ m ∈ moves, m.oldDir ≠ oldDir)
    (free : ∀ e ∈ before, ¬ root ++ [inflightName taskID moves.length] <+: e.1) :
    files.rename oldDir (root ++ [inflightName taskID moves.length]) ≠ none := by
  have here : files.find oldDir = some .dir := by
    rw [← claimed.dir]
    obtain ⟨token, -, eq⟩ := claimed.token
    refine moved.other oldDir fun m mem => ⟨fun below => ?_, fun below => ?_⟩
    · obtain ⟨token', -, eq'⟩ := (moved.claimed m mem).token
      rw [eq, eq'] at below
      exact fresh m mem (by rw [eq, eq', same_before below List.prefix_rfl])
    · obtain ⟨k, -, eq'⟩ := moved.inflight m mem
      rw [eq, eq'] at below
      exact claimed.ne_inflight taskID k (by rw [eq, same_before below List.prefix_rfl])
  have beside : ¬ oldDir <+: root ++ [inflightName taskID moves.length] := by
    obtain ⟨token, -, rfl⟩ := claimed.token
    intro below
    exact claimed.ne_inflight taskID _ (by rw [same_before below List.prefix_rfl])
  rw [FileTree.rename, if_pos ⟨here, (moved.spare _ le_rfl).2 free, beside⟩]
  exact Option.some_ne_none _

omit moved in
/-- The loop renames all directories, or takes everything back; which of them it is is known before.
-/
theorem claimLoop_cases (taskID : String) (fails : ℕ → Bool)
    (moved : Moved root taskID before files moves) {order : List Loc}
    (claimed : ∀ oldDir ∈ order, Claimed root before oldDir) (nodup : order.Nodup)
    (fresh : ∀ m ∈ moves, m.oldDir ∉ order) :
    ((∃ oldDir, claimLoop taskID fails files moves order = (before, .error oldDir)) ∧
      ¬ ∀ k ∈ List.range' moves.length order.length, Unhindered root taskID before fails k) ∨
    ∃ files' moves', claimLoop taskID fails files moves order = (files', .ok moves') ∧
      Moved root taskID before files' moves' ∧
      moves'.map (·.oldDir) = moves.map (·.oldDir) ++ order ∧
      ∀ k ∈ List.range' moves.length order.length, Unhindered root taskID before fails k := by
  induction order generalizing files moves with
  | nil => exact .inr ⟨files, moves, rfl, moved, by simp, by simp⟩
  | cons oldDir order ih =>
    obtain ⟨first, rest⟩ := List.forall_mem_cons.1 claimed
    obtain ⟨new, nodup⟩ := List.nodup_cons.1 nodup
    have parent : oldDir.dropLast = root := by
      obtain ⟨token, -, rfl⟩ := first.token
      simp
    have fresh' : ∀ m ∈ moves, m.oldDir ≠ oldDir := fun m mem same => fresh m mem (by simp [same])
    rw [claimLoop, parent, List.length_cons, List.range'_succ, List.forall_mem_cons]
    split
    case h_1 files' renamed =>
      split_ifs at renamed with fine
      have free := (moved.spare _ le_rfl).1 (FileTree.rename_cases renamed).2.2.1
      have unhindered : Unhindered root taskID before fails moves.length :=
        ⟨Bool.eq_false_iff.2 fine, free⟩
      have next := ih (moved.step first fresh' renamed) rest nodup (by
        simpa [or_imp, forall_and, new] using fun m mem old => fresh m mem (by simp [old]))
      rw [List.length_append, List.length_singleton] at next
      rcases next with ⟨failed, hindered⟩ | ⟨files'', moves', run, moved', dirs, all⟩
      · exact .inl ⟨failed, fun all => hindered all.2⟩
      · exact .inr ⟨files'', moves', run, moved', by simp [dirs], unhindered, all⟩
    case h_2 failed =>
      refine .inl ⟨⟨oldDir, by rw [moved.undone]⟩, fun ⟨⟨fine, free⟩, _⟩ => ?_⟩
      rw [fine, if_neg Bool.false_ne_true] at failed
      exact moved.rename_of_free first fresh' free failed

omit moved in
theorem moved_nil (root : Loc) (taskID : String) (files : Files) :
    Moved root taskID files files [] :=
  ⟨nofun, nofun, nofun, nofun, nofun, fun _ _ => rfl, rfl, fun _ _ => Iff.rfl⟩

/-! ## Where the files are afterwards -/

theorem Moved.keeps {loc : Loc} {node : FileNode (List UInt8)} (found : before.find loc = some node)
    (out : ∀ m ∈ moves, ¬ m.oldDir <+: loc) : files.find loc = some node := by
  rw [← found]
  refine moved.other loc fun m mem => ⟨out m mem, fun below => ?_⟩
  rw [moved.free m mem loc below] at found
  cases found

theorem Moved.keeps_above {loc : Loc}
    {node : FileNode (List UInt8)} (found : before.find loc = some node) (above : loc <+: root) :
    files.find loc = some node := by
  refine moved.keeps found fun m mem below => ?_
  obtain ⟨token, -, eq⟩ := (moved.claimed m mem).token
  have short := (below.trans above).length_le
  rw [eq, List.length_append, List.length_singleton] at short
  omega

omit moved in
theorem base_of_proper (proper : Proper (p.getLast?.getD "")) :
    clean p = clean p.dropLast ++ [base p] := by
  obtain rfl | ⟨front, last, rfl⟩ := p.eq_nil_or_concat
  · exact absurd rfl proper.1
  rw [List.concat_eq_append] at *
  rw [List.getLast?_concat, Option.getD_some] at proper
  have named : base (front ++ [last]) = last := by
    simp [base, List.filter_append, proper.1]
  rw [named, List.dropLast_concat, clean, List.foldl_append, List.foldl_cons, List.foldl_nil,
    enter_proper proper]
  rfl

theorem Moved.proper_new {m : Move} (mem : m ∈ moves)
    (proper : ∀ name ∈ root, Proper name) {name : String} (named : Proper name) :
    ∀ part ∈ m.newDir ++ [name], Proper part := by
  intro part mem'
  obtain ⟨k, -, new⟩ := moved.inflight m mem
  rw [new] at mem'
  simp only [List.mem_append, List.mem_singleton] at mem'
  obtain (mem' | rfl) | rfl := mem'
  · exact proper part mem'
  · exact inflightName_proper taskID k
  · exact named

theorem Moved.fileAt_new {m : Move} (mem : m ∈ moves)
    (proper : ∀ name ∈ root, Proper name) {token name : String} (old : m.oldDir = root ++ [token])
    (at_ : clean p = root ++ [token, name]) {bytes : List UInt8}
    (file : before.fileAt p = some bytes) :
    files.fileAt ("" :: (m.newDir ++ [name])) = some bytes := by
  obtain ⟨-, dirs, found⟩ := FileTree.fileAt_eq_some_iff.1 file
  obtain ⟨k, -, new⟩ := moved.inflight m mem
  have above {q : Loc} (below : q <+: root ++ [token]) : before.find q = some .dir := by
    refine dirs q (passed_before_clean ?_ fun same => ?_)
    · rw [at_]
      exact below.trans ⟨[name], by simp⟩
    · have short := below.length_le
      rw [same, at_] at short
      simp at short
  have named : Proper name := clean_proper p name (by simp [at_])
  refine FileTree.fileAt_abs (moved.proper_new mem proper named) (fun q below => ?_) ?_
  · rw [new] at below
    obtain rfl | below := List.prefix_concat_iff.1 below
    · have there := moved.there m mem []
      rwa [List.append_nil, List.append_nil, old, new, above List.prefix_rfl] at there
    · exact moved.keeps_above (above (below.trans (List.prefix_append _ _))) below
  · rw [moved.there m mem, old, ← found, at_, List.append_assoc, List.singleton_append]

theorem Moved.fileAt_same (spared : ∀ m ∈ moves, m.oldDir ∉ passed [] p) {bytes : List UInt8}
    (file : before.fileAt p = some bytes) : files.fileAt p = some bytes := by
  obtain ⟨proper, dirs, found⟩ := FileTree.fileAt_eq_some_iff.1 file
  refine FileTree.fileAt_eq_some_iff.2 ⟨proper, fun q mem => ?_, ?_⟩
  · exact moved.keeps (dirs q mem) fun m mem' below => spared m mem' (passed_up mem below)
  · refine moved.keeps found fun m mem below => spared m mem (passed_before_clean below ?_)
    intro same
    have dir := (moved.claimed m mem).dir
    rw [same, found] at dir
    cases dir

end

theorem newDirOf_cases (mem : oldDir ∈ moves.map (·.oldDir)) :
    ∃ m ∈ moves, m.oldDir = oldDir ∧ newDirOf moves oldDir = m.newDir := by
  cases first : moves.find? (·.oldDir = oldDir) with
  | none =>
    obtain ⟨m, mem, old⟩ := List.mem_map.1 mem
    exact absurd old (by simpa using List.find?_eq_none.1 first m mem)
  | some m =>
    exact ⟨m, List.mem_of_find?_eq_some first, by simpa using List.find?_some first,
      by simp [newDirOf, first]⟩

/-! ## The claim as a whole -/

theorem claimed_of_mem (mem : oldDir ∈ claimDirs rootPath files paths) :
    Claimed (stagingRoot rootPath) files oldDir := by
  obtain ⟨p, -, found⟩ := List.mem_filterMap.1 (List.mem_dedup.1 mem)
  obtain ⟨token, -, eq, is, dir, -⟩ := appStagingDir_cases found
  exact ⟨⟨token, is, eq⟩, dir⟩

/-- The condition: a path to a file that is not recognised passes no claimed directory. -/
def Spares (rootPath : Path) (files : Files) (paths : List Path) : Prop :=
  ∀ p ∈ paths, (files.fileAt p).isSome = true → appStagingDir rootPath files p = none →
    ∀ q ∈ passed [] p, q ∉ claimDirs rootPath files paths

instance (rootPath : Path) (files : Files) (paths : List Path) :
    Decidable (Spares rootPath files paths) :=
  inferInstanceAs (Decidable (∀ p ∈ paths, _ → _ → ∀ q ∈ passed [] p, q ∉ _))

/-- What becomes of one path when all directories are renamed. -/
theorem claimed_path_iff (moved : Moved (stagingRoot rootPath) taskID files files' moves)
    (dirs : ∀ oldDir, oldDir ∈ moves.map (·.oldDir) ↔ oldDir ∈ claimDirs rootPath files paths)
    (mem : p ∈ paths) :
    (∀ bytes, files.fileAt p = some bytes →
      files'.fileAt (claimedPath rootPath files moves p) = some bytes ∧
        Owned rootPath files taskID p (claimedPath rootPath files moves p)) ↔
    ((files.fileAt p).isSome = true → appStagingDir rootPath files p = none →
      ∀ q ∈ passed [] p, q ∉ claimDirs rootPath files paths) := by
  cases recognised : appStagingDir rootPath files p with
  | none =>
    have same : claimedPath rootPath files moves p = p := by simp [claimedPath, recognised]
    rw [same]
    constructor
    · intro leads file _ q passes claimed
      obtain ⟨bytes, file⟩ := Option.isSome_iff_exists.1 file
      -- The directory is gone.
      obtain ⟨m, mem, rfl⟩ := List.mem_map.1 ((dirs q).2 claimed)
      have dir := (FileTree.fileAt_eq_some_iff.1 (leads bytes file).1).2.1 _ passes
      have gone := moved.gone m mem []
      rw [List.append_nil, dir] at gone
      cases gone
    · intro spared bytes file
      refine ⟨moved.fileAt_same (fun m mem passes => ?_) file, fun _ => rfl,
        fun not => absurd recognised not⟩
      exact spared (Option.isSome_iff_exists.2 ⟨bytes, file⟩) rfl _ passes
        ((dirs _).1 (List.mem_map_of_mem mem))
  | some oldDir =>
    refine iff_of_true (fun bytes file => ?_) fun _ none => absurd none (Option.some_ne_none _)
    obtain ⟨token, name, rfl, -, -, at_⟩ := appStagingDir_cases recognised
    have claimed : stagingRoot rootPath ++ [token] ∈ claimDirs rootPath files paths :=
      List.mem_dedup.2 (List.mem_filterMap.2 ⟨p, mem, recognised⟩)
    obtain ⟨m, mem, old, new⟩ := newDirOf_cases ((dirs _).2 claimed)
    have named : base p = name := by
      have last := base_of_proper (FileTree.fileAt_eq_some_iff.1 file).1
      rw [at_] at last
      simpa using congrArg List.getLast? last.symm
    obtain ⟨k, -, inflight⟩ := moved.inflight m mem
    have path : claimedPath rootPath files moves p = "" :: (m.newDir ++ [name]) := by
      have proper := moved.proper_new mem (stagingRoot_proper rootPath)
        (clean_proper p name (by simp [at_]))
      rw [claimedPath, recognised]
      dsimp only
      rw [new, named, clean, foldl_enter_names proper, List.nil_append]
    rw [path]
    refine ⟨moved.fileAt_new mem (stagingRoot_proper rootPath) old at_ file,
      fun not => absurd (recognised.symm.trans not) (Option.some_ne_none _),
      fun _ => ⟨k, name, ?_⟩⟩
    rw [inflight, List.append_assoc, List.singleton_append]

/-- A claim is all or nothing exactly if a renaming is hindered, or no unrecognised path leads
through a claimed directory. -/
theorem claim_all_or_nothing_iff (rootPath : Path) (files : Files) (taskID : String)
    (paths : List Path) {order : List Loc} (perm : order.Perm (claimDirs rootPath files paths))
    (fails : ℕ → Bool) :
    AllOrNothing rootPath taskID paths files
        (claimAppStaging rootPath files taskID paths order fails) ↔
      ((∀ k < (claimDirs rootPath files paths).length,
          Unhindered (stagingRoot rootPath) taskID files fails k) →
        Spares rootPath files paths) := by
  have numbers : (∀ k < (claimDirs rootPath files paths).length,
        Unhindered (stagingRoot rootPath) taskID files fails k) ↔
      ∀ k ∈ List.range' 0 order.length,
        Unhindered (stagingRoot rootPath) taskID files fails k := by
    simp [perm.length_eq]
  rcases claimLoop_cases taskID fails (moved_nil (stagingRoot rootPath) taskID files)
      (fun oldDir mem => claimed_of_mem (perm.mem_iff.1 mem))
      (perm.nodup_iff.2 (List.nodup_dedup _)) nofun with
    ⟨⟨oldDir, run⟩, hindered⟩ | ⟨files', moves, run, moved, dirs, all⟩
  · rw [claimAppStaging, run]
    exact iff_of_true ⟨rfl, fun _ _ => rfl⟩ fun all => absurd (numbers.1 all) hindered
  · have dirs (oldDir : Loc) : oldDir ∈ moves.map (·.oldDir) ↔
        oldDir ∈ claimDirs rootPath files paths := by
      rw [dirs, List.map_nil, List.nil_append, perm.mem_iff]
    have outside (loc : Loc) (out : ¬ stagingRoot rootPath <+: loc) :
        files'.find loc = files.find loc := by
      refine moved.other loc fun m mem => ⟨fun below => out ?_, fun below => out ?_⟩
      · obtain ⟨token, -, eq⟩ := (moved.claimed m mem).token
        exact (List.prefix_append _ _).trans (eq ▸ below)
      · obtain ⟨k, -, eq⟩ := moved.inflight m mem
        exact (List.prefix_append _ _).trans (eq ▸ below)
    rw [claimAppStaging, run]
    refine (and_iff_left outside).trans ?_
    simp only [Except.map, List.forall₂_map_right_iff, List.forall₂_same]
    refine Iff.trans ?_ (forall_prop_of_true (numbers.2 all)).symm
    exact forall₂_congr fun p mem => claimed_path_iff moved dirs mem

def uploadFiles : Files :=
  [([], .dir), (["d"], .dir), (["d", "apps"], .dir), (["d", "apps", "staging"], .dir),
    (["d", "apps", "staging", "1700000000_0123abcd"], .dir),
    (["d", "apps", "staging", "1700000000_0123abcd", "app.yaml"], .file [1]),
    (["d", "apps", "staging", "1700000000_0123abcd", "image"], .dir),
    (["d", "apps", "staging", "1700000000_0123abcd", "image", "app.tar"], .file [2]),
    (["d", "apps", "staging", "1700000000_0123abcd", "icon.png"], .file [3]),
    (["d", "apps", "staging", "1700000001_4567cdef"], .dir),
    (["d", "apps", "staging", "1700000001_4567cdef", "app.tar"], .file [4]),
    (["d", "etc"], .file [5])]

def manifestPath : Path := ["", "d", "apps", "staging", "1700000000_0123abcd", "app.yaml"]

def imagePath : Path := ["", "d", "apps", "staging", "1700000000_0123abcd", "image", "app.tar"]

def uploadDir : Loc := ["d", "apps", "staging", "1700000000_0123abcd"]

def otherDir : Loc := ["d", "apps", "staging", "1700000001_4567cdef"]

/-- Two files of one upload (one of them twice), one of another, no path, and one outside. -/
def uploadPaths : List Path :=
  [manifestPath, "" :: otherDir ++ ["app.tar"], "" :: uploadDir ++ ["image", "..", "icon.png"],
    manifestPath, [""], ["", "d", "etc"]]

/-- All directories are renamed, or the second renaming fails and the first is taken back. -/
theorem claim_all_or_nothing_shared :
    (claimAppStaging ["", "d"] uploadFiles "7" uploadPaths [uploadDir, otherDir]
      fun _ => false).2.toOption = some
        [["", "d", "apps", "staging", "inflight-7-0", "app.yaml"],
          ["", "d", "apps", "staging", "inflight-7-1", "app.tar"],
          ["", "d", "apps", "staging", "inflight-7-0", "icon.png"],
          ["", "d", "apps", "staging", "inflight-7-0", "app.yaml"], [""], ["", "d", "etc"]] ∧
    AllOrNothing ["", "d"] "7" uploadPaths uploadFiles
      (claimAppStaging ["", "d"] uploadFiles "7" uploadPaths [uploadDir, otherDir]
        fun _ => false) ∧
    (claimAppStaging ["", "d"] uploadFiles "7" uploadPaths [uploadDir, otherDir]
      fun k => k = 1).2.toOption = none ∧
    AllOrNothing ["", "d"] "7" uploadPaths uploadFiles
      (claimAppStaging ["", "d"] uploadFiles "7" uploadPaths [uploadDir, otherDir]
        fun k => k = 1) := by
  have spares : Spares ["", "d"] uploadFiles uploadPaths := by decide +kernel
  have perm : [uploadDir, otherDir].Perm (claimDirs ["", "d"] uploadFiles uploadPaths) := by
    decide +kernel
  exact ⟨by decide +kernel,
    (claim_all_or_nothing_iff _ _ "7" _ perm _).2 fun _ => spares, by decide +kernel,
    (claim_all_or_nothing_iff _ _ "7" _ perm _).2 fun _ => spares⟩

/-- The image is in a directory of the upload: its path is kept, and the file is gone. -/
theorem nested_file_lost :
    (claimAppStaging ["", "d"] uploadFiles "7" [manifestPath, imagePath] [uploadDir]
      fun _ => false).2.toOption = some
        [["", "d", "apps", "staging", "inflight-7-0", "app.yaml"], imagePath] ∧
    uploadFiles.fileAt imagePath = some [2] ∧
    (claimAppStaging ["", "d"] uploadFiles "7" [manifestPath, imagePath] [uploadDir]
      fun _ => false).1.fileAt imagePath = none ∧
    ¬ AllOrNothing ["", "d"] "7" [manifestPath, imagePath] uploadFiles
      (claimAppStaging ["", "d"] uploadFiles "7" [manifestPath, imagePath] [uploadDir]
        fun _ => false) := by
  generalize result : claimAppStaging ["", "d"] uploadFiles "7" [manifestPath, imagePath]
    [uploadDir] (fun _ => false) = r
  have paths : r.2.toOption = some
      [["", "d", "apps", "staging", "inflight-7-0", "app.yaml"], imagePath] := by
    rw [← result]
    decide +kernel
  have file : uploadFiles.fileAt imagePath = some [2] := by decide +kernel
  have gone : r.1.fileAt imagePath = none := by
    rw [← result]
    decide +kernel
  refine ⟨paths, file, gone, fun ⟨leads, _⟩ => ?_⟩
  cases claimed : r.2 with
  | error dir => simp [claimed, Except.toOption] at paths
  | ok list =>
    obtain rfl : list = _ := by simpa [claimed, Except.toOption] using paths
    rw [claimed] at leads
    cases leads with
    | cons _ rest =>
      cases rest with
      | cons image _ =>
        have there := (image [2] file).1
        rw [gone] at there
        cases there

end NeoRuntime.AppManager.Staging
