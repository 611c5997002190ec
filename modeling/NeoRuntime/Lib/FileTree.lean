import Mathlib.Data.Nat.Notation
import Mathlib.Data.List.Basic
import Mathlib.Data.List.Infix

/-!
# Trees of files

A tree is a list of locations with what is there; a location is the list of names on the way to it.
A path is the list of what stands between the slashes of its text, so it may have empty parts, dots
and double dots, and it leads to its cleaned location if all that it passes are directories.
-/

namespace NeoRuntime

abbrev Loc := List String

/-- A path as the parts of its text. -/
abbrev Path := List String

inductive FileNode (β : Type)
  | dir
  | file (bytes : β)
  deriving DecidableEq

abbrev FileTree (β : Type) := List (Loc × FileNode β)

namespace FileTree

variable {β : Type}

def find (t : FileTree β) (loc : Loc) : Option (FileNode β) := t.lookup loc

section Find

variable {t : FileTree β} {loc : Loc}

theorem mem_of_find {node : FileNode β} (found : t.find loc = some node) : (loc, node) ∈ t := by
  induction t with
  | nil => cases found
  | cons e t ih =>
    rw [find, List.lookup_cons] at found
    split at found
    case h_1 same =>
      obtain rfl := Option.some.inj found
      rw [beq_iff_eq.1 same]
      exact List.mem_cons_self
    case h_2 => exact List.mem_cons_of_mem _ (ih found)

theorem find_eq_none (missing : ∀ e ∈ t, e.1 ≠ loc) : t.find loc = none := by
  cases found : t.find loc with
  | none => rfl
  | some node => exact absurd rfl (missing _ (mem_of_find found))

/-- Renaming locations one to one keeps what is there. -/
theorem find_map {f : Loc → Loc} (inj : ∀ e ∈ t, f e.1 = f loc → e.1 = loc) :
    find (t.map fun e => (f e.1, e.2)) (f loc) = t.find loc := by
  induction t with
  | nil => rfl
  | cons e t ih =>
    obtain ⟨first, rest⟩ := List.forall_mem_cons.1 inj
    rw [find, find, List.map_cons, List.lookup_cons, List.lookup_cons]
    by_cases same : loc = e.1
    · simp [same]
    · have other : f loc ≠ f e.1 := fun eq => same (first eq.symm).symm
      rw [beq_false_of_ne same, beq_false_of_ne other]
      exact ih rest

end Find

/-- Where an entry is after `src` was renamed to `dst`. -/
def relocate (src dst loc : Loc) : Loc :=
  if src <+: loc then dst ++ loc.drop src.length else loc

variable [DecidableEq β]

/-- A directory is renamed, if there is nothing at the new name. -/
def rename (t : FileTree β) (src dst : Loc) : Option (FileTree β) :=
  if t.find src = some .dir ∧ (∀ e ∈ t, ¬ dst <+: e.1) ∧ ¬ src <+: dst then
    some (t.map fun e => (relocate src dst e.1, e.2))
  else none

section Rename

variable {t t' : FileTree β} {src dst loc : Loc}

@[simp] theorem relocate_append (src dst rest : Loc) :
    relocate src dst (src ++ rest) = dst ++ rest := by
  simp [relocate]

theorem relocate_of_not (out : ¬ src <+: loc) : relocate src dst loc = loc := if_neg out

variable (renamed : t.rename src dst = some t')

include renamed

theorem rename_cases : t' = t.map (fun e => (relocate src dst e.1, e.2)) ∧ t.find src = some .dir ∧
      (∀ e ∈ t, ¬ dst <+: e.1) ∧ ¬ src <+: dst ∧ ¬ dst <+: src := by
  unfold rename at renamed
  split_ifs at renamed with allowed
  obtain ⟨dir, free, apart⟩ := allowed
  exact ⟨(Option.some.inj renamed).symm, dir, free, apart, free _ (mem_of_find dir)⟩

omit renamed in
/-- Locations outside the new name are told apart after the renaming. -/
theorem relocate_inj {loc' : Loc} (out : ¬ dst <+: loc) (out' : ¬ dst <+: loc')
    (same : relocate src dst loc = relocate src dst loc') : loc = loc' := by
  have under (l : Loc) : dst <+: dst ++ l := List.prefix_append dst l
  unfold relocate at same
  split_ifs at same with below below'
  · obtain ⟨rest, rfl⟩ := below
    obtain ⟨rest', rfl⟩ := below'
    simpa using same
  · exact absurd (same ▸ under _) out'
  · exact absurd (same ▸ under _) out
  · exact same

theorem find_rename_dst (rest : Loc) : t'.find (dst ++ rest) = t.find (src ++ rest) := by
  obtain ⟨rfl, -, free, apart, apart'⟩ := rename_cases renamed
  have out : ¬ dst <+: src ++ rest := fun below =>
    (List.prefix_or_prefix_of_prefix below (List.prefix_append src rest)).elim apart' apart
  rw [← relocate_append src dst rest]
  exact find_map fun e mem same => relocate_inj (free e mem) out same

theorem gone_of_rename : ∀ e ∈ t', ¬ src <+: e.1 := by
  obtain ⟨rfl, -, -, apart, apart'⟩ := rename_cases renamed
  intro e mem below
  obtain ⟨e, -, rfl⟩ := List.mem_map.1 mem
  dsimp only at below
  unfold relocate at below
  split_ifs at below with under
  · exact (List.prefix_or_prefix_of_prefix below (List.prefix_append dst _)).elim apart apart'
  · exact under below

theorem find_rename_src (rest : Loc) : t'.find (src ++ rest) = none :=
  find_eq_none fun e mem same => gone_of_rename renamed e mem ⟨rest, same.symm⟩

theorem find_rename_other (out : ¬ src <+: loc)
    (out' : ¬ dst <+: loc) : t'.find loc = t.find loc := by
  obtain ⟨rfl, -, free, -⟩ := rename_cases renamed
  have found : find (t.map fun e => (relocate src dst e.1, e.2)) (relocate src dst loc) =
      t.find loc :=
    find_map fun e mem same => relocate_inj (free e mem) out' same
  rwa [relocate_of_not out] at found

theorem find_free (below : dst <+: loc) : t.find loc = none := by
  obtain ⟨-, -, free, -⟩ := rename_cases renamed
  exact find_eq_none fun e mem same => free e mem (same ▸ below)

/-- A place beside the two names is free after the renaming exactly if it was before. -/
theorem free_rename_iff {q : Loc} (out : ¬ src <+: q ∧ ¬ q <+: src)
    (out' : ¬ dst <+: q ∧ ¬ q <+: dst) : (∀ e ∈ t', ¬ q <+: e.1) ↔ ∀ e ∈ t, ¬ q <+: e.1 := by
  obtain ⟨rfl, -⟩ := rename_cases renamed
  rw [List.forall_mem_map]
  refine forall₂_congr fun e _ => not_congr ?_
  by_cases below : src <+: e.1
  · obtain ⟨rest, same⟩ := below
    rw [← same, relocate_append]
    refine iff_of_false (fun under => ?_) fun under => ?_
    · exact (List.prefix_or_prefix_of_prefix under (List.prefix_append dst rest)).elim out'.2 out'.1
    · exact (List.prefix_or_prefix_of_prefix under (List.prefix_append src rest)).elim out.2 out.1
  · rw [relocate_of_not below]

/-- A renaming can be taken back, and that leaves the tree as it was. -/
theorem rename_back : t'.rename dst src = some t := by
  have dir : t'.find dst = some .dir := by
    have moved := find_rename_dst renamed []
    rw [List.append_nil, List.append_nil] at moved
    rw [moved, (rename_cases renamed).2.1]
  have gone := gone_of_rename renamed
  obtain ⟨rfl, -, free, -, apart⟩ := rename_cases renamed
  rw [rename, if_pos ⟨dir, gone, apart⟩, List.map_map]
  refine congrArg some ((List.map_congr_left fun e mem => ?_).trans (List.map_id _))
  have back : relocate dst src (relocate src dst e.1) = e.1 := by
    by_cases below : src <+: e.1
    · obtain ⟨rest, same⟩ := below
      rw [← same, relocate_append, relocate_append]
    · rw [relocate_of_not below, relocate_of_not (free e mem)]
  simp [back]

end Rename

end FileTree

/-! ## Paths -/

/-- A part that is the name of something. -/
def Proper (part : String) : Prop := part ≠ "" ∧ part ≠ "." ∧ part ≠ ".."

instance (part : String) : Decidable (Proper part) := inferInstanceAs (Decidable (_ ∧ _))

/-- One part of a path is followed. -/
def enter (loc : Loc) (part : String) : Loc :=
  if part = "" ∨ part = "." then loc else if part = ".." then loc.dropLast else loc ++ [part]

/-- The location of a path that starts at the root. -/
def clean (p : Path) : Loc := p.foldl enter []

/-- The locations at which the path goes on. -/
def passed (loc : Loc) : Path → List Loc
  | [] => []
  | part :: p => loc :: passed (enter loc part) p

section Paths

variable {loc q : Loc} {p : Path}

theorem enter_proper {part : String} (proper : Proper part) : enter loc part = loc ++ [part] := by
  obtain ⟨full, dot, up⟩ := proper
  simp [enter, full, dot, up]

theorem foldl_enter_names {names : Loc} (proper : ∀ name ∈ names, Proper name) :
    names.foldl enter loc = loc ++ names := by
  induction names generalizing loc with
  | nil => simp
  | cons name names ih =>
    obtain ⟨first, rest⟩ := List.forall_mem_cons.1 proper
    rw [List.foldl_cons, enter_proper first, ih rest, List.append_assoc, List.singleton_append]

theorem proper_foldl_enter (proper : ∀ name ∈ loc, Proper name) :
    ∀ name ∈ p.foldl enter loc, Proper name := by
  induction p generalizing loc with
  | nil => exact proper
  | cons part p ih =>
    refine ih ?_
    unfold enter
    split_ifs with skip up
    · exact proper
    · exact fun name mem => proper name (List.dropLast_subset _ mem)
    · rw [not_or] at skip
      simpa using fun name => Or.rec (proper name) fun same => same ▸ ⟨skip.1, skip.2, up⟩

theorem clean_proper (p : Path) : ∀ name ∈ clean p, Proper name := proper_foldl_enter nofun

/-- What is on the way to a place that the path reaches is passed by the path. -/
theorem passed_before (below : q <+: p.foldl enter loc) (proper : q ≠ p.foldl enter loc) :
    q ∈ passed loc p ∨ q <+: loc ∧ q ≠ loc := by
  induction p generalizing loc with
  | nil => exact .inr ⟨below, proper⟩
  | cons part p ih =>
    obtain mem | ⟨below, proper⟩ := ih below proper
    · exact .inl (List.mem_cons_of_mem _ mem)
    unfold enter at below proper
    split_ifs at below proper
    · exact .inr ⟨below, proper⟩
    · refine .inr ⟨below.trans (List.dropLast_prefix loc), ?_⟩
      rintro rfl
      exact proper (below.eq_of_length_le (List.dropLast_prefix q).length_le)
    · by_cases same : q = loc
      · exact .inl (same ▸ List.mem_cons_self)
      · exact .inr ⟨(List.prefix_concat_iff.1 below).resolve_left proper, same⟩

theorem passed_before_clean (below : q <+: clean p) (proper : q ≠ clean p) : q ∈ passed [] p :=
  (passed_before below proper).resolve_right fun ⟨nil, ne⟩ => ne (List.prefix_nil.1 nil)

theorem mem_passed_iff : q ∈ passed loc p ↔ ∃ front part rest, p = front ++ part :: rest ∧
    q = front.foldl enter loc := by
  induction p generalizing loc with
  | nil => simp [passed]
  | cons first p ih =>
    rw [passed, List.mem_cons, ih]
    constructor
    · rintro (rfl | ⟨front, part, rest, rfl, rfl⟩)
      · exact ⟨[], first, p, rfl, rfl⟩
      · exact ⟨first :: front, part, rest, rfl, rfl⟩
    · rintro ⟨front, part, rest, eq, rfl⟩
      cases front with
      | nil => exact .inl rfl
      | cons _ front =>
        obtain ⟨rfl, rfl⟩ := List.cons.inj eq
        exact .inr ⟨front, part, rest, rfl, rfl⟩

/-- The passed locations are closed under going up. -/
theorem passed_up {q' : Loc} (mem : q ∈ passed [] p) (below : q' <+: q) : q' ∈ passed [] p := by
  by_cases same : q' = q
  · exact same ▸ mem
  obtain ⟨front, part, rest, rfl, rfl⟩ := mem_passed_iff.1 mem
  obtain ⟨front', part', rest', rfl, rfl⟩ := mem_passed_iff.1 (passed_before_clean below same)
  exact mem_passed_iff.2 ⟨front', part', rest' ++ part :: rest, by simp, rfl⟩

/-- A path of names passes what is above the place that it leads to. -/
theorem prefix_of_passed_names {names : Loc} (proper : ∀ name ∈ names, Proper name)
    (mem : q ∈ passed [] names) : q <+: names ∧ q ≠ names := by
  obtain ⟨front, part, rest, rfl, rfl⟩ := mem_passed_iff.1 mem
  rw [foldl_enter_names fun name mem => proper name (List.mem_append_left _ mem), List.nil_append]
  exact ⟨List.prefix_append _ _, by simp⟩

end Paths

namespace FileTree

variable {β : Type} [DecidableEq β] {t : FileTree β} {p : Path} {bytes : β}

/-- The contents of the file that a path leads to; a path to a file ends with a name. -/
def fileAt (t : FileTree β) (p : Path) : Option β :=
  if Proper (p.getLast?.getD "") ∧ ∀ q ∈ passed [] p, t.find q = some .dir then
    match t.find (clean p) with
    | some (.file bytes) => some bytes
    | _ => none
  else none

theorem fileAt_eq_some_iff : t.fileAt p = some bytes ↔ Proper (p.getLast?.getD "") ∧
    (∀ q ∈ passed [] p, t.find q = some .dir) ∧ t.find (clean p) = some (.file bytes) := by
  unfold fileAt
  split_ifs with leads
  · rw [and_iff_right leads.1, and_iff_right leads.2]
    split
    case h_1 bytes' found => simp [found]
    case h_2 other => exact iff_of_false nofun (other bytes)
  · exact iff_of_false nofun fun found => leads ⟨found.1, found.2.1⟩

/-- An absolute path of names leads to a file in a directory that exists. -/
theorem fileAt_abs {dir : Loc} {name : String} (proper : ∀ part ∈ dir ++ [name], Proper part)
    (dirs : ∀ q, q <+: dir → t.find q = some .dir)
    (found : t.find (dir ++ [name]) = some (.file bytes)) :
    t.fileAt ("" :: (dir ++ [name])) = some bytes := by
  have start : enter [] "" = [] := rfl
  refine fileAt_eq_some_iff.2 ⟨?_, fun q mem => ?_, ?_⟩
  · rw [← List.cons_append, List.getLast?_concat]
    exact proper name (by simp)
  · rw [passed, start, List.mem_cons] at mem
    obtain rfl | mem := mem
    · exact dirs [] List.nil_prefix
    · obtain ⟨below, ne⟩ := prefix_of_passed_names proper mem
      exact dirs q ((List.prefix_concat_iff.1 below).resolve_left ne)
  · rw [clean, List.foldl_cons, start, foldl_enter_names proper]
    exact found

end FileTree

end NeoRuntime
