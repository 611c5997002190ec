import Mathlib.Data.List.GetD
import NeoRuntime.Lib.Text

/-!
# Generated nginx routes

`render_routes` (deploy/nginx/sbin/aipc-nginx-app-route-sync.py) writes a text for nginx with two
locations for every running app that has a web page.  The registry is data of the apps.  The id of an
app may end in a line break, since `$` also matches before the last one, and the id of an app that is
skipped is written as it is.
-/

namespace NeoRuntime.Nginx

/-- A value of the registry: a string, or another value with its `str` and its truth. -/
inductive Value where
  | text (s : String)
  | other (shown : String) (truthy : Bool)
  deriving DecidableEq

def Value.truthy : Value → Bool
  | .text s => s ≠ ""
  | .other _ truthy => truthy

/-- `str(value)`. -/
def Value.shown : Value → String
  | .text s => s
  | .other shown _ => shown

/-- `app.get`. -/
abbrev App := String → Option Value

/-- `a or b`. -/
def orElse (a : Option Value) (b : String) : String :=
  match a with
  | some value => if value.truthy then value.shown else b
  | none => b

/-- What `parse_manifest_network` does with a `manifest_path`. -/
inductive Parsed where
  | raises
  | readError (exc : String)
  | network (mode : Option String) (inbound : List ℕ)

structure Route where
  id : String
  name : String
  port : ℕ
  webUrl : Value
  deriving DecidableEq

def isSpace (c : Char) : Bool := Text.isSpace c || (0x1c ≤ c.toNat && c.toNat ≤ 0x1f)

def strip (cs : List Char) : List Char :=
  ((cs.dropWhile isSpace).reverse.dropWhile isSpace).reverse

/-- The text after the first `"://"`, if there is one. -/
def afterScheme : List Char → Option (List Char)
  | [] => none
  | ':' :: '/' :: '/' :: rest => some rest
  | _ :: rest => afterScheme rest

/-- `text.split("/", 1)[-1]`. -/
def afterSlash (cs : List Char) : List Char :=
  if '/' ∈ cs then (cs.dropWhile (· ≠ '/')).drop 1 else cs

/-- A character that `quote` leaves as it is. -/
def isPathChar (c : Char) : Bool := c.isAlphanum || "/:?&=+,%._~-".toList.contains c

def hexDigit (n : ℕ) : Char := "0123456789ABCDEF".toList.getD n '0'

def quoteByte (b : UInt8) : List Char :=
  if isPathChar (Char.ofNat b.toNat) then [Char.ofNat b.toNat]
  else ['%', hexDigit (b.toNat / 16), hexDigit (b.toNat % 16)]

/-- `quote(path, safe="/:?&=+,%._~-")`. -/
def quote (path : List Char) : List Char :=
  (String.ofList path).toUTF8.toList.flatMap quoteByte

def normalizeWebPath : Value → List Char
  | .other _ _ => ['/']
  | .text s =>
    let path := strip s.toList
    if path = [] ∨ '\n' ∈ path ∨ '\r' ∈ path then ['/']
    else
      let path := match afterScheme path with
        | some rest => '/' :: afterSlash rest
        | none => path
      quote (if path.head? = some '/' then path else '/' :: path)

def routeRedirectPath (appId : String) (webUrl : Value) : String :=
  if normalizeWebPath webUrl = ['/'] then "/apps/" ++ appId ++ "/"
  else "/apps/" ++ appId ++ String.ofList (normalizeWebPath webUrl)

def isIdChar (c : Char) : Bool := c.isAlphanum || c = '.' || c = '_' || c = '-'

/-- `APP_ID_RE.match`, whose `$` also matches before a line break at the end. -/
def matchesAppId (appId : String) : Bool :=
  match appId.toList with
  | [] => false
  | c :: cs =>
    let cs := if cs.getLast? = some '\n' then cs.dropLast else cs
    c.isAlphanum && cs.all isIdChar && cs.length ≤ 127

def validPort (port : Option ℕ) : Option ℕ := port.filter fun p => 1 ≤ p && p ≤ 65535

/-- `text.replace("\n", " ")`. -/
def oneLine (text : String) : String :=
  String.ofList (text.toList.map fun c => if c = '\n' then ' ' else c)

/-- What the loop of `discover_routes` does with an entry. -/
inductive Verdict where
  | ignored
  | skipped (appId reason : String)
  | route (r : Route)
  deriving DecidableEq

/-- The body of the loop of `discover_routes`; it is `none` if the parser raises.  An entry that is not
an object has no `App`. -/
def examine (parse : Value → Parsed) (registryId : String) : Option App → Option Verdict
  | none => some (.skipped registryId "registry entry is not an object")
  | some app =>
    let appId := orElse (app "id") registryId
    if ¬ matchesAppId appId then some (.skipped appId "invalid app id")
    else if app "state" ≠ some (.text "running") then some .ignored
    else
      match (app "web_url").filter Value.truthy, (app "manifest_path").filter Value.truthy with
      | none, _ => some .ignored
      | some _, none => some (.skipped appId "missing manifest_path")
      | some webUrl, some manifestPath =>
        match parse manifestPath with
        | .raises => none
        | .readError exc => some (.skipped appId ("manifest_read_error: " ++ exc))
        | .network mode inbound =>
          if mode ≠ some "host" then some (.skipped appId "network.mode is not host")
          else
            match validPort inbound.head? with
            | none => some (.skipped appId "missing valid inbound port")
            | some port =>
              some (.route { id := appId, name := oneLine (orElse (app "name") appId), port, webUrl })

def Verdict.route? : Verdict → Option Route
  | .route r => some r
  | _ => none

def Verdict.skipped? : Verdict → Option (String × String)
  | .skipped appId reason => some (appId, reason)
  | _ => none

abbrev Registry := List (String × Option App)

def sortedItems (registry : Registry) : Registry := registry.mergeSort fun a b => a.1 ≤ b.1

def discoverRoutes (parse : Value → Parsed) (registry : Registry) :
    Option (List Route × List (String × String)) := do
  let verdicts ← (sortedItems registry).mapM fun (registryId, app) => examine parse registryId app
  return (verdicts.filterMap Verdict.route?, verdicts.filterMap Verdict.skipped?)

/-- A text of one line. -/
abbrev Line := { s : String // '\n' ∉ s.toList }

variable (registryPath now : Line)

def headLines : List String :=
  ["# Generated by /data/nginx/sbin/aipc-nginx-app-route-sync.py. Do not edit.",
    "# Source: " ++ registryPath, "# Updated: " ++ now, ""]

def Route.lines (r : Route) : List String :=
  ["# " ++ r.name ++ " -> 127.0.0.1:" ++ toString r.port,
    "location = /apps/" ++ r.id ++ " \x7b",
    "    return 302 " ++ routeRedirectPath r.id r.webUrl ++ ";",
    "\x7d",
    "",
    "location ^~ /apps/" ++ r.id ++ "/ \x7b",
    "    proxy_pass http://127.0.0.1:" ++ toString r.port ++ "/;",
    "    proxy_set_header Host $host;",
    "    proxy_set_header X-Real-IP $remote_addr;",
    "    proxy_set_header X-Forwarded-For $proxy_add_x_forwarded_for;",
    "    proxy_set_header X-Forwarded-Proto https;",
    "    proxy_set_header X-Forwarded-Host $host;",
    "    proxy_set_header X-Forwarded-Port 443;",
    "    proxy_set_header X-Forwarded-Prefix /apps/" ++ r.id ++ ";",
    "    proxy_set_header Upgrade $http_upgrade;",
    "    proxy_set_header Connection $connection_upgrade;",
    "    proxy_http_version 1.1;",
    "    proxy_read_timeout 300s;",
    "    proxy_buffering off;",
    "    proxy_set_header Accept-Encoding \"\";",
    "    sub_filter_once off;",
    "    sub_filter_types text/css application/javascript text/javascript;",
    "    sub_filter 'href=\"/' 'href=\"/apps/" ++ r.id ++ "/';",
    "    sub_filter \"href='/\" \"href='/apps/" ++ r.id ++ "/\";",
    "    sub_filter 'src=\"/' 'src=\"/apps/" ++ r.id ++ "/';",
    "    sub_filter \"src='/\" \"src='/apps/" ++ r.id ++ "/\";",
    "    sub_filter 'action=\"/' 'action=\"/apps/" ++ r.id ++ "/';",
    "    sub_filter \"action='/\" \"action='/apps/" ++ r.id ++ "/\";",
    "    sub_filter 'url(/' 'url(/apps/" ++ r.id ++ "/';",
    "    proxy_redirect ~^(/.*)$ /apps/" ++ r.id ++ "$1;",
    "    proxy_redirect http://127.0.0.1:" ++ toString r.port ++ "/ /apps/" ++ r.id ++ "/;",
    "    proxy_cookie_path / /apps/" ++ r.id ++ "/;",
    "\x7d",
    ""]

def skippedLine (appId reason : String) : String := "# - " ++ appId ++ ": " ++ oneLine reason

/-- The lines of the text after its head. -/
def bodyLines (routes : List Route) (skipped : List (String × String)) : List String :=
  (if routes = [] then ["# No running app web routes found.", ""] else []) ++
    routes.flatMap Route.lines ++
    if skipped = [] then []
    else "# Skipped apps:" :: skipped.map (fun s => skippedLine s.1 s.2) ++ [""]

/-- The text of a generated file. -/
def generated (body : List String) : String :=
  "\n".intercalate (headLines registryPath now ++ body)

/-- The text and the accepted apps, unless an exception is raised. -/
def renderRoutes (parse : Value → Parsed) (registry : Registry) : Option (String × List Route) := do
  let (routes, skipped) ← discoverRoutes parse registry
  return (generated registryPath now (bodyLines routes skipped), routes)

/-! ## The lines that nginx reads -/

/-- A line that is neither empty nor a comment. -/
def isDirective (line : List Char) : Bool := line ≠ [] && line.head? ≠ some '#'

def directives (text : String) : List (List Char) := (text.toList.splitOn '\n').filter isDirective

/-- The lines for an app that are neither empty nor comments. -/
def Route.directives (r : Route) : List (List Char) := (r.lines.map String.toList).filter isDirective

/-- The lines that nginx reads are those for the accepted apps, once each and in order. -/
structure TemplateOnly (routes : List Route) (text : String) : Prop where
  lines : directives text = routes.flatMap Route.directives
  ids : ∀ r ∈ routes, ∀ c ∈ r.id.toList, isIdChar c = true
  ports : ∀ r ∈ routes, 1 ≤ r.port ∧ r.port ≤ 65535
  paths : ∀ r ∈ routes, ∀ c ∈ (routeRedirectPath r.id r.webUrl).toList, isPathChar c = true

theorem directives_join {lines : List String} (some : lines ≠ []) :
    directives ("\n".intercalate lines) = lines.flatMap directives := by
  have nonempty : lines.map String.toList ≠ [] := by simpa using some
  rw [directives, String.toList_intercalate, show "\n".toList = ['\n'] from rfl,
    Text.splitOn_join nonempty, List.filter_flatMap, List.flatMap_map]
  rfl

theorem directives_single {lines : List String} (single : ∀ l ∈ lines, '\n' ∉ l.toList) :
    lines.flatMap directives = (lines.map String.toList).filter isDirective := by
  have pieces : ∀ l ∈ lines.map String.toList, '\n' ∉ l := by simpa using single
  rw [← Text.flatMap_splitOn pieces, List.filter_flatMap, List.flatMap_map]
  rfl

theorem single_of_mem_directives {text : String} {line : List Char} (mem : line ∈ directives text) :
    '\n' ∉ line :=
  Text.notMem_of_mem_splitOn _ _ (List.mem_of_mem_filter mem)

-- The characters of a literal are taken from here: to compute them from its bytes takes long.
theorem single_literal {l : List Char} (single : '\n' ∉ l) : '\n' ∉ (String.ofList l).toList := by
  rwa [String.toList_ofList]

theorem single_append {s s' : String} (single : '\n' ∉ s.toList) (single' : '\n' ∉ s'.toList) :
    '\n' ∉ (s ++ s').toList := by
  simp [single, single']

theorem isDirective_append (c : Char) (l : List Char) (s : String) :
    isDirective (String.ofList (c :: l) ++ s).toList = decide (c ≠ '#') := by
  simp [isDirective]

/-! ## Ids of skipped apps -/

/-- Every line break is followed by another one or by the beginning of a comment. -/
def masked : List Char → Bool
  | [] => true
  | '\n' :: rest => (rest.head? = some '#' || rest.head? = some '\n') && masked rest
  | _ :: rest => masked rest

theorem splitOn_cons_ne {c : Char} (other : c ≠ '\n') (cs : List Char) :
    ∃ first rest, cs.splitOn '\n' = first :: rest ∧ (c :: cs).splitOn '\n' = (c :: first) :: rest := by
  obtain ⟨first, rest, eq⟩ := List.exists_cons_of_ne_nil (List.splitOn_ne_nil '\n' cs)
  refine ⟨first, rest, eq, ?_⟩
  rw [List.splitOn_cons_eq_if_modifyHead, if_neg (by simpa using other), eq, List.modifyHead_cons]

theorem splitOn_break (cs : List Char) : ('\n' :: cs).splitOn '\n' = [] :: cs.splitOn '\n' := by
  rw [List.splitOn_cons_eq_if_modifyHead, if_pos (by simp)]

/-- The lines after the first, of a text that ends in `ending`. -/
theorem masked_iff {e : Char} {ending : List Char} (single : '\n' ∉ e :: ending) (shown : e ≠ '#')
    (cs : List Char) :
    (∀ l ∈ ((cs ++ e :: ending).splitOn '\n').tail, isDirective l = false) ↔ masked cs = true := by
  induction cs with
  | nil => simp [List.splitOn_eq_singleton single, masked]
  | cons c cs ih =>
    by_cases break_ : c = '\n'
    · subst break_
      rw [List.cons_append, splitOn_break, List.tail_cons, masked, Bool.and_eq_true, ← ih]
      cases cs with
      | nil => simp [List.splitOn_eq_singleton single, isDirective, shown]
      | cons d ds =>
        by_cases again : d = '\n'
        · subst again
          simp [splitOn_break, isDirective]
        · obtain ⟨first, rest, -, eq⟩ := splitOn_cons_ne again (ds ++ e :: ending)
          simp [eq, isDirective, again]
    · obtain ⟨first, rest, eq, eq'⟩ := splitOn_cons_ne break_ (cs ++ e :: ending)
      rw [List.cons_append, eq', masked]
      · rw [eq] at ih
        exact ih
      · exact break_

theorem single_oneLine (text : String) : '\n' ∉ (oneLine text).toList := by
  simp only [oneLine, String.toList_ofList, List.mem_map, not_exists, not_and]
  intro c _ eq
  split_ifs at eq with break_
  · exact absurd eq (by decide)
  · exact break_ eq

theorem directives_skippedLine (appId reason : String) :
    directives (skippedLine appId reason) = [] ↔ masked appId.toList = true := by
  have single : '\n' ∉ ':' :: ' ' :: (oneLine reason).toList := by
    simp [single_oneLine reason]
  have text : (skippedLine appId reason).toList =
      '#' :: (' ' :: '-' :: ' ' :: appId.toList ++ ':' :: ' ' :: (oneLine reason).toList) := by
    simp [skippedLine]
  obtain ⟨first, rest, eq, eq'⟩ := splitOn_cons_ne (show '#' ≠ '\n' by decide)
    (' ' :: '-' :: ' ' :: appId.toList ++ ':' :: ' ' :: (oneLine reason).toList)
  have tail := masked_iff single (by decide) (' ' :: '-' :: ' ' :: appId.toList)
  rw [eq, show masked (' ' :: '-' :: ' ' :: appId.toList) = masked appId.toList from rfl] at tail
  rw [directives, text, eq', List.filter_eq_nil_iff, List.forall_mem_cons, ← tail]
  simp [isDirective]

/-! ## What is accepted -/

theorem isPathChar_of_isIdChar {c : Char} (ok : isIdChar c = true) : isPathChar c = true := by
  simp only [isIdChar, Bool.or_eq_true, decide_eq_true_eq] at ok
  obtain ((alnum | rfl) | rfl) | rfl := ok
  · simp [isPathChar, alnum]
  all_goals decide

theorem single_of_isPathChar {cs : List Char} (ok : ∀ c ∈ cs, isPathChar c = true) : '\n' ∉ cs :=
  fun mem => absurd (ok _ mem) (by decide)

theorem isPathChar_hexDigit (n : ℕ) : isPathChar (hexDigit n) = true := by
  have digits : ∀ c ∈ "0123456789ABCDEF".toList, isPathChar c = true :=
    List.all_eq_true.1 (by decide)
  rcases Nat.lt_or_ge n "0123456789ABCDEF".toList.length with small | large
  · rw [hexDigit, List.getD_eq_getElem _ _ small]
    exact digits _ (List.getElem_mem _)
  · rw [hexDigit, List.getD_eq_default _ _ large]
    decide

theorem isPathChar_of_mem_quote {path : List Char} {c : Char} (mem : c ∈ quote path) :
    isPathChar c = true := by
  obtain ⟨b, -, mem⟩ := List.mem_flatMap.1 mem
  rw [quoteByte] at mem
  split_ifs at mem with safe
  · obtain rfl := List.mem_singleton.1 mem
    exact safe
  · simp only [List.mem_cons, List.not_mem_nil, or_false] at mem
    obtain rfl | rfl | rfl := mem
    · decide
    · exact isPathChar_hexDigit _
    · exact isPathChar_hexDigit _

theorem isPathChar_of_mem_normalizeWebPath {value : Value} {c : Char}
    (mem : c ∈ normalizeWebPath value) : isPathChar c = true := by
  cases value with
  | other =>
    obtain rfl := List.mem_singleton.1 mem
    decide
  | text s =>
    simp only [normalizeWebPath] at mem
    split_ifs at mem
    · obtain rfl := List.mem_singleton.1 mem
      decide
    all_goals exact isPathChar_of_mem_quote mem

/-- The first case of `route_redirect_path` makes no difference. -/
theorem routeRedirectPath_eq (appId : String) (webUrl : Value) :
    routeRedirectPath appId webUrl = "/apps/" ++ appId ++ String.ofList (normalizeWebPath webUrl) := by
  unfold routeRedirectPath
  split_ifs with root
  · rw [root]
  · rfl

theorem isPathChar_of_mem_redirect {appId : String} (ids : ∀ c ∈ appId.toList, isIdChar c = true)
    (webUrl : Value) {c : Char} (mem : c ∈ (routeRedirectPath appId webUrl).toList) :
    isPathChar c = true := by
  have start : ∀ c ∈ "/apps/".toList, isPathChar c = true := List.all_eq_true.1 (by decide)
  simp only [routeRedirectPath_eq, String.toList_append, String.toList_ofList, List.mem_append] at mem
  obtain (mem | mem) | mem := mem
  · exact start c mem
  · exact isPathChar_of_isIdChar (ids c mem)
  · exact isPathChar_of_mem_normalizeWebPath mem

theorem isIdChar_of_matchesAppId {appId : String} (matched : matchesAppId appId = true)
    (single : '\n' ∉ appId.toList) : ∀ c ∈ appId.toList, isIdChar c = true := by
  rw [matchesAppId] at matched
  cases chars : appId.toList with
  | nil => simp
  | cons c cs =>
    rw [chars] at matched single
    have last : cs.getLast? ≠ some '\n' := fun last =>
      single (List.mem_cons_of_mem _ (List.mem_of_getLast? last))
    simp only [if_neg last, Bool.and_eq_true, List.all_eq_true] at matched
    refine List.forall_mem_cons.2 ⟨?_, matched.1.2⟩
    simp [isIdChar, matched.1.1]

structure Route.Accepted (r : Route) : Prop where
  id : matchesAppId r.id = true
  name : '\n' ∉ r.name.toList
  port : 1 ≤ r.port ∧ r.port ≤ 65535

theorem accepted_of_examine {parse : Value → Parsed} {registryId : String} {app : Option App}
    {r : Route} (found : examine parse registryId app = some (.route r)) : r.Accepted := by
  cases app with
  | none => simp [examine] at found
  | some app =>
    by_cases matched : matchesAppId (orElse (app "id") registryId) = true
    swap
    · simp [examine, matched] at found
    simp only [examine, matched, not_true, if_false] at found
    split at found
    · cases found
    split at found
    · cases found
    · cases found
    split at found
    · cases found
    · cases found
    split at found
    · cases found
    split at found
    · cases found
    · rename_i port valid
      cases found
      have range := (Option.filter_eq_some_iff.1 valid).2
      simp only [Bool.and_eq_true, decide_eq_true_eq] at range
      exact ⟨matched, single_oneLine _, range⟩

theorem Route.Accepted.single_lines {r : Route} (accepted : r.Accepted) (single : '\n' ∉ r.id.toList) :
    ∀ l ∈ r.lines, '\n' ∉ l.toList := by
  have name := accepted.name
  have port : '\n' ∉ (toString r.port).toList := fun mem => by
    rw [Nat.toString_eq_repr, Nat.toList_repr] at mem
    exact absurd (Nat.isDigit_of_mem_toDigits (by omega) (by omega) mem) (by decide)
  have path : '\n' ∉ (routeRedirectPath r.id r.webUrl).toList :=
    single_of_isPathChar fun _ => isPathChar_of_mem_redirect
      (isIdChar_of_matchesAppId accepted.id single) r.webUrl
  rw [Route.lines]
  repeat' first
    | exact List.forall_mem_nil _
    | refine List.forall_mem_cons.2 ⟨?_, ?_⟩
    | with_reducible assumption
    | with_reducible apply single_append
    | exact single_literal (by decide)

/-! ## The text -/

theorem mem_of_mapM {α β : Type} {f : α → Option β} {as : List α} {bs : List β}
    (mapped : as.mapM f = some bs) (b : β) : b ∈ bs ↔ ∃ a ∈ as, f a = some b := by
  induction as generalizing bs with
  | nil =>
    obtain rfl : bs = [] := by simpa using mapped.symm
    simp
  | cons a as ih =>
    simp only [List.mapM_cons, Option.bind_eq_bind, Option.bind_eq_some_iff, Option.pure_def,
      Option.some_inj] at mapped
    obtain ⟨b', found, bs', rest, rfl⟩ := mapped
    simp [found, ih rest, eq_comm]

/-- An accepted id has no line break, and a skipped one none that ends the comment. -/
def Harmless : Option Verdict → Prop
  | some (.route r) => '\n' ∉ r.id.toList
  | some (.skipped appId _) => masked appId.toList = true
  | _ => True

theorem directives_comment {l : List Char} {s : String} (single : '\n' ∉ '#' :: l)
    (single' : '\n' ∉ s.toList) : directives (String.ofList ('#' :: l) ++ s) = [] := by
  have line : '\n' ∉ (String.ofList ('#' :: l) ++ s).toList :=
    single_append (single_literal single) single'
  rw [directives, List.splitOn_eq_singleton line, List.filter_eq_nil_iff, List.forall_mem_singleton,
    isDirective_append]
  decide

theorem directives_literal {l : List Char} (single : '\n' ∉ '#' :: l) :
    directives (String.ofList ('#' :: l)) = [] := by
  simpa using directives_comment (s := "") single (by simp)

theorem directives_headLines : (headLines registryPath now).flatMap directives = [] := by
  refine List.flatMap_eq_nil_iff.2 (List.forall_mem_cons.2 ⟨?_, List.forall_mem_cons.2 ⟨?_,
    List.forall_mem_cons.2 ⟨?_, List.forall_mem_singleton.2 rfl⟩⟩⟩)
  · exact directives_literal (by decide)
  · exact directives_comment (by decide) registryPath.2
  · exact directives_comment (by decide) now.2

theorem directives_bodyLines (routes : List Route) (skipped : List (String × String)) :
    (bodyLines routes skipped).flatMap directives =
      routes.flatMap (fun r => r.lines.flatMap directives) ++
        skipped.flatMap fun s => directives (skippedLine s.1 s.2) := by
  have none : directives "# No running app web routes found." = [] := directives_literal (by decide)
  have title : directives "# Skipped apps:" = [] := directives_literal (by decide)
  have empty : directives "" = [] := rfl
  rw [bodyLines, List.flatMap_append, List.flatMap_append, List.flatMap_assoc]
  congr 1
  · split_ifs
    · simp [none, empty]
    · rfl
  · split_ifs with nobody
    · simp [nobody]
    · simp [title, empty, List.flatMap_map]

theorem mem_location (r : Route) :
    ("location = /apps/" ++ r.id ++ " \x7b").toList ∈ r.directives := by
  refine List.mem_filter.2 ⟨List.mem_map.2 ⟨_, .tail _ (.head _), rfl⟩, ?_⟩
  rw [String.append_assoc]
  exact isDirective_append 'l' _ _

section

variable {parse : Value → Parsed} {registry : Registry} {routes : List Route}
  {skipped : List (String × String)}

theorem mem_of_discoverRoutes (found : discoverRoutes parse registry = some (routes, skipped)) :
    (∀ r, r ∈ routes ↔ ∃ e ∈ registry, examine parse e.1 e.2 = some (.route r)) ∧
      ∀ appId reason, (appId, reason) ∈ skipped ↔
        ∃ e ∈ registry, examine parse e.1 e.2 = some (.skipped appId reason) := by
  simp only [discoverRoutes, Option.bind_eq_bind, Option.bind_eq_some_iff, Option.pure_def,
    Option.some_inj, Prod.mk.injEq] at found
  obtain ⟨verdicts, mapped, rfl, rfl⟩ := found
  have examined (v : Verdict) :
      v ∈ verdicts ↔ ∃ e ∈ registry, examine parse e.1 e.2 = some v := by
    rw [mem_of_mapM mapped]
    simp only [sortedItems, List.mem_mergeSort]
  refine ⟨fun r => ?_, fun appId reason => ?_⟩
  all_goals
    rw [List.mem_filterMap, ← examined]
    refine ⟨?_, fun mem => ⟨_, mem, rfl⟩⟩
    rintro ⟨v, mem, eq⟩
    cases v <;> cases eq
    exact mem

theorem harmless_iff (found : discoverRoutes parse registry = some (routes, skipped)) :
    (∀ e ∈ registry, Harmless (examine parse e.1 e.2)) ↔
      (∀ r ∈ routes, '\n' ∉ r.id.toList) ∧ ∀ s ∈ skipped, masked s.1.toList = true := by
  obtain ⟨inRoutes, inSkipped⟩ := mem_of_discoverRoutes found
  constructor
  · refine fun harmless => ⟨fun r mem => ?_, fun s mem => ?_⟩
    · obtain ⟨e, entry, eq⟩ := (inRoutes r).1 mem
      simpa only [eq, Harmless] using harmless e entry
    · obtain ⟨e, entry, eq⟩ := (inSkipped s.1 s.2).1 mem
      simpa only [eq, Harmless] using harmless e entry
  · rintro ⟨single, hidden⟩ e entry
    match eq : examine parse e.1 e.2 with
    | none => exact trivial
    | some .ignored => exact trivial
    | some (.route r) => exact single r ((inRoutes r).2 ⟨e, entry, eq⟩)
    | some (.skipped appId reason) =>
      exact hidden (appId, reason) ((inSkipped appId reason).2 ⟨e, entry, eq⟩)

theorem templateOnly_iff (accepted : ∀ r ∈ routes, r.Accepted) :
    TemplateOnly routes (generated registryPath now (bodyLines routes skipped)) ↔
      (∀ r ∈ routes, '\n' ∉ r.id.toList) ∧ ∀ s ∈ skipped, masked s.1.toList = true := by
  have all : directives (generated registryPath now (bodyLines routes skipped)) =
      routes.flatMap (fun r => r.lines.flatMap directives) ++
        skipped.flatMap fun s => directives (skippedLine s.1 s.2) := by
    rw [generated, directives_join (by simp [headLines]),
      List.flatMap_append, directives_headLines, directives_bodyLines, List.nil_append]
  have own (single : ∀ r ∈ routes, '\n' ∉ r.id.toList) :
      routes.flatMap (fun r => r.lines.flatMap directives) = routes.flatMap Route.directives :=
    List.flatMap_congr fun r mem => directives_single ((accepted r mem).single_lines (single r mem))
  constructor
  · intro only
    have single : ∀ r ∈ routes, '\n' ∉ r.id.toList := by
      intro r mem break_
      have line : ("location = /apps/" ++ r.id ++ " \x7b").toList ∈ routes.flatMap Route.directives :=
        List.mem_flatMap.2 ⟨r, mem, mem_location r⟩
      refine single_of_mem_directives (only.lines ▸ line) ?_
      simp [break_]
    refine ⟨single, fun s mem => ?_⟩
    have rest := only.lines
    rw [all, own single, List.append_right_eq_self, List.flatMap_eq_nil_iff] at rest
    exact (directives_skippedLine s.1 s.2).1 (rest s mem)
  · rintro ⟨single, hidden⟩
    have ids (r : Route) (mem : r ∈ routes) := isIdChar_of_matchesAppId (accepted r mem).id (single r mem)
    refine ⟨?_, ids, fun r mem => (accepted r mem).port,
      fun r mem c => isPathChar_of_mem_redirect (ids r mem) r.webUrl⟩
    have quiet : (skipped.flatMap fun s => directives (skippedLine s.1 s.2)) = [] :=
      List.flatMap_eq_nil_iff.2 fun s mem => (directives_skippedLine s.1 s.2).2 (hidden s mem)
    rw [all, own single, quiet, List.append_nil]

end

/-- The text has only the lines of the accepted apps exactly if every entry is harmless. -/
theorem routes_template_only_iff (parse : Value → Parsed)
    (registry : Registry) {text : String} {routes : List Route}
    (rendered : renderRoutes registryPath now parse registry = some (text, routes)) :
    TemplateOnly routes text ↔ ∀ e ∈ registry, Harmless (examine parse e.1 e.2) := by
  simp only [renderRoutes, Option.bind_eq_bind, Option.bind_eq_some_iff, Option.pure_def,
    Option.some_inj, Prod.mk.injEq] at rendered
  obtain ⟨⟨found, skipped⟩, discovered, rfl, rfl⟩ := rendered
  rw [harmless_iff discovered]
  refine templateOnly_iff registryPath now fun r mem => ?_
  obtain ⟨e, -, accepted⟩ := ((mem_of_discoverRoutes discovered).1 r).1 mem
  exact accepted_of_examine accepted

section Samples

variable {registryPath now : Line} {parse : Value → Parsed} {registryId : String} {app : Option App}
  {v : Verdict}

theorem renderRoutes_single (found : examine parse registryId app = some v) :
    renderRoutes registryPath now parse [(registryId, app)] =
      some (generated registryPath now (bodyLines ([v].filterMap Verdict.route?)
        ([v].filterMap Verdict.skipped?)), [v].filterMap Verdict.route?) := by
  simp [renderRoutes, discoverRoutes, sortedItems, found]

def sampleLine : Line := ⟨"2026", by decide⟩

def webApp : App
  | "state" => some (.text "running")
  | "web_url" => some (.text "/a b")
  | "manifest_path" => some (.text "app.yaml")
  | _ => none

def onPort (port : ℕ) (_ : Value) : Parsed := .network (some "host") [port]

theorem routes_template_only_sample :
    ∃ text routes, renderRoutes sampleLine sampleLine (onPort 80) [("cam", some webApp)] =
      some (text, routes) ∧ routes ≠ [] ∧ TemplateOnly routes text := by
  have found : examine (onPort 80) "cam" (some webApp) =
      some (.route ⟨"cam", "cam", 80, .text "/a b"⟩) := by
    simp [examine, webApp, onPort, orElse, matchesAppId, isIdChar, validPort, oneLine]
    rfl
  refine ⟨_, _, renderRoutes_single found, by simp [Verdict.route?], ?_⟩
  refine (routes_template_only_iff _ _ _ _ (renderRoutes_single found)).2 ?_
  simp [found, Harmless]

/-- The key of an entry that is not an object brings a directive into the text. -/
theorem directive_of_skipped_id :
    ∃ text, renderRoutes sampleLine sampleLine (onPort 80) [("x\nautoindex on;#", none)] =
      some (text, []) ∧ ¬ TemplateOnly [] text := by
  refine ⟨_, renderRoutes_single (v := .skipped _ _) rfl, fun only => ?_⟩
  have hidden := ((templateOnly_iff sampleLine sampleLine (by simp)).1 only).2
  simp [Verdict.skipped?, masked] at hidden

end Samples

end NeoRuntime.Nginx
