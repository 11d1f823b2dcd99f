import Reckoner.CommandLine.Tools
import Reckoner.Text.Blank
import Reckoner.Tools.Pattern

/-!
# Selecting notices

The usual logger.  A specification selects the notices that are shown.  It is a list of directives separated by
commas, each of them a level, the start of an origin's path, or both as `path=level`.  Of the
directives whose path an origin starts with, the longest counts, and of equally long ones the
last; it admits what is at most as detailed as its level.  After a slash may stand a pattern
that is looked for in the text of every notice shown.
-/

namespace Reckoner

structure Directive where
  /-- The start of the paths it applies to; `none` for all. -/
  path : Option String
  /-- The most detailed level shown; `none` for nothing. -/
  limit : Option Level
deriving DecidableEq

structure LogFilter where
  directives : List Directive
  /-- What is found in the text of every notice shown. -/
  pattern : Option Pattern := none

namespace Directive

def pathLength (d : Directive) : Nat :=
  d.path.elim 0 String.utf8ByteSize

def appliesTo (d : Directive) (n : Notice) : Bool :=
  d.path.elim true fun path => path.toList.isPrefixOf n.origin.path.toList

def admits (d : Directive) (n : Notice) : Bool :=
  d.limit.elim false fun l => n.level.rank ≤ l.rank

end Directive

/-- The levels that a specification can name, with nothing at all among them. -/
def limitOfName? (name : String) : Option (Option Level) :=
  match String.ofList (name.toList.map Char.toUpper) with
  | "OFF" => some none
  | "ERROR" => some (some .error)
  | "WARN" => some (some .warn)
  | "INFO" => some (some .info)
  | "DEBUG" => some (some .debug)
  | "TRACE" => some (some .trace)
  | _ => none

/-- The parts of a text between the characters `c`. -/
def fields (c : Char) (text : String) : List String :=
  (go text.toList).map String.ofList
where
  go : List Char → List (List Char)
    | [] => [[]]
    | d :: ds =>
      match go ds with
      | part :: parts => if d = c then [] :: part :: parts else (d :: part) :: parts
      | [] => []

/-- A text without the blanks at its ends. -/
def trimBlanks (text : String) : String :=
  let front := text.toList.dropWhile Text.isBlank
  String.ofList (front.reverse.dropWhile Text.isBlank).reverse

namespace LogFilter

/-- One directive, or the text that is none. -/
def readDirective (text : String) : Except String Directive :=
  match fields '=' text with
  | [word] =>
    match limitOfName? word with
    | some limit => .ok ⟨none, limit⟩
    | none => .ok ⟨some word, some .trace⟩
  | [path, level] =>
    let level := trimBlanks level
    if level = "" then .ok ⟨some path, some .trace⟩
    else
      match limitOfName? level with
      | some limit => .ok ⟨some path, limit⟩
      | none => .error level
  | _ => .error text

/-- Adds a directive, in place of one for the same path. -/
def addDirective (ds : List Directive) (d : Directive) : List Directive :=
  if ds.any (·.path = d.path) then ds.map fun e => if e.path = d.path then d else e
  else ds ++ [d]

def warning (problem : String) : String :=
  "warning: invalid logging spec '" ++ problem ++ "', ignoring it\n"

/-- Reads directives.  Those that cannot be read give warnings. -/
def readDirectives (text : String) : List Directive × List String :=
  let words := (fields ',' text).map trimBlanks |>.filter (· ≠ "")
  words.foldl
    (fun (ds, warnings) word =>
      match readDirective word with
      | .ok d => (addDirective ds d, warnings)
      | .error problem => (ds, warnings ++ [warning problem]))
    ([], [])

/-- Without directives, errors are shown. -/
def orErrors (ds : List Directive) : List Directive :=
  if ds = [] then [⟨none, some .error⟩] else ds

/-- Reads a pattern.  One that is refused gives a warning. -/
def readPattern (text : String) : Option Pattern × List String :=
  match Pattern.ofText text with
  | .ok p => (some p, [])
  | .error refusal =>
    (none, ["warning: invalid regex filter - " ++ refusal.message text ++ ", ignoring it\n"])

/-- Reads a specification, and gives the warnings about it. -/
def ofSpec (spec : String) : LogFilter × List String :=
  match fields '/' spec with
  | [text] =>
    let (ds, warnings) := readDirectives text
    ({ directives := orErrors ds }, warnings)
  | [text, wanted] =>
    let (ds, warnings) := readDirectives text
    let (pattern, complaints) := readPattern wanted
    ({ directives := orErrors ds, pattern }, warnings ++ complaints)
  | _ =>
    ({ directives := orErrors [] },
      ["warning: invalid logging spec '" ++ spec ++
        "' (too many '/'s), ignoring it\n"])

/-- The directive that counts for a notice. -/
def directive? (f : LogFilter) (n : Notice) : Option Directive :=
  (f.directives.filter (·.appliesTo n)).foldl
    (fun best d =>
      match best with
      | some b => if b.pathLength ≤ d.pathLength then some d else some b
      | none => some d)
    none

def shows (f : LogFilter) (n : Notice) : Bool :=
  (f.directive? n).elim false (·.admits n) && f.pattern.elim true (·.isIn n.text)

end LogFilter

/-- A text whose lines after the first begin with four spaces. -/
def indented (text : String) : String :=
  String.ofList (text.toList.flatMap fun c => if c = '\n' then "\n    ".toList else [c])

/-- A notice as it is shown, its level in five columns. -/
def Notice.line (n : Notice) : String :=
  "[" ++ String.ofList (n.level.name.toList.rightpad 5 ' ') ++ " " ++ n.origin.path ++ "] " ++
    indented n.text ++ "\n"

/-- The logger that a specification sets up. -/
def Logger.ofSpec (spec : String) : Logger :=
  let (filter, warnings) := LogFilter.ofSpec spec
  { opening := utf8 (String.join warnings)
    line _ n := if filter.shows n then utf8 n.line else #[] }

end Reckoner
