import Reckoner.Tools.Pattern.Fault

/-!
# Showing a fault

A fault is shown under the pattern it is about.  Below a line of the pattern stand carets, under
what the fault spans on it.  A pattern of one line is indented; of several, each has its number
before it, and spans that go over more than one line are told in words.
-/

namespace Reckoner.Pattern

/-- The lines of a text.  A line ends with a line feed or with a carriage return before one. -/
def linesFrom (line : List Char) : List Char → List (List Char)
  | [] => if line.isEmpty then [] else [line.reverse]
  | '\n' :: rest =>
    (match line with
      | '\r' :: before => before.reverse
      | _ => line.reverse) :: linesFrom [] rest
  | c :: rest => linesFrom (c :: line) rest

def lines (text : List Char) : List (List Char) :=
  linesFrom [] text

/-- How many lines places can be on: after a line feed at the end there is one more. -/
def lineCount (text : List Char) : Nat :=
  (lines text).length + if text.getLast? = some '\n' then 1 else 0

/-- The width of the numbers before the lines; none for a single line. -/
def numberWidth (text : List Char) : Nat :=
  if lineCount text ≤ 1 then 0 else (toString (lineCount text)).length

/-- Carets below the spans of one line, from the column after `done` on. -/
def caretsFrom (done : Nat) : List Span → List Char
  | [] => []
  | s :: rest =>
    let gap := s.start.column - 1 - done
    let width := max 1 s.width
    List.replicate gap ' ' ++ List.replicate width '^' ++ caretsFrom (done + gap + width) rest

def sorted (spans : List Span) : List Span :=
  spans.mergeSort Span.le

/-- The line of carets below the line numbered `number`, if a span lies on it. -/
def caretLine (margin : Nat) (spans : List Span) (number : Nat) : List Char :=
  let here := spans.filter fun s => s.onOneLine && s.start.line = number
  if here.isEmpty then []
  else List.replicate margin ' ' ++ caretsFrom 0 (sorted here) ++ ['\n']

/-- The line numbered `number` behind its number. -/
def numbered (width number : Nat) (line : List Char) : List Char :=
  let before :=
    if width = 0 then List.replicate 4 ' '
    else (toString number).toList.leftpad width ' ' ++ [':', ' ']
  before ++ line ++ ['\n']

/-- All lines of the pattern, each with its carets below. -/
def excerpt (text : List Char) (spans : List Span) : List Char :=
  let width := numberWidth text
  let margin := if width = 0 then 4 else width + 2
  (lines text).zipIdx.flatMap fun (line, i) =>
    numbered width (i + 1) line ++ caretLine margin spans (i + 1)

/-- A span over several lines in words. -/
def Span.note (s : Span) : String :=
  "on line " ++ toString s.start.line ++ " (column " ++ toString s.start.column ++
    ") through line " ++ toString s.stop.line ++ " (column " ++ toString (s.stop.column - 1) ++ ")"

def Fault.notes (f : Fault) : String :=
  let long := sorted (f.spans.filter fun s => !s.onOneLine)
  if long.isEmpty then "" else "\n".intercalate (long.map Span.note) ++ "\n"

/-- The fault as it is told, under the pattern. -/
def Fault.message (f : Fault) (text : String) : String :=
  let shown := String.ofList (excerpt text.toList f.spans)
  let body :=
    if text.toList.contains '\n' then
      let divider := String.ofList (List.replicate 79 '~') ++ "\n"
      divider ++ shown ++ divider ++ f.notes
    else shown
  "regex parse error:\n" ++ body ++ "error: " ++ f.cause.message

end Reckoner.Pattern
