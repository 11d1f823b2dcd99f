import Reckoner.Tools.Pattern.CharSet

/-!
# Matching

What is left of a pattern once its flags are resolved.  A matcher is read as a function on the
places of a text: from those where it may begin to those where it may then end.  Each place is
marked or not, so that all ways to match are followed at once; `Matcher.ends` is that function,
and a text is matched if some place is an end when every place is a beginning.

A repetition over a text of `n` characters need not be followed more than `n + 1` times: one of
so many steps takes no character, and that step may be made again or left out.
-/

namespace Reckoner.Pattern

/-- A condition on a place. -/
inductive Look
  | textStart
  | textStop
  | lineStart (crlf : Bool)
  | lineStop (crlf : Bool)
  | word (unicode : Bool) (edge : WordEdge)
deriving DecidableEq

inductive Matcher
  | empty
  | oneOf (s : CharSet)
  | look (l : Look)
  | seq (parts : List Matcher)
  | anyOf (branches : List Matcher)
  | times (least : Nat) (most : Option Nat) (m : Matcher)
  | group (m : Matcher)

/-- The places of a text, from the one before its first character to the one behind its last:
which of them are marked. -/
abbrev Marks := List Bool

namespace Marks

def union (a b : Marks) : Marks :=
  List.zipWith or a b

def all (text : List Char) : Marks :=
  List.replicate (text.length + 1) true

def none (text : List Char) : Marks :=
  List.replicate (text.length + 1) false

end Marks

namespace Look

/-- ASCII letters, digits and the underscore. -/
def isWordChar (c : Option Char) : Bool :=
  c.elim false fun c => c.isAlphanum || c = '_'

/-- The condition at a place between two characters.  Words are made of ASCII characters. -/
def holds (before after : Option Char) : Look → Bool
  | .textStart => before.isNone
  | .textStop => after.isNone
  | .lineStart false => before.isNone || before = some '\n'
  | .lineStart true =>
    before.isNone || before = some '\n' || before = some '\r' && after ≠ some '\n'
  | .lineStop false => after.isNone || after = some '\n'
  | .lineStop true =>
    after.isNone || after = some '\r' || after = some '\n' && before ≠ some '\r'
  | .word _ .boundary => isWordChar before != isWordChar after
  | .word _ .inside => isWordChar before == isWordChar after
  | .word _ .start => !isWordChar before && isWordChar after
  | .word _ .stop => isWordChar before && !isWordChar after
  | .word _ .startHalf => !isWordChar before
  | .word _ .stopHalf => !isWordChar after

end Look

/-- The characters before and after each place. -/
def sides (before : Option Char) : List Char → List (Option Char × Option Char)
  | [] => [(before, none)]
  | c :: rest => (before, some c) :: sides (some c) rest

/-- From marked places over one character of `s`. -/
def step (s : CharSet) (text : List Char) (marks : Marks) : Marks :=
  false :: List.zipWith (fun marked c => marked && s.has c) marks text

/-- The marked places where `l` holds. -/
def keep (l : Look) (text : List Char) (marks : Marks) : Marks :=
  List.zipWith (fun marked (before, after) => marked && l.holds before after) marks
    (sides none text)

/-- The places reached from marked ones by exactly so many steps. -/
def again (f : Marks → Marks) : Nat → Marks → Marks
  | 0, marks => marks
  | k + 1, marks =>
    let next := f marks
    if next = marks then marks else again f k next

/-- The places reached from marked ones by at most so many steps. -/
def reach (f : Marks → Marks) : Nat → Marks → Marks
  | 0, marks => marks
  | k + 1, marks =>
    let more := marks.union (f marks)
    if more = marks then marks else reach f k more

namespace Matcher

mutual

/-- Where a match can end that begins at a marked place. -/
def ends (text : List Char) : Matcher → Marks → Marks
  | .empty => id
  | .oneOf s => step s text
  | .look l => keep l text
  | .seq parts => endsInTurn text parts
  | .anyOf branches => endsOfAny text branches
  | .times least most m => fun marks =>
    let places := text.length + 1
    reach (m.ends text) (most.elim places fun most => min places (most - least))
      (again (m.ends text) (min places least) marks)
  | .group m => m.ends text

def endsInTurn (text : List Char) : List Matcher → Marks → Marks
  | [] => id
  | m :: ms => fun marks => endsInTurn text ms (m.ends text marks)

def endsOfAny (text : List Char) : List Matcher → Marks → Marks
  | [] => fun _ => Marks.none text
  | m :: ms => fun marks => (m.ends text marks).union (endsOfAny text ms marks)

end

/-- Some part of `text` is matched. -/
def found (m : Matcher) (text : List Char) : Bool :=
  (m.ends text (Marks.all text)).any id

mutual

/-- No match takes a character. -/
def takesNothing : Matcher → Bool
  | .empty | .look _ => true
  | .oneOf _ => false
  | .seq parts => allTakeNothing parts
  | .anyOf branches => allTakeNothing branches
  | .times _ _ m => m.takesNothing
  | .group m => m.takesNothing

def allTakeNothing : List Matcher → Bool
  | [] => true
  | m :: ms => m.takesNothing && allTakeNothing ms

end

/-- A repetition.  What takes no character is the same however often it is repeated. -/
def repeated (least : Nat) (most : Option Nat) (m : Matcher) : Matcher :=
  let (least, most) :=
    if m.takesNothing then (min least 1, some (most.elim 1 (min 1))) else (least, most)
  match least, most with
  | 0, some 0 => .empty
  | 1, some 1 => m
  | least, most => .times least most m

mutual

/-- A condition in it asks for the words of Unicode. -/
def asksForWords : Matcher → Bool
  | .look (.word unicode _) => unicode
  | .look _ | .empty | .oneOf _ => false
  | .seq parts => anyAsksForWords parts
  | .anyOf branches => anyAsksForWords branches
  | .times _ _ m => m.asksForWords
  | .group m => m.asksForWords

def anyAsksForWords : List Matcher → Bool
  | [] => false
  | m :: ms => m.asksForWords || anyAsksForWords ms

end

end Matcher

end Reckoner.Pattern
