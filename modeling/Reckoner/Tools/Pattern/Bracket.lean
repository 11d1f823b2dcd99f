import Reckoner.Tools.Pattern.Escape

/-!
# Sets between brackets

A set lists characters, ranges, named sets and other sets.  Two lists may be combined by an
operator; operators are applied from left to right.  A dash at the start and a closing bracket as
the first member stand for themselves.
-/

namespace Reckoner.Pattern

def namedSet? (name : List Char) : Option NamedSet :=
  match String.ofList name with
  | "alnum" => some .alnum
  | "alpha" => some .alpha
  | "ascii" => some .ascii
  | "blank" => some .blank
  | "cntrl" => some .cntrl
  | "digit" => some .digit
  | "graph" => some .graph
  | "lower" => some .lower
  | "print" => some .print
  | "punct" => some .punct
  | "space" => some .space
  | "upper" => some .upper
  | "word" => some .word
  | "xdigit" => some .xdigit
  | _ => none

/-- The members of a set that have been read, the last one first. -/
structure Members where
  span : Span
  parts : List SetTree := []

namespace Members

def add (m : Members) (t : SetTree) : Members :=
  { span := ⟨if m.parts.isEmpty then t.span.start else m.span.start, t.span.stop⟩
    parts := t :: m.parts }

def tree (m : Members) : SetTree :=
  match m.parts with
  | [] => .empty m.span
  | [t] => t
  | parts => .union m.span parts.reverse

end Members

/-- An operator with the set before it. -/
abbrev Pending := Option (SetOp × SetTree)

def Pending.close (pending : Pending) (right : SetTree) : SetTree :=
  match pending with
  | none => right
  | some (op, left) => .combined ⟨left.span.start, right.span.stop⟩ op left right

/-- What the second half of a range could be: the next character but one, blanks and a first `#`
passed over where that is asked for. -/
def Cursor.peekPast? (c : Cursor) : Option Char :=
  let ahead := c.rest.tail
  if c.spaced then
    let rest := ahead.dropWhile Text.isBlank
    let rest :=
      match rest with
      | '#' :: comment => comment.dropWhile Text.isBlank
      | _ => rest
    (rest.head?).or ahead.head?
  else ahead.head?

/-- A named set such as `[:alpha:]`; anything else leaves the cursor for other readings. -/
def Cursor.namedSet? (c : Cursor) : Option (SetTree × Cursor) := do
  let inner ← c.pass? ['[', ':']
  let (negated, inner) := ((inner.pass? ['^']).map (true, ·)).getD (false, inner)
  let (name, after) := { inner with spaced := false }.gather (· ≠ ':')
  let after ← after.pass? [':', ']']
  let set ← Pattern.namedSet? name
  return (.named ⟨c.place, after.place⟩ set negated, { after with spaced := c.spaced })

namespace Reading

/-- A character or a range's bound, as written. -/
def setAtom : Reading Atom := do
  match ← peek? with
  | some '\\' => escape
  | some char =>
    let span := (← get).charSpan
    advance
    return .literal { span, char }
  | none => failHere .setUnclosed

def member : Atom → Reading SetTree
  | .literal l => return .literal l
  | .shorthand span s negated => return .shorthand span s negated
  | .property span name => return .property span name
  | a => fail .setMember a.span

def bound : Atom → Reading Literal
  | .literal l => return l
  | a => fail .rangeBound a.span

/-- A character, a set with a letter of its own, or a range, in the set opened at `opened`. -/
def memberOrRange (opened : Span) : Reading SetTree := do
  let first ← setAtom
  skip
  let c ← get
  if c.peek?.isNone then fail .setUnclosed opened
  else if c.peek? ≠ some '-' || c.peekPast? = some ']' || c.peekPast? = some '-' then
    member first
  else
    advanceSkip
    if (← peek?).isNone then fail .setUnclosed opened
    else
      let second ← setAtom
      let span : Span := ⟨first.span.start, second.span.stop⟩
      let low ← bound first
      let high ← bound second
      if low.char ≤ high.char then return .range span low high
      else fail .rangeReversed span

/-- The dashes at the start of the set that opens at `start`. -/
def dashes (start : Place) : Nat → Members → Reading Members
  | 0, m => return m
  | k + 1, m => do
    let c ← get
    if c.peek? = some '-' then
      advanceSkip
      if (← peek?).isNone then fail .setUnclosed (.point start)
      else dashes start k (m.add (.literal { span := c.charSpan, char := '-' }))
    else return m

/-- The opening bracket with what has a meaning of its own behind it: whether the set is
negated, and its first members. -/
def openBracket : Reading (Bool × Members) := do
  let start ← place
  advanceSkip
  if (← peek?).isNone then failSince .setUnclosed start
  else
    let negated := (← peek?) = some '^'
    if negated then advanceSkip
    if (← peek?).isNone then failSince .setUnclosed start
    else
      let m ← dashes start (← get).rest.length { span := .point (← place) }
      let c ← get
      if m.parts.isEmpty && c.peek? = some ']' then
        advanceSkip
        if (← peek?).isNone then failSince .setUnclosed start
        else return (negated, m.add (.literal { span := c.charSpan, char := ']' }))
      else return (negated, m)

/-- The operator that comes next. -/
def setOp? : Reading (Option SetOp) := do
  match (← get).rest with
  | '&' :: '&' :: _ => return some .intersection
  | '-' :: '-' :: _ => return some .difference
  | '~' :: '~' :: _ => return some .symmetricDifference
  | _ => return none

mutual

/-- A set from its opening bracket on. -/
def bracket : Nat → Reading SetTree
  | 0 => failHere .setUnclosed
  | fuel + 1 => do
    let start ← place
    let (negated, m) ← openBracket
    let inner ← members fuel (← since start) m none
    return .bracket (← since start) negated inner

/-- The members of the set opened at `opened` to its closing bracket.  No character takes more
than two calls, which says how much fuel is enough. -/
def members : Nat → Span → Members → Pending → Reading SetTree
  | 0, opened, _, _ => fail .setUnclosed opened
  | fuel + 1, opened, m, pending => do
    skip
    let c ← get
    match c.peek?, c.namedSet?, ← setOp? with
    | none, _, _ => fail .setUnclosed opened
    | some ']', _, _ =>
      advance
      return Pending.close pending m.tree
    | some '[', some (t, after), _ =>
      set after
      members fuel opened (m.add t) pending
    | some '[', none, _ =>
      let t ← bracket fuel
      members fuel opened (m.add t) pending
    | _, _, some op =>
      advance
      advance
      let left := Pending.close pending m.tree
      members fuel opened { span := .point (← place) } (some (op, left))
    | _, _, none =>
      let t ← memberOrRange opened
      members fuel opened (m.add t) pending

end

end Reading

end Reckoner.Pattern
