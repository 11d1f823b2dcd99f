import Reckoner.Tools.Pattern.Fault
import Reckoner.Tools.Pattern.Matcher

/-!
# What patterns mean

The flags in force are followed through a pattern from left to right.  Those that a group sets
last to its end, across the bars in it.

Characters are those of Unicode unless a flag turns that off; then they are bytes, and what could
match a part of a character is refused.  Of Unicode no properties and no cases are known here, so
that patterns which ask for them are refused as well; the cases of ASCII letters are known.
-/

namespace Reckoner.Pattern

/-- The flags in force. -/
structure Mode where
  caseInsensitive : Bool := false
  multiLine : Bool := false
  dotAll : Bool := false
  unicode : Bool := true
  crlf : Bool := false
deriving DecidableEq

namespace Mode

def setFlag (m : Mode) : Flag × Bool → Mode
  | (.caseInsensitive, b) => { m with caseInsensitive := b }
  | (.multiLine, b) => { m with multiLine := b }
  | (.dotAll, b) => { m with dotAll := b }
  | (.unicode, b) => { m with unicode := b }
  | (.crlf, b) => { m with crlf := b }
  | (.lazy, _) | (.spaced, _) => m

def apply (m : Mode) (s : Settings) : Mode :=
  s.foldl setFlag m

/-- The greatest number that a character can have. -/
def last (m : Mode) : Nat :=
  if m.unicode then CharSet.lastCode else 0xFF

end Mode

/-- A meaning, or why there is none. -/
abbrev Resolved := Except Fault

def refuse {α : Type} (cause : Cause) (span : Span) : Resolved α :=
  .error { cause, span }

/-- It is written as a byte that is no character by itself. -/
def Literal.isPart (l : Literal) : Bool :=
  l.isByte && 128 ≤ l.char.toNat

/-- The characters that a literal stands for. -/
def Literal.chars (mode : Mode) (l : Literal) : Resolved CharSet :=
  let set := CharSet.single l.char.toNat
  if mode.unicode then
    if mode.caseInsensitive then refuse .caseUnavailable l.span else .ok set
  else if l.isPart then refuse .invalidUtf8 l.span
  else .ok (if mode.caseInsensitive then set.withBothCases else set)

/-- The number of a literal as a member of a set. -/
def Literal.code (mode : Mode) (l : Literal) : Resolved Nat :=
  if mode.unicode then .ok l.char.toNat
  else if l.isPart then refuse .invalidUtf8 l.span
  else if 128 ≤ l.char.toNat then refuse .unicodeOff l.span
  else .ok l.char.toNat

/-- Single characters or ranges belong to it directly. -/
def SetTree.hasPlain : SetTree → Bool
  | .literal _ | .range _ _ _ => true
  | .union _ parts => anyPlain parts
  | _ => false
where
  anyPlain : List SetTree → Bool
    | [] => false
    | t :: ts => t.hasPlain || anyPlain ts

/-- The set written at `span` with both cases of its letters, if case is to be ignored.  Sets that
other sets make up have them already. -/
def Mode.fold (mode : Mode) (span : Span) (plain : Bool) (s : CharSet) : Resolved CharSet :=
  if !mode.caseInsensitive then .ok s
  else if !mode.unicode then .ok s.withBothCases
  else if plain then refuse .caseUnavailable span
  else .ok s

/-- The set or its complement; of bytes only the ASCII ones are characters. -/
def Mode.negate (mode : Mode) (span : Span) (negated : Bool) (s : CharSet) : Resolved CharSet :=
  let s := if negated then s.complement mode.last else s
  if mode.unicode || s.isAscii then .ok s else refuse .invalidUtf8 span

def NamedSet.resolve (mode : Mode) (span : Span) (negated : Bool) (n : NamedSet) :
    Resolved CharSet := do
  mode.negate span negated (← mode.fold span true n.chars)

def Shorthand.resolve (mode : Mode) (span : Span) (negated : Bool) (s : Shorthand) :
    Resolved CharSet :=
  if mode.unicode then refuse .shorthandUnavailable span
  else mode.negate span negated s.chars

/-- A property's name as it is looked up: without the marks between its words and an `is` before
it, in lower case. -/
def plainName (name : List Char) : List Char :=
  let name :=
    match name with
    | i :: s :: rest => if i.toLower = 'i' && s.toLower = 's' then rest else name
    | _ => name
  (name.filter fun c => c.toNat < 128 && c ≠ ' ' && c ≠ '_' && c ≠ '-').map Char.toLower

/-- Why a property has no meaning.  Three names are looked up as values before properties are. -/
def propertyCause (mode : Mode) (name : List Char) : Cause :=
  if !mode.unicode then .unicodeOff
  else if plainName name ∈ [['c', 'f'], ['s', 'c'], ['l', 'c']] then .propertyValueUnknown
  else .propertyUnknown

mutual

/-- The set `s` with what is written between brackets added to it. -/
def SetTree.addTo (mode : Mode) (s : CharSet) : SetTree → Resolved CharSet
  | .empty _ => .ok s
  | .literal l => do
    let n ← l.code mode
    return s.insert n n
  | .range _ low high => do
    let first ← low.code mode
    let last ← high.code mode
    return s.insert first last
  | .named span n negated => return s.union (← n.resolve mode span negated)
  | .shorthand span k negated => return s.union (← k.resolve mode span negated)
  | .property span name => refuse (propertyCause mode name) span
  | .bracket span negated inner => do
    let members ← inner.addTo mode {}
    let members ← mode.fold span inner.hasPlain members
    return s.union (← mode.negate span negated members)
  | .union _ parts => SetTree.addAllTo mode s parts
  | .combined _ op left right => do
    let l ← left.addTo mode {}
    let r ← right.addTo mode {}
    let r ← mode.fold right.span right.hasPlain r
    let l ← mode.fold left.span left.hasPlain l
    return s.union (op.apply l r)

def SetTree.addAllTo (mode : Mode) (s : CharSet) : List SetTree → Resolved CharSet
  | [] => .ok s
  | t :: ts => do
    let s ← t.addTo mode s
    SetTree.addAllTo mode s ts

end

/-- Any character but the ends of lines, unless those are included. -/
def Mode.dot (mode : Mode) : CharSet :=
  let lineEnds : CharSet :=
    if mode.dotAll then {}
    else if mode.crlf then ⟨[(0x0A, 0x0A), (0x0D, 0x0D)]⟩
    else .single 0x0A
  lineEnds.complement mode.last

def Anchor.look (mode : Mode) : Anchor → Look
  | .lineStart => if mode.multiLine then .lineStart mode.crlf else .textStart
  | .lineStop => if mode.multiLine then .lineStop mode.crlf else .textStop
  | .textStart => .textStart
  | .textStop => .textStop
  | .word edge => .word mode.unicode edge

def Atom.resolve (mode : Mode) : Atom → Resolved Matcher
  | .literal l => return .oneOf (← l.chars mode)
  | .dot span => if mode.unicode then .ok (.oneOf mode.dot) else refuse .invalidUtf8 span
  | .anchor _ a => .ok (.look (a.look mode))
  | .shorthand span s negated => return .oneOf (← s.resolve mode span negated)
  | .property span name => refuse (propertyCause mode name) span

mutual

/-- What a pattern means under the flags in force, and the flags after it. -/
def Tree.resolve (mode : Mode) : Tree → Resolved (Matcher × Mode)
  | .empty _ => .ok (.empty, mode)
  | .flags _ s => .ok (.empty, mode.apply s)
  | .atom a => return (← a.resolve mode, mode)
  | .set t => return (.oneOf (← t.addTo mode {}), mode)
  | .repetition _ least most inner => do
    let (m, after) ← inner.resolve mode
    return (m.repeated least most, after)
  | .group _ captures s inner => do
    let (m, _) ← inner.resolve (mode.apply s)
    return (if captures then .group m else m, mode)
  | .alternation _ branches => do
    let (ms, after) ← Tree.resolveAll mode branches
    return (.anyOf ms, after)
  | .concat _ parts => do
    let (ms, after) ← Tree.resolveAll mode parts
    return (.seq ms, after)

def Tree.resolveAll (mode : Mode) : List Tree → Resolved (List Matcher × Mode)
  | [] => .ok ([], mode)
  | t :: ts => do
    let (m, mode) ← t.resolve mode
    let (ms, mode) ← Tree.resolveAll mode ts
    return (m :: ms, mode)

end

end Reckoner.Pattern
