import Reckoner.Tools.Pattern.Cursor
import Reckoner.Tools.Pattern.Tree
import Reckoner.Tools.Letters

/-!
# Heads of groups

What stands behind an opening parenthesis: a name, flags, or nothing.  Flags that are closed at
once hold for what follows; flags before a colon hold for the group.
-/

namespace Reckoner.Pattern

def flag? : Char → Option Flag
  | 'i' => some .caseInsensitive
  | 'm' => some .multiLine
  | 's' => some .dotAll
  | 'U' => some .lazy
  | 'u' => some .unicode
  | 'R' => some .crlf
  | 'x' => some .spaced
  | _ => none

/-- A character that a group's name can begin with, or go on with. -/
def isNamePart (first : Bool) (c : Char) : Bool :=
  c = '_' || Text.isAlphabetic c ||
    !first && (Text.isNumeric c || c = '.' || c = '[' || c = ']')

/-- What an opening parenthesis begins. -/
inductive Head
  | settings (s : Settings)
  | group (captures : Bool) (s : Settings)
deriving DecidableEq

/-- Flags that are being read: those so far, each with its place, and the dash among them. -/
structure FlagList where
  flags : List (Flag × Bool × Span) := []
  dash : Option Span := none
deriving DecidableEq

def FlagList.settings (l : FlagList) : Settings :=
  l.flags.map fun (f, value, _) => (f, value)

namespace Reading

/-- One flag or the dash. -/
def flag (l : FlagList) (c : Char) : Reading FlagList := do
  let span := (← get).charSpan
  if c = '-' then
    match l.dash with
    | some earlier => throw { cause := .negationRepeated, span, earlier := some earlier }
    | none => return { l with dash := some span }
  else
    match flag? c with
    | none => fail .flagUnknown span
    | some f =>
      match l.flags.lookup f with
      | some (_, earlier) => throw { cause := .flagRepeated, span, earlier := some earlier }
      | none => return { l with flags := l.flags ++ [(f, l.dash.isNone, span)] }

/-- Flags up to a colon or a closing parenthesis; `last` is the dash, if it was read last. -/
def flagsFrom (l : FlagList) (last : Option Span) : Nat → Reading FlagList
  | 0 => failHere .flagCut
  | fuel + 1 => do
    match ← peek? with
    | none => failHere .flagCut
    | some c =>
      if c = ':' || c = ')' then
        match last with
        | some dash => fail .negationDangling dash
        | none => return l
      else
        let l ← flag l c
        advance
        flagsFrom l (if c = '-' then l.dash else none) fuel

/-- The characters of a name up to `>`. -/
def nameFrom (first : Bool) : Nat → Reading (List Char)
  | 0 => failHere .nameCut
  | fuel + 1 => do
    match ← peek? with
    | none => failHere .nameCut
    | some c =>
      if c = '>' then return []
      else if isNamePart first c then
        advance
        return c :: (← nameFrom false fuel)
      else failChar .nameInvalid

/-- A name that no group before has, and the `>` behind it. -/
def groupName : Reading Unit := do
  let start ← place
  let name ← nameFrom true ((← get).rest.length + 1)
  let span ← since start
  advance
  if name.isEmpty then fail .nameEmpty span
  else
    match (← get).names.lookup name with
    | some earlier => throw { cause := .nameRepeated, span, earlier := some earlier }
    | none => modify fun c => { c with names := (name, span) :: c.names }

/-- The head of the group whose parenthesis spans `opened`. -/
def head (opened : Span) : Reading Head := do
  advance
  skip
  let c ← get
  let looks := [['?', '='], ['?', '!'], ['?', '<', '='], ['?', '<', '!']]
  let names := [['?', 'P', '<'], ['?', '<']]
  match looks.findSome? c.pass?, names.findSome? c.pass?, c.peek? with
  | some after, _, _ => fail .lookAround ⟨opened.start, after.place⟩
  | _, some after, _ =>
    set after
    groupName
    return .group true []
  | _, _, some '?' =>
    advance
    if (← peek?).isNone then fail .groupUnclosed opened
    else
      let l ← flagsFrom {} none ((← get).rest.length + 1)
      let last ← peek?
      advance
      if last = some ':' then return .group false l.settings
      else if l.flags.isEmpty then fail .nothingRepeated (.point c.place)
      else return .settings l.settings
  | _, _, _ => return .group true []

end Reading

end Reckoner.Pattern
