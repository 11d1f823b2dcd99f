import Reckoner.Tools.Pattern.Matcher

/-!
# The size of patterns

A pattern counts as large as the automaton that reads the bytes of a text in UTF-8, forwards or
backwards.  Its size is found without building it: a repetition by a count takes as many copies
as it counts.

A set of characters beyond ASCII is read byte by byte.  Forwards, states from which the same
bytes lead on are one state; backwards, states to which the same bytes lead.
-/

namespace Reckoner.Pattern

/-- Ranges of bytes in turn, which together are the characters of one range. -/
abbrev ByteRanges := List (Nat × Nat)

namespace ByteRanges

/-- The numbers from `low` to `high` as ranges of digits in turn.  There are `k + 1` digits to
base 64, of which the first may be greater. -/
def digits : Nat → Nat → Nat → List ByteRanges
  | 0, low, high => [[(low, high)]]
  | k + 1, low, high =>
    let block := Nat.pow 64 (k + 1)
    let first := low / block
    let last := high / block
    let below (d l h : Nat) : List ByteRanges := (digits k l h).map ((d, d) :: ·)
    if first = last then below first (low % block) (high % block)
    else
      let cutLow := low % block ≠ 0
      let cutHigh := high % block ≠ block - 1
      let next := if cutLow then first + 1 else first
      let upTo := if cutHigh then last - 1 else last
      (if cutLow then below first (low % block) (block - 1) else []) ++
        (if next ≤ upTo then (digits k 0 (block - 1)).map ((next, upTo) :: ·) else []) ++
        (if cutHigh then below last 0 (high % block) else [])

/-- The bytes that digits are written as, the first one with the mark of the length. -/
def mark (lead : Nat) : ByteRanges → ByteRanges
  | [] => []
  | (l, h) :: rest => (l + lead, h + lead) :: rest.map fun r => (r.1 + 0x80, r.2 + 0x80)

/-- The code points that are written with each number of bytes: how many bytes follow the first,
the mark of the first, and the numbers themselves, without surrogates. -/
def lengths : List (Nat × Nat × Nat × Nat) :=
  [(0, 0x00, 0x00, 0x7F), (1, 0xC0, 0x80, 0x7FF), (2, 0xE0, 0x800, 0xD7FF),
   (2, 0xE0, 0xE000, 0xFFFF), (3, 0xF0, 0x10000, 0x10FFFF)]

/-- How the characters of a set are written in bytes. -/
def ofSet (s : CharSet) : List ByteRanges :=
  s.ranges.flatMap fun (low, high) =>
    lengths.flatMap fun (k, lead, first, last) =>
      let low := max low first
      let high := min high last
      if low ≤ high then (digits k low high).map (mark lead) else []

/-- What can follow each first range. -/
def tails (rs : List ByteRanges) : List (List ByteRanges) :=
  let heads := (rs.filterMap List.head?).eraseDups
  heads.map fun h => rs.filterMap fun r => if r.head? = some h then some r.tail else none

/-- The states that are left with something to read, by what they can read. -/
def forwards : Nat → List ByteRanges → List (List ByteRanges)
  | 0, _ => []
  | k + 1, rs =>
    if rs = [[]] then [] else rs :: (tails rs).flatMap (forwards k)

/-- The beginnings of what can be read. -/
def beginnings (rs : List ByteRanges) : List ByteRanges :=
  rs.flatMap fun r => (List.range r.length).map fun i => r.take (i + 1)

end ByteRanges

namespace Size

/-- A state that leads on by itself or by one range of bytes. -/
def state : Nat := 32

/-- A state that leads on by several ranges of bytes. -/
def choice (ranges : Nat) : Nat :=
  state + 8 * ranges

/-- A state that leads on in several ways without reading. -/
def fork (ways : Nat) : Nat :=
  state + 4 * ways

/-- The size of one character of a set. -/
def ofSet (backwards : Bool) (s : CharSet) : Nat :=
  let byteRanges := ByteRanges.ofSet s
  match s.ranges with
  | [(low, high)] =>
    if low = high then state * byteRanges.flatten.length else several byteRanges
  | _ => several byteRanges
where
  several (byteRanges : List ByteRanges) : Nat :=
    if s.isAscii then choice s.ranges.length + state
    else if backwards then
      state * (ByteRanges.beginnings byteRanges).eraseDups.length + fork byteRanges.length + state
    else
      (ByteRanges.forwards 5 byteRanges).eraseDups.foldr
        (fun rs n => choice (ByteRanges.tails rs).length + n) state

end Size

namespace Matcher

mutual

/-- Every match takes a character. -/
def takesSome : Matcher → Bool
  | .empty | .look _ => false
  | .oneOf _ => true
  | .seq parts => anyTakesSome parts
  | .anyOf branches => allTakeSome branches
  | .times least _ m => 0 < least && m.takesSome
  | .group m => m.takesSome

def anyTakesSome : List Matcher → Bool
  | [] => false
  | m :: ms => m.takesSome || anyTakesSome ms

def allTakeSome : List Matcher → Bool
  | [] => true
  | m :: ms => m.takesSome && allTakeSome ms

end

mutual

/-- The size of the automaton for a matcher. -/
def size (backwards : Bool) : Matcher → Nat
  | .empty | .look _ => Size.state
  | .oneOf s => Size.ofSet backwards s
  | .seq parts => sumSizes backwards parts
  | .anyOf branches =>
    sumSizes backwards branches + Size.fork branches.length + Size.state
  | .times least most m =>
    let one := m.size backwards
    match least, most with
    | 0, none =>
      if m.takesSome then one + Size.fork 2 else one + 2 * Size.fork 2 + Size.state
    | least, none => least * one + Size.fork 2
    | least, some most =>
      if least = most then least * one
      else
        (if least = 0 then 0 else least * one) + (most - least) * (one + Size.fork 2) + Size.state
  | .group m => m.size backwards + if backwards then 0 else 2 * Size.state

def sumSizes (backwards : Bool) : List Matcher → Nat
  | [] => 0
  | m :: ms => m.size backwards + sumSizes backwards ms

end

end Matcher

end Reckoner.Pattern
