import Reckoner.Decimal.Literal
import Reckoner.Source
import Reckoner.Text.Blank
import Reckoner.Token

/-!
# Lexing

A lexer pulls characters from a source and holds back one of them: the first that did not belong
to the lexeme before.  It starts holding a blank, so that nothing is taken from the source until
the first token is asked for.

`Lexer.upcoming` lists the characters that are still to be lexed, the one held back first.  The
scanning functions are read through it: `takeWhile` and `skipWhile` are those of lists.
-/

namespace Reckoner

structure Lexer where
  /-- The character held back; `none` once the source has ended. -/
  last : Option Char
  source : Source
deriving DecidableEq

namespace Lexer

def ofSource (source : Source) : Lexer :=
  ⟨some ' ', source⟩

def ofText (text : List Char) : Lexer :=
  ofSource (.ofText text)

/-- The characters to be lexed: the one held back and what the source has left. -/
def upcoming (l : Lexer) : List Char :=
  match l.last with
  | none => []
  | some c => c :: l.source.chars

/-- Drops the character held back and takes the next one. -/
def bump (l : Lexer) : Lexer :=
  let (c, source) := l.source.next
  ⟨c, source⟩

theorem upcoming_bump {l : Lexer} {c : Char} (h : l.last = some c) :
    l.bump.upcoming = l.upcoming.tail := by
  have h₁ := l.source.fst_next
  have h₂ := l.source.chars_snd_next
  cases hs : l.source.chars with
  | nil => simp [bump, upcoming, h, h₁, hs]
  | cons d ds => simp [bump, upcoming, h, h₁, h₂, hs]

theorem length_upcoming_bump_lt {l : Lexer} {c : Char} (h : l.last = some c) :
    l.bump.upcoming.length < l.upcoming.length := by
  rw [upcoming_bump h]
  simp [upcoming, h]

/-- The characters from here on that satisfy `p`, up to the first that does not. -/
def takeWhile (p : Char → Bool) (l : Lexer) : List Char × Lexer :=
  match _h : l.last with
  | some c =>
    if p c then
      let (cs, l') := l.bump.takeWhile p
      (c :: cs, l')
    else ([], l)
  | none => ([], l)
termination_by l.upcoming.length
decreasing_by exact length_upcoming_bump_lt _h

def skipWhile (p : Char → Bool) (l : Lexer) : Lexer :=
  match _h : l.last with
  | some c => if p c then l.bump.skipWhile p else l
  | none => l
termination_by l.upcoming.length
decreasing_by exact length_upcoming_bump_lt _h

theorem upcoming_eq_nil {l : Lexer} (h : l.last = none) : l.upcoming = [] := by
  simp [upcoming, h]

theorem upcoming_eq_cons {l : Lexer} {c : Char} (h : l.last = some c) :
    l.upcoming = c :: l.bump.upcoming := by
  rw [upcoming_bump h]
  simp [upcoming, h]

theorem fst_takeWhile (p : Char → Bool) (l : Lexer) :
    (l.takeWhile p).1 = l.upcoming.takeWhile p := by
  fun_induction takeWhile p l with
  | case1 l c h hp cs l' ht ih => simp_all [upcoming_eq_cons h]
  | case2 l c h hp => simp [upcoming_eq_cons h, hp]
  | case3 l h => simp [upcoming_eq_nil h]

theorem snd_takeWhile (p : Char → Bool) (l : Lexer) : (l.takeWhile p).2 = l.skipWhile p := by
  fun_induction skipWhile p l with
  | case1 l c h hp ih => rw [takeWhile]; split <;> simp_all
  | case2 l c h hp => rw [takeWhile]; split <;> simp_all
  | case3 l h => rw [takeWhile]; split <;> simp_all

theorem upcoming_skipWhile (p : Char → Bool) (l : Lexer) :
    (l.skipWhile p).upcoming = l.upcoming.dropWhile p := by
  fun_induction skipWhile p l with
  | case1 l c h hp ih => simp [upcoming_eq_cons h, hp, ih]
  | case2 l c h hp => simp [upcoming_eq_cons h, hp]
  | case3 l h => simp [upcoming_eq_nil h]

theorem upcoming_snd_takeWhile (p : Char → Bool) (l : Lexer) :
    (l.takeWhile p).2.upcoming = l.upcoming.dropWhile p := by
  rw [snd_takeWhile, upcoming_skipWhile]

theorem length_dropWhile_le (p : Char → Bool) (cs : List Char) :
    (cs.dropWhile p).length ≤ cs.length :=
  (List.dropWhile_sublist p).length_le

theorem length_skipWhile_le (p : Char → Bool) (l : Lexer) :
    (l.skipWhile p).upcoming.length ≤ l.upcoming.length := by
  rw [upcoming_skipWhile]
  exact length_dropWhile_le p _

theorem length_skipWhile_lt {p : Char → Bool} {l : Lexer} {c : Char} (h : l.last = some c)
    (hp : p c = true) : (l.skipWhile p).upcoming.length < l.upcoming.length := by
  rw [upcoming_skipWhile, upcoming_eq_cons h, List.dropWhile_cons, if_pos hp]
  exact Nat.lt_succ_of_le (length_dropWhile_le p _)

/-- A comment runs up to the end of its line, which is not part of it. -/
def isLineEnd (c : Char) : Bool :=
  c == '\n' || c == '\r'

/-- The number literal `text`, or the error that it is none. -/
def numeral (text : List Char) : Lexed :=
  match Decimal.readLiteral? text with
  | some value => .ok (.number value)
  | none => .error (.malformedNumber (String.ofList text))

/-- The next token.  Blanks and comments are passed over.  A letter starts a word, a digit or a
point starts a number, and any other character is an operator by itself. -/
def next (l : Lexer) : Lexed × Lexer :=
  let start := l.skipWhile Text.isBlank
  match _h : start.last with
  | none => (.ok .eof, start)
  | some c =>
    if c.isAlpha then
      let (word, rest) := start.takeWhile Char.isAlphanum
      (.ok (.ofWord (String.ofList word)), rest)
    else if Decimal.isNumeral c then
      let (text, rest) := start.takeWhile Decimal.isNumeral
      (numeral text, rest)
    else if _hc : c = '#' then next (start.skipWhile (!isLineEnd ·))
    else (.ok (.operator c), start.bump)
termination_by l.upcoming.length
decreasing_by
  have hlt := length_skipWhile_lt (p := (!isLineEnd ·)) _h (by subst _hc; decide)
  exact Nat.lt_of_lt_of_le hlt (length_skipWhile_le _ _)

/-- Each result other than the end takes at least one character. -/
theorem length_next (l : Lexer) :
    l.next.2.upcoming.length ≤ l.upcoming.length ∧
      (l.next.1 ≠ .ok .eof → l.next.2.upcoming.length < l.upcoming.length) := by
  fun_induction next l with
  | case1 l start h => exact ⟨length_skipWhile_le _ _, fun hn => absurd rfl hn⟩
  | case2 l start c h hc word rest ht =>
    have h₁ : start.upcoming.length ≤ l.upcoming.length := length_skipWhile_le _ _
    have h₂ : rest = start.skipWhile Char.isAlphanum := by rw [← snd_takeWhile, ht]
    have h₃ := length_skipWhile_lt (p := Char.isAlphanum) h (by simp [Char.isAlphanum, hc])
    subst h₂
    exact ⟨by simpa using by omega, fun _ => by simpa using by omega⟩
  | case3 l start c h hc hn text rest ht =>
    have h₁ : start.upcoming.length ≤ l.upcoming.length := length_skipWhile_le _ _
    have h₂ : rest = start.skipWhile Decimal.isNumeral := by rw [← snd_takeWhile, ht]
    have h₃ := length_skipWhile_lt (p := Decimal.isNumeral) h hn
    subst h₂
    exact ⟨by simpa using by omega, fun _ => by simpa using by omega⟩
  | case4 l start h hc hn ih =>
    have h₁ : start.upcoming.length ≤ l.upcoming.length := length_skipWhile_le _ _
    have h₂ := length_skipWhile_le (!isLineEnd ·) start
    exact ⟨by omega, fun hne => by have := ih.2 hne; omega⟩
  | case5 l start c h hc hn hh =>
    have h₁ : start.upcoming.length ≤ l.upcoming.length := length_skipWhile_le _ _
    have h₂ := length_upcoming_bump_lt h
    exact ⟨by simpa using by omega, fun _ => by simpa using by omega⟩

/-- All results up to the end of the source, which is not listed. -/
def results (l : Lexer) : List Lexed :=
  let step := l.next
  if _h : step.1.isEnd then [] else step.1 :: step.2.results
termination_by l.upcoming.length
decreasing_by exact (length_next l).2 (mt Lexed.isEnd_iff.2 _h)

end Lexer

end Reckoner
