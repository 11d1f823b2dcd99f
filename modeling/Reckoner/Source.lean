import Reckoner.Source.Lines

/-!
# Character sources

A source hands out characters one at a time and asks its input for a line only when it has no
character left.  After the first `none` it asks for nothing any more; a failure that ended the
input is kept in `failure`.  Everything a source will ever hand out is `Source.chars`, and
`next` is read through that list.
-/

namespace Reckoner

structure Source where
  /-- The characters of the current line that are still to be handed out. -/
  pending : List Char
  lines : Lines
  /-- The input has ended, by its end or by a failure. -/
  finished : Bool := false
  failure : Option String := none
  /-- How many characters have been handed out. -/
  taken : Nat := 0
  /-- How often a character has been asked for, also where there was none. -/
  asked : Nat := 0
deriving DecidableEq

namespace Source

/-- A source over a text that is all there. -/
def ofText (text : List Char) : Source :=
  { pending := text, lines := ⟨[], none⟩, finished := true }

/-- A source that reads an input line by line. -/
def ofLines (lines : Lines) : Source :=
  { pending := [], lines }

/-- The next character, or `none` at the end. -/
def next (s : Source) : Option Char × Source :=
  match s.pending with
  | c :: cs => (some c, { s with pending := cs, taken := s.taken + 1, asked := s.asked + 1 })
  | [] =>
    if s.finished then (none, { s with asked := s.asked + 1 })
    else
      match _h : s.lines.read with
      | .line cs rest => next { s with pending := cs, lines := rest }
      | .ended => (none, { s with finished := true, asked := s.asked + 1 })
      | .failed message =>
        (none, { s with finished := true, failure := some message, asked := s.asked + 1 })
termination_by s.lines.bytes.length
decreasing_by exact Lines.length_bytes_lt_of_read _h

/-- All characters still to come. -/
def chars (s : Source) : List Char :=
  s.pending ++ if s.finished then [] else s.lines.chars

@[simp]
theorem chars_ofText (text : List Char) : (ofText text).chars = text := by
  simp [chars, ofText]

@[simp]
theorem chars_ofLines (lines : Lines) : (ofLines lines).chars = lines.chars := by
  simp [chars, ofLines]

theorem next_eq (s : Source) : s.next.1 = s.chars.head? ∧ s.next.2.chars = s.chars.tail := by
  fun_induction next s with
  | case1 s c cs h => simp [chars, h]
  | case2 s h hf => simp [chars, h, hf]
  | case3 s h hf cs rest hr ih =>
    have hc : s.lines.chars = cs ++ rest.chars := by
      rw [Lines.chars]; split <;> simp_all
    simpa [chars, h, hf, hc] using ih
  | case4 s h hf hr =>
    have hc : s.lines.chars = [] := by
      rw [Lines.chars]; split <;> simp_all
    simp [chars, h, hf, hc]
  | case5 s h hf m hr =>
    have hc : s.lines.chars = [] := by
      rw [Lines.chars]; split <;> simp_all
    simp [chars, h, hf, hc]

theorem fst_next (s : Source) : s.next.1 = s.chars.head? := (next_eq s).1

theorem chars_snd_next (s : Source) : s.next.2.chars = s.chars.tail := (next_eq s).2

@[simp]
theorem asked_snd_next (s : Source) : s.next.2.asked = s.asked + 1 := by
  fun_induction next s with
  | case3 s h hf cs rest hr ih => exact ih
  | _ => rfl

/-- What has been handed out and what is still to come are all there is. -/
theorem taken_snd_next (s : Source) :
    s.next.2.taken + s.next.2.chars.length = s.taken + s.chars.length := by
  have taken_next : s.next.2.taken = s.taken + s.next.1.toList.length := by
    fun_induction next s with
    | case3 s h hf cs rest hr ih => exact ih
    | _ => rfl
  rw [taken_next, fst_next, chars_snd_next]
  cases s.chars with
  | nil => simp
  | cons c cs => simp [Nat.add_assoc, Nat.add_comm 1]

theorem length_chars_next_lt {s t : Source} {c : Char} (h : s.next = (some c, t)) :
    t.chars.length < s.chars.length := by
  obtain ⟨h₁, h₂⟩ := s.next_eq
  rw [h] at h₁ h₂
  cases hs : s.chars with
  | nil => simp [hs] at h₁
  | cons d ds => simp [h₂, hs]

/-- Takes all characters, puts them after those taken before, which are in reverse, and leaves
the source at its end. -/
def drainOnto (taken : List Char) (s : Source) : List Char × Source :=
  match _h : s.next with
  | (some c, t) => t.drainOnto (c :: taken)
  | (none, t) => (taken.reverse, t)
termination_by s.chars.length
decreasing_by exact length_chars_next_lt _h

/-- All characters that the source hands out, and the source at its end. -/
def drain (s : Source) : List Char × Source :=
  s.drainOnto []

theorem fst_drainOnto (taken : List Char) (s : Source) :
    (s.drainOnto taken).1 = taken.reverse ++ s.chars := by
  fun_induction drainOnto taken s with
  | case1 taken s c t h ih =>
    obtain ⟨h₁, h₂⟩ := s.next_eq
    rw [h] at h₁ h₂
    cases hs : s.chars <;> simp_all
  | case2 taken s t h =>
    obtain ⟨h₁, -⟩ := s.next_eq
    rw [h] at h₁
    simp [List.head?_eq_none_iff.1 h₁.symm]

theorem fst_drain (s : Source) : s.drain.1 = s.chars := by
  simp [drain, fst_drainOnto]

end Source

end Reckoner
