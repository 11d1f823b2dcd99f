import Reckoner.Proofs.Source.Readable

/-!
# When a source asks for a line

A source over an input asks for a line when it has no character left and one more is asked of it.
So it has asked for the line after the first `k` if and only if it has been asked for more
characters than are in these (`Source.asked_after_iff`).
-/

namespace Reckoner

namespace Lines

theorem read_line (line rest : List UInt8) {cs : List Char}
    (hs : splitLine (line ++ rest) = (line, rest)) (hl : line.getLast? = some 10)
    (hd : decodeUtf8? line = some cs) :
    (Lines.mk (line ++ rest) none).read = .line cs ⟨rest, none⟩ := by
  rw [read, hs]
  simp only [if_pos hl, decodeLine, hd]

/-- Reading `k` lines in turn gives the characters, and leaves `rest`. -/
inductive Reads : Lines → Nat → List Char → Lines → Prop
  | nil {l : Lines} : Reads l 0 [] l
  | cons {l l' rest : Lines} {k : Nat} {cs front : List Char} (h : l.read = .line cs l')
    (hr : Reads l' k front rest) : Reads l (k + 1) (cs ++ front) rest

section Reads

variable {l l' rest : Lines} {k m : Nat} {front back : List Char}

theorem Reads.single {cs : List Char} (h : l.read = .line cs rest) : l.Reads 1 (cs ++ []) rest :=
  .cons h .nil

theorem Reads.append (h : l.Reads k front l') (h' : l'.Reads m back rest) :
    l.Reads (m + k) (front ++ back) rest := by
  induction h with
  | nil => exact h'
  | cons hl _ ih =>
    rw [List.append_assoc]
    exact .cons hl (ih h')

theorem Reads.length_bytes_le (h : l.Reads k front rest) :
    rest.bytes.length + k ≤ l.bytes.length := by
  induction h with
  | nil => exact Nat.le_refl _
  | cons hl _ ih =>
    have := length_bytes_lt_of_read hl
    omega

/-- How many lines have been read can be told from what is left. -/
theorem Reads.unique (h : l.Reads k front rest) (h' : l.Reads m back rest) : m = k := by
  induction h generalizing m back with
  | nil =>
    have := h'.length_bytes_le
    omega
  | cons hl h ih =>
    cases h' with
    | nil =>
      have := h.length_bytes_le
      have := length_bytes_lt_of_read hl
      omega
    | cons hl' h' =>
      cases hl.symm.trans hl'
      rw [ih h']

end Reads

end Lines

namespace Source

variable {s : Source} {input rest : Lines} {k n : Nat} {front : List Char}

@[simp]
theorem asked_after (s : Source) (n : Nat) : (s.after n).asked = s.asked + n := by
  induction n with
  | zero => rfl
  | succ n ih => rw [after_succ, asked_snd_next, ih, Nat.add_assoc]

/-- The source over the input has asked for line number `n`, where the first line is number 1: so
many lines have been read, or all but one, and then the input turned out to have ended. -/
def Asked (input : Lines) (n : Nat) (s : Source) : Prop :=
  ∃ m front, input.Reads m front s.lines ∧ n ≤ m + if s.finished then 1 else 0

theorem Asked.next (h : s.Asked input n) : s.next.2.Asked input n := by
  fun_induction Source.next s with
  | case1 s c cs hp => exact h
  | case2 s hp hf => exact h
  | case3 s hp hf cs rest hr ih =>
    obtain ⟨m, front, hm, hn⟩ := h
    rw [if_neg hf] at hn
    refine ih ⟨1 + m, _, hm.append (.single hr), ?_⟩
    omega
  | case4 s hp hf hr =>
    obtain ⟨m, front, hm, hn⟩ := h
    rw [if_neg hf] at hn
    exact ⟨m, front, hm, Nat.le_trans hn (Nat.le_add_right m _)⟩
  | case5 s hp hf message hr =>
    obtain ⟨m, front, hm, hn⟩ := h
    rw [if_neg hf] at hn
    exact ⟨m, front, hm, Nat.le_trans hn (Nat.le_add_right m _)⟩

theorem Asked.after (h : s.Asked input n) (m : Nat) : (s.after m).Asked input n := by
  induction m generalizing s with
  | zero => exact h
  | succ m ih => exact ih h.next

/-- The source has been given some of the first `k` lines of the input, and of these lines so many
characters are left. -/
structure Expects (input : Lines) (k left : Nat) (s : Source) : Prop where
  unfinished : s.finished = false
  lines : ∃ m j back front rest, input.Reads m back s.lines ∧ s.lines.Reads j front rest ∧
    m + j = k ∧ s.pending.length + front.length = left

variable {left : Nat}

theorem expects_ofLines (h : input.Reads k front rest) :
    (ofLines input).Expects input k front.length :=
  ⟨rfl, 0, k, [], front, rest, .nil, h, Nat.zero_add k, Nat.zero_add _⟩

/-- With no character to hand, either all of the lines have been read or the next of them can be. -/
theorem Expects.line_cases (h : s.Expects input k left) (hp : s.pending = []) :
    (left = 0 ∧ ∃ back, input.Reads k back s.lines) ∨
      ∃ cs rest, s.lines.read = .line cs rest ∧
        ({ s with pending := cs, lines := rest } : Source).Expects input k left := by
  obtain ⟨hf, m, j, back, front, last, hm, hj, rfl, hleft⟩ := h
  rw [hp] at hleft
  cases hj with
  | nil => exact .inl ⟨hleft.symm, back, hm⟩
  | @cons _ rest _ j cs front hr hj =>
    rw [List.length_append] at hleft
    refine .inr ⟨cs, rest, hr, hf, 1 + m, j, _, front, last, hm.append (.single hr), hj, ?_, ?_⟩
    · omega
    · simpa using hleft

theorem Expects.next (h : s.Expects input k (left + 1)) : s.next.2.Expects input k left := by
  fun_induction Source.next s with
  | case1 s c cs hp =>
    obtain ⟨hf, m, j, back, front, last, hm, hj, hk, hleft⟩ := h
    rw [hp, List.length_cons, Nat.add_right_comm] at hleft
    exact ⟨hf, m, j, back, front, last, hm, hj, hk, Nat.succ.inj hleft⟩
  | case2 s hp hf => exact (Bool.false_ne_true (h.unfinished.symm.trans hf)).elim
  | case3 s hp hf cs rest hr ih =>
    rcases h.line_cases hp with ⟨hz, -⟩ | ⟨cs', rest', hr', h'⟩
    · cases hz
    · cases hr.symm.trans hr'
      exact ih h'
  | case4 s hp hf hr =>
    rcases h.line_cases hp with ⟨hz, -⟩ | ⟨cs, rest, hr', -⟩
    · cases hz
    · cases hr.symm.trans hr'
  | case5 s hp hf message hr =>
    rcases h.line_cases hp with ⟨hz, -⟩ | ⟨cs, rest, hr', -⟩
    · cases hz
    · cases hr.symm.trans hr'

theorem Expects.after (h : s.Expects input k (left + n)) : (s.after n).Expects input k left := by
  induction n generalizing s with
  | zero => exact h
  | succ n ih => exact ih h.next

theorem Expects.asked_next (h : s.Expects input k 0) : s.next.2.Asked input (k + 1) := by
  fun_induction Source.next s with
  | case1 s c cs hp =>
    obtain ⟨hf, m, j, back, front, last, hm, hj, hk, hleft⟩ := h
    simp [hp] at hleft
  | case2 s hp hf => exact (Bool.false_ne_true (h.unfinished.symm.trans hf)).elim
  | case3 s hp hf cs rest hr ih =>
    rcases h.line_cases hp with ⟨-, back, hk⟩ | ⟨cs', rest', hr', h'⟩
    · exact Asked.next ⟨1 + k, _, hk.append (.single hr), by omega⟩
    · cases hr.symm.trans hr'
      exact ih h'
  | case4 s hp hf hr =>
    rcases h.line_cases hp with ⟨-, back, hk⟩ | ⟨cs, rest, hr', -⟩
    · exact ⟨k, back, hk, Nat.le_refl _⟩
    · cases hr.symm.trans hr'
  | case5 s hp hf message hr =>
    rcases h.line_cases hp with ⟨-, back, hk⟩ | ⟨cs, rest, hr', -⟩
    · exact ⟨k, back, hk, Nat.le_refl _⟩
    · cases hr.symm.trans hr'

theorem Expects.not_asked (h : s.Expects input k left) : ¬ s.Asked input (k + 1) := by
  rintro ⟨m', back', hm', hn⟩
  obtain ⟨hf, m, j, back, front, last, hm, hj, hk, hlen⟩ := h
  rw [hf, hm.unique hm'] at hn
  simp at hn
  omega

/-- The line after the first `k` is asked for with the first character after them, not before. -/
theorem asked_after_iff (h : input.Reads k front rest) (n : Nat) :
    ((ofLines input).after n).Asked input (k + 1) ↔ front.length < n := by
  have hexp := expects_ofLines h
  constructor
  · refine fun hasked => Nat.lt_of_not_le fun hn => ?_
    obtain ⟨left, hleft⟩ := Nat.exists_eq_add_of_le hn
    rw [hleft, Nat.add_comm] at hexp
    exact hexp.after.not_asked hasked
  · intro hn
    obtain ⟨m, rfl⟩ := Nat.exists_eq_add_of_lt hn
    rw [← Nat.zero_add front.length] at hexp
    have hasked : ((ofLines input).after (front.length + 1)).Asked input (k + 1) := by
      rw [after_succ]
      exact hexp.after.asked_next
    have hm := hasked.after m
    rwa [after, after, ← Function.iterate_add_apply, ← Nat.add_assoc, Nat.add_comm m] at hm

end Source

end Reckoner
