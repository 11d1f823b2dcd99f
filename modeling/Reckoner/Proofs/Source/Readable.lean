import Mathlib.Logic.Function.Iterate
import Reckoner.Proofs.Source.Utf8

/-!
# What can be read of an input

The bytes of an input are cut after each line feed; what is left after the last one is a line as
well, but only where the input properly ends.  The lines before the first that is not UTF-8 are
decoded (`Lines.Division`), and their characters are those that a source over the input hands out,
one with each call.  After them every call gives `none`.  The first of these finds out how the input
has ended, and no other one looks at the input again (`Source.next_after_ofLines`).
-/

namespace Reckoner

theorem encode_of_decodeUtf8? {bytes : List UInt8} {cs : List Char}
    (h : decodeUtf8? bytes = some cs) : encode cs = bytes := by
  obtain ⟨text, ht, rfl⟩ := Option.map_eq_some_iff.1 h
  unfold String.fromUTF8? at ht
  split at ht
  · cases ht
    exact (toList_utf8 _).symm
  · contradiction

theorem splitLine_of_not_mem {bytes : List UInt8} (h : 10 ∉ bytes) :
    splitLine bytes = (bytes, []) := by
  simpa using splitLine_append_of_not_mem h []

theorem splitLine_append_newline {front : List UInt8} (h : 10 ∉ front) (bytes : List UInt8) :
    splitLine (front ++ 10 :: bytes) = (front ++ [10], bytes) :=
  splitLine_append_of_not_mem h (10 :: bytes)

namespace Lines

/-- Whole lines, each with its only line feed at its end, and a rest without one. -/
structure Cuts (bytes : List UInt8) (whole : List (List UInt8)) (rest : List UInt8) : Prop where
  join : whole.flatten ++ rest = bytes
  whole : ∀ line ∈ whole, ∃ front, line = front ++ [10] ∧ 10 ∉ front
  rest : 10 ∉ rest

theorem Cuts.of_not_mem {rest : List UInt8} (h : 10 ∉ rest) : Cuts rest [] rest :=
  ⟨rfl, nofun, h⟩

theorem Cuts.cons {front bytes rest : List UInt8} {whole : List (List UInt8)} (h : 10 ∉ front)
    (hc : Cuts bytes whole rest) :
    Cuts (front ++ 10 :: bytes) ((front ++ [10]) :: whole) rest where
  join := by simp [← hc.join]
  whole := List.forall_mem_cons.2 ⟨⟨front, rfl, h⟩, hc.whole⟩
  rest := hc.rest

/-- What is left after the last line feed is a line if reading does not fail there. -/
def lastLine (failure : Option String) (rest : List UInt8) : List (List UInt8) :=
  if failure = none ∧ rest ≠ [] then [rest] else []

/-- The lines of an input up to the first that is not UTF-8, decoded, and all others from that one
on. -/
structure Division (l : Lines) where
  whole : List (List UInt8)
  rest : List UInt8
  cuts : Cuts l.bytes whole rest
  texts : List (List Char)
  bad : List (List UInt8)
  lines : whole ++ lastLine l.failure rest = texts.map encode ++ bad
  illegible : ∀ line ∈ bad.head?, ∀ cs, encode cs ≠ line

def Division.failure {l : Lines} (d : l.Division) : Option String :=
  match d.bad with
  | [] => l.failure
  | _ :: _ => some invalidUtf8

/-- How the input ends: the failure of the first line that cannot be read. -/
def ending (l : Lines) : Option String :=
  match _h : l.read with
  | .line _ rest => rest.ending
  | .ended => none
  | .failed message => some message
termination_by l.bytes.length
decreasing_by exact length_bytes_lt_of_read _h

section Reading

variable {l rest : Lines}

theorem chars_of_line {cs : List Char} (h : l.read = .line cs rest) :
    l.chars = cs ++ rest.chars := by
  rw [chars]; split <;> simp_all

theorem ending_of_line {cs : List Char} (h : l.read = .line cs rest) :
    l.ending = rest.ending := by
  rw [ending]; split <;> simp_all

theorem chars_of_ended (h : l.read = .ended) : l.chars = [] := by
  rw [chars]; split <;> simp_all

theorem ending_of_ended (h : l.read = .ended) : l.ending = none := by
  rw [ending]; split <;> simp_all

theorem chars_of_failed {message : String} (h : l.read = .failed message) : l.chars = [] := by
  rw [chars]; split <;> simp_all

theorem ending_of_failed {message : String} (h : l.read = .failed message) :
    l.ending = some message := by
  rw [ending]; split <;> simp_all

end Reading

section Line

theorem read_whole {front : List UInt8} (h : 10 ∉ front) (bytes : List UInt8)
    (failure : Option String) :
    (⟨front ++ 10 :: bytes, failure⟩ : Lines).read =
      decodeLine (front ++ [10]) ⟨bytes, failure⟩ := by
  simp only [read, splitLine_append_newline h, List.getLast?_concat, if_true]

theorem read_rest {bytes : List UInt8} (h : 10 ∉ bytes) (failure : Option String) :
    (⟨bytes, failure⟩ : Lines).read =
      match failure with
      | some message => .failed message
      | none => if bytes = [] then .ended else decodeLine bytes ⟨[], none⟩ := by
  have hl : bytes.getLast? ≠ some 10 := fun hl => h (List.mem_of_getLast? hl)
  simp only [read, splitLine_of_not_mem h, if_neg hl]
  cases failure <;> rfl

theorem decodeLine_eq (line : List UInt8) (rest : Lines) :
    (∃ cs, encode cs = line ∧ decodeLine line rest = .line cs rest) ∨
      (∀ cs, encode cs ≠ line) ∧ decodeLine line rest = .failed invalidUtf8 := by
  unfold decodeLine
  cases hd : decodeUtf8? line with
  | some cs => exact .inl ⟨cs, encode_of_decodeUtf8? hd, rfl⟩
  | none =>
    refine .inr ⟨?_, rfl⟩
    rintro cs rfl
    rw [decodeUtf8?_encode] at hd
    contradiction

end Line

def Division.Accounts {l : Lines} (d : l.Division) : Prop :=
  l.chars = d.texts.flatten ∧ l.ending = d.failure

theorem exists_division_rest {bytes : List UInt8} {failure : Option String} (h : 10 ∉ bytes) :
    ∃ d : (⟨bytes, failure⟩ : Lines).Division, d.Accounts := by
  have hr := read_rest h failure
  cases failure with
  | some message =>
    refine ⟨⟨[], bytes, .of_not_mem h, [], [], rfl, nofun⟩, chars_of_failed hr, ?_⟩
    exact ending_of_failed hr
  | none =>
    by_cases hb : bytes = []
    · rw [if_pos hb] at hr
      refine ⟨⟨[], bytes, .of_not_mem h, [], [], ?_, nofun⟩, chars_of_ended hr, ending_of_ended hr⟩
      simp [lastLine, hb]
    · rw [if_neg hb] at hr
      have hlast : [] ++ lastLine none bytes = [bytes] := by simp [lastLine, hb]
      rcases decodeLine_eq bytes ⟨[], none⟩ with ⟨cs, rfl, hd⟩ | ⟨hcs, hd⟩
      · have hend : (⟨[], none⟩ : Lines).read = .ended := rfl
        refine ⟨⟨[], _, .of_not_mem h, [cs], [], hlast, nofun⟩, ?_, ?_⟩
        · rw [chars_of_line (hr.trans hd), chars_of_ended hend]
          rfl
        · rw [ending_of_line (hr.trans hd), ending_of_ended hend]
          rfl
      · refine ⟨⟨[], _, .of_not_mem h, [], [bytes], hlast, ?_⟩, chars_of_failed (hr.trans hd),
          ending_of_failed (hr.trans hd)⟩
        simpa using hcs

theorem exists_division_whole {front bytes : List UInt8} {failure : Option String}
    (h : 10 ∉ front) (ih : ∃ d : (⟨bytes, failure⟩ : Lines).Division, d.Accounts) :
    ∃ d : (⟨front ++ 10 :: bytes, failure⟩ : Lines).Division, d.Accounts := by
  obtain ⟨⟨whole, rest, hcut, texts, bad, hlines, hbad⟩, hchars, hending⟩ := ih
  have hr := read_whole h bytes failure
  rcases decodeLine_eq (front ++ [10]) ⟨bytes, failure⟩ with ⟨cs, hcs, hd⟩ | ⟨hcs, hd⟩
  · refine ⟨⟨_, rest, hcut.cons h, cs :: texts, bad, ?_, hbad⟩, ?_, ?_⟩
    · rw [List.cons_append, hlines, List.map_cons, hcs, List.cons_append]
    · rw [chars_of_line (hr.trans hd), hchars]
      rfl
    · exact (ending_of_line (hr.trans hd)).trans hending
  · refine ⟨⟨_, rest, hcut.cons h, [], _, rfl, ?_⟩, chars_of_failed (hr.trans hd),
      ending_of_failed (hr.trans hd)⟩
    simpa using hcs

/-- The characters that can be read are those of the lines before the first that is not UTF-8. -/
theorem exists_division (l : Lines) : ∃ d : l.Division, d.Accounts := by
  obtain ⟨bytes, failure⟩ := l
  induction hn : bytes.length using Nat.strongRecOn generalizing bytes with
  | ind n ih =>
    subst hn
    by_cases h : 10 ∈ bytes
    · obtain ⟨front, bytes, rfl, hf⟩ := List.eq_append_cons_of_mem h
      exact exists_division_whole hf (ih _ (by simp; omega) bytes rfl)
    · exact exists_division_rest h

end Lines

namespace Source

def after (s : Source) (n : Nat) : Source :=
  (fun s => s.next.2)^[n] s

theorem after_succ (s : Source) (n : Nat) : s.after (n + 1) = (s.after n).next.2 :=
  Function.iterate_succ_apply' _ n s

theorem chars_after (s : Source) (n : Nat) : (s.after n).chars = s.chars.drop n := by
  induction n with
  | zero => rfl
  | succ n ih => rw [after_succ, chars_snd_next, ih, List.tail_drop]

theorem next_after (s : Source) (n : Nat) : (s.after n).next.1 = s.chars[n]? := by
  rw [fst_next, chars_after, List.head?_drop]

/-- A failure comes to light only where there is no character. -/
theorem failure_of_some {s : Source} {c : Char} (h : s.next.1 = some c) :
    s.next.2.failure = s.failure := by
  fun_induction next s with
  | case1 s c cs hp => rfl
  | case3 s hp hf cs rest hr ih => exact ih h
  | _ => contradiction

theorem failure_after {s : Source} {n : Nat} (h : n ≤ s.chars.length) :
    (s.after n).failure = s.failure := by
  induction n with
  | zero => rfl
  | succ n ih =>
    have hsome : (s.after n).next.1 = some s.chars[n] :=
      (next_after s n).trans (List.getElem?_eq_getElem h)
    rw [after_succ, failure_of_some hsome, ih (Nat.le_of_succ_le h)]

def outcome (s : Source) : Option String :=
  if s.finished then s.failure else s.lines.ending.or s.failure

theorem outcome_next (s : Source) : s.next.2.outcome = s.outcome := by
  fun_induction next s with
  | case1 s c cs hp => rfl
  | case2 s hp hf => rfl
  | case3 s hp hf cs rest hr ih =>
    rw [ih, outcome, outcome, if_neg hf, if_neg hf, Lines.ending_of_line hr]
  | case4 s hp hf hr =>
    rw [outcome, outcome, if_pos rfl, if_neg hf, Lines.ending_of_ended hr, Option.none_or]
  | case5 s hp hf message hr =>
    rw [outcome, outcome, if_pos rfl, if_neg hf, Lines.ending_of_failed hr, Option.some_or]

theorem ending_eq_outcome (s : Source) : s.ending = s.outcome := by
  unfold ending drain
  generalize ([] : List Char) = taken
  fun_induction drainOnto taken s with
  | case1 taken s c t h ih => rw [ih, ← outcome_next s, h]
  | case2 taken s t h =>
    have hf : t.finished = true := by simpa [h] using finished_next (congrArg Prod.fst h)
    rw [← outcome_next s, h, outcome, if_pos hf]

theorem ending_ofLines (l : Lines) : (ofLines l).ending = l.ending := by
  rw [ending_eq_outcome]
  exact Option.or_none

theorem ending_after (s : Source) (n : Nat) : (s.after n).ending = s.ending := by
  induction n with
  | zero => rfl
  | succ n ih => rw [after_succ, ending_next, ih]

/-- The source has given `none`: nothing is pending and the input has ended. -/
def Spent (s : Source) : Prop :=
  s.pending = [] ∧ s.finished = true

/-- What the input is like does not matter any more. -/
theorem Spent.next {s : Source} (h : s.Spent) (lines : Lines) :
    ({ s with lines } : Source).next = (none, { s with lines, asked := s.asked + 1 }) := by
  rw [Source.next]
  simp only [h.1]
  rw [if_pos h.2]

theorem spent_next {s : Source} (h : s.next.1 = none) : s.next.2.Spent := by
  fun_induction Source.next s with
  | case1 s c cs hp => contradiction
  | case2 s hp hf => exact ⟨hp, hf⟩
  | case3 s hp hf cs rest hr ih => exact ih h
  | case4 s hp hf hr => exact ⟨hp, rfl⟩
  | case5 s hp hf message hr => exact ⟨hp, rfl⟩

theorem Spent.after {s : Source} (h : s.Spent) (n : Nat) : (s.after n).Spent := by
  induction n with
  | zero => exact h
  | succ n ih =>
    rw [after_succ]
    exact spent_next (congrArg Prod.fst (ih.next (s.after n).lines))

theorem spent_after {s : Source} {n : Nat} (h : s.chars.length < n) : (s.after n).Spent := by
  induction n generalizing s with
  | zero => exact absurd h (Nat.not_lt_zero _)
  | succ n ih =>
    cases hs : s.next.1 with
    | none => exact (spent_next hs).after n
    | some c =>
      have hlt : s.next.2.chars.length < s.chars.length :=
        length_chars_next_lt (Prod.ext hs rfl)
      exact ih (Nat.lt_of_lt_of_le hlt (Nat.le_of_lt_succ h))

/-- A source over an input hands out the characters of all lines before the first that cannot be
read, and nothing of that one or after it.  As long as it has given no `none` it knows of no
failure.  From the first `none` on it knows of the one there is, if there is one; and it goes on in
the same way whatever the input holds, so it does not look at it. -/
theorem next_after_ofLines (input : Lines) :
    ∃ d : input.Division,
      (∀ n, ((ofLines input).after n).next.1 = d.texts.flatten[n]?) ∧
      (∀ n ≤ d.texts.flatten.length, ((ofLines input).after n).failure = none) ∧
      ∀ n > d.texts.flatten.length, ∀ lines,
        let s := (ofLines input).after n
        s.failure = d.failure ∧
          ({ s with lines } : Source).next = (none, { s with lines, asked := s.asked + 1 }) := by
  obtain ⟨d, hchars, hending⟩ := input.exists_division
  rw [← chars_ofLines] at hchars
  refine ⟨d, fun n => ?_, fun n hn => ?_, fun n hn lines => ?_⟩
  · rw [next_after, hchars]
  · exact failure_after (hchars ▸ hn)
  · have hspent : ((ofLines input).after n).Spent := spent_after (hchars ▸ hn)
    have hfailure : ((ofLines input).after n).failure = input.ending := by
      rw [← ending_of_finished hspent.2, ending_after, ending_ofLines]
    exact ⟨hfailure.trans hending, hspent.next lines⟩

end Source

end Reckoner
