import Reckoner.Proofs.Token.Scanning

/-!
# How a source ends

A source that reads lines learns of a failure only when it comes to it.  Its `ending` is the failure
that it will come to, if any; no character that is handed out changes it (`ending_next`), and it is
the failure that the source knows of once there are no more characters.  So a lexer at the end of
its source has found the ending of the source it began with (`EndsWith`).
-/

namespace Reckoner

namespace Source

def ending (s : Source) : Option String :=
  s.drain.2.failure

theorem next_of_finished {s : Source} (h : s.finished = true) :
    s.next.2.finished = true ∧ s.next.2.failure = s.failure := by
  rw [next]
  split
  · exact ⟨h, rfl⟩
  · rw [if_pos h]
    exact ⟨h, rfl⟩

theorem finished_next {s : Source} (h : s.next.1 = none) : s.next.2.finished = true := by
  fun_induction next s with
  | case1 s c cs hp => contradiction
  | case2 s hp hf => exact hf
  | case3 s hp hf cs rest hr ih => exact ih h
  | case4 s hp hf hr => rfl
  | case5 s hp hf message hr => rfl

theorem drainOnto_of_some {s t : Source} {c : Char} (h : s.next = (some c, t))
    (taken : List Char) : s.drainOnto taken = t.drainOnto (c :: taken) := by
  rw [drainOnto]
  split <;> simp_all

theorem drainOnto_of_none {s t : Source} (h : s.next = (none, t)) (taken : List Char) :
    s.drainOnto taken = (taken.reverse, t) := by
  rw [drainOnto]
  split <;> simp_all

theorem snd_drainOnto (taken : List Char) (s : Source) : (s.drainOnto taken).2 = s.drain.2 := by
  unfold drain
  generalize ([] : List Char) = other
  fun_induction drainOnto taken s generalizing other with
  | case1 taken s c t h ih => rw [ih (c :: other), drainOnto_of_some h]
  | case2 taken s t h => rw [drainOnto_of_none h]

theorem ending_of_finished {s : Source} (h : s.finished = true) : s.ending = s.failure := by
  unfold ending drain
  generalize ([] : List Char) = taken
  fun_induction drainOnto taken s with
  | case1 taken s c t hn ih =>
    obtain ⟨hf, he⟩ := next_of_finished h
    rw [hn] at hf he
    rw [ih hf, he]
  | case2 taken s t hn =>
    obtain ⟨-, he⟩ := next_of_finished h
    rw [hn] at he
    exact he

theorem ending_ofText (text : List Char) : (ofText text).ending = none :=
  ending_of_finished rfl

theorem failure_next {s : Source} (h : s.next.1 = none) : s.next.2.failure = s.ending := by
  have hn : s.next = (none, s.next.2) := Prod.ext h rfl
  unfold ending drain
  rw [drainOnto_of_none hn]

theorem ending_next (s : Source) : s.next.2.ending = s.ending := by
  cases h : s.next.1 with
  | none => rw [ending_of_finished (finished_next h), failure_next h]
  | some c =>
    have hn : s.next = (some c, s.next.2) := Prod.ext h rfl
    rw [ending, ending, ← snd_drainOnto [c], drain, drainOnto_of_some hn]

end Source

namespace Lexer

variable {failure : Option String} {l : Lexer}

/-- The lexer comes to a source's end of this kind, and has found it once it has come to it. -/
structure EndsWith (failure : Option String) (l : Lexer) : Prop where
  ending : l.source.ending = failure
  failure : l.last = none → l.source.failure = failure

theorem endsWith_ofSource {source : Source} (h : source.ending = failure) :
    (ofSource source).EndsWith failure :=
  ⟨h, nofun⟩

theorem EndsWith.bump (h : l.EndsWith failure) : l.bump.EndsWith failure :=
  ⟨(Source.ending_next _).trans h.ending, fun hn => (Source.failure_next hn).trans h.ending⟩

theorem EndsWith.next (h : l.EndsWith failure) : l.next.2.EndsWith failure :=
  keeps_next (fun _ _ _ h => h.bump) h

theorem last_next (h : l.next.1 = .ok .eof) : l.next.2.last = none := by
  have hu := scans_next l
  rw [h] at hu
  have hu := hu.eq_nil
  cases hl : l.next.2.last with
  | none => rfl
  | some c => simp [upcoming, hl] at hu

end Lexer

end Reckoner
