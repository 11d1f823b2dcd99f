import Reckoner.Proofs.Grammar.Ending
import Reckoner.Proofs.Session.Run

/-!
# How a session ends

A session whose output takes everything comes to its end (`exists_run`), and there it knows of the
failure that ended its input, if one did (`inputFailure_of_run`): the last item tells it, and no
other item has a part in that.
-/

namespace Reckoner

namespace Session

variable {s t : Session}

theorem inputFailure_of_write {text : String} (h : write text s = .ok () t) :
    t.inputFailure = s.inputFailure := by
  unfold write at h
  split at h
  · cases h
    rfl
  · contradiction

theorem inputFailure_of_writeIf {wanted : Bool} {text : String}
    (h : writeIf wanted text s = .ok () t) : t.inputFailure = s.inputFailure := by
  cases wanted with
  | true => exact inputFailure_of_write h
  | false =>
    cases h
    rfl

theorem inputFailure_of_finish {failure : Option String} (h : finish failure s = .ok () t) :
    t.inputFailure = failure := by
  unfold finish at h
  obtain ⟨u, s', hs, h⟩ := SinkFull.bind_eq_ok h
  cases hs
  obtain ⟨s', s'', hs, h⟩ := SinkFull.bind_eq_ok h
  cases hs
  simp only at h
  cases hw : s.options.watching with
  | false =>
    rw [hw] at h
    exact inputFailure_of_writeIf h
  | true =>
    rw [hw] at h
    cases failure with
    | none => exact inputFailure_of_writeIf h
    | some message =>
      obtain ⟨u, s', hs, h⟩ := SinkFull.bind_eq_ok h
      cases hs
      exact inputFailure_of_writeIf h

theorem step_of_deal_concat {work : List (List Notice × Item)} {w : List Notice × Item}
    (h : deal (work ++ [w]) s = .ok () t) : ∃ s', step w.1 w.2 s' = .ok () t := by
  induction work generalizing s with
  | nil =>
    obtain ⟨u, s', hs, h⟩ := SinkFull.bind_eq_ok h
    cases h
    exact ⟨s, hs⟩
  | cons v work ih =>
    obtain ⟨u, s', -, h⟩ := SinkFull.bind_eq_ok h
    exact ih h

/-- A session that comes to its end knows how its source ends. -/
theorem inputFailure_of_run {source : Source} (h : run (Lexer.ofSource source) s = .ok () t) :
    t.inputFailure = source.ending := by
  obtain ⟨before, hitems⟩ := Reader.exists_items source
  unfold run at h
  rw [runFrom_eq_deal] at h
  have hwork := Reader.map_snd_noted 0 (Reader.start (Traced.mk (Lexer.ofSource source) #[]))
  rw [Reader.items_traced, hitems] at hwork
  obtain ⟨work, last, hw, -, hlast⟩ := List.map_eq_append_iff.1 hwork
  obtain ⟨w, rfl, hend⟩ := List.map_eq_singleton_iff.1 hlast
  rw [hw] at h
  obtain ⟨s', hs⟩ := step_of_deal_concat h
  obtain ⟨u, s'', -, hf⟩ := SinkFull.bind_eq_ok hs
  rw [hend] at hf
  exact inputFailure_of_finish hf

/-- A session whose output takes everything comes to its end. -/
theorem exists_run (source : Source) {s : Session} (h : s.out.room = none) :
    ∃ t, run (Lexer.ofSource source) s = .ok () t := by
  obtain ⟨t, ht, -⟩ := (does_run_effects (Lexer.ofSource source)).answers s rfl rfl h
  exact ⟨t, ht⟩

end Session

end Reckoner
