import Reckoner.Proofs.Grammar.Semicolon
import Reckoner.Proofs.Session.Run

/-!
# Sessions that are cut at a semicolon

A semicolon on a line of its own cuts a text in two: the session on the whole text does what the
session on the first part does and then what a session on the second part does that goes on with
the compiler of the first (`run_semicolon`).  Nothing is assumed of the parts.
-/

namespace Reckoner

def SessionOptions.quiet (options : SessionOptions) : SessionOptions :=
  { options with listing := false, prompting := false }

namespace Session

variable {options : SessionOptions} {c : Compiler}

theorem run_start {σ : Type} [TokenSupply σ] (supply : σ) :
    Compiler.engine.run options.quiet c (Reader.start supply).items =
      Compiler.engine.run options.quiet c (Reader.resumed supply).items := by
  rw [Reader.items_start]
  exact Prod.ext (Effect.empty_append _) rfl

theorem run_end :
    Compiler.engine.run options.quiet c (Reader.resumed ([] : List Lexed)).items = ({}, c) := by
  rw [Reader.items_resumed_nil]
  unfold Engine.run Engine.step Engine.run
  cases options.quiet.watching <;> exact Prod.ext (Effect.append_empty _) rfl

/-- What the engine makes of a text that is cut by a semicolon. -/
theorem engine_run_semicolon (text text' : List Char) :
    ∃ e e' c' c'',
      Compiler.engine.run options.quiet c
        (Reader.start (Lexer.ofText (text ++ ['\n', ';', '\n']))).items = (e, c') ∧
      Compiler.engine.run options.quiet c' (Reader.start (Lexer.ofText text')).items = (e', c'') ∧
      Compiler.engine.run options.quiet c
        (Reader.start (Lexer.ofText (text ++ ['\n', ';', '\n'] ++ text'))).items =
          (e ++ e', c'') := by
  have hne : .ok .eof ∉ (Lexer.ofText text).results := (Lexer.scansAll_ofText text).not_mem_eof
  obtain ⟨before, hwhole, hfirst⟩ :=
    Reader.items_semicolon hne (Lexer.ofText text').results []
  have hf : Lexer.ofText (text ++ ['\n', ';', '\n']) =
      Lexer.ofText (text ++ ['\n', ';', '\n'] ++ []) := by rw [List.append_nil]
  rw [hf, Reader.items_ofText, Reader.items_ofText, Reader.items_ofText, Lexer.results_semicolon,
    Lexer.results_semicolon, Lexer.results_nil, hwhole, hfirst, Engine.run_append,
    Engine.run_append, run_end, Effect.append_empty]
  exact ⟨_, _, _, _, rfl, run_start _, rfl⟩

/-- A semicolon on a line of its own cuts a session in two. -/
theorem run_semicolon (text text' : List Char) (options : SessionOptions) (c : Compiler) :
    ∃ first second whole,
      run (Lexer.ofText (text ++ ['\n', ';', '\n'])) (opened options.quiet c) = .ok () first ∧
      run (Lexer.ofText text') (opened options.quiet first.compiler) = .ok () second ∧
      run (Lexer.ofText (text ++ ['\n', ';', '\n'] ++ text')) (opened options.quiet c) =
        .ok () whole ∧
      whole.out.bytes = first.out.bytes ++ second.out.bytes ∧
      whole.journal.bytes = first.journal.bytes ++ second.journal.bytes ∧
      whole.tally.units = first.tally.units + second.tally.units ∧
      whole.tally.errors = first.tally.errors + second.tally.errors ∧
      whole.compiler = second.compiler := by
  obtain ⟨e, e', c', c'', he, he', hw⟩ := engine_run_semicolon text text'
  obtain ⟨first, hfirst, sf, cf⟩ :=
    run_opened (Lexer.ofText (text ++ ['\n', ';', '\n'])) options.quiet rfl c
  obtain ⟨second, hsecond, ss, cs⟩ := run_opened (Lexer.ofText text') options.quiet rfl c'
  obtain ⟨whole, hwhole, sw, cw⟩ :=
    run_opened (Lexer.ofText (text ++ ['\n', ';', '\n'] ++ text')) options.quiet rfl c
  rw [he] at sf cf
  rw [he'] at ss cs
  rw [hw] at sw cw
  have hfc : first.compiler = c' := cf
  rw [← hfc] at hsecond
  refine ⟨first, second, whole, hfirst, hsecond, hwhole, ?_, ?_, ?_, ?_, cw.trans cs.symm⟩
  · refine Array.toList_inj.1 ?_
    rw [Array.toList_append, sw.out, sf.out, ss.out]
    rfl
  · rw [sw.err, sf.err, ss.err]
    rfl
  · rw [sw.tally, sf.tally, ss.tally]
    rfl
  · rw [sw.tally, sf.tally, ss.tally]
    rfl

end Session

end Reckoner
