import Reckoner.CommandLine
import Reckoner.Proofs.Session.Details
import Reckoner.Proofs.Session.Ending
import Reckoner.Proofs.Source.Utf8
import Reckoner.Proofs.Text.OneLine

/-!
# Where the input comes from

A run depends on the characters of its input and on how it ends, not on the way in which they are
read.  A text in a file and the same text on the standard input give the same output
(`run_file`).  Listing the tokens reads all of the input before the session begins, and the
session on the copy goes as it would have gone (`run_dumpTokens`).

Both hold with any tools that do what they are documented to do (`Tools.Documented`).  Such tools
show nothing of what a run has to tell but its failure, as all else are details
(`isDetail_compile`).  So sessions on two sources are compared by what they do: sources that are
read as the same items have the same effects.
-/

namespace Reckoner

theorem Journal.render_of_hidden {l : Logger} {j : Journal}
    (h : ∀ n ∈ j.notices, ∀ moment, l.line moment n = #[]) :
    j.render l = j.bytes.toArray := by
  have hbytes : j.bytes = j.entries.toList.zipIdx.flatMap fun e => e.1.written.toList := by
    unfold bytes
    conv_lhs => rw [← List.zipIdx_map_fst 0 j.entries.toList]
    rw [List.flatMap_map]
  rw [hbytes]
  refine congrArg List.toArray (List.flatMap_congr fun e he => ?_)
  obtain ⟨entry, moment⟩ := e
  cases entry with
  | bytes b => rfl
  | notice n =>
    have hn : n ∈ j.notices :=
      List.mem_filterMap.2 ⟨_, List.fst_mem_of_mem_zipIdx he, rfl⟩
    exact congrArg Array.toList (h n hn moment)

namespace Lexer

def listing (text : List Char) : List UInt8 :=
  (ofText text).results.flatMap fun r => (utf8 r.dumpLine).toList

theorem dumpLines_of_unlimited (results : List Lexed) (bytes : Array UInt8) :
    dumpLines results ⟨bytes, none⟩ =
      .ok () ⟨bytes ++ (results.flatMap fun r => (utf8 r.dumpLine).toList).toArray, none⟩ := by
  induction results generalizing bytes with
  | nil =>
    rw [List.flatMap_nil, Array.append_empty]
    rfl
  | cons r results ih =>
    have hw : Sink.writeText r.dumpLine ⟨bytes, none⟩ =
        .ok () ⟨bytes ++ utf8 r.dumpLine, none⟩ := rfl
    have hb : bytes ++ utf8 r.dumpLine ++
        (results.flatMap fun r => (utf8 r.dumpLine).toList).toArray =
          bytes ++ ((r :: results).flatMap fun r => (utf8 r.dumpLine).toList).toArray :=
      Array.ext' (by simp)
    exact (SinkFull.bind_of_ok hw).trans ((ih _).trans (by rw [hb]))

theorem dumpText_of_unlimited (text : List Char) :
    dumpText text .unlimited = .ok () ⟨(listing text).toArray, none⟩ :=
  (dumpLines_of_unlimited _ #[]).trans (by simp [listing])

theorem exists_listing_eq (text : List Char) :
    ∃ lines : List String,
      List.Forall₂ Lexed.ListedAs (ofText text).results lines ∧
        (∀ line ∈ lines, Text.OneLine line) ∧
        listing text = lines.flatMap fun line => (utf8 (line ++ "\n")).toList := by
  have hend := isEnd_of_mem_results (l := ofText text)
  have hin := inLine_of_mem_results (l := ofText text)
  unfold listing
  generalize (ofText text).results = results at hend hin
  induction results with
  | nil => exact ⟨[], .nil, List.forall_mem_nil _, rfl⟩
  | cons r results ih =>
    rw [List.forall_mem_cons] at hend hin
    obtain ⟨line, hl, hd⟩ := Lexed.exists_listedAs hend.1
    obtain ⟨lines, hls, ho, hf⟩ := ih hend.2 hin.2
    refine ⟨line :: lines, .cons hl hls, List.forall_mem_cons.2 ⟨hl.oneLine hin.1, ho⟩, ?_⟩
    rw [List.flatMap_cons, List.flatMap_cons, hf, hd]

end Lexer

namespace CommandLine

section Runs

variable {s : Settings} {env : Environment} {source : Source} {opening : List Notice}

def Settings.tokenListing (s : Settings) (text : List Char) : Array UInt8 :=
  if s.dumpTokens then (Lexer.listing text).toArray else #[]

/-- A run from where its source has been opened and listed: there is no backend for it, or it goes
through its session. -/
def proceed (s : Settings) (prompting : Bool) (source : Source) (out : Sink) (journal : Journal) :
    Option Failure × Sink × Journal :=
  match s.backend with
  | .llvm => (some .noLlvm, out, journal)
  | .ir =>
    let (failure, session) :=
      conclude s (Session.run (Lexer.ofSource source) (s.session prompting out journal))
    (failure, session.out, session.journal)

theorem isDetail_openSource (h : s.openSource env = .ok (source, opening)) :
    ∀ n ∈ opening, n.IsDetail := by
  unfold Settings.openSource at h
  split at h
  · cases h
    exact nofun
  · split at h
    · cases h
    · split at h
      · cases h
      · cases h
        exact List.forall_mem_singleton.2 (Notice.isDetail_mk (by decide) _ _)

/-- The session is held on the source or on a copy of it, which has the same characters and the same
ending; nothing has been said by then but details. -/
theorem exists_compile_eq (ho : s.openSource env = .ok (source, opening)) :
    ∃ source' notices, source'.chars = source.chars ∧ source'.ending = source.ending ∧
      (∀ n ∈ notices, n.IsDetail) ∧
      compile s env =
        proceed s (env.terminal && s.input.isNone) source' ⟨s.tokenListing source.chars, none⟩
          (({} : Journal).addNotices notices) := by
  have hn := isDetail_openSource ho
  cases hd : s.dumpTokens with
  | false =>
    refine ⟨source, opening, rfl, rfl, hn, ?_⟩
    unfold compile proceed Settings.tokenListing
    rw [ho, hd]
    simp only [List.append_nil, Bool.false_eq_true, if_false]
    cases s.backend <;> rfl
  | true =>
    refine ⟨{ Source.ofText source.chars with failure := source.ending },
      opening ++ Traced.failureNotice source.failure source.ending, Source.chars_ofText _,
      Source.ending_of_finished rfl, List.forall_mem_append.2 ⟨hn, Traced.isDetail_failureNotice⟩,
      ?_⟩
    unfold compile proceed Settings.tokenListing listTokens
    rw [ho, hd]
    simp only [if_true, Source.fst_drain, Lexer.dumpText_of_unlimited]
    cases s.backend <;> rfl

theorem Settings.discreet_session (s : Settings) (prompting : Bool) (out : Sink)
    {notices : List Notice} (hn : ∀ n ∈ notices, n.IsDetail) :
    (s.session prompting out (({} : Journal).addNotices notices)).Discreet := by
  refine ⟨Program.named_empty _, ?_⟩
  rw [Settings.session, Journal.notices_addNotices]
  exact hn

/-- What a run has to tell besides its failure are details. -/
theorem isDetail_compile (s : Settings) (env : Environment) :
    ∀ n ∈ (compile s env).2.2.notices, n.IsDetail := by
  cases ho : s.openSource env with
  | error failure =>
    have hc : compile s env = (some failure, .unlimited, {}) := by
      unfold compile
      rw [ho]
    rw [hc]
    exact nofun
  | ok opened =>
    obtain ⟨source, notices, -, -, hn, hc⟩ := exists_compile_eq ho
    rw [hc, proceed]
    cases s.backend with
    | llvm =>
      rw [Journal.notices_addNotices]
      exact hn
    | ir =>
      have hs := s.discreet_session (env.terminal && s.input.isNone)
        ⟨s.tokenListing opened.1.chars, none⟩ hn
      obtain ⟨session, hrun⟩ := Session.exists_run source
        (s := s.session (env.terminal && s.input.isNone) ⟨s.tokenListing opened.1.chars, none⟩
          (({} : Journal).addNotices notices)) rfl
      simp only [hrun, conclude, Journal.notices_addNotices]
      exact List.forall_mem_append.2 ⟨Session.isDetail_of_run hs hrun,
        List.forall_mem_singleton.2 (Notice.isDetail_mk (by decide) _ _)⟩

/-- A run with a session is described by a session on any source that is read in the same way. -/
theorem compile_of_run (ho : s.openSource env = .ok (source, opening)) (hb : s.backend = .ir)
    {base : Source} (hc : base.chars = source.chars) (he : base.ending = source.ending)
    {session : Session}
    (hs : Session.run (Lexer.ofSource base)
      (s.session (env.terminal && s.input.isNone) .unlimited {}) = .ok () session) :
    (compile s env).1 = s.complaint? session ∧
      (compile s env).2.1.bytes = s.tokenListing source.chars ++ session.out.bytes ∧
      (compile s env).2.2.bytes = session.journal.bytes := by
  obtain ⟨source', notices, hc', he', -, heq⟩ := exists_compile_eq ho
  -- Both sessions have the effects of the same items.
  have hitems := Reader.items_ofSource (hc'.trans hc.symm) (he'.trans he.symm)
  obtain ⟨_, hs₁, ha⟩ := (Session.does_run_effects (Lexer.ofSource base)).answers
    (s.session (env.terminal && s.input.isNone) .unlimited {}) rfl rfl rfl
  cases hs.symm.trans hs₁
  obtain ⟨session', hs', ha'⟩ := (Session.does_run_effects (Lexer.ofSource source')).answers
    (s.session (env.terminal && s.input.isNone) ⟨s.tokenListing source.chars, none⟩
      (({} : Journal).addNotices notices)) rfl rfl rfl
  rw [hitems] at ha'
  have herrors : session'.tally.errors = session.tally.errors := ha'.errors.trans ha.errors.symm
  have hfailure : session'.inputFailure = session.inputFailure := by
    rw [Session.inputFailure_of_run hs', Session.inputFailure_of_run hs, he', he]
  have hout : session'.out.bytes = s.tokenListing source.chars ++ session.out.bytes := by
    refine Array.ext' ?_
    rw [ha'.out, Array.toList_append, ha.out]
    rfl
  have herr : session'.journal.bytes = session.journal.bytes := by
    rw [ha'.err, ha.err]
    exact congrArg (· ++ _) (Journal.bytes_addNotices {} notices)
  rw [heq, proceed, hb]
  simp only [hs', conclude]
  refine ⟨?_, hout, (Journal.bytes_addNotices _ _).trans herr⟩
  rw [Settings.complaint?, Settings.complaint?, herrors, hfailure]

end Runs

namespace Tools

/-- What the tools are documented to do. -/
structure Documented (t : Tools) : Prop where
  /-- A logger for a level is set up without a word. -/
  opening : ∀ level : Level, (t.logger level.name).opening = #[]
  /-- It does not show what is more detailed. -/
  line : ∀ (level : Level) (moment : Nat) (n : Notice),
    level.rank < n.level.rank → (t.logger level.name).line moment n = #[]
  /-- A failure that nothing is behind is worded by its message. -/
  report : ∀ message, t.report message [] = message

variable {t : Tools} {s : Settings} {env : Environment}

theorem Documented.run_eq (ht : t.Documented) (hargs : t.settings env.args = .ok s)
    (hlog : env.logSpec = none) (hquiet : s.verbosity = 0) :
    t.run env =
      { code := exitCode (compile s env).1
        out := (compile s env).2.1.bytes
        err := (compile s env).2.2.bytes.toArray ++ utf8 (t.failureText (compile s env).1) } := by
  have hlogger : t.loggerFor s env.logSpec = t.logger Level.warn.name := by
    rw [loggerFor, hlog, Settings.level, hquiet]
    rfl
  have hrender : (compile s env).2.2.render (t.logger Level.warn.name) =
      (compile s env).2.2.bytes.toArray :=
    Journal.render_of_hidden fun n hn moment => ht.line .warn moment n (isDetail_compile s env n hn)
  unfold run
  rw [hargs]
  simp only [hlogger, ht.opening, Array.empty_append, hrender]

theorem Documented.failureText_errorsIn (ht : t.Documented) (count : Nat) (path : String) :
    t.failureText (some (.errorsIn count path)) =
      "Error: " ++ toString count ++ " error(s) in " ++ path ++ "\n" := by
  have h (a b c d : String) : a ++ (b ++ c ++ d) = a ++ b ++ c ++ d := by
    rw [String.append_assoc, String.append_assoc, String.append_assoc]
  refine congrArg (· ++ "\n") (Eq.trans ?_ (h _ _ _ _))
  exact congrArg ("Error: " ++ ·) (ht.report _)

end Tools

section Text

variable {t : Tools} {text : String} {s : Settings} {args : List String}
  {contentOf : String → Except String (List UInt8)} {session : Session}

/-- The run on a text that is piped in, by the session on the text. -/
theorem run_piped (ht : t.Documented) (hargs : t.settings args = .ok s) (hinput : s.input = none)
    (hbackend : s.backend = .ir) (hquiet : s.verbosity = 0)
    (hs : Session.run (Lexer.ofText text.toList) (s.session false .unlimited {}) =
      .ok () session) :
    t.run { args, contentOf, stdin := ⟨(utf8 text).toList, none⟩ } =
      { code := 0
        out := s.tokenListing text.toList ++ session.out.bytes
        err := session.journal.bytes.toArray } := by
  rw [← Lines.ofChars_toList]
  have hchars : (Source.ofLines (.ofChars text.toList)).chars = text.toList := by
    rw [Source.chars_ofLines, Lines.chars_ofChars]
  have hfailure : session.inputFailure = none :=
    (Session.inputFailure_of_run hs).trans (Source.ending_ofText _)
  have hcomplaint : s.complaint? session = none := by
    rw [Settings.complaint?, hinput, hfailure]
    rfl
  have hopen (env : Environment) : s.openSource env = .ok (.ofLines env.stdin, []) := by
    rw [Settings.openSource, hinput]
  obtain ⟨hf, ho, he⟩ := compile_of_run (hopen { args, contentOf, stdin := .ofChars text.toList })
    hbackend ((Source.chars_ofText _).trans hchars.symm)
    ((Source.ending_ofText _).trans (Source.ending_ofChars _).symm) hs
  rw [ht.run_eq hargs rfl hquiet, hf, ho, he, hcomplaint, hchars]
  exact congrArg (Outcome.mk 0 _) Array.append_empty

/-- The run on a text in a file, by the session on the text. -/
theorem run_filed {path : String} {stdin : Lines} {terminal : Bool} (ht : t.Documented)
    (hargs : t.settings args = .ok s) (hinput : s.input = some path)
    (hbackend : s.backend = .ir) (hquiet : s.verbosity = 0)
    (hfile : contentOf path = .ok (utf8 text).toList)
    (hs : Session.run (Lexer.ofText text.toList) (s.session false .unlimited {}) =
      .ok () session) :
    t.run { args, contentOf, stdin, terminal } =
      { code := if session.tally.errors = 0 then 0 else 1
        out := s.tokenListing text.toList ++ session.out.bytes
        err := session.journal.bytes.toArray ++
          if session.tally.errors = 0 then #[]
          else utf8 ("Error: " ++ toString session.tally.errors ++ " error(s) in " ++ path ++
            "\n") } := by
  let env : Environment := { args, contentOf, stdin, terminal }
  have hopen : s.openSource env = .ok (.ofText text.toList, [.compiling path]) := by
    unfold Settings.openSource
    rw [hinput]
    simp only [env, hfile, toList_utf8, decodeUtf8?_encode]
  have hprompting : (env.terminal && s.input.isNone) = false := by
    rw [hinput]
    exact Bool.and_false _
  obtain ⟨hf, ho, he⟩ := compile_of_run hopen hbackend rfl rfl (hprompting ▸ hs)
  rw [ht.run_eq hargs rfl hquiet, hf, ho, he, Source.chars_ofText, Settings.complaint?, hinput]
  simp only
  by_cases h : session.tally.errors = 0
  · rw [if_neg (Nat.not_lt.2 (Nat.le_of_eq h)), if_pos h, if_pos h]
    rfl
  · rw [if_pos (Nat.pos_of_ne_zero h), if_neg h, if_neg h, ht.failureText_errorsIn, exitCode,
      Option.isSome_some, if_pos rfl]

end Text

/-- A text that is the content of a file is compiled like the same text that is piped in.  The runs
have the same output; what the former says beside it ends with a line of its own if there were
errors, and only then does it fail. -/
theorem run_file (t : Tools) (ht : t.Documented) (text path : String) (s : Settings)
    (args args' : List String) (contentOf : String → Except String (List UInt8)) (stdin : Lines)
    (terminal : Bool) (hargs : t.settings args = .ok { s with input := none })
    (hargs' : t.settings args' = .ok { s with input := some path })
    (hbackend : s.backend = .ir) (hquiet : s.verbosity = 0)
    (hfile : contentOf path = .ok (utf8 text).toList) :
    let piped := t.run { args, contentOf, stdin := ⟨(utf8 text).toList, none⟩ }
    let filed := t.run { args := args', contentOf, stdin, terminal }
    ∃ session,
      Session.run (Lexer.ofText text.toList) (s.session false .unlimited {}) = .ok () session ∧
        filed.out = piped.out ∧
        filed.err = piped.err ++
          (if session.tally.errors = 0 then #[]
            else utf8 ("Error: " ++ toString session.tally.errors ++ " error(s) in " ++ path ++
              "\n")) ∧
        piped.code = 0 ∧ (filed.code ≠ 0 ↔ 0 < session.tally.errors) := by
  obtain ⟨session, hs⟩ := Session.exists_run (.ofText text.toList)
    (s := s.session false .unlimited {}) rfl
  rw [run_piped ht hargs rfl hbackend hquiet hs, run_filed ht hargs' rfl hbackend hquiet hfile hs]
  refine ⟨session, hs, rfl, rfl, rfl, ?_⟩
  by_cases h : session.tally.errors = 0
  · simp [h]
  · simp [h, Nat.pos_of_ne_zero h]

theorem Tools.documented_usual : usual.Documented where
  opening level := by cases level <;> rfl
  line level moment n h := by
    have hshows : (LogFilter.ofSpec level.name).1.shows n = decide (n.level.rank ≤ level.rank) := by
      cases level <;> exact Bool.and_true _
    refine if_neg (c := (LogFilter.ofSpec level.name).1.shows n = true) ?_
    rw [hshows, decide_eq_true_iff]
    exact Nat.not_le.2 h
  report message := rfl

/-- Such runs with all flags on, on a text that does not end in a line feed and has an error. -/
theorem run_file_flags :
    let text := "def f(x) x*x; # é\nf(3);\nf(y)"
    let flags := ["--dump-tokens", "--emit-ir", "--dump-ast", "--no-opt"]
    let s : Settings := { emitIr := true, dumpAst := true, dumpTokens := true, cleaning := false }
    let contentOf : String → Except String (List UInt8) := fun _ => .ok (utf8 text).toList
    let piped := Tools.usual.run { args := flags, contentOf, stdin := ⟨(utf8 text).toList, none⟩ }
    let filed := Tools.usual.run { args := flags ++ ["f.k"], contentOf, stdin := ⟨[], none⟩ }
    Tools.usual.Documented ∧ Tools.usual.settings flags = .ok s ∧
      Tools.usual.settings (flags ++ ["f.k"]) = .ok { s with input := some "f.k" } ∧
      (∃ session,
        Session.run (Lexer.ofText text.toList) (s.session false .unlimited {}) = .ok () session ∧
          filed.out = piped.out ∧
          filed.err = piped.err ++
            (if session.tally.errors = 0 then #[]
              else utf8 ("Error: " ++ toString session.tally.errors ++ " error(s) in " ++ "f.k" ++
                "\n")) ∧
          piped.code = 0 ∧ (filed.code ≠ 0 ↔ 0 < session.tally.errors)) ∧
      filed.err = piped.err ++ utf8 "Error: 1 error(s) in f.k\n" := by
  intro text flags s contentOf
  have hflags : Tools.usual.settings flags = .ok { s with input := none } := by decide
  have hflags' : Tools.usual.settings (flags ++ ["f.k"]) = .ok { s with input := some "f.k" } := by
    decide
  refine ⟨Tools.documented_usual, hflags, hflags',
    run_file Tools.usual Tools.documented_usual text "f.k" s flags (flags ++ ["f.k"]) contentOf
      ⟨[], none⟩ false hflags hflags' rfl rfl rfl, ?_⟩
  decide +kernel

/-- On the standard input the tokens come in front of an output that is otherwise the same. -/
theorem exists_run_eq (t : Tools) (ht : t.Documented) (s : Settings)
    (contentOf : String → Except String (List UInt8)) (stdin : Lines) (hinput : s.input = none)
    (hquiet : s.verbosity = 0) :
    ∃ failure out err, ∀ wanted args, t.settings args = .ok { s with dumpTokens := wanted } →
      t.run { args, contentOf, stdin } =
        { code := exitCode failure
          out := { s with dumpTokens := wanted }.tokenListing stdin.chars ++ out
          err := err ++ utf8 (t.failureText failure) } := by
  have hopen (wanted : Bool) (env : Environment) :
      { s with dumpTokens := wanted }.openSource env = .ok (.ofLines env.stdin, []) := by
    unfold Settings.openSource
    simp only [hinput]
  have hbackend : s.backend = .ir ∨ s.backend = .llvm := by cases s.backend <;> simp
  rcases hbackend with hb | hb
  · obtain ⟨session, hs⟩ := Session.exists_run (.ofLines stdin)
      (s := s.session false .unlimited {}) rfl
    refine ⟨s.complaint? session, session.out.bytes, session.journal.bytes.toArray,
      fun wanted args hargs => ?_⟩
    obtain ⟨hf, ho, he⟩ := compile_of_run (hopen wanted { args, contentOf, stdin }) hb rfl rfl hs
    rw [ht.run_eq (s := { s with dumpTokens := wanted }) hargs rfl hquiet, hf, ho, he,
      Source.chars_ofLines]
    rfl
  · refine ⟨some .noLlvm, #[], #[], fun wanted args hargs => ?_⟩
    obtain ⟨source, notices, -, -, -, hc⟩ :=
      exists_compile_eq (hopen wanted { args, contentOf, stdin })
    rw [ht.run_eq (s := { s with dumpTokens := wanted }) hargs rfl hquiet, hc, proceed, hb]
    simp only [Journal.bytes_addNotices, Source.chars_ofLines, Array.append_empty]
    rfl

/-- Listing the tokens of the standard input adds a line for each result of lexing it in front of
the output, and changes nothing else, whatever the input is and wherever it fails. -/
theorem run_dumpTokens (t : Tools) (ht : t.Documented) (stdin : Lines) (s : Settings)
    (args args' : List String) (contentOf : String → Except String (List UInt8))
    (hargs : t.settings args = .ok { s with input := none, dumpTokens := false })
    (hargs' : t.settings args' = .ok { s with input := none, dumpTokens := true })
    (hquiet : s.verbosity = 0) :
    let plain := t.run { args, contentOf, stdin }
    let listed := t.run { args := args', contentOf, stdin }
    listed.code = plain.code ∧ listed.err = plain.err ∧
      ∃ lines : List String,
        List.Forall₂ Lexed.ListedAs (Lexer.ofText stdin.chars).results lines ∧
          (∀ line ∈ lines, Text.OneLine line) ∧
          listed.out.toList =
            (lines.flatMap fun line => (utf8 (line ++ "\n")).toList) ++ plain.out.toList := by
  obtain ⟨failure, out, err, hrun⟩ :=
    exists_run_eq t ht { s with input := none } contentOf stdin rfl hquiet
  obtain ⟨lines, hlines, hone, hlisting⟩ := Lexer.exists_listing_eq stdin.chars
  rw [hrun false args hargs, hrun true args' hargs']
  refine ⟨rfl, rfl, lines, hlines, hone, ?_⟩
  simp [Settings.tokenListing, hlisting]

/-- Such runs on an input with every kind of result, whose second line is not UTF-8. -/
theorem run_dumpTokens_malformed :
    let line := "extern g() 1.5 2.3.4 def '+ é # end\n"
    let stdin : Lines := ⟨(utf8 line).toList ++ [0xFF, 0x0A, 0x32, 0x0A], none⟩
    let s : Settings := { emitIr := true }
    let contentOf : String → Except String (List UInt8) := fun _ => .error ""
    let plain := Tools.usual.run { args := ["--emit-ir"], contentOf, stdin }
    let listed := Tools.usual.run { args := ["--dump-tokens", "--emit-ir"], contentOf, stdin }
    Tools.usual.Documented ∧
      Tools.usual.settings ["--emit-ir"] = .ok { s with dumpTokens := false } ∧
      Tools.usual.settings ["--dump-tokens", "--emit-ir"] = .ok { s with dumpTokens := true } ∧
      (listed.code = plain.code ∧ listed.err = plain.err ∧
        ∃ lines : List String,
          List.Forall₂ Lexed.ListedAs (Lexer.ofText stdin.chars).results lines ∧
            (∀ line ∈ lines, Text.OneLine line) ∧
            listed.out.toList =
              (lines.flatMap fun line => (utf8 (line ++ "\n")).toList) ++ plain.out.toList) ∧
      plain.code = 1 ∧
      listed.out = utf8 (
        "Extern\nIdent(\"g\")\nOperator('(')\nOperator(')')\nNumber(1.5)\n" ++
        "error: malformed number literal '2.3.4'\nDef\nOperator('\\'')\nOperator('+')\n" ++
        "Operator('é')\n") ++ plain.out := by
  intro line stdin s contentOf
  have hplain : Tools.usual.settings ["--emit-ir"] =
      .ok { s with input := none, dumpTokens := false } := by decide
  have hlisted : Tools.usual.settings ["--dump-tokens", "--emit-ir"] =
      .ok { s with input := none, dumpTokens := true } := by decide
  refine ⟨Tools.documented_usual, hplain, hlisted,
    run_dumpTokens Tools.usual Tools.documented_usual stdin s _ _ contentOf hplain hlisted rfl, ?_⟩
  decide +kernel

end CommandLine

end Reckoner
