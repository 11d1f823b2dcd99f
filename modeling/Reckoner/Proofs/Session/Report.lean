import Reckoner.Proofs.Compiler.Errors
import Reckoner.Proofs.Grammar.Ending
import Reckoner.Proofs.Session.Accounting
import Reckoner.Proofs.Session.Listing

/-!
# What a session reports

A unit can fail in three ways: its text is not well formed, it cannot be compiled, or it is an
expression that cannot be evaluated.  The last two depend on the compiler that the unit finds, so a
run is followed through its visits: the compilers before its items, each with the item that is dealt
with next.  What is said at the visits, one after another, is all that the session writes, and every
failure is one report (`run_reports`).

That a report is one line needs to be shown, since reports quote the source.  A token has no line
break, the names of functions are words, and an operator that is read joins operands
(`Compiler.oneLine_of_report?`).
-/

namespace Reckoner

open Text

inductive UnitFailure
  | parse (e : ParseError)
  | compile (e : CompileError)
  | exec (e : ExecError)

def UnitFailure.message : UnitFailure → String
  | .parse e => e.message
  | .compile e => e.message
  | .exec e => e.message

inductive Remark
  /-- What an expression writes while it is evaluated. -/
  | printed (bytes : Array UInt8)
  | reported (message : String)

namespace Remark

def bytes : Remark → List UInt8
  | .printed bytes => bytes.toList
  | .reported message => (utf8 ("error: " ++ message ++ "\n")).toList

def isReport : Remark → Bool
  | .printed _ => false
  | .reported _ => true

end Remark

namespace Item

def isExpression : Item → Bool
  | .expression _ => true
  | _ => false

def isMalformed : Item → Bool
  | .malformed _ => true
  | _ => false

end Item

def valueLine (value : Float) : String :=
  "Evaluated to " ++ Decimal.Layout.plain.text value ++ "\n"

theorem exists_valueLine (value : Float) :
    ∃ line, valueLine value = line ++ "\n" ∧ OneLine line :=
  ⟨_, rfl, oneLine_append.2 ⟨by decide, oneLine_number _ value⟩⟩

namespace Compiler

def failure? (c : Compiler) : Item → Option UnitFailure
  | .fault e => some (.parse e)
  | .definition d => (Except.error? (c.define d).outcome).map .compile
  | .declaration p => (Except.error? (c.declare p).outcome).map .compile
  | .expression d =>
    match (engine.evaluate c d).1 with
    | .error e => some (.compile e)
    | .ok (.error e _) => some (.exec e)
    | .ok (.ok _ _) => none
  | _ => none

/-- What is reported of the item: a malformed lexeme, or how a unit fails. -/
def report? (c : Compiler) : Item → Option String
  | .malformed e => some e.message
  | item => (c.failure? item).map UnitFailure.message

def printed (c : Compiler) : Item → Array UInt8
  | .expression d =>
    match (engine.evaluate c d).1 with
    | .error _ => #[]
    | .ok (.error _ sink) => sink.bytes
    | .ok (.ok _ sink) => sink.bytes
  | _ => #[]

def value? (c : Compiler) : Item → Option Float
  | .expression d =>
    match (engine.evaluate c d).1 with
    | .ok (.ok value _) => some value
    | _ => none
  | _ => none

def remarks (c : Compiler) (item : Item) : List Remark :=
  .printed (c.printed item) :: (c.report? item).toList.map .reported

/-- A value is what comes of an expression that does not fail. -/
theorem isSome_value? (c : Compiler) (item : Item) :
    (c.value? item).isSome = (item.isExpression && (c.failure? item).isNone) := by
  cases item with
  | expression d =>
    simp only [value?, failure?]
    generalize (engine.evaluate c d).1 = r
    cases r with
    | error e => rfl
    | ok result => cases result <;> rfl
  | _ => rfl

/-- A report is of a unit that fails or of a malformed lexeme. -/
theorem isSome_report? (c : Compiler) (item : Item) :
    (c.report? item).isSome = ((c.failure? item).isSome || item.isMalformed) := by
  cases item <;> simp [report?, failure?, Item.isMalformed]

theorem failure?_of_isMalformed {item : Item} (h : item.isMalformed = true) (c : Compiler) :
    c.failure? item = none := by
  cases item with
  | malformed e => rfl
  | _ => contradiction

def account (visits : List (Compiler × Item)) : Effect where
  out := (visits.filterMap fun v => v.1.value? v.2).flatMap fun x => (utf8 (valueLine x)).toList
  err := (visits.flatMap fun v => v.1.remarks v.2).flatMap Remark.bytes
  units := (visits.map fun v => v.2.units).sum
  errors := (visits.filterMap fun v => v.1.report? v.2).length

variable {c : Compiler} {item : Item}

theorem account_cons (v : Compiler × Item) (visits : List (Compiler × Item)) :
    account (v :: visits) = account [v] ++ account visits := by
  change _ = Effect.append _ _
  simp only [account, Effect.append, Effect.mk.injEq]
  refine ⟨?_, ?_, ?_, ?_⟩
  · rw [← List.flatMap_append, ← List.filterMap_append]
    rfl
  · rw [← List.flatMap_append, ← List.flatMap_append]
    rfl
  · simp
  · rw [← List.length_append, ← List.filterMap_append]
    rfl

theorem account_singleton {bytes : Array UInt8} {report : Option String} {value : Option Float}
    (hp : c.printed item = bytes) (hr : c.report? item = report) (hv : c.value? item = value) :
    account [(c, item)] = { units := item.units } ++ (.aside bytes ++ (report.elim {} .error ++
      value.elim {} fun x => .output (valueLine x))) := by
  change _ = Effect.append _ (Effect.append _ (Effect.append _ _))
  cases report <;> cases value <;>
    simp [account, remarks, hp, hr, hv, Effect.append, Effect.aside, Effect.error, Effect.output,
      Remark.bytes]

theorem account_of_report {report : Option String} (hp : c.printed item = #[])
    (hr : c.report? item = report) (hv : c.value? item = none) :
    account [(c, item)] = { units := item.units } ++ report.elim {} .error := by
  have ha : Effect.aside #[] = {} := rfl
  rw [account_singleton hp hr hv, ha, Effect.empty_append]
  exact congrArg _ (Effect.append_empty _)

theorem account_eq_step (h : ∀ g, item = .finished g → g = none) :
    account [(c, item)] = (engine.step {} c item).1 := by
  cases item with
  | prompt => rfl
  | malformed e => exact account_of_report rfl rfl rfl
  | fault e => exact account_of_report rfl rfl rfl
  | definition d =>
    refine (account_of_report rfl rfl rfl).trans ?_
    simp only [report?, failure?, Engine.step, engine]
    cases Except.error? (c.define d).outcome <;> rfl
  | declaration p =>
    refine (account_of_report rfl rfl rfl).trans ?_
    simp only [report?, failure?, Engine.step, engine]
    cases Except.error? (c.declare p).outcome <;> rfl
  | expression d =>
    refine (account_singleton rfl rfl rfl).trans ?_
    simp only [printed, report?, failure?, value?, Engine.step]
    refine congrArg _ ?_
    generalize (engine.evaluate c d).1 = r
    cases r with
    | error e => exact (Effect.empty_append _).trans (Effect.append_empty _)
    | ok result =>
      cases result with
      | ok value sink => exact congrArg _ (Effect.empty_append _)
      | error e sink => exact congrArg _ (Effect.append_empty _)
  | finished g =>
    obtain rfl := h g rfl
    rfl

/-- The number of reports: one for each unit that fails, and one for each malformed lexeme. -/
theorem length_reports (visits : List (Compiler × Item)) :
    (visits.filterMap fun v => v.1.report? v.2).length =
      visits.countP (fun v => (v.1.failure? v.2).isSome) +
        visits.countP fun v => v.2.isMalformed := by
  rw [List.length_filterMap_eq_countP]
  induction visits with
  | nil => rfl
  | cons v visits ih =>
    rw [List.countP_cons, List.countP_cons, List.countP_cons, ih, isSome_report?]
    cases hm : v.2.isMalformed with
    | true => simp [failure?_of_isMalformed hm, Nat.add_assoc]
    | false => simp [Nat.add_right_comm]

theorem filter_remarks (visits : List (Compiler × Item)) :
    (visits.flatMap fun v => v.1.remarks v.2).filter Remark.isReport =
      (visits.filterMap fun v => v.1.report? v.2).map .reported := by
  induction visits with
  | nil => rfl
  | cons v visits ih =>
    rw [List.flatMap_cons, List.filter_append, ih, List.filterMap_cons]
    unfold remarks
    cases v.1.report? v.2 <;> rfl

end Compiler

theorem ParseError.oneLine_message {e : ParseError} (h : ∀ r ∈ e.offender, r.InLine) :
    OneLine e.message := by
  have description (t : Token) (ht : ∀ r ∈ t.toResults, r.InLine) : OneLine t.description := by
    by_cases he : t = .eof
    · subst he
      decide
    · rw [Token.toResults, if_neg he] at ht
      exact t.oneLine_description (ht _ List.mem_cons_self)
  cases e with
  | unexpected expected found =>
    have he : OneLine expected.text := by cases expected <;> decide
    refine oneLine_append.2 ⟨oneLine_append.2 ⟨?_, by decide⟩, description found h⟩
    exact oneLine_append.2 ⟨by decide, he⟩
  | noExpression found => exact oneLine_append.2 ⟨by decide, description found h⟩
  | lex e => exact LexError.oneLine_message (h _ List.mem_cons_self)

theorem IsWord.oneLine {name : String} (h : IsWord name) : OneLine name :=
  fun c hc => isLineBreak_of_isAlphanum (h.isAlphanum c hc)

theorem Lexer.names_oneLine : TokenSupply.Names Lexer OneLine :=
  fun l t ht name hn => (names_isWord l t ht name hn).oneLine

namespace Compiler

open Program

variable {c : Compiler} {d : Definition} {item : Item}

theorem Defined.names {P : String → Prop} {q : Program} {id : FuncId} (h : c.program.Names P)
    (hd : Defined c d (.ok id) q) (hn : P d.proto.name) : q.Names P := by
  cases hd with
  | placed _ _ hs =>
    intro i f hf
    rw [hs.func?] at hf
    split at hf
    · cases hf
      exact hn
    · exact h i f hf

theorem oneLine_of_expression (h : c.Ready) (hw : c.program.Worded)
    (hn : Item.Names OneLine (.expression d)) (ho : d.body.Operators Joins) {failure : UnitFailure}
    (hf : c.failure? (.expression d) = some failure) : OneLine failure.message := by
  have hname : OneLine d.proto.name := by
    rw [hn.1]
    decide
  cases hdef : (c.define d).outcome with
  | error e =>
    rw [failure?, evaluate_of_error hdef] at hf
    cases hf
    exact CompileError.oneLine_message (names_of_define h.consistent hname hn.2 ho hdef)
  | ok id =>
    obtain ⟨hd, -⟩ := define_defined h.consistent d
    rw [hdef] at hd
    have hnames : (c.define d).compiler.program.Names OneLine :=
      hd.names (fun i f hi => (hw i f hi).1.oneLine) hname
    rw [failure?, evaluate_of_ok hdef] at hf
    simp only at hf
    split at hf
    · contradiction
    · rename_i e sink hr
      cases hf
      refine ExecError.oneLine_message ?_
      exact hnames.callWithin maxDepth id [] .unlimited e sink (Except.ok.inj hr)
    · contradiction

/-- A report is one line, whatever the source has written there. -/
theorem oneLine_of_report? (h : c.Ready) (hw : c.program.Worded) (hn : item.Names OneLine)
    (ho : item.Operators Joins) (hi : ∀ r ∈ item.offender, r.InLine) {message : String}
    (hm : c.report? item = some message) : OneLine message := by
  cases item with
  | malformed e =>
    cases hm
    exact LexError.oneLine_message (hi _ List.mem_cons_self)
  | fault e =>
    cases hm
    exact ParseError.oneLine_message hi
  | definition d =>
    obtain ⟨failure, hf, rfl⟩ := Option.map_eq_some_iff.1 hm
    obtain ⟨e, he, rfl⟩ := Option.map_eq_some_iff.1 hf
    exact CompileError.oneLine_message
      (names_of_define h.consistent hn.1.1 hn.2 ho (Except.error?_eq_some_iff.1 he))
  | declaration p =>
    obtain ⟨failure, hf, rfl⟩ := Option.map_eq_some_iff.1 hm
    obtain ⟨e, he, rfl⟩ := Option.map_eq_some_iff.1 hf
    exact CompileError.oneLine_message (names_of_declare hn.1 (Except.error?_eq_some_iff.1 he))
  | expression d =>
    obtain ⟨failure, hf, rfl⟩ := Option.map_eq_some_iff.1 hm
    exact oneLine_of_expression h hw hn ho hf
  | _ => contradiction

end Compiler

namespace Session

def visitsOf (work : List (List Notice × Item)) (s : Session) : List (Compiler × Item) :=
  ((headsOf work s).map Session.compiler).zip (work.map Prod.snd)

/-- The compilers before the items of a run on a supply, each with its item. -/
def visits {σ : Type} [TokenSupply σ] (supply : σ) (s : Session) : List (Compiler × Item) :=
  ((heads supply s).map Session.compiler).zip (Reader.start supply).items

theorem visits_eq {σ : Type} [TokenSupply σ] (supply : σ) (s : Session) :
    visits supply s = visitsOf ((Reader.start (Traced.mk supply #[])).noted 0) s := by
  rw [visits, visitsOf, Reader.map_snd_noted, Reader.items_traced]
  rfl

variable {work : List (List Notice × Item)} {s : Session}

/-- Unless the input fails, dealing with items is accounted for by the visits of all of them. -/
theorem answers_deal (ho : s.options = {}) (hr : s.out.room = none)
    (hw : ∀ w ∈ work, ∀ g, w.2 = .finished g → g = none) :
    (visitsOf work s).map Prod.snd = work.map Prod.snd ∧
      ∃ t, deal work s = .ok () t ∧ s.Answers (Compiler.account (visitsOf work s)) t := by
  induction work generalizing s with
  | nil =>
    exact ⟨rfl, s, rfl, tells_empty s, hr⟩
  | cons w work ih =>
    -- The first visit is by the compiler of `s`, the others begin where its item has led.
    obtain ⟨hfirst, hrest⟩ := List.forall_mem_cons.1 hw
    obtain ⟨s', hs, ha⟩ := (does_step w.1 w.2).answers s ho rfl hr
    obtain ⟨-, ho', -⟩ := (does_step w.1 w.2).leaves s () s' ho rfl hs
    obtain ⟨hitems, t, ht, ha'⟩ := ih ho' ha.room hrest
    have hv : visitsOf (w :: work) s = (s.compiler, w.2) :: visitsOf work s' := by
      unfold visitsOf
      rw [headsOf, hs]
      rfl
    rw [hv, List.map_cons, hitems, Compiler.account_cons, Compiler.account_eq_step hfirst,
      ← Compiler.effect_of_listing rfl]
    exact ⟨rfl, t, (SinkFull.bind_of_ok hs).trans ht, ha.toTells.trans ha'.toTells, ha'.room⟩

theorem oneLine_of_visits (source : Source) (options : SessionOptions) (name : String)
    (cleaning : Bool) (out : Sink) :
    ∀ v ∈ visits (Lexer.ofSource source) (fresh options name cleaning out),
      ∀ message, v.1.report? v.2 = some message → OneLine message := by
  rintro ⟨c, item⟩ hv message hm
  obtain ⟨hc, hi⟩ := List.of_mem_zip hv
  obtain ⟨s, hs, rfl⟩ := List.mem_map.1 hc
  obtain ⟨hr, hw⟩ := worded_heads source options name cleaning out s hs
  refine Compiler.oneLine_of_report? hr hw ?_ ?_ ?_ hm
  · exact Reader.names_items_start Lexer.names_oneLine _ item hi
  · exact Reader.operators_items _ item hi
  · exact fun r h => Lexer.inLine_of_mem_results r (Reader.offender_subset_results _ item hi h)

/-- If reading does not fail and the output takes everything, what is written beside the output is
what is printed at the visits and, between it, the reports, as many as errors are counted: one for
each unit that fails and one for each malformed lexeme between units.  Each report is one line.  The
output is one line for each expression that does not fail, in the order of the source. -/
theorem run_reports (source : Source) (name : String) (cleaning : Bool)
    (h : source.ending = none) :
    let begun := fresh {} name cleaning .unlimited
    let visits := visits (Lexer.ofSource source) begun
    let remarks := visits.flatMap fun v => v.1.remarks v.2
    let messages := visits.filterMap fun v => v.1.report? v.2
    let values := visits.filterMap fun v => v.1.value? v.2
    visits.map Prod.snd = (Reader.start (Lexer.ofSource source)).items ∧
      ∃ s, run (Lexer.ofSource source) begun = .ok () s ∧
        s.journal.bytes = remarks.flatMap Remark.bytes ∧
        remarks.filter Remark.isReport = messages.map .reported ∧
        messages.length = s.tally.errors ∧
        (∀ m ∈ messages, OneLine m) ∧
        s.tally.errors = visits.countP (fun v => (v.1.failure? v.2).isSome) +
          visits.countP (fun v => v.2.isMalformed) ∧
        s.out.bytes.toList = values.flatMap (fun x => (utf8 (valueLine x)).toList) ∧
        (∀ x ∈ values, ∃ line, valueLine x = line ++ "\n" ∧ OneLine line) ∧
        ∀ v ∈ visits,
          (v.1.value? v.2).isSome = (v.2.isExpression && (v.1.failure? v.2).isNone) := by
  intro begun visits remarks messages values
  have hwork : ∀ w ∈ (Reader.start (Traced.mk (Lexer.ofSource source) #[])).noted 0,
      ∀ g, w.2 = .finished g → g = none := by
    intro w hw g hg
    have hm := List.mem_map_of_mem (f := Prod.snd) hw
    rw [Reader.map_snd_noted, Reader.items_traced, hg] at hm
    exact (Reader.finished_of_mem_items hm).trans h
  obtain ⟨hitems, s, hs, ha⟩ := answers_deal (s := begun) rfl rfl hwork
  rw [← visits_eq] at hitems ha
  rw [Reader.map_snd_noted, Reader.items_traced] at hitems
  have hrun : run (Lexer.ofSource source) begun = .ok () s := by
    unfold run
    rw [runFrom_eq_deal]
    exact hs
  have herrors : s.tally.errors = messages.length := ha.errors.trans (Nat.zero_add _)
  refine ⟨hitems, s, hrun, ha.err, Compiler.filter_remarks visits, herrors.symm, ?_, ?_, ha.out,
    fun x _ => exists_valueLine x, fun v _ => v.1.isSome_value? v.2⟩
  · intro m hm
    obtain ⟨v, hv, hr⟩ := List.mem_filterMap.1 hm
    exact oneLine_of_visits source {} name cleaning .unlimited v hv m hr
  · exact herrors.trans (Compiler.length_reports visits)

/-- One failure of each kind, after a malformed lexeme; the last expression that fails has printed
something before. -/
theorem run_reports_failures :
    let source := Source.ofText
      "1..2 ) ; f(1) ; extern g() ; extern putchard(x) ; putchard(65) - g() ; 4".toList
    let begun := fresh {} "test" true .unlimited
    let visits := visits (Lexer.ofSource source) begun
    let remarks := visits.flatMap fun v => v.1.remarks v.2
    let messages := visits.filterMap fun v => v.1.report? v.2
    source.ending = none ∧
      messages = ["malformed number literal '1..2'",
        "unknown token when expecting an expression, found ')'",
        "unknown function referenced f", "extern g has no definition"] ∧
      ∃ s, run (Lexer.ofSource source) begun = .ok () s ∧
        s.journal.bytes = remarks.flatMap Remark.bytes ∧ s.tally.errors = 4 ∧
        ∀ m ∈ messages, OneLine m := by
  intro source begun visits remarks messages
  have h : source.ending = none := Source.ending_ofText _
  have hm : messages = ["malformed number literal '1..2'",
      "unknown token when expecting an expression, found ')'",
      "unknown function referenced f", "extern g has no definition"] := by decide +kernel
  obtain ⟨-, s, hs, herr, -, hlen, hline, -⟩ := run_reports source "test" true h
  exact ⟨h, hm, s, hs, herr, hlen.symm.trans (congrArg List.length hm), hline⟩

end Session

end Reckoner
