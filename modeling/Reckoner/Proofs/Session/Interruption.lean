import Reckoner.Proofs.Session.Invariant
import Reckoner.Proofs.Session.Keeping

/-!
# What an interrupted session leaves behind

A session whose output fails ends in the middle of an item.  All that can be left over from the item
is the function without a name that an expression is compiled to.  It is removed once it has been
called, and from then on nothing that fails brings it back; but between compiling and calling it,
its listing is written, and if the output fails there, the function stays (`Interrupted`).

So without listings every session leaves a settled program, wherever its output fails.  With them it
does unless it is interrupted in the listing of such a function.  Then the program is settled but
for that function, which stands in the way of every further expression (`settled_or_interrupted`).
-/

namespace Reckoner

namespace Compiler

variable {c : Compiler} {d : Definition} {id : FuncId}

theorem live_of_define (h : c.program.Consistent) (ho : (c.define d).outcome = .ok id) :
    (c.define d).compiler.program.lookup d.proto.name = some id ∧
      (c.define d).compiler.program.hasBody id = true := by
  obtain ⟨hd, -⟩ := define_defined h d
  rw [ho] at hd
  generalize (c.define d).compiler.program = q at hd
  cases hd with
  | placed ht hc hs =>
    have hf := hs.func? id
    rw [if_pos rfl] at hf
    exact ⟨(hs.lookup _).trans (if_pos rfl), by rw [Program.hasBody, Program.body?, hf]; rfl⟩

end Compiler

namespace Session

variable {s s' t : Session} {d : Definition} {id : FuncId}

def present (d : Definition) : SessionM Unit := do
  countUnit
  note [.parsedExpression d.body]
  writeIf (← get).options.units (d.text ++ "\n")

/-- The beginning of dealing with an expression: all that comes before its listing. -/
def submit (d : Definition) : SessionM (Except CompileError FuncId) := do
  present d
  adopt (·.define d)

/-- The end of dealing with an expression: all that comes after its listing. -/
def settle (d : Definition) (id : FuncId) : SessionM Unit := do
  let result ← evaluate id
  remove id
  match result with
  | .ok value =>
    note [.evaluated d.body]
    write ("Evaluated to " ++ Decimal.Layout.plain.text value ++ "\n")
  | .error e => report e.message

def conclude (d : Definition) : Except CompileError FuncId → SessionM Unit
  | .error e => report e.message
  | .ok id => list id >>= fun _ => settle d id

theorem express_eq (d : Definition) : express d = submit d >>= conclude d := by
  unfold express submit present
  simp only [bind_assoc]
  refine bind_congr fun _ => bind_congr fun _ => bind_congr fun _ => bind_congr fun _ =>
    bind_congr fun outcome => ?_
  cases outcome with
  | error e => rfl
  | ok id => rfl

theorem compiler_left_list (id : FuncId) (s : Session) :
    (left (list id) s).compiler = s.compiler :=
  (keeps_list id).compiler_left (I := (· = s.compiler)) rfl

section Expression

theorem submit_eq_ok {outcome : Except CompileError FuncId} (h : submit d s = .ok outcome t) :
    outcome = (s.compiler.define d).outcome ∧ t.options = s.options ∧
      t.compiler = (s.compiler.define d).compiler := by
  have hd : Does s.options s.compiler (submit d) (s.compiler.define d).outcome
      (.unit s.options.units (d.text ++ "\n") ++ {}) (s.compiler.define d).compiler := by
    unfold submit present
    simp only [bind_assoc]
    exact does_unit (does_adopt (·.define d))
  exact hd.leaves s outcome t rfl rfl h

/-- Nothing is compiled if the text of the unit does not fit. -/
theorem submit_eq_error {e : SinkFull} (h : submit d s = .error e t) :
    t.compiler = s.compiler := by
  have hk : Keeps (· = s.compiler) (fun _ => True) (present d) :=
    keeps_countUnit.andThen ((keeps_note fun _ _ => trivial).andThen
      (keeps_get_bind fun _ => keeps_writeIf _ _))
  cases hp : present d s with
  | ok a s' => cases (SinkFull.bind_of_ok hp).symm.trans h
  | error e' s' =>
    have hs' := hk.compiler_left rfl
    rw [left_of_error hp] at hs'
    cases (SinkFull.bind_of_error hp).symm.trans h
    exact hs'

/-- Once the function is listed it is removed, whatever comes of its call. -/
theorem compiler_left_settle (d : Definition) (id : FuncId) (s : Session) :
    (left (settle d id) s).compiler =
      { s.compiler with program := s.compiler.program.remove id } := by
  have he : ∃ result s', evaluate id s = .ok result s' ∧ s'.compiler = s.compiler := by
    unfold evaluate
    cases s.compiler.program.call id [] .unlimited with
    | ok value sink => exact ⟨_, _, rfl, rfl⟩
    | error e sink => exact ⟨_, _, rfl, rfl⟩
  obtain ⟨result, s', he, hc⟩ := he
  rw [← hc]
  unfold settle
  rw [left_bind_of_ok he]
  have hr : remove id s' = .ok ()
      { s' with compiler := { s'.compiler with program := s'.compiler.program.remove id } } := rfl
  rw [left_bind_of_ok hr]
  have hw (c : Compiler) (text : String) :
      Keeps (· = c) (fun _ => True) (note [.evaluated d.body] >>= fun _ => write text) :=
    (keeps_note fun _ _ => trivial).andThen (keeps_write text)
  cases result with
  | ok value => exact (hw _ _).compiler_left rfl
  | error e => rfl

end Expression

/-- Dealing with the items, the session comes to an expression, compiles it to a function, and ends
in listing it, because the output fails there. -/
inductive Interrupted : List (List Notice × Item) → Session → Session → Prop
  | here {ns : List Notice} {d : Definition} {work : List (List Notice × Item)}
    {s s' t : Session} {id : FuncId}
    (h : (note ns >>= fun _ => submit d) s = .ok (.ok id) s') (hl : list id s' = .error {} t) :
    Interrupted ((ns, .expression d) :: work) s t
  | later {w : List Notice × Item} {work : List (List Notice × Item)} {s s' t : Session}
    (h : step w.1 w.2 s = .ok () s') (hi : Interrupted work s' t) :
    Interrupted (w :: work) s t

theorem ready_or_interrupted_of_step (ns : List Notice) {item : Item} (h : s.compiler.Ready)
    (hi : item.Names (· ≠ "")) (work : List (List Notice × Item)) :
    (left (step ns item) s).compiler.Ready ∨
      Interrupted ((ns, item) :: work) s (left (step ns item) s) := by
  have of_keeps {item : Item} (hk : Keeps Compiler.Ready (fun _ => True) (handle item)) :
      (left (step ns item) s).compiler.Ready :=
    ((keeps_note fun _ _ => trivial).andThen hk).compiler_left h
  cases item with
  | prompt => exact .inl (of_keeps keeps_prompt)
  | malformed e => exact .inl (of_keeps (keeps_report e.message))
  | fault e => exact .inl (of_keeps (keeps_countUnit.andThen (keeps_report e.message)))
  | definition d =>
    exact .inl (of_keeps (keeps_define trivial trivial fun _ hc =>
      ⟨hc.define hi.1.1, fun _ _ => trivial⟩))
  | declaration p =>
    exact .inl (of_keeps (keeps_declare trivial trivial fun _ hc =>
      ⟨hc.declare hi.1, fun _ _ => trivial⟩))
  | finished failure => exact .inl (of_keeps (keeps_finish failure))
  | expression d =>
    have hn : d.proto.name = "" := congrArg Prototype.name hi.1
    have hnote : note ns s = .ok () { s with journal := s.journal.addNotices ns } := rfl
    generalize hs' : ({ s with journal := s.journal.addNotices ns } : Session) = s' at hnote
    have hc : s'.compiler = s.compiler := by rw [← hs']
    have hready := h.evaluate hn
    have hstep : left (step ns (.expression d)) s = left (express d) s' := left_bind_of_ok hnote
    rw [← hc] at hready
    rw [hstep, express_eq]
    cases hsub : submit d s' with
    | error e t =>
      rw [left_bind_of_error hsub, submit_eq_error hsub, hc]
      exact .inl h
    | ok outcome t =>
      obtain ⟨ho, -, ht⟩ := submit_eq_ok hsub
      rw [left_bind_of_ok hsub]
      cases outcome with
      | error e =>
        rw [Compiler.evaluate_of_error ho.symm, ← ht] at hready
        exact .inl ((keeps_report e.message).compiler_left hready)
      | ok id =>
        rw [Compiler.evaluate_of_ok ho.symm, ← ht] at hready
        cases hl : list id t with
        | ok a u =>
          have hu : u.compiler = t.compiler := left_of_ok hl ▸ compiler_left_list id t
          left
          rw [conclude, left_bind_of_ok hl, compiler_left_settle, hu]
          exact hready
        | error e u =>
          right
          rw [conclude, left_bind_of_error hl]
          exact .here ((SinkFull.bind_of_ok hnote).trans hsub) hl

/-- All items leave a compiler that is ready, unless the session is interrupted. -/
theorem ready_or_interrupted {work : List (List Notice × Item)} (h : s.compiler.Ready)
    (hw : ∀ w ∈ work, w.2.Names (· ≠ "")) :
    (left (deal work) s).compiler.Ready ∨ Interrupted work s (left (deal work) s) := by
  induction work generalizing s with
  | nil => exact .inl h
  | cons w work ih =>
    obtain ⟨hfirst, hrest⟩ := List.forall_mem_cons.1 hw
    have hstep := ready_or_interrupted_of_step w.1 h hfirst work
    cases hs : step w.1 w.2 s with
    | error e t =>
      have hd : left (deal (w :: work)) s = t := left_bind_of_error hs
      rw [left_of_error hs] at hstep
      rwa [hd]
    | ok a s' =>
      have hd : left (deal (w :: work)) s = left (deal work) s' := left_bind_of_ok hs
      obtain ⟨-, -, hc⟩ := (does_step w.1 w.2).leaves s a s' rfl rfl hs
      have hready : s'.compiler.Ready := by
        rw [hc]
        exact h.step s.options hfirst
      rw [hd]
      exact (ih hready hrest).imp_right (.later hs)

/-- An interrupted session ends with an error, and there is a function without a name that has a
body.  Without that function the compiler would be ready. -/
theorem Interrupted.anonymous {work : List (List Notice × Item)} (hi : Interrupted work s t)
    (h : s.compiler.Ready) (hw : ∀ w ∈ work, w.2.Names (· ≠ "")) :
    s.options.listing = true ∧ deal work s = .error {} t ∧
      ∃ id, t.compiler.program.lookup "" = some id ∧
        ({ t.compiler with program := t.compiler.program.remove id } : Compiler).Ready ∧
        ∀ body, (t.compiler.define (.anonymous body)).outcome = .error (.redefinition "") := by
  induction hi with
  | @here ns d work s s' t id hs hl =>
    obtain ⟨hfirst, -⟩ := List.forall_mem_cons.1 hw
    have hn : d.proto.name = "" := congrArg Prototype.name hfirst.1
    obtain ⟨a, u, hnote, hsub⟩ := SinkFull.bind_eq_ok hs
    obtain rfl : u = { s with journal := s.journal.addNotices ns } := by cases hnote; rfl
    obtain ⟨ho, hopt, hc⟩ := submit_eq_ok hsub
    simp only at ho hopt hc
    have ht : t.compiler = (s.compiler.define d).compiler := by
      rw [← hc, ← compiler_left_list id s', left_of_error hl]
    obtain ⟨hlookup, hbody⟩ := Compiler.live_of_define h.consistent ho.symm
    rw [hn] at hlookup
    have hready := h.evaluate hn
    rw [Compiler.evaluate_of_ok ho.symm] at hready
    have hdeal : deal ((ns, .expression d) :: work) s = .error {} t := by
      have hstep : step ns (.expression d) s = .error {} t := by
        refine (SinkFull.bind_of_ok hnote).trans ?_
        rw [handle, express_eq, SinkFull.bind_of_ok hsub]
        exact SinkFull.bind_of_error hl
      exact SinkFull.bind_of_error hstep
    refine ⟨?_, hdeal, id, ?_, ?_, fun body => ?_⟩
    · rw [← hopt]
      cases hlisting : s'.options.listing with
      | true => rfl
      | false =>
        have hl' : list id s' = .ok () s' := by
          change writeIf s'.options.listing (s'.compiler.program.funcListing id) s' = _
          rw [hlisting]
          rfl
        cases hl'.symm.trans hl
    · rw [ht]
      exact hlookup
    · rw [ht]
      exact hready
    · rw [ht]
      exact (Compiler.define_of_hasBody (d := .anonymous body) hlookup hbody).1
  | @later w work s s' t hs hi ih =>
    obtain ⟨hfirst, hrest⟩ := List.forall_mem_cons.1 hw
    obtain ⟨-, ho, hc⟩ := (does_step w.1 w.2).leaves s () s' rfl rfl hs
    have hready : s'.compiler.Ready := by
      rw [hc]
      exact h.step s.options hfirst
    obtain ⟨hlisting, hdeal, hrest⟩ := ih hready hrest
    exact ⟨ho ▸ hlisting, (SinkFull.bind_of_ok hs).trans hdeal, hrest⟩

/-- What a session leaves, wherever its output fails.  Unless it is interrupted in the listing of an
expression, the program is settled, no function is without a name, and the next expression finds the
name free.  If it is, which takes listings, the function without a name is still there.  Every
further expression is refused then, until the function is removed. -/
theorem settled_or_interrupted (source : Source) (options : SessionOptions) (name : String)
    (cleaning : Bool) (out : Sink) :
    let begun := fresh options name cleaning out
    let ended := left (run (Lexer.ofSource source)) begun
    let work := (Reader.start (Traced.mk (Lexer.ofSource source) #[])).noted 0
    (¬Interrupted work begun ended →
      ended.compiler.program.Settled ∧ ended.compiler.program.lookup "" = none) ∧
    (Interrupted work begun ended →
      options.listing = true ∧ run (Lexer.ofSource source) begun = .error {} ended ∧
        ∃ id, ended.compiler.program.lookup "" = some id ∧
          (ended.compiler.program.remove id).Settled ∧
          ∀ body, (ended.compiler.define (.anonymous body)).outcome =
            .error (.redefinition "")) := by
  intro begun ended work
  have hnames : ∀ w ∈ work, w.2.Names (· ≠ "") := names_noted source
  have hready : begun.compiler.Ready := Compiler.ready_new name cleaning
  have hrun : run (Lexer.ofSource source) = deal work := runFrom_eq_deal 0 _
  have hended : ended = left (deal work) begun := congrArg (left · begun) hrun
  constructor
  · intro hn
    have hend : ended.compiler.Ready := by
      rw [hended] at hn ⊢
      exact (ready_or_interrupted hready hnames).resolve_right hn
    exact ⟨hend.settled, hend.lookup_empty⟩
  · intro hi
    obtain ⟨hl, hd, id, hlookup, hremove, hrefused⟩ := hi.anonymous hready hnames
    rw [hrun]
    exact ⟨hl, hd, id, hlookup, hremove.settled, hrefused⟩

/-- With an output that takes nothing, a session with listings on one number leaves its function. -/
theorem anonymous_left :
    let begun := fresh { listing := true } "test" true (.limited 0)
    let ended := left (run (Lexer.ofText "1;".toList)) begun
    (ended.compiler.program.func? ⟨0⟩).map Func.name = some "" ∧
      ended.compiler.program.body? ⟨0⟩ = some [.ret (.const 1)] ∧
      ended.compiler.program.lookup "" = some ⟨0⟩ ∧
      (ended.compiler.define (.anonymous (.literal 2))).outcome = .error (.redefinition "") := by
  intro begun ended
  have hended :
      ended = left (deal ((Reader.start ⟨Lexer.ofText "1;".toList, #[]⟩).noted 0)) begun :=
    congrArg (left · begun) (runFrom_eq_deal 0 _)
  rw [hended]
  decide +kernel

end Session

end Reckoner
