import Reckoner.Proofs.Session.Run
import Reckoner.Proofs.Sink.Limit
import Reckoner.Token.Dump

/-!
# Sessions with limited output

Every action of a session is put together from writes to the output and from steps that do not look
at it, so all that limited room can do to a session is to cut it short at the first write that does
not fit (`run_limited`).
-/

namespace Reckoner

instance : HasSink Sink where
  sink s := s
  put _ o := o
  aside _ := []
  sink_put _ _ := rfl
  put_put _ _ _ := rfl
  put_sink _ := rfl
  aside_put _ _ := rfl

instance : HasSink Session where
  sink s := s.out
  put s o := { s with out := o }
  aside s := s.journal.entries.toList
  sink_put _ _ := rfl
  put_put _ _ _ := rfl
  put_sink _ := rfl
  aside_put _ _ := rfl

open HasSink

theorem Sink.write_eq_writeText (text : String) :
    (HasSink.write text : EStateM SinkFull Sink Unit) = Sink.writeText text := by
  funext s
  have hs : sink s = s := rfl
  unfold HasSink.write
  rw [hs]
  cases writeText text s <;> rfl

theorem Lexer.limitable_dumpLines (results : List Lexed) (s : Sink) :
    Limitable (dumpLines results) s := by
  refine limitable_forM results (fun r (s : Sink) => ?_) s
  rw [← Sink.write_eq_writeText]
  exact limitable_write r.dumpLine

theorem Journal.prefix_addNotices (j : Journal) (ns : List Notice) :
    j.entries.toList <+: (j.addNotices ns).entries.toList := by
  simp [addNotices]

theorem Journal.prefix_addBytes (j : Journal) (b : Array UInt8) :
    j.entries.toList <+: (j.addBytes b).entries.toList := by
  simp [addBytes]

theorem Journal.prefix_views {j k : Journal} (h : j.entries.toList <+: k.entries.toList) :
    j.bytes <+: k.bytes ∧ j.notices <+: k.notices := by
  obtain ⟨rest, h⟩ := h
  unfold bytes notices
  rw [← h, List.flatMap_append, List.filterMap_append]
  exact ⟨List.prefix_append _ _, List.prefix_append _ _⟩

namespace Session

variable {α : Type}

theorem limitable_writeIf (wanted : Bool) (text : String) (s : Session) :
    Limitable (writeIf wanted text) s := by
  cases wanted with
  | true => exact limitable_write text
  | false => exact limitable_pure ()

theorem limitable_note (ns : List Notice) (s : Session) : Limitable (note ns) s :=
  limitable_of_eq { s with journal := s.journal.addNotices ns } (fun _ => rfl) rfl
    (Journal.prefix_addNotices _ ns)

theorem limitable_report (message : String) (s : Session) : Limitable (report message) s :=
  limitable_of_eq
    { s with
      journal := s.journal.addText ("error: " ++ message ++ "\n")
      tally := { s.tally with errors := s.tally.errors + 1 } }
    (fun _ => rfl) rfl (Journal.prefix_addBytes _ _)

theorem limitable_countUnit (s : Session) : Limitable countUnit s :=
  limitable_of_eq { s with tally := { s.tally with units := s.tally.units + 1 } } (fun _ => rfl)
    rfl (List.prefix_refl _)

theorem limitable_prompt (s : Session) : Limitable prompt s := by
  cases hp : s.options.prompting with
  | true =>
    refine limitable_of_eq (a := ()) { s with journal := s.journal.addText "ready> " }
      (fun o => ?_) rfl (Journal.prefix_addBytes _ _)
    exact congrArg (EStateM.Result.ok ()) (if_pos hp)
  | false =>
    refine limitable_of_eq (a := ()) s (fun o => ?_) rfl (List.prefix_refl _)
    exact congrArg (EStateM.Result.ok ()) (if_neg (by simp [hp, put]))

theorem limitable_adopt (f : Compiler → Compiled) (s : Session) : Limitable (adopt f) s :=
  limitable_of_eq (a := (f s.compiler).outcome)
    { s with
      compiler := (f s.compiler).compiler
      journal := s.journal.addNotices (f s.compiler).notices }
    (fun _ => rfl) rfl (Journal.prefix_addNotices _ _)

theorem limitable_remove (id : FuncId) (s : Session) : Limitable (remove id) s :=
  limitable_of_eq
    { s with compiler := { s.compiler with program := s.compiler.program.remove id } }
    (fun _ => rfl) rfl (List.prefix_refl _)

theorem limitable_list (id : FuncId) (s : Session) : Limitable (list id) s :=
  limitable_get_bind (fun _ => rfl) (limitable_writeIf _ _ s)

theorem limitable_evaluate (id : FuncId) (s : Session) : Limitable (evaluate id) s := by
  have hcompiler (o : Sink) : (put s o).compiler = s.compiler := rfl
  cases hc : s.compiler.program.call id [] .unlimited with
  | ok value sink =>
    have he (o : Sink) : evaluate id (put s o) =
        .ok (.ok value) (put { s with journal := s.journal.addBytes sink.bytes } o) := by
      unfold evaluate
      rw [hcompiler, hc]
      rfl
    exact limitable_of_eq _ he rfl (Journal.prefix_addBytes _ _)
  | error e sink =>
    have he (o : Sink) : evaluate id (put s o) =
        .ok (.error e) (put { s with journal := s.journal.addBytes sink.bytes } o) := by
      unfold evaluate
      rw [hcompiler, hc]
      rfl
    exact limitable_of_eq _ he rfl (Journal.prefix_addBytes _ _)

theorem limitable_unit {ns : List Notice} {text : String} {x : SessionM α}
    (h : ∀ s, Limitable x s) (s : Session) :
    Limitable (do
      countUnit
      note ns
      writeIf (← get).options.units text
      x) s :=
  (limitable_countUnit s).bind fun _ s _ => (limitable_note ns s).bind fun _ s _ =>
    limitable_get_bind (fun _ => rfl)
      ((limitable_writeIf _ text s).bind fun _ s _ => h s)

theorem limitable_define (d : Definition) (s : Session) : Limitable (define d) s := by
  refine limitable_unit (fun s => ?_) s
  refine (limitable_adopt (·.define d) s).bind fun outcome s _ => ?_
  cases outcome with
  | ok id => exact (limitable_note _ s).bind fun _ s _ => limitable_list id s
  | error e => exact limitable_report e.message s

theorem limitable_declare (p : Prototype) (s : Session) : Limitable (declare p) s := by
  refine limitable_unit (fun s => ?_) s
  refine (limitable_adopt (·.declare p) s).bind fun outcome s _ => ?_
  cases outcome with
  | ok id => exact (limitable_note _ s).bind fun _ s _ => limitable_list id s
  | error e => exact limitable_report e.message s

theorem limitable_express (d : Definition) (s : Session) : Limitable (express d) s := by
  refine limitable_unit (fun s => ?_) s
  refine (limitable_adopt (·.define d) s).bind fun outcome s _ => ?_
  cases outcome with
  | error e => exact limitable_report e.message s
  | ok id =>
    refine (limitable_list id s).bind fun _ s _ => ?_
    refine (limitable_evaluate id s).bind fun result s _ => ?_
    refine (limitable_remove id s).bind fun _ s _ => ?_
    cases result with
    | ok value => exact (limitable_note _ s).bind fun _ s _ => limitable_write _
    | error e => exact limitable_report e.message s

theorem limitable_finish (failure : Option String) (s : Session) :
    Limitable (finish failure) s := by
  have hm : Limitable (modify fun s => { s with inputFailure := failure } : SessionM Unit) s :=
    limitable_of_eq { s with inputFailure := failure } (fun _ => rfl) rfl (List.prefix_refl _)
  refine hm.bind fun _ s _ => limitable_get_bind (fun _ => rfl) ?_
  cases s.options.watching with
  | false => exact (limitable_pure ()).bind fun _ s _ => limitable_writeIf _ _ s
  | true =>
    cases failure with
    | none => exact (limitable_pure ()).bind fun _ s _ => limitable_writeIf _ _ s
    | some message => exact (limitable_report _ s).bind fun _ s _ => limitable_writeIf _ _ s

theorem limitable_handle (item : Item) (s : Session) : Limitable (handle item) s := by
  cases item with
  | prompt => exact limitable_prompt s
  | malformed e => exact limitable_report e.message s
  | fault e => exact (limitable_countUnit s).bind fun _ s _ => limitable_report e.message s
  | definition d => exact limitable_define d s
  | declaration p => exact limitable_declare p s
  | expression d => exact limitable_express d s
  | finished failure => exact limitable_finish failure s

theorem limitable_deal (work : List (List Notice × Item)) (s : Session) :
    Limitable (deal work) s :=
  limitable_forM work
    (fun w s => (limitable_note w.1 s).bind fun _ s _ => limitable_handle w.2 s) s

theorem limitable_run {σ : Type} [TokenSupply σ] (supply : σ) (s : Session) :
    Limitable (run supply) s := by
  unfold run
  rw [runFrom_eq_deal]
  exact limitable_deal _ s

end Session

end Reckoner
