import Reckoner.Proofs.Grammar.Pieces
import Reckoner.Proofs.Session.Run

/-!
# Every result is dealt with once

A session whose output takes everything comes to its end, and what it has dealt with are pieces of
the results of its lexer: all of them, in order, and each result in one piece (`run_accounts`).  A
piece counts for one unit at most and for one error at most; a failure of the input counts for one
error more.
-/

namespace Reckoner

def Item.units : Item → Nat
  | .prompt => 0
  | .malformed _ => 0
  | .finished _ => 0
  | _ => 1

def Item.errors : Item → Nat
  | .prompt => 0
  | .finished failure => if failure.isSome then 1 else 0
  | _ => 1

theorem Item.units_le_one (item : Item) : item.units ≤ 1 := by
  cases item <;> simp [units]

theorem Item.errors_le_one (item : Item) : item.errors ≤ 1 := by
  cases item with
  | finished failure => cases failure <;> simp [errors]
  | _ => simp [errors]

namespace Effect

variable (a b : Effect)

@[simp]
theorem units_append : (a ++ b).units = a.units + b.units := rfl

@[simp]
theorem errors_append : (a ++ b).errors = a.errors + b.errors := rfl

@[simp]
theorem units_error (message : String) : (error message).units = 0 := rfl

@[simp]
theorem errors_error (message : String) : (error message).errors = 1 := rfl

@[simp]
theorem units_outputIf (wanted : Bool) (text : String) : (outputIf wanted text).units = 0 := by
  cases wanted <;> rfl

@[simp]
theorem errors_outputIf (wanted : Bool) (text : String) : (outputIf wanted text).errors = 0 := by
  cases wanted <;> rfl

@[simp]
theorem units_unit (wanted : Bool) (text : String) : (unit wanted text).units = 1 := by
  cases wanted <;> rfl

@[simp]
theorem errors_unit (wanted : Bool) (text : String) : (unit wanted text).errors = 0 := by
  cases wanted <;> rfl

theorem units_ofResult (r : EStateM.Result ExecError Sink Float) : (ofResult r).units = 0 := by
  cases r <;> rfl

theorem errors_ofResult_le (r : EStateM.Result ExecError Sink Float) :
    (ofResult r).errors ≤ 1 := by
  cases r
  · exact Nat.zero_le 1
  · exact Nat.le_refl 1

end Effect

namespace Compiler

variable {options : SessionOptions} {c : Compiler}

theorem units_announce (r : Compiled) : (announce options r).units = 0 := by
  unfold announce
  cases r.outcome <;> simp

theorem errors_announce_le (r : Compiled) : (announce options r).errors ≤ 1 := by
  unfold announce
  cases r.outcome <;> simp

theorem units_effect (item : Item) : (c.effect options item).units = item.units := by
  cases item with
  | prompt =>
    simp only [effect, Engine.step]
    split <;> rfl
  | malformed e => rfl
  | fault e => rfl
  | definition d => simp [effect, units_announce, Item.units]
  | declaration p => simp [effect, units_announce, Item.units]
  | expression d =>
    simp only [effect, Effect.units_append, Effect.units_unit, units_announce]
    split
    · rw [Effect.units_ofResult]
      rfl
    · rfl
  | finished failure =>
    simp only [effect, Engine.step, Effect.units_append, Effect.units_outputIf]
    split <;> rfl

theorem errors_expression_le (d : Definition) :
    (c.effect options (.expression d)).errors ≤ 1 := by
  simp only [effect, Effect.errors_append, Effect.errors_unit, Nat.zero_add]
  cases ho : (c.define d).outcome with
  | error e =>
    rw [evaluate_of_error ho]
    exact errors_announce_le _
  | ok id =>
    have ha : (announce options (c.define d)).errors = 0 := by
      unfold announce
      rw [ho]
      exact Effect.errors_outputIf _ _
    rw [evaluate_of_ok ho, ha, Nat.zero_add]
    exact Effect.errors_ofResult_le _

theorem errors_effect_le (item : Item) : (c.effect options item).errors ≤ item.errors := by
  cases item with
  | prompt =>
    simp only [effect, Engine.step]
    split <;> exact Nat.le_refl 0
  | malformed e => exact Nat.le_refl 1
  | fault e => exact Nat.le_refl 1
  | definition d => simpa [effect, Item.errors] using errors_announce_le _
  | declaration p => simpa [effect, Item.errors] using errors_announce_le _
  | expression d => exact errors_expression_le d
  | finished failure =>
    simp only [effect, Engine.step, Effect.errors_append, Effect.errors_outputIf]
    split
    · exact Nat.le_refl 1
    · exact Nat.zero_le _

theorem units_effects_le (pieces : List Piece) (failure : Option String) :
    (c.effects options (pieces.map Piece.item ++ [.finished failure])).units ≤
      pieces.length := by
  induction pieces generalizing c with
  | nil =>
    rw [List.map_nil, List.nil_append, effects, effects, Effect.units_append, units_effect]
    exact Nat.le_refl 0
  | cons piece pieces ih =>
    rw [List.map_cons, List.cons_append, effects, Effect.units_append, units_effect,
      List.length_cons, Nat.add_comm pieces.length]
    exact Nat.add_le_add piece.item.units_le_one ih

theorem errors_effects_le (pieces : List Piece) (failure : Option String) :
    (c.effects options (pieces.map Piece.item ++ [.finished failure])).errors ≤
      pieces.length + if failure.isSome then 1 else 0 := by
  induction pieces generalizing c with
  | nil =>
    rw [List.map_nil, List.nil_append, effects, effects, Effect.errors_append]
    simpa [Item.errors] using errors_effect_le (.finished failure)
  | cons piece pieces ih =>
    rw [List.map_cons, List.cons_append, effects, Effect.errors_append, List.length_cons,
      Nat.add_comm pieces.length, Nat.add_assoc]
    exact Nat.add_le_add (Nat.le_trans (errors_effect_le _) piece.item.errors_le_one) ih

theorem units_effects_prompt (items : List Item) :
    (c.effects options (.prompt :: items)).units = (c.effects options items).units := by
  rw [effects, Effect.units_append, units_effect]
  exact Nat.zero_add _

theorem errors_effects_prompt (items : List Item) :
    (c.effects options (.prompt :: items)).errors = (c.effects options items).errors := by
  rw [effects, Effect.errors_append, Nat.le_zero.1 (errors_effect_le .prompt)]
  exact Nat.zero_add _

end Compiler

namespace Session

/-- Every session comes to its end, if its output takes everything, and the items that it deals with
stand for pieces of the results of its lexer.  The pieces are not empty, they follow upon each
other, and together they are all results.  Units and errors are counted for pieces, and one more
error if the input has failed. -/
theorem run_accounts (source : Source) (options : SessionOptions) (c : Compiler) :
    ∃ pieces failure s,
      (let p := Parser.start (Lexer.ofSource source);
        ∃ rest, pieces = p.skip.1.map .malformed ++ rest ∧ p.skip.2.Cuts rest) ∧
      pieces.flatMap Piece.results = (Lexer.ofSource source).results ∧
      (∀ piece ∈ pieces, piece.results ≠ []) ∧
      (Reader.start (Lexer.ofSource source)).items =
        .prompt :: (pieces.map Piece.item ++ [.finished failure]) ∧
      run (Lexer.ofSource source) (opened options c) = .ok () s ∧
      s.tally.units ≤ pieces.length ∧
      s.tally.errors ≤ pieces.length + if failure.isSome then 1 else 0 := by
  have hsettled := Parser.settled_skip (.start (Lexer.ofSource source))
  obtain ⟨rest, hcuts, hcovers⟩ := Reader.exists_cuts _ hsettled
  obtain ⟨hresults, hne, failure, hitems⟩ := hcovers.skip
  have hall : (Reader.start (Lexer.ofSource source)).items = .prompt :: _ :=
    (Reader.items_start _).trans (congrArg _ hitems)
  obtain ⟨s, hs, ha⟩ :=
    (does_run_effects (Lexer.ofSource source)).answers (opened options c) rfl rfl rfl
  refine ⟨_, failure, s, ⟨rest, rfl, hcuts⟩, hresults, hne, hall, hs, ?_, ?_⟩
  · rw [ha.units, hall, Compiler.units_effects_prompt]
    exact Nat.le_trans (Nat.le_of_eq (Nat.zero_add _)) (Compiler.units_effects_le _ failure)
  · rw [ha.errors, hall, Compiler.errors_effects_prompt]
    exact Nat.le_trans (Nat.le_of_eq (Nat.zero_add _)) (Compiler.errors_effects_le _ failure)

end Session

end Reckoner
