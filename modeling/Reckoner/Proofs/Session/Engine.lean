import Reckoner.Proofs.Lowering.Acceptance
import Reckoner.Session

/-!
# Engines

Dealing with an item has an effect, which is what is written and counted, and leaves something for
the items after it.  Both are said here without a session: an `Engine` deals with definitions,
declarations and expressions, and `Engine.step` makes an effect of what comes out.  One engine
follows another if units end alike in both; then their runs have the same effect
(`Follows.run`).
-/

namespace Reckoner

/-- What is written, to the output and beside it, and how many units and errors are counted. -/
structure Effect where
  out : List UInt8 := []
  err : List UInt8 := []
  units : Nat := 0
  errors : Nat := 0

namespace Effect

def append (a b : Effect) : Effect :=
  ⟨a.out ++ b.out, a.err ++ b.err, a.units + b.units, a.errors + b.errors⟩

instance : Append Effect := ⟨append⟩

@[simp]
theorem empty_append (e : Effect) : ({} : Effect) ++ e = e := by
  change append {} e = e
  simp [append]

@[simp]
theorem append_empty (e : Effect) : e ++ ({} : Effect) = e := by
  change append e {} = e
  simp [append]

theorem append_assoc (a b c : Effect) : a ++ b ++ c = a ++ (b ++ c) := by
  change append (append a b) c = append a (append b c)
  simp [append, Nat.add_assoc]

def output (text : String) : Effect := { out := (utf8 text).toList }

def aside (bytes : Array UInt8) : Effect := { err := bytes.toList }

def error (message : String) : Effect :=
  { err := (utf8 ("error: " ++ message ++ "\n")).toList, errors := 1 }

def counted : Effect := { units := 1 }

def outputIf (wanted : Bool) (text : String) : Effect :=
  if wanted then output text else {}

def unit (wanted : Bool) (text : String) : Effect :=
  counted ++ outputIf wanted text

def ofError : Option CompileError → Effect
  | some e => error e.message
  | none => {}

/-- The end of an expression that could be compiled: what was written by the way, then the
value or the error. -/
def ofResult : EStateM.Result ExecError Sink Float → Effect
  | .ok value sink =>
    aside sink.bytes ++ output ("Evaluated to " ++ Decimal.Layout.plain.text value ++ "\n")
  | .error e sink => aside sink.bytes ++ error e.message

end Effect

/-- What deals with units: it says how they end, and goes over to another state. -/
structure Engine (κ : Type) where
  define : κ → Definition → Option CompileError × κ
  declare : κ → Prototype → Option CompileError × κ
  evaluate : κ → Definition → Except CompileError (EStateM.Result ExecError Sink Float) × κ

namespace Engine

variable {κ : Type}

def step (m : Engine κ) (options : SessionOptions) (k : κ) : Item → Effect × κ
  | .prompt => (if options.prompting then .aside (utf8 "ready> ") else {}, k)
  | .malformed e => (.error e.message, k)
  | .fault e => (.counted ++ .error e.message, k)
  | .definition d =>
    let (e, k') := m.define k d
    (.unit options.units (d.text ++ "\n") ++ .ofError e, k')
  | .declaration p =>
    let (e, k') := m.declare k p
    (.unit options.units ("extern " ++ p.text ++ "\n") ++ .ofError e, k')
  | .expression d =>
    let (r, k') := m.evaluate k d
    (.unit options.units (d.text ++ "\n") ++
      match r with
      | .error e => .ofError (some e)
      | .ok result => .ofResult result, k')
  | .finished failure =>
    (match options.watching, failure with
      | true, some message => .error ("failed to read input: " ++ message)
      | _, _ => {}, k)

def run (m : Engine κ) (options : SessionOptions) (k : κ) : List Item → Effect × κ
  | [] => ({}, k)
  | item :: items =>
    let (effect, k') := m.step options k item
    let (effects, k'') := m.run options k' items
    (effect ++ effects, k'')

theorem run_append (m : Engine κ) (options : SessionOptions) (k : κ) (a b : List Item) :
    m.run options k (a ++ b) =
      ((m.run options k a).1 ++ (m.run options (m.run options k a).2 b).1,
        (m.run options (m.run options k a).2 b).2) := by
  induction a generalizing k with
  | nil => rw [List.nil_append, run, Effect.empty_append]
  | cons item a ih =>
    rw [List.cons_append, run, run]
    simp only [ih, Effect.append_assoc]

/-- From related states units end alike, and the states after them are related; `P` holds of the
items dealt with. -/
structure Follows {κ κ' : Type} (m : Engine κ) (m' : Engine κ') (R : κ → κ' → Prop)
    (P : Item → Prop) : Prop where
  define : ∀ k k' d, P (.definition d) → R k k' →
    (m.define k d).1 = (m'.define k' d).1 ∧ R (m.define k d).2 (m'.define k' d).2
  declare : ∀ k k' p, P (.declaration p) → R k k' →
    (m.declare k p).1 = (m'.declare k' p).1 ∧ R (m.declare k p).2 (m'.declare k' p).2
  evaluate : ∀ k k' d, P (.expression d) → R k k' →
    (m.evaluate k d).1 = (m'.evaluate k' d).1 ∧ R (m.evaluate k d).2 (m'.evaluate k' d).2

section Follows

variable {κ κ' : Type} {m : Engine κ} {m' : Engine κ'} {R : κ → κ' → Prop} {P : Item → Prop}
  {k : κ} {k' : κ'}

theorem Follows.step (h : m.Follows m' R P) (options : SessionOptions) {item : Item} (hi : P item)
    (hr : R k k') :
    (m.step options k item).1 = (m'.step options k' item).1 ∧
      R (m.step options k item).2 (m'.step options k' item).2 := by
  cases item with
  | definition d =>
    obtain ⟨h₁, h₂⟩ := h.define k k' d hi hr
    exact ⟨by simp only [Engine.step, h₁], h₂⟩
  | declaration p =>
    obtain ⟨h₁, h₂⟩ := h.declare k k' p hi hr
    exact ⟨by simp only [Engine.step, h₁], h₂⟩
  | expression d =>
    obtain ⟨h₁, h₂⟩ := h.evaluate k k' d hi hr
    exact ⟨by simp only [Engine.step, h₁], h₂⟩
  | _ => exact ⟨rfl, hr⟩

theorem Follows.run (h : m.Follows m' R P) (options : SessionOptions) {items : List Item}
    (hi : ∀ item ∈ items, P item) (hr : R k k') :
    (m.run options k items).1 = (m'.run options k' items).1 ∧
      R (m.run options k items).2 (m'.run options k' items).2 := by
  induction items generalizing k k' with
  | nil => exact ⟨rfl, hr⟩
  | cons item items ih =>
    obtain ⟨h₁, h₂⟩ := h.step options (hi item List.mem_cons_self) hr
    obtain ⟨h₃, h₄⟩ := ih (fun i hm => hi i (List.mem_cons_of_mem _ hm)) h₂
    refine ⟨?_, h₄⟩
    simp only [Engine.run, h₁, h₃]

end Follows

end Engine

/-- The compiler as an engine.  An expression is defined, called and removed again. -/
def Compiler.engine : Engine Compiler where
  define c d := (Except.error? (c.define d).outcome, (c.define d).compiler)
  declare c p := (Except.error? (c.declare p).outcome, (c.declare p).compiler)
  evaluate c d :=
    let r := c.define d
    match r.outcome with
    | .error e => (.error e, r.compiler)
    | .ok id =>
      (.ok (r.compiler.program.call id [] .unlimited),
        { r.compiler with program := r.compiler.program.remove id })

namespace Compiler

variable {c : Compiler} {d : Definition}

theorem evaluate_of_error {e : CompileError} (h : (c.define d).outcome = .error e) :
    engine.evaluate c d = (.error e, (c.define d).compiler) := by
  unfold engine
  simp only [h]

theorem evaluate_of_ok {id : FuncId} (h : (c.define d).outcome = .ok id) :
    engine.evaluate c d =
      (.ok ((c.define d).compiler.program.call id [] .unlimited),
        { (c.define d).compiler with program := (c.define d).compiler.program.remove id }) := by
  unfold engine
  simp only [h]

end Compiler

end Reckoner
