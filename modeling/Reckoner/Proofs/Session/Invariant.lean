import Reckoner.Proofs.Compiler.Definition
import Reckoner.Proofs.Session.Run

/-!
# What holds between two items

Before every item and at the end of a session its program is settled: names and functions belong
together, no function is without a name, nothing is being built, and every body is well formed
(`settled_heads`).  The function that an expression is compiled to is there only while the
expression is dealt with.  As a settled program stays consistent when the function is added to it,
no evaluation ever meets a function that is not there or a body without a return.
-/

namespace Reckoner

/-- Names and functions belong together, and nothing is left over from an item. -/
structure Program.Settled (p : Program) : Prop where
  lookup_iff : ∀ name id, p.lookup name = some id ↔ ∃ f, p.func? id = some f ∧ f.name = name
  named : ∀ id f, p.func? id = some f → f.name ≠ ""
  index_lt : ∀ id f, p.func? id = some f → id.index < p.slots.size
  building : p.building = none
  block : p.block = []
  verified : ∀ id f, p.func? id = some f → f.body ≠ none → p.verify id = true

namespace Compiler

variable {c : Compiler} {d : Definition}

structure Ready (c : Compiler) : Prop where
  consistent : c.program.Consistent
  lookup_empty : c.program.lookup "" = none

theorem ready_new (name : String) (cleaning : Bool) : (new name cleaning).Ready :=
  ⟨Program.consistent_empty name, rfl⟩

theorem Ready.settled (h : c.Ready) : c.program.Settled where
  lookup_iff := h.consistent.lookup_iff
  named id f hf hn := by
    have hl := (h.consistent.lookup_iff "" id).2 ⟨f, hf, hn⟩
    rw [h.lookup_empty] at hl
    contradiction
  index_lt id f hf := Program.index_lt_of_func? hf
  building := h.consistent.idle.1
  block := h.consistent.idle.2
  verified id f hf hb := by
    obtain ⟨b, hb⟩ := Option.ne_none_iff_exists'.1 hb
    exact Program.verify_eq_true_iff.2 ⟨f, b, hf, hb, h.consistent.accepts id f b hf hb⟩

theorem Ready.define (h : c.Ready) (hn : d.proto.name ≠ "") : (c.define d).compiler.Ready := by
  obtain ⟨hd, -⟩ := define_defined h.consistent d
  refine ⟨hd.consistent h.consistent, ?_⟩
  rw [hd.lookup_eq hn.symm, h.lookup_empty]

theorem Ready.declare (h : c.Ready) {proto : Prototype} (hn : proto.name ≠ "") :
    (c.declare proto).compiler.Ready := by
  obtain ⟨hd, -⟩ := declare_declared c proto
  refine ⟨hd.consistent h.consistent, ?_⟩
  rw [hd.lookup_eq hn.symm, h.lookup_empty]

/-- An expression leaves the functions and their names as they were. -/
theorem Ready.agrees_evaluate (h : c.Ready) (hn : d.proto.name = "") :
    (engine.evaluate c d).2.program.Agrees c.program := by
  obtain ⟨hd, -⟩ := define_defined h.consistent d
  cases ho : (c.define d).outcome with
  | error e =>
    rw [ho] at hd
    rw [evaluate_of_error ho]
    exact hd.agrees_of_error
  | ok id =>
    rw [ho] at hd
    rw [evaluate_of_ok ho]
    exact hd.agrees_remove (by rw [hn, h.lookup_empty])

theorem Ready.idle_evaluate (h : c.Ready) (d : Definition) :
    (engine.evaluate c d).2.program.Idle := by
  have hi := ((define_defined h.consistent d).1.consistent h.consistent).idle
  cases ho : (c.define d).outcome with
  | error e =>
    rw [evaluate_of_error ho]
    exact hi
  | ok id =>
    rw [evaluate_of_ok ho]
    exact Program.idle_remove hi id

/-- An expression leaves nothing behind, whether it could be compiled or not. -/
theorem Ready.evaluate (h : c.Ready) (hn : d.proto.name = "") : (engine.evaluate c d).2.Ready := by
  have ha := h.agrees_evaluate hn
  exact ⟨h.consistent.of_agrees ha (h.idle_evaluate d), (ha.lookup "").trans h.lookup_empty⟩

theorem Ready.step (h : c.Ready) (options : SessionOptions) {item : Item}
    (hi : item.Names (· ≠ "")) : (engine.step options c item).2.Ready := by
  cases item with
  | definition d => exact h.define hi.1.1
  | declaration p => exact h.declare hi.1
  | expression d => exact h.evaluate (congrArg Prototype.name hi.1)
  | _ => exact h

end Compiler

theorem Lexer.names_ne_empty : TokenSupply.Names Lexer (· ≠ "") :=
  fun l t ht name hn => (names_isWord l t ht name hn).ne_empty

namespace Session

/-- The evaluations that an item leads to: an expression that can be compiled is evaluated. -/
def appraised (s : Session) : Item → List (Except ExecError Float)
  | .expression d =>
    match adopt (·.define d) s with
    | .ok (.ok id) s' =>
      match evaluate id s' with
      | .ok result _ => [result]
      | .error _ _ => []
    | _ => []
  | _ => []

def evaluationsOf : List (List Notice × Item) → Session → List (Except ExecError Float)
  | [], _ => []
  | w :: work, s =>
    s.appraised w.2 ++
      match step w.1 w.2 s with
      | .ok _ s' => evaluationsOf work s'
      | .error _ _ => []

def evaluations {σ : Type} [TokenSupply σ] (supply : σ) (s : Session) :
    List (Except ExecError Float) :=
  evaluationsOf ((Reader.start ⟨supply, #[]⟩).noted 0) s

theorem appraised_expression (s : Session) (d : Definition) :
    s.appraised (.expression d) =
      match (Compiler.engine.evaluate s.compiler d).1 with
      | .error _ => []
      | .ok (.ok value _) => [.ok value]
      | .ok (.error e _) => [.error e] := by
  unfold appraised adopt evaluate
  simp only
  cases ho : (s.compiler.define d).outcome with
  | error e =>
    rw [Compiler.evaluate_of_error ho]
  | ok id =>
    rw [Compiler.evaluate_of_ok ho]
    simp only
    cases (s.compiler.define d).compiler.program.call id [] .unlimited <;> rfl

theorem harmless_of_mem_appraised {s : Session} (h : s.compiler.program.Consistent) {item : Item}
    {e : ExecError} (he : .error e ∈ s.appraised item) : e.Harmless := by
  cases item with
  | expression d =>
    obtain ⟨hd, -⟩ := Compiler.define_defined h d
    rw [appraised_expression] at he
    cases ho : (s.compiler.define d).outcome with
    | error e' =>
      rw [Compiler.evaluate_of_error ho] at he
      contradiction
    | ok id =>
      rw [ho] at hd
      obtain ⟨f, hf⟩ := hd.exists_func?
      have hsafe := (hd.consistent h).sound.safe_callWithin Program.maxDepth hf [] .unlimited
      rw [Compiler.evaluate_of_ok ho] at he
      cases hr : (s.compiler.define d).compiler.program.call id [] .unlimited with
      | ok value sink =>
        rw [hr] at he
        simp at he
      | error e' sink =>
        rw [hr] at he
        cases List.mem_singleton.1 he
        exact hsafe.2 e sink hr
  | _ => contradiction

theorem harmless_of_mem_evaluationsOf {work : List (List Notice × Item)}
    (hw : ∀ w ∈ work, w.2.Names (· ≠ "")) {s : Session} (h : s.compiler.Ready)
    {e : ExecError} (he : .error e ∈ evaluationsOf work s) : e.Harmless := by
  induction work generalizing s with
  | nil => contradiction
  | cons w work ih =>
    rcases List.mem_append.1 he with he | he
    · exact harmless_of_mem_appraised h.consistent he
    · cases hs : step w.1 w.2 s with
      | error e' s' =>
        rw [hs] at he
        contradiction
      | ok a s' =>
        rw [hs] at he
        obtain ⟨-, -, hc⟩ := (does_step w.1 w.2).leaves s a s' rfl rfl hs
        have hr : s'.compiler.Ready := by
          rw [hc]
          exact h.step s.options (hw w List.mem_cons_self)
        exact ih (fun v hv => hw v (List.mem_cons_of_mem _ hv)) hr he

theorem names_noted_of {P : String → Prop} (h : TokenSupply.Names Lexer P) (source : Source) :
    ∀ w ∈ (Reader.start (Traced.mk (Lexer.ofSource source) #[])).noted 0, w.2.Names P := by
  intro w hw
  have hm : w.2 ∈ (Reader.start (Lexer.ofSource source)).items := by
    rw [← Reader.items_traced _ #[], ← Reader.map_snd_noted 0]
    exact List.mem_map_of_mem hw
  exact Reader.names_items_start h _ w.2 hm

theorem names_noted (source : Source) :
    ∀ w ∈ (Reader.start (Traced.mk (Lexer.ofSource source) #[])).noted 0,
      w.2.Names (· ≠ "") :=
  names_noted_of Lexer.names_ne_empty source

/-- Before every item and at the end of every session the program is settled, and no evaluation of
the session meets a function that is not there or a body without a return. -/
theorem settled_heads (source : Source) (options : SessionOptions) (name : String)
    (cleaning : Bool) (out : Sink) :
    (∀ s ∈ heads (Lexer.ofSource source) (fresh options name cleaning out),
      s.compiler.program.Settled) ∧
    ∀ r ∈ evaluations (Lexer.ofSource source) (fresh options name cleaning out),
      r ≠ .error .missingFunction ∧ ∀ f, r ≠ .error (.missingReturn f) := by
  have hnames := names_noted source
  constructor
  · intro s hs
    have hr : s.compiler.Ready :=
      forall_headsOf (fun c o w hw hc => hc.step o (hnames w hw))
        (Compiler.ready_new name cleaning) s hs
    exact hr.settled
  · intro r hr
    constructor
    · rintro rfl
      exact (harmless_of_mem_evaluationsOf hnames (Compiler.ready_new name cleaning) hr).1 rfl
    · rintro f rfl
      exact (harmless_of_mem_evaluationsOf hnames (Compiler.ready_new name cleaning) hr).2 f rfl

end Session

end Reckoner
