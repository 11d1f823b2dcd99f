import Reckoner.Proofs.Compiler.History
import Reckoner.Proofs.Program.Lines

/-!
# Definitions that fail

A definition that fails leaves nothing of itself (`Compiler.define_restores`), wherever in the body
the fault is and whatever has been built before it: there are the same functions under the same
numbers and names, with the same bodies, and so the program has the same listing.  Only a number may
have been used up.
-/

namespace Reckoner

namespace Program

variable {p q : Program}

theorem funcText_congr (h : ∀ i, q.func? i = p.func? i) : q.funcText = p.funcText := by
  have hc (id : FuncId) : q.calleeText id = p.calleeText id := by
    rw [calleeText, calleeText, h]
  funext f
  unfold funcText
  split
  · rfl
  · rw [bodyLines_congr hc rfl]

theorem listing_withdrawn (p : Program) (name : String) :
    (p.withdrawn name).listing = p.listing := by
  unfold listing
  rw [funcs_withdrawn, funcText_congr (func?_withdrawn p name)]
  rfl

end Program

namespace Compiler

/-- A definition that fails leaves the functions, the names and the listing as they were, and uses
up one number if its name stood for nothing.  If the name is taken then nothing at all is changed,
a body that was being built included.  Otherwise nothing is being built any more, and it does not
matter which instructions of the body had been built when it was given up. -/
theorem define_restores (name : String) (cleaning : Bool) (ops : List Operation) (d : Definition)
    {e : CompileError}
    (he : (((new name cleaning).performAll ops).define d).outcome = .error e) :
    let c := (new name cleaning).performAll ops
    let q := (c.define d).compiler.program
    (∀ id, q.func? id = c.program.func? id) ∧ q.names = c.program.names ∧
      q.listing = c.program.listing ∧
      q.slots.size = c.program.slots.size +
        (if c.program.lookup d.proto.name = none then 1 else 0) ∧
      ((∃ n, e = .redefinition n) → (c.define d).compiler = c) ∧
      ((∀ n, e ≠ .redefinition n) →
        q.building = none ∧ q.block = [] ∧
          ∀ id params p, c.program.Target d.proto id params p → ∀ half,
            ({ c with program := (p.begin id).append half }.abandon id d.proto
              (c.program.lookup d.proto.name).isSome e).compiler.program = q) := by
  intro c q
  have hd := define_ends (named_performAll (c := new name cleaning) (Program.named_empty name) ops) d
  change Ends c d (c.define d).outcome q at hd
  rw [he] at hd
  generalize hq : q = q' at hd
  cases hd with
  | taken hl hb =>
    refine ⟨fun _ => rfl, rfl, rfl, by simp [c, hl], fun _ => ?_, fun hne => absurd rfl (hne _)⟩
    exact (define_of_hasBody hl hb).2
  | withdrawn ht hlow =>
    refine ⟨Program.func?_withdrawn _ _, rfl, Program.listing_withdrawn _ _,
      Program.size_withdrawn _ _, ?_, fun _ => ⟨rfl, rfl, fun id params p ht half => ?_⟩⟩
    · rintro ⟨n, rfl⟩
      exact absurd (Expr.inBody_of_lower hlow) id
    · rw [← ht.withdrawn_eq half]
      unfold abandon
      cases (c.program.lookup d.proto.name).isSome <;> rfl

/-- A name once stood for a function that was declared again and then removed, so that it stands for
nothing while the first function is still there.  A new function of that name, whose body calls
itself before its fault, goes without a trace. -/
theorem define_restores_shadowed :
    let ops : List Operation := [.program (.declare "f" ["x"]), .program (.declare "f" ["x", "y"]),
      .program (.remove ⟨1⟩), .program (.begin ⟨0⟩), .program (.push .nop)]
    let c := (new "m" true).performAll ops
    let d : Definition := ⟨⟨"f", ["x"]⟩, .binary '+' (.call "f" [.var "x"]) (.var "y")⟩
    (c.define d).outcome = .error (.unknownVariable "y") ∧
      (c.define d).compiler.program.func? ⟨0⟩ = some ⟨"f", ["x"], none⟩ ∧
      (c.define d).compiler.program.names = [] ∧
      (c.define d).compiler.program.slots.size = 3 ∧
      (c.define d).compiler.program.building = none := by
  intro ops c d
  have he : (c.define d).outcome = .error (.unknownVariable "y") := by rfl
  obtain ⟨hf, hn, -, hs, -, hi⟩ := define_restores "m" true ops d he
  exact ⟨he, (hf ⟨0⟩).trans rfl, hn.trans (by decide), hs.trans (by decide), (hi nofun).1⟩

end Compiler

end Reckoner
