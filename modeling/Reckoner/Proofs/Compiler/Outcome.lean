import Reckoner.Proofs.Compiler.Target
import Reckoner.Proofs.Program.History

/-!
# How a definition ends

Wherever names lead to functions of their own, whatever else the program holds, a definition ends in
one of three ways (`Compiler.Ends`).  The name is taken, and nothing happens.  The body has a fault,
and the program is what it was but for a number that may have been used up (`Program.withdrawn`); of
the instructions built so far nothing is left.  Or the code of the body is put in its place.
-/

namespace Reckoner

/-- The error is about something in a body, and not about the function that the body is for. -/
def CompileError.InBody : CompileError → Prop
  | .redefinition _ => False
  | .invalidFunction _ => False
  | _ => True

namespace Expr

variable {p : Program} {scope : Scope} {err : CompileError}

mutual

theorem inBody_of_lower {start : Nat} {e : Expr} (h : e.lower p scope start = .error err) :
    err.InBody := by
  match e with
  | .literal value => cases h
  | .var x =>
    unfold lower at h
    split at h <;> cases h
    trivial
  | .binary op left right =>
    unfold lower at h
    rcases Except.bind_eq_error h with h | ⟨l, -, h⟩
    · exact inBody_of_lower h
    rcases Except.bind_eq_error h with h | ⟨r, -, h⟩
    · exact inBody_of_lower h
    · unfold lowerBinary at h
      simp only at h
      split at h
      · cases h
      · split at h <;> cases h
        trivial
  | .call callee args =>
    unfold lower at h
    split at h
    · cases h
      trivial
    · split at h
      · cases h
        trivial
      · rcases Except.bind_eq_error h with h | ⟨a, -, h⟩
        · exact inBody_of_lowerArgs h
        · cases h

theorem inBody_of_lowerArgs {start : Nat} {es : List Expr}
    (h : lowerArgs p scope start es = .error err) : err.InBody := by
  match es with
  | [] =>
    unfold lowerArgs at h
    cases h
  | e :: es =>
    unfold lowerArgs at h
    rcases Except.bind_eq_error h with h | ⟨head, -, h⟩
    · exact inBody_of_lower h
    rcases Except.bind_eq_error h with h | ⟨tail, -, h⟩
    · exact inBody_of_lowerArgs h
    · cases h

end

end Expr

namespace Program

variable {p q : Program} {name : String} {id : FuncId} {proto : Prototype} {params : List String}

/-- The program after a body for the name has been given up: nothing is being built any more, and if
the name stood for nothing then a number has been used up. -/
def withdrawn (p : Program) (name : String) : Program :=
  { p with
    slots := if (p.lookup name).isSome then p.slots else p.slots.push none
    building := none
    block := [] }

@[simp]
theorem lookup_withdrawn (p : Program) (name m : String) :
    (p.withdrawn name).lookup m = p.lookup m := rfl

theorem idle_withdrawn (p : Program) (name : String) : (p.withdrawn name).Idle := ⟨rfl, rfl⟩

@[simp]
theorem func?_withdrawn (p : Program) (name : String) (i : FuncId) :
    (p.withdrawn name).func? i = p.func? i := by
  unfold withdrawn
  cases (p.lookup name).isSome with
  | true => rfl
  | false =>
    simp only [func?, Bool.false_eq_true, if_false, Array.getElem?_push]
    split
    · rename_i hi
      rw [hi, Array.getElem?_eq_none (Nat.le_refl _)]
      rfl
    · rfl

theorem size_withdrawn (p : Program) (name : String) :
    (p.withdrawn name).slots.size =
      p.slots.size + if p.lookup name = none then 1 else 0 := by
  unfold withdrawn
  cases p.lookup name with
  | none => exact Array.size_push _
  | some id => rfl

theorem funcs_withdrawn (p : Program) (name : String) : (p.withdrawn name).funcs = p.funcs := by
  unfold withdrawn funcs
  cases (p.lookup name).isSome with
  | true => rfl
  | false => simp [List.zipIdx_append]

/-- A declaration whose body is given up, whatever was built of it. -/
theorem clear_begin_eq_withdrawn {f : Func} (hl : p.lookup name = some id)
    (hf : p.func? id = some f) (hb : f.body = none) (half : Block) :
    ((p.begin id).append half).clear id = p.withdrawn name := by
  have hslots : p.slots.modify id.index (fun slot => slot.map ({ · with body := none })) =
      p.slots := by
    apply Array.ext_getElem?
    intro i
    rw [Array.getElem?_modify]
    split
    · rename_i hi
      rw [← hi, func?_eq_some_iff.1 hf, ← hb]
      rfl
    · rfl
  simp [clear, begin, append, setBody, withdrawn, hl, hslots]

/-- A function that was declared for its body alone goes with it, whatever was built of it. -/
theorem remove_begin_eq_withdrawn (hl : p.lookup name = none) (params : List String)
    (half : Block) :
    (((p.declare name params).2.begin ⟨p.slots.size⟩).append half).remove ⟨p.slots.size⟩ =
      p.withdrawn name := by
  have hf : (((p.declare name params).2.begin ⟨p.slots.size⟩).append half).func? ⟨p.slots.size⟩ =
      some ⟨name, params, none⟩ := (func?_declare p name params _).trans (if_pos rfl)
  have hn : (((p.declare name params).2.begin ⟨p.slots.size⟩).append half).lookup name =
      some ⟨p.slots.size⟩ := (lookup_declare p name params name).trans (if_pos rfl)
  have hfree : ∀ a b, (a, b) ∈ p.names → a ≠ name := by
    rintro a b hm rfl
    have hne := List.lookup_eq_none_iff.1 hl (a, b) hm
    simp at hne
  have hslots : ((p.slots.push (some ⟨name, params, none⟩)).modify p.slots.size
      fun slot => slot.map ({ · with body := none })).modify p.slots.size (fun _ => none) =
      p.slots.push none := by
    apply Array.ext_getElem?
    intro i
    simp only [Array.getElem?_modify, Array.getElem?_push]
    by_cases hi : i = p.slots.size
    · simp [hi]
    · simp [hi, Ne.symm hi]
  unfold remove
  rw [hf]
  simp only [hn, if_true]
  simpa [clear, begin, append, setBody, withdrawn, declare, hl, hslots] using hfree

theorem Consistent.named (h : p.Consistent) : p.Named :=
  fun name id => (h.lookup_iff name id).1

theorem Target.named (h : p.Named) (ht : p.Target proto id params q) : q.Named := by
  cases ht with
  | declared => exact h
  | fresh => exact h.declare _ _

theorem Target.func?_eq (h : p.Named) (ht : p.Target proto id params q) :
    q.func? id = some ⟨proto.name, params, none⟩ := by
  cases ht with
  | declared hl hf hb =>
    obtain ⟨f, hf', hn⟩ := h _ _ hl
    cases hf.symm.trans hf'
    rw [hf, ← hn, ← hb]
  | fresh => rw [func?_declare, if_pos rfl]

theorem Target.size_withdrawn (ht : p.Target proto id params q) :
    (p.withdrawn proto.name).slots.size = q.slots.size := by
  rw [Program.size_withdrawn]
  cases ht with
  | declared hl =>
    rw [hl]
    rfl
  | fresh hl =>
    rw [hl]
    exact (Array.size_push _).symm

theorem Target.withdrawn_eq (ht : p.Target proto id params q) (half : Block) :
    (if (p.lookup proto.name).isSome then ((q.begin id).append half).clear id
      else ((q.begin id).append half).remove id) = p.withdrawn proto.name := by
  cases ht with
  | declared hl hf hb =>
    rw [hl]
    exact clear_begin_eq_withdrawn hl hf hb half
  | fresh hl =>
    rw [hl]
    exact remove_begin_eq_withdrawn hl _ half

end Program

namespace Compiler

variable {c : Compiler} {d : Definition} {id : FuncId} {params : List String} {p q : Program}

inductive Ends (c : Compiler) (d : Definition) : Except CompileError FuncId → Program → Prop
  | taken {id : FuncId} (hl : c.program.lookup d.proto.name = some id)
    (hb : c.program.hasBody id = true) : Ends c d (.error (.redefinition d.proto.name)) c.program
  | withdrawn {id : FuncId} {params : List String} {p : Program} {e : CompileError}
    (ht : c.program.Target d.proto id params p)
    (he : d.body.lower p (Scope.ofParams params) 0 = .error e) :
    Ends c d (.error e) (c.program.withdrawn d.proto.name)
  | placed {id : FuncId} {params : List String} {p : Program} {code : Code}
    (ht : c.program.Target d.proto id params p)
    (hc : d.body.lower p (Scope.ofParams params) 0 = .ok code) :
    Ends c d (.ok id) (c.install p id code)

theorem define_of_hasBody (hl : c.program.lookup d.proto.name = some id)
    (hb : c.program.hasBody id = true) :
    (c.define d).outcome = .error (.redefinition d.proto.name) ∧ (c.define d).compiler = c := by
  unfold define
  simp only [hl, hb, if_true, and_self]

theorem define_eq_build (ht : c.program.Target d.proto id params p) :
    (c.define d).outcome = ({ c with program := p }.build id d
        (c.program.lookup d.proto.name).isSome).outcome ∧
      (c.define d).compiler = ({ c with program := p }.build id d
        (c.program.lookup d.proto.name).isSome).compiler := by
  unfold define
  cases ht with
  | declared hl hf hb =>
    rw [hl]
    simp only [Program.hasBody, Program.body?_of_func? hf, hb]
    exact ⟨rfl, rfl⟩
  | fresh hl =>
    rw [hl]
    exact ⟨rfl, rfl⟩

theorem ends_of_target (h : c.program.Named) (ht : c.program.Target d.proto id params p) :
    Ends c d (c.define d).outcome (c.define d).compiler.program := by
  have hf := ht.func?_eq h
  obtain ⟨ho, hc⟩ := define_eq_build ht
  rw [ho, hc]
  cases hlow : d.body.lower p (Scope.ofParams params) 0 with
  | error e =>
    obtain ⟨hbo, hbp⟩ := build_of_error (c := { c with program := p })
      (c.program.lookup d.proto.name).isSome (Program.params_of_func? hf) hlow
    rw [hbo, hbp]
    have hw := ht.withdrawn_eq []
    exact hw ▸ .withdrawn ht hlow
  | ok code =>
    obtain ⟨hbo, hbp⟩ := build_of_lower (c := { c with program := p })
      (c.program.lookup d.proto.name).isSome (ht.named h).namesLive hf hlow
    rw [hbo, hbp]
    exact .placed ht hlow

theorem define_ends (h : c.program.Named) (d : Definition) :
    Ends c d (c.define d).outcome (c.define d).compiler.program := by
  cases hl : c.program.lookup d.proto.name with
  | none => exact ends_of_target h (.fresh hl)
  | some id =>
    cases hb : c.program.hasBody id with
    | true =>
      obtain ⟨ho, hc⟩ := define_of_hasBody hl hb
      rw [ho, hc]
      exact .taken hl hb
    | false =>
      obtain ⟨f, hf, -⟩ := h d.proto.name id hl
      rw [Program.hasBody, Program.body?_of_func? hf] at hb
      exact ends_of_target h (.declared hl hf (by simpa using hb))

section Inversion

variable {o : Except CompileError FuncId}

theorem Ends.of_code (hd : Ends c d o q) (ht : c.program.Target d.proto id params p) {code : Code}
    (hc : d.body.lower p (Scope.ofParams params) 0 = .ok code) :
    o = .ok id ∧ q = c.install p id code := by
  cases hd with
  | taken hl hb =>
    rw [ht.hasBody_eq_false hl] at hb
    contradiction
  | withdrawn ht' he =>
    obtain ⟨rfl, rfl, rfl⟩ := ht.unique ht'
    cases hc.symm.trans he
  | placed ht' hc' =>
    obtain ⟨rfl, rfl, rfl⟩ := ht.unique ht'
    cases hc.symm.trans hc'
    exact ⟨rfl, rfl⟩

end Inversion

end Compiler

end Reckoner
