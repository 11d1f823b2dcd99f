import Reckoner.Proofs.Compiler.Clash
import Reckoner.Proofs.Session.Invariant

/-!
# When listings are faithful

In every state of a session the functions and their parameters have words for names
(`Program.Worded`).  So what is listed of a definition determines its body and what it computes,
exactly if no parameter of the function is named like a temporary (`listsFaithfully_iff`).  A
parameter may have such a name, and then functions that differ can be listed alike
(`listing_clash`).
-/

namespace Reckoner

namespace Program

variable {p q : Program} {id : FuncId} {g : Func} {proto : Prototype} {params : List String}

theorem worded_empty (name : String) : (empty name).Worded := by
  intro id f hf
  simp [empty, func?] at hf

theorem Worded.of_agrees (h : p.Worded) (ha : q.Agrees p) : q.Worded := by
  intro id f hf
  rw [ha.func?] at hf
  exact h id f hf

theorem Worded.of_sets (h : p.Worded) (hs : p.Sets id g q) (hn : IsWord g.name)
    (hg : ∀ x ∈ g.params, IsWord x) : q.Worded := by
  intro i f hf
  rw [hs.func?] at hf
  split at hf
  · cases hf
    exact ⟨hn, hg⟩
  · exact h i f hf

theorem Worded.target (h : p.Worded) (ht : p.Target proto id params q)
    (hp : ∀ x ∈ proto.params, IsWord x) : ∀ x ∈ params, IsWord x := by
  cases ht with
  | declared hl hf hb => exact (h _ _ hf).2
  | fresh => exact hp

end Program

namespace Compiler

open Program

variable {c : Compiler} {q : Program}

theorem Defined.worded (h : c.program.Worded) {d : Definition} {o : Except CompileError FuncId}
    (hd : Defined c d o q) (hn : d.proto.Names IsWord) : q.Worded := by
  cases hd with
  | redefinition => exact h
  | faulty ht he ha => exact h.of_agrees ha
  | placed ht hc hs => exact h.of_sets hs hn.1 (h.target ht hn.2)

theorem Declared.worded (hc : c.program.Consistent) (h : c.program.Worded) {proto : Prototype}
    {o : Except CompileError FuncId} (hd : Declared c proto o q) (hn : proto.Names IsWord) :
    q.Worded := by
  cases hd with
  | kept => exact h
  | refused => exact h
  | added hl => exact h.of_sets ((Target.fresh hl).sets hc) hn.1 hn.2

theorem Ready.worded_step (h : c.Ready) (hw : c.program.Worded) (options : SessionOptions)
    {item : Item} (hi : item.Names IsWord) : (engine.step options c item).2.program.Worded := by
  cases item with
  | definition d => exact (define_defined h.consistent d).1.worded hw hi.1
  | declaration p => exact (declare_declared c p).1.worded h.consistent hw hi
  | expression d => exact hw.of_agrees (h.agrees_evaluate (congrArg Prototype.name hi.1))
  | _ => exact hw

/-- Listings are faithful to definitions under a prototype exactly if no parameter of the function
is named like a temporary. -/
theorem listsFaithfully_iff_of_worded (h : c.program.Consistent) (hw : c.program.Worded)
    {d : Definition} {id : FuncId} (hn : d.proto.name = "" ∨ IsWord d.proto.name)
    (hp : ∀ x ∈ d.proto.params, IsWord x) (ho : (c.define d).outcome = .ok id) :
    c.ListsFaithfully d.proto ↔
      ∀ x ∈ (c.define d).compiler.program.params id, ¬IsTempName x := by
  have hd := (define_defined h d).1
  rw [ho] at hd
  obtain ⟨p, ht⟩ := hd.exists_target
  constructor
  · intro hfaithful x hx htemp
    exact not_listsFaithfully_of_isTempName h ht hx htemp hfaithful
  · exact listsFaithfully_of_target h hw hn ht (hw.target ht hp)

end Compiler

namespace Session

theorem worded_heads (source : Source) (options : SessionOptions) (name : String)
    (cleaning : Bool) (out : Sink) :
    ∀ s ∈ heads (Lexer.ofSource source) (fresh options name cleaning out),
      s.compiler.Ready ∧ s.compiler.program.Worded := by
  have hwords := names_noted_of Lexer.names_isWord source
  have hnames := names_noted source
  exact forall_headsOf (I := fun c => c.Ready ∧ c.program.Worded)
    (fun c o w hw hc => ⟨hc.1.step o (hnames w hw), hc.1.worded_step hc.2 o (hwords w hw)⟩)
    ⟨Compiler.ready_new name cleaning, Program.worded_empty name⟩

/-- In every state of a session, and for every prototype under which a definition is accepted there,
the name of which is a word or empty and the parameters of which are words: that equal listings mean
equal bodies and equal results holds exactly if no parameter of the function is named like a
temporary. -/
theorem listsFaithfully_iff (source : Source) (options : SessionOptions) (name : String)
    (cleaning : Bool) (out : Sink) :
    ∀ s ∈ heads (Lexer.ofSource source) (fresh options name cleaning out), ∀ d id,
      (d.proto.name = "" ∨ IsWord d.proto.name) → (∀ x ∈ d.proto.params, IsWord x) →
      (s.compiler.define d).outcome = .ok id →
      (s.compiler.ListsFaithfully d.proto ↔
        ∀ x ∈ (s.compiler.define d).compiler.program.params id, ¬IsTempName x) := by
  intro s hs d id hn hp ho
  obtain ⟨hready, hworded⟩ := worded_heads source options name cleaning out s hs
  exact Compiler.listsFaithfully_iff_of_worded hready.consistent hworded hn hp ho

theorem mem_headsOf (work : List (List Notice × Item)) (s : Session) : s ∈ headsOf work s := by
  cases work <;> exact List.mem_cons_self

/-- The body calls the function itself, and its constants leave a gap. -/
theorem listsFaithfully_iff_sample :
    let s := fresh {} "test" true .unlimited
    let d : Definition := ⟨⟨"f", ["x", "y"]⟩, .binary '-'
      (.binary '*' (.call "f" [.var "y", .binary '+' (.literal 1) (.literal 2)]) (.var "y"))
      (.var "x")⟩
    s ∈ heads (Lexer.ofSource (.ofText [])) s ∧
      (d.proto.name = "" ∨ IsWord d.proto.name) ∧ (∀ x ∈ d.proto.params, IsWord x) ∧
      (s.compiler.define d).outcome = .ok ⟨0⟩ ∧
      (s.compiler.ListsFaithfully d.proto ↔ ∀ x ∈ ["x", "y"], ¬IsTempName x) := by
  intro s d
  have hm : s ∈ heads (Lexer.ofSource (.ofText [])) s := mem_headsOf _ s
  have hf : IsWord "f" :=
    isWord_of_letters rfl (by decide) (by decide) (by decide) (by decide)
  have hn : d.proto.name = "" ∨ IsWord d.proto.name := .inr hf
  have hp : ∀ x ∈ d.proto.params, IsWord x := by
    refine List.forall_mem_cons.2 ⟨?_, List.forall_mem_singleton.2 ?_⟩
    · exact isWord_of_letters rfl (by decide) (by decide) (by decide) (by decide)
    · exact isWord_of_letters rfl (by decide) (by decide) (by decide) (by decide)
  have ho : (s.compiler.define d).outcome = .ok ⟨0⟩ := by rfl
  exact ⟨hm, hn, hp, ho, listsFaithfully_iff _ {} "test" true .unlimited s hm d ⟨0⟩ hn hp ho⟩

/-- With a parameter `t0`, what is left of its square without it is listed like what is left of it
without its square. -/
theorem listing_clash :
    let s := fresh {} "test" true .unlimited
    let c := s.compiler
    let x : Expr := .var "t0"
    let d : Definition := ⟨⟨"f", ["t0"]⟩, .binary '-' (.binary '*' x x) x⟩
    let d' : Definition := ⟨⟨"f", ["t0"]⟩, .binary '-' x (.binary '*' x x)⟩
    let p := (c.define d).compiler.program
    let p' := (c.define d').compiler.program
    s ∈ heads (Lexer.ofSource (.ofText [])) s ∧
      (c.define d).outcome = .ok ⟨0⟩ ∧ (c.define d').outcome = .ok ⟨0⟩ ∧
      p.funcListing ⟨0⟩ = "define double @f(double %t0) \x7b\nentry:\n" ++
        "  %t0 = fmul double %t0, %t0\n  %t1 = fsub double %t0, %t0\n  ret double %t1\n\x7d\n" ∧
      p'.funcListing ⟨0⟩ = p.funcListing ⟨0⟩ ∧
      p.body? ⟨0⟩ = some [.arith .mul (.param 0) (.param 0), .arith .sub (.temp 0) (.param 0),
        .ret (.temp 1)] ∧
      p'.body? ⟨0⟩ = some [.arith .mul (.param 0) (.param 0), .arith .sub (.param 0) (.temp 0),
        .ret (.temp 1)] ∧
      p.call ⟨0⟩ [2] .unlimited = .ok 2 .unlimited ∧
      p'.call ⟨0⟩ [2] .unlimited = .ok (-2) .unlimited ∧
      ¬c.ListsFaithfully ⟨"f", ["t0"]⟩ := by
  intro s c x d d' p p'
  have ho : (c.define d).outcome = .ok ⟨0⟩ := rfl
  have ho' : (c.define d').outcome = .ok ⟨0⟩ := rfl
  have hb : p.body? ⟨0⟩ = some [.arith .mul (.param 0) (.param 0),
    .arith .sub (.temp 0) (.param 0), .ret (.temp 1)] := rfl
  have hb' : p'.body? ⟨0⟩ = some [.arith .mul (.param 0) (.param 0),
    .arith .sub (.param 0) (.temp 0), .ret (.temp 1)] := rfl
  have hl : p'.funcListing ⟨0⟩ = p.funcListing ⟨0⟩ := by decide +kernel
  refine ⟨mem_headsOf _ s, ho, ho', by decide +kernel, hl, hb, hb', rfl, rfl, fun h => ?_⟩
  obtain ⟨-, ⟨b, b', h₁, h₂, he⟩, -⟩ := h d d' ⟨0⟩ ⟨0⟩ rfl rfl ho ho' hl.symm
  cases hb.symm.trans h₁
  cases hb'.symm.trans h₂
  contradiction

end Session

end Reckoner
