import Reckoner.Proofs.Compiler.Relabel
import Reckoner.Proofs.Session.Invariant

/-!
# Units that leave no trace

An expression is compiled, evaluated and removed again, and a definition or declaration that fails
is given up.  All that such a unit leaves behind is that it may have used up the number of a
function.  `Compiler.Mirrors` relates compilers that differ in the numbers of their functions only:
every item has the same effect with both, and they mirror each other again.  So a run from which
such units are deleted has the same effects unit by unit, and ends with the same listing
(`runs_of_thins`).
-/

namespace Reckoner

namespace Compiler

variable {ρ : FuncId → FuncId} {c c' : Compiler} {options : SessionOptions} {item : Item}

/-- The compilers differ in nothing but the numbers of functions. -/
structure Mirrors (c c' : Compiler) : Prop where
  ready : c.Ready
  ready' : c'.Ready
  cleaning : c'.cleaning = c.cleaning
  name : c'.program.name = c.program.name
  relabels : ∃ ρ, c.program.Relabels ρ c'.program

theorem Ready.mirrors (h : c.Ready) : c.Mirrors c :=
  ⟨h, h, rfl, rfl, id, .refl _⟩

theorem Mirrors.define (h : c.Mirrors c') (d : Definition) :
    ∃ ρ, (c.define d).compiler.program.Relabels ρ (c'.define d).compiler.program ∧
      (c'.define d).outcome = (c.define d).outcome.map ρ := by
  obtain ⟨ρ, hρ⟩ := h.relabels
  have hd := (define_defined h.ready.consistent d).1
  have hd' := (define_defined h.ready'.consistent d).1
  exact hd.relabels h.ready.consistent h.ready'.consistent h.cleaning hρ hd'

theorem Mirrors.declare (h : c.Mirrors c') (proto : Prototype) :
    ∃ ρ, (c.declare proto).compiler.program.Relabels ρ (c'.declare proto).compiler.program ∧
      (c'.declare proto).outcome = (c.declare proto).outcome.map ρ := by
  obtain ⟨ρ, hρ⟩ := h.relabels
  exact (declare_declared c proto).1.relabels h.ready.consistent hρ (declare_declared c' proto).1

theorem announce_eq {r r' : Compiled} (h : r.compiler.program.Relabels ρ r'.compiler.program)
    (hs : r.compiler.program.Sound) (ho : r'.outcome = r.outcome.map ρ)
    (hf : ∀ id, r.outcome = .ok id → ∃ f, r.compiler.program.func? id = some f) :
    announce options r' = announce options r := by
  unfold announce
  rw [ho]
  cases hr : r.outcome with
  | error e => rfl
  | ok id =>
    obtain ⟨f, hf⟩ := hf id hr
    simp only [Except.map, h.funcListing_eq hs hf]

theorem Mirrors.announce_define (h : c.Mirrors c') (d : Definition) :
    announce options (c'.define d) = announce options (c.define d) := by
  obtain ⟨ρ, hρ, ho⟩ := h.define d
  have hd := (define_defined h.ready.consistent d).1
  refine announce_eq hρ (hd.consistent h.ready.consistent).sound ho fun id hid => ?_
  rw [hid] at hd
  exact hd.exists_func?

theorem Mirrors.announce_declare (h : c.Mirrors c') (proto : Prototype) :
    announce options (c'.declare proto) = announce options (c.declare proto) := by
  obtain ⟨ρ, hρ, ho⟩ := h.declare proto
  have hd := (declare_declared c proto).1
  refine announce_eq hρ (hd.consistent h.ready.consistent).sound ho fun id hid => ?_
  rw [hid] at hd
  exact hd.exists_func? h.ready.consistent

theorem Mirrors.evaluate (h : c.Mirrors c') (d : Definition) :
    (engine.evaluate c' d).1 = (engine.evaluate c d).1 := by
  obtain ⟨ρ, hρ, ho⟩ := h.define d
  have hd := (define_defined h.ready.consistent d).1
  cases he : (c.define d).outcome with
  | error e =>
    rw [he] at ho
    rw [evaluate_of_error he, evaluate_of_error ho]
  | ok id =>
    rw [he] at ho hd
    obtain ⟨f, hf⟩ := hd.exists_func?
    have hcall := hρ.callWithin_eq (hd.consistent h.ready.consistent).sound Program.maxDepth hf
    rw [evaluate_of_ok he, evaluate_of_ok ho]
    simp only [Program.call, hcall]

theorem Mirrors.effect_eq (h : c.Mirrors c') (item : Item) :
    c'.effect options item = c.effect options item := by
  cases item with
  | definition d => rw [effect, effect, h.announce_define]
  | declaration p => rw [effect, effect, h.announce_declare]
  | expression d => rw [effect, effect, h.announce_define, h.evaluate]
  | finished failure =>
    obtain ⟨ρ, hρ⟩ := h.relabels
    rw [effect, effect, hρ.listing_eq h.ready.consistent.sound h.name]
    rfl
  | _ => rfl

/-- A unit that leaves nothing behind: an expression, or one that is not well formed or cannot be
compiled. -/
def Passes (c : Compiler) : Item → Prop
  | .fault _ => True
  | .definition d => ∃ e, (c.define d).outcome = .error e
  | .declaration p => ∃ e, (c.declare p).outcome = .error e
  | .expression _ => True
  | _ => False

theorem name_step (c : Compiler) (options : SessionOptions) (item : Item) :
    (engine.step options c item).2.program.name = c.program.name := by
  cases item with
  | definition d => exact name_define c d
  | declaration p => exact name_declare c p
  | expression d =>
    change (engine.evaluate c d).2.program.name = _
    cases ho : (c.define d).outcome with
    | error e =>
      rw [evaluate_of_error ho]
      exact name_define c d
    | ok id =>
      rw [evaluate_of_ok ho]
      exact (Program.name_remove _ id).trans (name_define c d)
  | _ => rfl

theorem cleaning_step (h : c.Ready) (options : SessionOptions) (item : Item) :
    (engine.step options c item).2.cleaning = c.cleaning := by
  cases item with
  | definition d => exact (define_defined h.consistent d).2
  | declaration p => exact (declare_declared c p).2
  | expression d =>
    have hd := (define_defined h.consistent d).2
    change (engine.evaluate c d).2.cleaning = _
    cases ho : (c.define d).outcome with
    | error e => rwa [evaluate_of_error ho]
    | ok id => rwa [evaluate_of_ok ho]
  | _ => rfl

theorem Passes.agrees (h : c.Ready) (hi : item.Names (· ≠ "")) (hp : c.Passes item) :
    (engine.step options c item).2.program.Agrees c.program := by
  cases item with
  | definition d =>
    obtain ⟨e, he⟩ := hp
    have hd := (define_defined h.consistent d).1
    rw [he] at hd
    exact hd.agrees_of_error
  | declaration p =>
    obtain ⟨e, he⟩ := hp
    have hd := (declare_declared c p).1
    rw [he] at hd
    exact hd.agrees_of_error
  | expression d => exact h.agrees_evaluate (congrArg Prototype.name hi.1)
  | fault e => exact .refl _
  | _ => contradiction

/-- After a unit that passes in the one, the compilers mirror each other as they did before. -/
theorem Mirrors.of_passes (h : c.Mirrors c') (hi : item.Names (· ≠ "")) (hp : c.Passes item) :
    (engine.step options c item).2.Mirrors c' := by
  obtain ⟨ρ, hρ⟩ := h.relabels
  exact ⟨h.ready.step options hi, h.ready', h.cleaning.trans (cleaning_step h.ready _ _).symm,
    h.name.trans (name_step _ _ _).symm,
    ρ, hρ.of_agrees (hp.agrees h.ready hi) (.refl _)⟩

theorem Mirrors.step (h : c.Mirrors c') (hi : item.Names (· ≠ "")) :
    (engine.step options c item).2.Mirrors (engine.step options c' item).2 := by
  refine ⟨h.ready.step options hi, h.ready'.step options hi, ?_, ?_, ?_⟩
  · rw [cleaning_step h.ready', cleaning_step h.ready, h.cleaning]
  · rw [name_step, name_step, h.name]
  · obtain ⟨ρ, hρ⟩ := h.relabels
    cases item with
    | definition d =>
      obtain ⟨ρ', hρ', -⟩ := h.define d
      exact ⟨ρ', hρ'⟩
    | declaration p =>
      obtain ⟨ρ', hρ', -⟩ := h.declare p
      exact ⟨ρ', hρ'⟩
    | expression d =>
      have hn : d.proto.name = "" := congrArg Prototype.name hi.1
      exact ⟨ρ, hρ.of_agrees (h.ready.agrees_evaluate hn) (h.ready'.agrees_evaluate hn)⟩
    | _ => exact ⟨ρ, hρ⟩

end Compiler

namespace Session

variable {s s' t : Session} {item : Item} {items kept : List Item} {e e' : Effect}
  {es : List Effect}

/-- What a session has written and counted meanwhile is determined. -/
theorem Answers.unique (h : s.Answers e s') (h' : s.Answers e' s') : e = e' := by
  have hout := List.append_cancel_left (h.out.symm.trans h'.out)
  have herr := List.append_cancel_left (h.err.symm.trans h'.err)
  have hunits := Nat.add_left_cancel (h.units.symm.trans h'.units)
  have herrors := Nat.add_left_cancel (h.errors.symm.trans h'.errors)
  cases e
  cases e'
  simp_all only

/-- The session deals with the items in turn and comes to `t`; `es` are the effects of the
items. -/
inductive Runs : Session → List Item → List Effect → Session → Prop
  | nil {s : Session} : Runs s [] [] s
  | cons {s s' t : Session} {item : Item} {items : List Item} {e : Effect} {es : List Effect}
    (hs : handle item s = .ok () s') (ha : s.Answers e s') (h : Runs s' items es t) :
    Runs s (item :: items) (e :: es) t

/-- The session deals with the items in turn and comes to `t`.  Without some units that leave
nothing behind the items are those that are kept; `es` are the effects of these. -/
inductive Thins : Session → List Item → List Item → List Effect → Session → Prop
  | nil {s : Session} : Thins s [] [] [] s
  | keep {s s' t : Session} {item : Item} {items kept : List Item} {e : Effect} {es : List Effect}
    (hs : handle item s = .ok () s') (ha : s.Answers e s') (h : Thins s' items kept es t) :
    Thins s (item :: items) (item :: kept) (e :: es) t
  | delete {s s' t : Session} {item : Item} {items kept : List Item} {es : List Effect}
    (hp : s.compiler.Passes item) (hs : handle item s = .ok () s')
    (h : Thins s' items kept es t) : Thins s (item :: items) kept es t

/-- A session whose output takes everything deals with every item. -/
theorem exists_handle (hr : s.out.room = none) (item : Item) :
    ∃ s', handle item s = .ok () s' ∧ s.Answers (s.compiler.effect s.options item) s' ∧
      s'.options = s.options ∧
      s'.compiler = (Compiler.engine.step s.options s.compiler item).2 := by
  have hd : Does s.options s.compiler (handle item) () (s.compiler.effect s.options item)
      (Compiler.engine.step s.options s.compiler item).2 := does_handle item
  obtain ⟨s', hs, ha⟩ := hd.answers s rfl rfl hr
  obtain ⟨-, ho, hc⟩ := hd.leaves s () s' rfl rfl hs
  exact ⟨s', hs, ha, ho, hc⟩

theorem answers_of_handle (hr : s.out.room = none) (hs : handle item s = .ok () s') :
    s.Answers (s.compiler.effect s.options item) s' ∧ s'.options = s.options ∧
      s'.compiler = (Compiler.engine.step s.options s.compiler item).2 := by
  obtain ⟨s₁, hs₁, h⟩ := exists_handle hr item
  cases hs.symm.trans hs₁
  exact h

theorem exists_runs (hr : s.out.room = none) (items : List Item) : ∃ es t, Runs s items es t := by
  induction items generalizing s with
  | nil => exact ⟨[], s, .nil⟩
  | cons item items ih =>
    obtain ⟨s', hs, ha, -⟩ := exists_handle hr item
    obtain ⟨es, t, ht⟩ := ih ha.room
    exact ⟨_, t, .cons hs ha ht⟩

/-- Without units that leave nothing behind a session that mirrors the other runs alongside. -/
theorem Thins.exists_runs (h : Thins s items kept es t) (hi : ∀ item ∈ items, item.Names (· ≠ ""))
    (hr : s.out.room = none) (hr' : s'.out.room = none) (ho : s'.options = s.options)
    (hm : s.compiler.Mirrors s'.compiler) :
    ∃ t', Runs s' kept es t' ∧ t.compiler.Mirrors t'.compiler := by
  -- What mirrors the session deals with the units that are kept and waits at the others.
  induction h generalizing s' with
  | nil => exact ⟨s', .nil, hm⟩
  | @keep s s₁ t item items kept e es hs ha _ ih =>
    obtain ⟨he, ho₁, hc₁⟩ := answers_of_handle hr hs
    obtain ⟨s₁', hs', ha', ho₁', hc₁'⟩ := exists_handle hr' item
    rw [ho, hm.effect_eq, ← ha.unique he] at ha'
    have hm₁ : s₁.compiler.Mirrors s₁'.compiler := by
      rw [hc₁, hc₁', ho]
      exact hm.step (hi item List.mem_cons_self)
    have ho₁ : s₁'.options = s₁.options := by rw [ho₁', ho, ho₁]
    obtain ⟨t', ht', hmt⟩ :=
      ih (fun i h => hi i (List.mem_cons_of_mem _ h)) ha.room ha'.room ho₁ hm₁
    exact ⟨t', .cons hs' ha' ht', hmt⟩
  | @delete s s₁ t item items kept es hp hs _ ih =>
    obtain ⟨he, ho₁, hc₁⟩ := answers_of_handle hr hs
    have hm₁ : s₁.compiler.Mirrors s'.compiler := by
      rw [hc₁]
      exact hm.of_passes (hi item List.mem_cons_self) hp
    exact ih (fun i h => hi i (List.mem_cons_of_mem _ h)) he.room hr' (ho.trans ho₁.symm) hm₁

/-- Units that fail and expressions leave no trace: a session deals with all items, and without
some of these units every other item has the effect that it has among all, and the program is
listed alike at the end. -/
theorem runs_of_thins (options : SessionOptions) (name : String) (cleaning : Bool)
    (items : List Item) (hi : ∀ item ∈ items, item.Names (· ≠ "")) :
    (∃ es t, Runs (fresh options name cleaning .unlimited) items es t) ∧
    ∀ kept es t, Thins (fresh options name cleaning .unlimited) items kept es t →
      ∃ t', Runs (fresh options name cleaning .unlimited) kept es t' ∧
        t'.compiler.program.listing = t.compiler.program.listing := by
  refine ⟨exists_runs rfl items, fun kept es t h => ?_⟩
  obtain ⟨t', ht', hm⟩ := h.exists_runs hi rfl rfl rfl (Compiler.ready_new name cleaning).mirrors
  obtain ⟨ρ, hρ⟩ := hm.relabels
  exact ⟨t', ht', hρ.listing_eq hm.ready.consistent.sound hm.name⟩

def sampleOptions : SessionOptions where
  listing := true

def sampleItems : List Item :=
  [.definition ⟨⟨"twice", []⟩, .binary '*' (.literal 2) (.var "x")⟩,
    .expression (.anonymous (.literal 1)),
    .definition ⟨⟨"twice", ["x"]⟩, .binary '*' (.literal 2) (.var "x")⟩]

theorem names_sampleItems : ∀ item ∈ sampleItems, item.Names (· ≠ "") := by
  have hbody : (Expr.binary '*' (.literal 2) (.var "x")).Names (· ≠ "") :=
    .binary .literal (.var (by decide))
  intro item hi
  simp only [sampleItems, List.mem_cons, List.not_mem_nil, or_false] at hi
  rcases hi with rfl | rfl | rfl
  · exact ⟨⟨by decide, nofun⟩, hbody⟩
  · exact ⟨rfl, .literal⟩
  · exact ⟨⟨by decide, by simp⟩, hbody⟩

/-- What is kept is compiled as the third function or as the first. -/
theorem runs_of_thins_sample :
    (∀ item ∈ sampleItems, item.Names (· ≠ "")) ∧
    ∃ es t t',
      Thins (fresh sampleOptions "sample" true .unlimited) sampleItems
        (sampleItems.drop 2) es t ∧
      Runs (fresh sampleOptions "sample" true .unlimited) (sampleItems.drop 2) es t' ∧
      t'.compiler.program.listing = t.compiler.program.listing := by
  let s := fresh sampleOptions "sample" true .unlimited
  obtain ⟨s₁, h₁, ha₁, -⟩ := exists_handle (s := s) rfl
    (.definition ⟨⟨"twice", []⟩, .binary '*' (.literal 2) (.var "x")⟩)
  obtain ⟨s₂, h₂, ha₂, -⟩ := exists_handle ha₁.room (.expression (.anonymous (.literal 1)))
  obtain ⟨s₃, h₃, ha₃, -⟩ := exists_handle ha₂.room
    (.definition ⟨⟨"twice", ["x"]⟩, .binary '*' (.literal 2) (.var "x")⟩)
  have hfail : s.compiler.Passes
      (.definition ⟨⟨"twice", []⟩, .binary '*' (.literal 2) (.var "x")⟩) := ⟨_, rfl⟩
  have ht : Thins s sampleItems (sampleItems.drop 2) _ s₃ :=
    .delete hfail h₁ (.delete trivial h₂ (.keep h₃ ha₃ .nil))
  obtain ⟨t', hr, hl⟩ :=
    (runs_of_thins sampleOptions "sample" true sampleItems names_sampleItems).2 _ _ _ ht
  exact ⟨names_sampleItems, _, s₃, t', ht, hr, hl⟩

end Session

end Reckoner
