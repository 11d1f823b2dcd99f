import Reckoner.Proofs.Session.Invariant
import Reckoner.Proofs.Session.Reference

/-!
# Sessions refine the reference session

A session says what the reference session says (`run_eq_reference`).  The table of the one
describes the program of the other: a name is in both or in neither, with the same parameters, and
running the block of a function is evaluating its expression whenever calling by number is calling
by name (`Program.Renders`).  From this, calls in the program are calls by name in the table, by
induction on the depth that is left.
-/

namespace Reckoner

namespace Program

def Renders (p : Program) (params : List String) (e : Expr) (b : Block) : Prop :=
  ∀ call named, p.Knows (· ≠ "") call named → ∀ args, args.length = params.length →
    b.run call args #[] = some <$> e.eval named (binding params args)

inductive Written (p : Program) (params : List String) : Option Expr → Option Block → Prop
  | declaration : Written p params none none
  | definition {e : Expr} {b : Block} (h : p.Renders params e b) :
    Written p params (some e) (some b)

variable {p q : Program} {id : FuncId} {params : List String}

/-- Names keep their numbers, and the functions they lead to their number of parameters. -/
def Retains (q p : Program) : Prop :=
  ∀ name id, p.lookup name = some id → q.lookup name = some id ∧ q.arity id = p.arity id

theorem Renders.mono (h : q.Retains p) {e : Expr} {b : Block} (hr : p.Renders params e b) :
    q.Renders params e b := by
  intro call named hk args hn
  refine hr call named (fun name id hne hl values hv => ?_) args hn
  obtain ⟨hl', ha⟩ := h name id hl
  exact hk name id hne hl' values (hv.trans ha.symm)

theorem Written.mono (h : q.Retains p) {e : Option Expr} {b : Option Block}
    (hw : p.Written params e b) : q.Written params e b := by
  cases hw with
  | declaration => exact .declaration
  | definition hr => exact .definition (hr.mono h)

theorem Agrees.retains (h : q.Agrees p) : q.Retains p := by
  intro name id hl
  refine ⟨(h.lookup name).trans hl, ?_⟩
  unfold arity Program.params
  rw [h.func?]

theorem Sets.retains (hp : p.Consistent) {g : Func} (h : p.Sets id g q) : q.Retains p := by
  intro name i hl
  constructor
  · rw [h.lookup]
    split
    · rename_i hn
      rw [hn] at hl
      rcases h.room with hr | ⟨hr, -⟩
      · exact hr.symm.trans hl
      · cases hl.symm.trans hr
    · exact hl
  · obtain ⟨f, hf, -⟩ := (hp.lookup_iff name i).1 hl
    obtain ⟨f', hf', -, hps⟩ := h.extends hp i f hf
    rw [arity, arity, params_of_func? hf, params_of_func? hf', hps]

/-- The body of a function does not matter for what names lead to. -/
theorem Sets.retains_sets {p' : Program} {g g' : Func} (h : p.Sets id g p') (h' : p.Sets id g' q)
    (hn : g'.name = g.name) (hps : g'.params = g.params) : q.Retains p' := by
  intro name i hl
  constructor
  · rw [h'.lookup, hn, ← h.lookup, hl]
  · unfold arity Program.params
    rw [h.func?, h'.func?]
    split
    · exact congrArg List.length hps
    · rfl

end Program

namespace Table

variable {t t' : Table} {p q : Program}

/-- The entries of the table are the functions of the program, but for one without a name. -/
structure Describes (t : Table) (p : Program) : Prop where
  found : ∀ name id, name ≠ "" → p.lookup name = some id →
    ∃ f entry, p.func? id = some f ∧ t name = some entry ∧ entry.params = f.params ∧
      p.Written f.params entry.body f.body
  absent : ∀ name, name ≠ "" → p.lookup name = none → t name = none

theorem Describes.of_agrees (h : t.Describes p) (ha : q.Agrees p) : t.Describes q := by
  constructor
  · intro name id hn hl
    rw [ha.lookup] at hl
    obtain ⟨f, entry, hf, ht, hps, hw⟩ := h.found name id hn hl
    exact ⟨f, entry, (ha.func? id).trans hf, ht, hps, hw.mono ha.retains⟩
  · intro name hn hl
    rw [ha.lookup] at hl
    exact h.absent name hn hl

theorem Describes.of_sets (hp : p.Consistent) (h : t.Describes p) {id : FuncId} {g : Func}
    (hs : p.Sets id g q) {body : Option Expr}
    (ht : ∀ m, m ≠ "" → t' m = if m = g.name then some ⟨g.params, body⟩ else t m)
    (hw : g.name ≠ "" → q.Written g.params body g.body) : t'.Describes q := by
  constructor
  · intro name i hn hl
    rw [ht name hn]
    by_cases hg : name = g.name
    · rw [if_pos hg]
      rw [hs.lookup, if_pos hg] at hl
      cases hl
      have hf := hs.func? id
      rw [if_pos rfl] at hf
      exact ⟨g, _, hf, rfl, rfl, hw (hg ▸ hn)⟩
    · rw [if_neg hg]
      obtain ⟨f', hf', hfn⟩ := (hs.lookup_iff hp name i).1 hl
      rw [hs.lookup, if_neg hg] at hl
      obtain ⟨f, entry, hf, hte, hps, hwf⟩ := h.found name i hn hl
      have hi : i ≠ id := by
        rintro rfl
        rw [hs.func?, if_pos rfl] at hf'
        cases hf'
        exact hg hfn.symm
      refine ⟨f, entry, ?_, hte, hps, hwf.mono (hs.retains hp)⟩
      rw [hs.func?, if_neg hi, hf]
  · intro name hn hl
    rw [ht name hn]
    rw [hs.lookup] at hl
    split at hl
    · contradiction
    · rename_i hg
      rw [if_neg hg]
      exact h.absent name hn hl

theorem Describes.of_sets_unnamed (hp : p.Consistent) (h : t.Describes p) {id : FuncId} {g : Func}
    (hs : p.Sets id g q) (hg : g.name = "") : t.Describes q := by
  have ht : ∀ m, m ≠ "" → t m = if m = g.name then some ⟨g.params, none⟩ else t m := by
    intro m hm
    rw [hg, if_neg hm]
  exact h.of_sets hp hs ht fun hn => absurd hg hn

theorem Describes.arity?_eq (h : t.Describes p) (name : String) (hn : name ≠ "") :
    t.arity? name = (p.lookup name).map p.arity := by
  unfold arity?
  cases hl : p.lookup name with
  | none =>
    rw [h.absent name hn hl]
    rfl
  | some id =>
    obtain ⟨f, entry, hf, ht, hps, -⟩ := h.found name id hn hl
    rw [ht, Option.map_some, Option.map_some, hps, Program.arity, Program.params_of_func? hf]

theorem enter_of_declaration {name : String} {params : List String}
    (ht : t name = some ⟨params, none⟩) (inner : Option NamedCallee) (args : List Float) :
    t.enter inner name args = Builtin.call name args := by
  unfold enter
  rw [ht]

theorem enter_none {name : String} {params : List String} {body : Expr}
    (ht : t name = some ⟨params, some body⟩) (args : List Float) :
    t.enter none name args = throw (.tooDeep name) := by
  unfold enter
  rw [ht]

theorem enter_some {name : String} {params : List String} {body : Expr}
    (ht : t name = some ⟨params, some body⟩) (call : NamedCallee) (args : List Float) :
    t.enter (some call) name args = body.eval call (binding params args) := by
  unfold enter
  rw [ht]

theorem Describes.cases (hp : p.Consistent) (h : t.Describes p) {name : String} {id : FuncId}
    (hn : name ≠ "") (hl : p.lookup name = some id) :
    ∃ f, p.func? id = some f ∧ f.name = name ∧
      ((f.body = none ∧ t name = some ⟨f.params, none⟩) ∨
        ∃ b e, f.body = some b ∧ t name = some ⟨f.params, some e⟩ ∧ p.Renders f.params e b) := by
  obtain ⟨f, ⟨params, body⟩, hf, ht, hps, hw⟩ := h.found name id hn hl
  obtain ⟨f', hf', hfn⟩ := (hp.lookup_iff name id).1 hl
  cases hf.symm.trans hf'
  refine ⟨f, hf, hfn, ?_⟩
  obtain ⟨fname, fparams, fbody⟩ := f
  cases hps
  cases hw with
  | declaration => exact .inl ⟨rfl, ht⟩
  | definition hr => exact .inr ⟨_, _, rfl, ht, hr⟩

/-- Calls by number in the program are calls by name in the table. -/
theorem Describes.knows (hp : p.Consistent) (h : t.Describes p) (depth : Nat) :
    p.Knows (· ≠ "") (p.callWithin depth) (t.callWithin depth) := by
  induction depth with
  | zero =>
    intro name id hn hl values hv
    rw [Program.callWithin_zero, callWithin]
    obtain ⟨f, hf, rfl, ⟨hb, ht⟩ | ⟨b, e, hb, ht, -⟩⟩ := h.cases hp hn hl
    · rw [Program.enter_of_declaration hf hb, enter_of_declaration ht]
    · rw [Program.enter_none hf hb, enter_none ht]
  | succ depth ih =>
    intro name id hn hl values hv
    rw [Program.callWithin_succ, callWithin]
    obtain ⟨f, hf, rfl, ⟨hb, ht⟩ | ⟨b, e, hb, ht, hr⟩⟩ := h.cases hp hn hl
    · rw [Program.enter_of_declaration hf hb, enter_of_declaration ht]
    · have hlen : values.length = f.params.length := by
        rw [hv, Program.arity, Program.params_of_func? hf]
      rw [Program.enter_some hf hb, enter_some ht, hr _ _ ih values hlen]
      simp

/-- A body that could be lowered renders its expression. -/
theorem renders_of_lower (hp : p.Consistent) {params : List String} {e : Expr} {code : Code}
    (he : e.Names (· ≠ "")) (hc : e.lower p (Scope.ofParams params) 0 = .ok code) :
    p.Renders params e (code.insts ++ [.ret code.value]) :=
  fun _ _ hk _ hn => Expr.run_of_lower hp.namesLive hk hn he hc

theorem renders_tidied {c : Compiler} {params : List String} {e : Expr} {b : Block}
    (h : p.Renders params e b) : p.Renders params e (c.tidied b) := by
  intro call named hk args hn
  rw [Compiler.run_tidied]
  exact h call named hk args hn

end Table

namespace Compiler

variable {c : Compiler} {t : Table} {d : Definition}

section Target

variable {id : FuncId} {params : List String} {p : Program}

/-- In the table the body is placed under the same parameters. -/
theorem define_eq_place (h : c.program.Consistent) (ht : t.Describes c.program)
    (hn : d.proto.name ≠ "") (htgt : c.program.Target d.proto id params p) :
    t.define d = t.place d params := by
  unfold Table.define
  cases htgt with
  | declared hl hf hb =>
    obtain ⟨f', hf', -, ⟨hb', hte⟩ | ⟨b, e, hb', -, -⟩⟩ := ht.cases h hn hl
    · cases hf.symm.trans hf'
      rw [hte]
    · cases hf.symm.trans hf'
      cases hb.symm.trans hb'
  | fresh hl => rw [ht.absent _ hn hl]

theorem describes_target (h : c.program.Consistent) (ht : t.Describes c.program)
    (htgt : c.program.Target d.proto id params p) :
    (t.insert d.proto.name ⟨params, none⟩).Describes p :=
  ht.of_sets h (htgt.sets h) (fun _ _ => rfl) fun _ => .declaration

theorem fault?_target (h : c.program.Consistent) (ht : t.Describes c.program)
    (he : d.body.Names (· ≠ "")) (htgt : c.program.Target d.proto id params p) :
    d.body.fault? (t.insert d.proto.name ⟨params, none⟩).arity? params =
      Except.error? (d.body.lower p (Scope.ofParams params) 0) :=
  (Expr.error?_lower (describes_target h ht htgt).arity?_eq he 0).symm

end Target

theorem Defined.define_eq (h : c.program.Consistent) (ht : t.Describes c.program)
    (hn : d.proto.name ≠ "") (he : d.body.Names (· ≠ "")) {o : Except CompileError FuncId}
    {q : Program} (hd : Defined c d o q) :
    Except.error? o = (t.define d).1 ∧ (t.define d).2.Describes q := by
  cases hd with
  | @redefinition id hl hb =>
    obtain ⟨f, hf, -, ⟨hfb, -⟩ | ⟨b, e, -, hte, -⟩⟩ := ht.cases h hn hl
    · rw [Program.hasBody, Program.body?_of_func? hf, hfb] at hb
      contradiction
    · unfold Table.define
      rw [hte]
      exact ⟨rfl, ht⟩
  | faulty htgt hlow ha =>
    rw [define_eq_place h ht hn htgt]
    unfold Table.place
    rw [fault?_target h ht he htgt, hlow]
    exact ⟨rfl, ht.of_agrees ha⟩
  | placed htgt hlow hs =>
    rw [define_eq_place h ht hn htgt]
    unfold Table.place
    rw [fault?_target h ht he htgt, hlow]
    refine ⟨rfl, ht.of_sets h hs (fun _ _ => rfl) fun _ => .definition ?_⟩
    have hr := Table.renders_tidied (c := c) (Table.renders_of_lower (htgt.consistent h) he hlow)
    exact hr.mono ((htgt.sets h).retains_sets hs rfl rfl)

theorem Declared.declare_eq (h : c.program.Consistent) (ht : t.Describes c.program)
    {proto : Prototype} (hn : proto.name ≠ "") {o : Except CompileError FuncId} {q : Program}
    (hd : Declared c proto o q) :
    Except.error? o = (t.declare proto).1 ∧ (t.declare proto).2.Describes q := by
  unfold Table.declare
  cases hd with
  | kept hl ha =>
    obtain ⟨f, entry, hf, hte, hps, -⟩ := ht.found _ _ hn hl
    rw [Program.arity, Program.params_of_func? hf, ← hps] at ha
    rw [hte]
    simp only
    rw [if_pos ha]
    exact ⟨rfl, ht⟩
  | refused hl ha =>
    obtain ⟨f, entry, hf, hte, hps, -⟩ := ht.found _ _ hn hl
    rw [Program.arity, Program.params_of_func? hf, ← hps] at ha
    rw [hte]
    simp only
    rw [if_neg ha]
    exact ⟨rfl, ht⟩
  | added hl =>
    rw [ht.absent _ hn hl]
    exact ⟨rfl, ht.of_sets h ((Program.Target.fresh hl).sets h) (fun _ _ => rfl)
      fun _ => .declaration⟩

theorem Defined.express_eq (h : c.Ready) (ht : t.Describes c.program)
    (hp : d.proto = .anonymous) (he : d.body.Names (· ≠ "")) {o : Except CompileError FuncId}
    {q : Program} (hd : Defined c d o q) :
    Except.error? o = d.body.fault? t.arity? [] ∧ t.Describes q ∧
      ∀ id, o = .ok id → ∃ f b, q.func? id = some f ∧ f.body = some b ∧
        q.Renders [] d.body b := by
  obtain ⟨proto, body⟩ := d
  cases hp
  have hfault {id : FuncId} {params : List String} {p : Program}
      (htgt : c.program.Target .anonymous id params p) :
      params = [] ∧ Except.error? (body.lower p (Scope.ofParams params) 0) =
        body.fault? t.arity? [] := by
    have hdesc : t.Describes p :=
      ht.of_sets_unnamed h.consistent (htgt.sets h.consistent) rfl
    cases htgt with
    | declared hl => cases hl.symm.trans h.lookup_empty
    | fresh hl => exact ⟨rfl, Expr.error?_lower hdesc.arity?_eq he 0⟩
  cases hd with
  | redefinition hl => cases hl.symm.trans h.lookup_empty
  | faulty htgt hlow ha =>
    obtain ⟨rfl, hf⟩ := hfault htgt
    rw [hlow] at hf
    exact ⟨hf, ht.of_agrees ha, nofun⟩
  | @placed id params p q code htgt hlow hs =>
    obtain ⟨rfl, hf⟩ := hfault htgt
    rw [hlow] at hf
    refine ⟨hf, ht.of_sets_unnamed h.consistent hs rfl, fun i hi => ?_⟩
    cases hi
    have hq := hs.func? id
    rw [if_pos rfl] at hq
    have hr := Table.renders_tidied (c := c)
      (Table.renders_of_lower (htgt.consistent h.consistent) he hlow)
    exact ⟨_, _, hq, rfl, hr.mono ((htgt.sets h.consistent).retains_sets hs rfl rfl)⟩

theorem evaluate_eq (h : c.Ready) (ht : t.Describes c.program) (hp : d.proto = .anonymous)
    (he : d.body.Names (· ≠ "")) :
    (engine.evaluate c d).1 = (t.evaluate d).1 ∧
      (t.evaluate d).2.Describes (engine.evaluate c d).2.program := by
  obtain ⟨hd, -⟩ := define_defined h.consistent d
  obtain ⟨hf, hdesc, hbody⟩ := hd.express_eq h ht hp he
  have hq := hd.consistent h.consistent
  unfold Table.evaluate
  rw [← hf]
  cases ho : (c.define d).outcome with
  | error e =>
    rw [evaluate_of_error ho]
    exact ⟨rfl, hdesc⟩
  | ok id =>
    rw [evaluate_of_ok ho]
    obtain ⟨f, b, hfunc, hb, hr⟩ := hbody id ho
    refine ⟨?_, ?_⟩
    · have hk := hdesc.knows hq (Program.maxDepth - 1)
      have hcall : (c.define d).compiler.program.call id [] =
          d.body.eval (t.callWithin (Program.maxDepth - 1)) (binding [] []) := by
        change (c.define d).compiler.program.callWithin (Program.maxDepth - 1 + 1) id [] = _
        rw [Program.callWithin_succ, Program.enter_some hfunc hb, hr _ _ hk [] rfl]
        simp
      rw [hcall]
      rfl
    · rw [ho] at hd
      exact ht.of_agrees (hd.agrees_remove (by rw [hp]; exact h.lookup_empty))

/-- The compiler ends like the table. -/
theorem follows_table :
    engine.Follows Table.engine (fun c t => c.Ready ∧ t.Describes c.program)
      (Item.Names (· ≠ "")) where
  define c t d hi h := by
    obtain ⟨ho, hd⟩ := (define_defined h.1.consistent d).1.define_eq h.1.consistent h.2 hi.1.1 hi.2
    exact ⟨ho, h.1.define hi.1.1, hd⟩
  declare c t proto hi h := by
    obtain ⟨ho, hd⟩ := (declare_declared c proto).1.declare_eq h.1.consistent h.2 hi.1
    exact ⟨ho, h.1.declare hi.1, hd⟩
  evaluate c t d hi h := by
    obtain ⟨ho, hd⟩ := evaluate_eq h.1 h.2 hi.1 hi.2
    exact ⟨ho, h.1.evaluate (congrArg Prototype.name hi.1), hd⟩

end Compiler

namespace Session

end Session

end Reckoner
