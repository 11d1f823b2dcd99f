import Mathlib.Data.List.Forall2
import Reckoner.Proofs.Grammar.Bisimulation
import Reckoner.Proofs.Session.Engine

/-!
# What a session does

`Does` describes an action of a session by what it does with the compiler, and by its effect where
the output takes everything.  The actions of a session are described one by one.  Their effects
include listings (`Compiler.effect`); where nothing is listed they are those of the engine of the
compiler, and a whole run does what that engine does with the items of the reader (`does_run`).

`Session.heads` are the sessions that a run goes through, one before each item and one at the end.
-/

namespace Reckoner

namespace Compiler

/-- What a session says when a unit has been compiled: the function, if there are listings, or the
error. -/
def announce (options : SessionOptions) (r : Compiled) : Effect :=
  match r.outcome with
  | .ok id => .outputIf options.listing (r.compiler.program.funcListing id)
  | .error e => .error e.message

def effect (options : SessionOptions) (c : Compiler) : Item → Effect
  | .definition d => .unit options.units (d.text ++ "\n") ++ announce options (c.define d)
  | .declaration p =>
    .unit options.units ("extern " ++ p.text ++ "\n") ++ announce options (c.declare p)
  | .expression d =>
    .unit options.units (d.text ++ "\n") ++ (announce options (c.define d) ++
      match (engine.evaluate c d).1 with
      | .ok result => .ofResult result
      | .error _ => {})
  | .finished failure =>
    (engine.step options c (.finished failure)).1 ++
      .outputIf options.listing c.program.listing
  | item => (engine.step options c item).1

theorem announce_of_listing {options : SessionOptions} (h : options.listing = false)
    (r : Compiled) : announce options r = .ofError (Except.error? r.outcome) := by
  unfold announce Effect.outputIf
  rw [h]
  cases r.outcome <;> rfl

/-- Where nothing is listed, the effect of an item is that of the engine. -/
theorem effect_of_listing {options : SessionOptions} (h : options.listing = false) (c : Compiler)
    (item : Item) : c.effect options item = (engine.step options c item).1 := by
  cases item with
  | definition d =>
    rw [effect, announce_of_listing h]
    rfl
  | declaration p =>
    rw [effect, announce_of_listing h]
    rfl
  | expression d =>
    rw [effect, announce_of_listing h]
    cases ho : (c.define d).outcome with
    | error e =>
      simp only [Engine.step, evaluate_of_error ho]
      exact congrArg _ (Effect.append_empty _)
    | ok id =>
      simp only [Engine.step, evaluate_of_ok ho]
      exact congrArg _ (Effect.empty_append _)
  | finished failure =>
    rw [effect, h]
    exact Effect.append_empty _
  | _ => rfl

def effects (options : SessionOptions) (c : Compiler) : List Item → Effect
  | [] => {}
  | item :: items =>
    c.effect options item ++ effects options (engine.step options c item).2 items

theorem effects_of_listing {options : SessionOptions} (h : options.listing = false) (c : Compiler)
    (items : List Item) : c.effects options items = (engine.run options c items).1 := by
  induction items generalizing c with
  | nil => rfl
  | cons item items ih => rw [effects, effect_of_listing h, ih]; rfl

end Compiler

namespace Session

variable {options : SessionOptions} {c c' c'' : Compiler} {α β : Type} {a : α} {b : β}
  {e e' : Effect}

/-- The session goes on to `s'` by writing and counting what the effect says. -/
structure Tells (s : Session) (e : Effect) (s' : Session) : Prop where
  out : s'.out.bytes.toList = s.out.bytes.toList ++ e.out
  err : s'.journal.bytes = s.journal.bytes ++ e.err
  units : s'.tally.units = s.tally.units + e.units
  errors : s'.tally.errors = s.tally.errors + e.errors

/-- It does so, and the output takes everything. -/
structure Answers (s : Session) (e : Effect) (s' : Session) : Prop extends s.Tells e s' where
  room : s'.out.room = none

/-- With a compiler `c` the action has the value `a` and the effect `e`, and leaves `c'`, unless the
output ends it.  If the output takes everything, the action comes to its end. -/
structure Does (options : SessionOptions) (c : Compiler) (x : SessionM α) (a : α) (e : Effect)
    (c' : Compiler) : Prop where
  leaves : ∀ s a' s', s.options = options → s.compiler = c → x s = .ok a' s' →
    a' = a ∧ s'.options = options ∧ s'.compiler = c'
  tells : ∀ s a' s', s.options = options → s.compiler = c → x s = .ok a' s' → s.Tells e s'
  ends : ∀ s, s.options = options → s.compiler = c → s.out.room = none →
    ∃ s', x s = .ok a s' ∧ s'.out.room = none

theorem Does.answers {x : SessionM α} (h : Does options c x a e c') (s : Session)
    (ho : s.options = options) (hc : s.compiler = c) (hr : s.out.room = none) :
    ∃ s', x s = .ok a s' ∧ s.Answers e s' := by
  obtain ⟨s', hx, hr'⟩ := h.ends s ho hc hr
  exact ⟨s', hx, h.tells s a s' ho hc hx, hr'⟩

theorem tells_empty (s : Session) : s.Tells {} s :=
  ⟨(List.append_nil _).symm, (List.append_nil _).symm, rfl, rfl⟩

theorem Tells.trans {s s' s'' : Session} (h : s.Tells e s') (h' : s'.Tells e' s'') :
    s.Tells (e ++ e') s'' := by
  refine ⟨?_, ?_, ?_, ?_⟩
  · rw [h'.out, h.out, List.append_assoc]
    rfl
  · rw [h'.err, h.err, List.append_assoc]
    rfl
  · rw [h'.units, h.units, Nat.add_assoc]
    rfl
  · rw [h'.errors, h.errors, Nat.add_assoc]
    rfl

theorem Does.bind {x : SessionM α} {f : α → SessionM β} (h : Does options c x a e c')
    (hf : Does options c' (f a) b e' c'') : Does options c (x >>= f) b (e ++ e') c'' where
  leaves s b' s'' ho hc hx := by
    obtain ⟨a', s', hx, hfx⟩ := SinkFull.bind_eq_ok hx
    obtain ⟨rfl, ho', hc'⟩ := h.leaves s a' s' ho hc hx
    exact hf.leaves s' b' s'' ho' hc' hfx
  tells s b' s'' ho hc hx := by
    obtain ⟨a', s', hx, hfx⟩ := SinkFull.bind_eq_ok hx
    obtain ⟨rfl, ho', hc'⟩ := h.leaves s a' s' ho hc hx
    exact (h.tells s a' s' ho hc hx).trans (hf.tells s' b' s'' ho' hc' hfx)
  ends s ho hc hr := by
    obtain ⟨s', hx, hr'⟩ := h.ends s ho hc hr
    obtain ⟨-, ho', hc'⟩ := h.leaves s a s' ho hc hx
    obtain ⟨s'', hfx, hr''⟩ := hf.ends s' ho' hc' hr'
    exact ⟨s'', (SinkFull.bind_of_ok hx).trans hfx, hr''⟩

theorem Does.andThen {x : SessionM Unit} {y : SessionM β} (h : Does options c x () e c')
    (hy : Does options c' y b e' c'') : Does options c (x >>= fun _ => y) b (e ++ e') c'' :=
  h.bind hy

theorem Does.bind_silent {x : SessionM α} {f : α → SessionM β} (h : Does options c x a {} c')
    (hf : Does options c' (f a) b e c'') : Does options c (x >>= f) b e c'' := by
  have hb := h.bind hf
  rwa [Effect.empty_append] at hb

theorem Does.andThen_silent {x : SessionM Unit} {y : SessionM β} (h : Does options c x () {} c')
    (hy : Does options c' y b e c'') : Does options c (x >>= fun _ => y) b e c'' :=
  h.bind_silent hy

theorem does_get_bind {f : Session → SessionM β}
    (h : ∀ s, s.options = options → s.compiler = c → Does options c (f s) b e c') :
    Does options c (get >>= f) b e c' where
  leaves s b' s' ho hc hx := (h s ho hc).leaves s b' s' ho hc hx
  tells s b' s' ho hc hx := (h s ho hc).tells s b' s' ho hc hx
  ends s ho hc hr := (h s ho hc).ends s ho hc hr

/-- An action that is a function of the session, and writes nothing to the output. -/
theorem does_of_eq {x : SessionM α} {f : Session → Session}
    (hx : ∀ s : Session, s.options = options → s.compiler = c → x s = .ok a (f s))
    (hf : ∀ s : Session, s.options = options → s.compiler = c →
      (f s).options = options ∧ (f s).compiler = c' ∧ (f s).out = s.out)
    (hs : ∀ s : Session, s.options = options → s.compiler = c → s.Tells e (f s)) :
    Does options c x a e c' where
  leaves s a' s' ho hc h := by
    rw [hx s ho hc] at h
    cases h
    obtain ⟨ho', hc', -⟩ := hf s ho hc
    exact ⟨rfl, ho', hc'⟩
  tells s a' s' ho hc h := by
    rw [hx s ho hc] at h
    cases h
    exact hs s ho hc
  ends s ho hc hr := by
    obtain ⟨-, -, hout⟩ := hf s ho hc
    exact ⟨f s, hx s ho hc, (congrArg Sink.room hout).trans hr⟩

theorem does_pure (a : α) : Does options c (pure a) a {} c :=
  does_of_eq (fun _ _ _ => rfl) (fun _ ho hc => ⟨ho, hc, rfl⟩) fun s _ _ => tells_empty s

theorem does_note (ns : List Notice) : Does options c (note ns) () {} c :=
  does_of_eq (fun _ _ _ => rfl) (fun _ ho hc => ⟨ho, hc, rfl⟩) fun s _ _ =>
    { tells_empty s with err := by simp }

theorem does_countUnit : Does options c countUnit () .counted c :=
  does_of_eq (fun _ _ _ => rfl) (fun _ ho hc => ⟨ho, hc, rfl⟩) fun s _ _ =>
    { tells_empty s with units := rfl }

theorem does_report (message : String) : Does options c (report message) () (.error message) c :=
  does_of_eq (fun _ _ _ => rfl) (fun _ ho hc => ⟨ho, hc, rfl⟩) fun s _ _ =>
    ⟨(List.append_nil _).symm, by simp [Journal.addText, Effect.error], rfl, rfl⟩

theorem does_prompt : Does options c prompt ()
    (if options.prompting then .aside (utf8 "ready> ") else {}) c := by
  refine does_of_eq (fun _ _ _ => rfl) (fun s ho hc => ?_) fun s ho hc => ?_
  · split
    · exact ⟨ho, hc, rfl⟩
    · exact ⟨ho, hc, rfl⟩
  · rw [ho]
    split
    · exact ⟨(List.append_nil _).symm, by simp [Journal.addText, Effect.aside], rfl, rfl⟩
    · exact tells_empty s

theorem does_write (text : String) : Does options c (write text) () (.output text) c where
  leaves s a' s' ho hc h := by
    unfold write at h
    split at h
    · cases h
      exact ⟨rfl, ho, hc⟩
    · contradiction
  tells s a' s' ho hc h := by
    unfold write at h
    split at h
    · rename_i out hw
      cases h
      refine ⟨?_, (List.append_nil _).symm, rfl, rfl⟩
      rw [Sink.bytes_of_writeText hw]
      exact Array.toList_append
    · contradiction
  ends s ho hc hr := by
    refine ⟨{ s with out := ⟨s.out.bytes ++ utf8 text, none⟩ }, ?_, rfl⟩
    unfold write Sink.writeText Sink.write
    rw [hr]

theorem does_writeIf (wanted : Bool) (text : String) :
    Does options c (writeIf wanted text) () (.outputIf wanted text) c := by
  cases wanted with
  | true => exact does_write text
  | false => exact does_pure ()

theorem does_adopt (f : Compiler → Compiled) :
    Does options c (adopt f) (f c).outcome {} (f c).compiler := by
  have hx : ∀ s : Session, s.options = options → s.compiler = c →
      adopt f s = .ok (f c).outcome
        { s with compiler := (f c).compiler, journal := s.journal.addNotices (f c).notices } := by
    rintro s - rfl
    rfl
  exact does_of_eq hx (fun _ ho _ => ⟨ho, rfl, rfl⟩) fun s _ _ =>
    ⟨(List.append_nil _).symm, by simp, rfl, rfl⟩

theorem does_remove (id : FuncId) : Does options c (remove id) () {}
    { c with program := c.program.remove id } :=
  does_of_eq (fun _ _ _ => rfl) (fun _ ho hc => ⟨ho, by rw [hc], rfl⟩) fun _ _ _ =>
    ⟨(List.append_nil _).symm, (List.append_nil _).symm, rfl, rfl⟩

theorem does_list (id : FuncId) :
    Does options c (list id) () (.outputIf options.listing (c.program.funcListing id)) c :=
  does_get_bind fun s ho hc => by
    rw [ho, hc]
    exact does_writeIf _ _

theorem does_evaluate {id : FuncId} {result : Except ExecError Float} {sink : Sink}
    (h : ∀ s : Session, s.compiler = c →
      evaluate id s = .ok result { s with journal := s.journal.addBytes sink.bytes }) :
    Does options c (evaluate id) result (.aside sink.bytes) c :=
  does_of_eq (fun s _ hc => h s hc) (fun _ ho hc => ⟨ho, hc, rfl⟩) fun _ _ _ =>
    ⟨(List.append_nil _).symm, Journal.bytes_addBytes _ _, rfl, rfl⟩

theorem does_unit {ns : List Notice} {text : String} {x : SessionM α}
    (h : Does options c x a e c') :
    Does options c (do
      countUnit
      note ns
      writeIf (← get).options.units text
      x) a (.unit options.units text ++ e) c' := by
  have hw : Does options c (do writeIf (← get).options.units text; x) a
      (.outputIf options.units text ++ e) c' :=
    does_get_bind fun s ho _ => by
      rw [ho]
      exact (does_writeIf _ text).andThen h
  have hu := does_countUnit.andThen ((does_note ns).andThen_silent hw)
  rwa [← Effect.append_assoc] at hu

theorem does_define (d : Definition) :
    Does options c (define d) () (c.effect options (.definition d))
      (Compiler.engine.step options c (.definition d)).2 := by
  refine does_unit ?_
  refine (does_adopt (·.define d)).bind_silent ?_
  unfold Compiler.announce
  cases (c.define d).outcome with
  | ok id => exact (does_note [.defined d.proto]).andThen_silent (does_list id)
  | error e => exact does_report e.message

theorem does_declare (p : Prototype) :
    Does options c (declare p) () (c.effect options (.declaration p))
      (Compiler.engine.step options c (.declaration p)).2 := by
  refine does_unit ?_
  refine (does_adopt (·.declare p)).bind_silent ?_
  unfold Compiler.announce
  cases (c.declare p).outcome with
  | ok id => exact (does_note [.declared p]).andThen_silent (does_list id)
  | error e => exact does_report e.message

theorem does_express (d : Definition) :
    Does options c (express d) () (c.effect options (.expression d))
      (Compiler.engine.step options c (.expression d)).2 := by
  unfold Compiler.effect Compiler.announce Compiler.engine Engine.step
  simp only
  refine does_unit ?_
  refine (does_adopt (·.define d)).bind_silent ?_
  cases (c.define d).outcome with
  | error e =>
    rw [Effect.append_empty]
    exact does_report e.message
  | ok id =>
    refine (does_list id).andThen ?_
    simp only
    cases hr : (c.define d).compiler.program.call id [] .unlimited with
    | ok value sink =>
      have he : Does options _ (evaluate id) (.ok value) _ (c.define d).compiler :=
        does_evaluate fun s hc => by rw [evaluate, hc, hr]
      refine he.bind ((does_remove id).andThen_silent ?_)
      exact (does_note [.evaluated d.body]).andThen_silent (does_write _)
    | error e sink =>
      have he : Does options _ (evaluate id) (.error e) _ (c.define d).compiler :=
        does_evaluate fun s hc => by rw [evaluate, hc, hr]
      refine he.bind ((does_remove id).andThen_silent ?_)
      exact does_report e.message

theorem does_finish (failure : Option String) :
    Does options c (finish failure) () (c.effect options (.finished failure))
      (Compiler.engine.step options c (.finished failure)).2 := by
  have hm : Does options c (modify fun s => { s with inputFailure := failure } : SessionM Unit) ()
      {} c :=
    does_of_eq (fun _ _ _ => rfl) (fun _ ho hc => ⟨ho, hc, rfl⟩) fun _ _ _ =>
      ⟨(List.append_nil _).symm, (List.append_nil _).symm, rfl, rfl⟩
  refine hm.andThen_silent (does_get_bind fun s ho hc => ?_)
  rw [ho, hc]
  have hl : Does options c (writeIf options.listing c.program.listing) ()
      (.outputIf options.listing c.program.listing) c := does_writeIf _ _
  unfold Compiler.effect Engine.step
  simp only
  cases options.watching with
  | false => exact (does_pure ()).andThen hl
  | true =>
    cases failure with
    | none => exact (does_pure ()).andThen hl
    | some message => exact (does_report _).andThen hl

theorem does_handle (item : Item) :
    Does options c (handle item) () (c.effect options item)
      (Compiler.engine.step options c item).2 := by
  cases item with
  | prompt => exact does_prompt
  | malformed e => exact does_report e.message
  | fault e => exact does_countUnit.andThen (does_report e.message)
  | definition d => exact does_define d
  | declaration p => exact does_declare p
  | expression d => exact does_express d
  | finished failure => exact does_finish failure

theorem does_step (ns : List Notice) (item : Item) :
    Does options c (step ns item) () (c.effect options item)
      (Compiler.engine.step options c item).2 :=
  (does_note ns).andThen_silent (does_handle item)

def deal (work : List (List Notice × Item)) : SessionM Unit :=
  work.forM fun w => step w.1 w.2

theorem does_deal (work : List (List Notice × Item)) :
    Does options c (deal work) () (c.effects options (work.map Prod.snd))
      (Compiler.engine.run options c (work.map Prod.snd)).2 := by
  induction work generalizing c with
  | nil => exact does_pure ()
  | cons w work ih =>
    have hs : Does options c (step w.1 w.2) () (c.effect options w.2)
        (Compiler.engine.step options c w.2).2 := does_step w.1 w.2
    exact hs.andThen ih

end Session

section Reading

variable {σ : Type} [TokenSupply σ]

/-- The items of a reader, each with the notices of reading it, from number `seen` on. -/
def Reader.noted (seen : Nat) (r : Reader (Traced σ)) : List (List Notice × Item) :=
  match _h : r.next with
  | none => []
  | some (item, r') =>
    let trace := r'.parser.supply.trace
    ((trace.extract seen trace.size).toList, item) :: r'.noted trace.size
termination_by r.weight
decreasing_by exact Reader.weight_next_lt _h

theorem Reader.noted_of_next_eq_none {r : Reader (Traced σ)} (h : r.next = none) (seen : Nat) :
    r.noted seen = [] := by
  rw [noted]
  split <;> simp_all

theorem Reader.noted_of_next_eq_some {r r' : Reader (Traced σ)} {item : Item}
    (h : r.next = some (item, r')) (seen : Nat) :
    r.noted seen =
      ((r'.parser.supply.trace.extract seen r'.parser.supply.trace.size).toList, item) ::
        r'.noted r'.parser.supply.trace.size := by
  rw [noted]
  split <;> simp_all

theorem Reader.map_snd_noted (seen : Nat) (r : Reader (Traced σ)) :
    (r.noted seen).map Prod.snd = r.items := by
  induction hw : r.weight using Nat.strongRecOn generalizing r seen with
  | ind w ih =>
    subst hw
    unfold items
    cases hn : r.next with
    | none =>
      rw [noted_of_next_eq_none hn, walk_of_next_eq_none hn]
      rfl
    | some next =>
      obtain ⟨item, r'⟩ := next
      have hi := ih _ (weight_next_lt hn) r'.parser.supply.trace.size r' rfl
      unfold items at hi
      rw [noted_of_next_eq_some hn, walk_of_next_eq_some hn, List.map_cons, List.map_cons, hi]

theorem Session.runFrom_eq_deal (seen : Nat) (r : Reader (Traced σ)) :
    runFrom seen r = deal (r.noted seen) := by
  induction hw : r.weight using Nat.strongRecOn generalizing r seen with
  | ind w ih =>
    subst hw
    rw [runFrom]
    split
    · rename_i hn
      rw [Reader.noted_of_next_eq_none hn]
      rfl
    · rename_i item r' hn
      rw [Reader.noted_of_next_eq_some hn]
      simp only
      rw [ih _ (Reader.weight_next_lt hn) _ _ rfl]
      rfl

/-- Running a session on a supply is dealing with the items that a reader makes of it. -/
theorem Session.does_run_effects {options : SessionOptions} {c : Compiler} (supply : σ) :
    Does options c (run supply) () (c.effects options (Reader.start supply).items)
      (Compiler.engine.run options c (Reader.start supply).items).2 := by
  unfold run
  rw [runFrom_eq_deal, ← Reader.items_traced supply #[], ← Reader.map_snd_noted 0]
  exact does_deal _

/-- Where nothing is listed, a run does what the engine does with the items. -/
theorem Session.does_run {options : SessionOptions} {c : Compiler}
    (hl : options.listing = false) (supply : σ) :
    Does options c (run supply) ()
      (Compiler.engine.run options c (Reader.start supply).items).1
      (Compiler.engine.run options c (Reader.start supply).items).2 := by
  rw [← Compiler.effects_of_listing hl]
  exact does_run_effects supply

end Reading

namespace Session

def fresh (options : SessionOptions) (name : String) (cleaning : Bool) (out : Sink) : Session :=
  { options, compiler := .new name cleaning, out }

/-- The session before each item, and at the end if it comes to it. -/
def headsOf : List (List Notice × Item) → Session → List Session
  | [], s => [s]
  | w :: work, s =>
    s :: match step w.1 w.2 s with
      | .ok _ s' => headsOf work s'
      | .error _ _ => []

def heads {σ : Type} [TokenSupply σ] (supply : σ) (s : Session) : List Session :=
  headsOf ((Reader.start ⟨supply, #[]⟩).noted 0) s

variable {work : List (List Notice × Item)} {s t : Session}

/-- What the engine keeps holds of the compiler at every head. -/
theorem forall_headsOf {I : Compiler → Prop}
    (hI : ∀ c options, ∀ w ∈ work, I c → I (Compiler.engine.step options c w.2).2)
    (hs : I s.compiler) : ∀ t ∈ headsOf work s, I t.compiler := by
  induction work generalizing s with
  | nil =>
    intro t ht
    rwa [List.mem_singleton.1 ht]
  | cons w work ih =>
    intro t ht
    rcases List.mem_cons.1 ht with rfl | ht
    · exact hs
    · cases hw : step w.1 w.2 s with
      | error e s' =>
        rw [hw] at ht
        contradiction
      | ok a s' =>
        rw [hw] at ht
        obtain ⟨-, -, hc⟩ := (does_step w.1 w.2).leaves s a s' rfl rfl hw
        have hw' := hI s.compiler s.options w List.mem_cons_self hs
        rw [← hc] at hw'
        exact ih (fun c o v hv => hI c o v (List.mem_cons_of_mem _ hv)) hw' t ht

/-- A transitive relation that every item keeps to holds between an earlier and a later head. -/
theorem pairwise_headsOf {I : Compiler → Prop} {R : Compiler → Compiler → Prop}
    (htrans : ∀ a b c, R a b → R b c → R a c)
    (hstep : ∀ c options, ∀ w ∈ work, I c →
      I (Compiler.engine.step options c w.2).2 ∧ R c (Compiler.engine.step options c w.2).2)
    (hs : I s.compiler) :
    (headsOf work s).Pairwise fun s t => R s.compiler t.compiler := by
  induction work generalizing s with
  | nil => exact List.pairwise_singleton _ _
  | cons w work ih =>
    have hrest : ∀ c options, ∀ v ∈ work, I c → I (Compiler.engine.step options c v.2).2 ∧
        R c (Compiler.engine.step options c v.2).2 :=
      fun c o v hv => hstep c o v (List.mem_cons_of_mem _ hv)
    rw [headsOf]
    cases hw : step w.1 w.2 s with
    | error e s' => exact List.pairwise_singleton _ _
    | ok a s' =>
      obtain ⟨-, -, hc⟩ := (does_step w.1 w.2).leaves s a s' rfl rfl hw
      obtain ⟨hi, hr⟩ := hstep s.compiler s.options w List.mem_cons_self hs
      rw [← hc] at hi hr
      refine List.pairwise_cons.2 ⟨fun t ht => ?_, ih hrest hi⟩
      -- All later heads come of `s'`, to which the first head is related.
      refine (forall_headsOf (I := fun c => I c ∧ R s.compiler c) ?_ ⟨hi, hr⟩ t ht).2
      intro c o v hv hc'
      obtain ⟨hi', hr'⟩ := hrest c o v hv hc'.1
      exact ⟨hi', htrans _ _ _ hc'.2 hr'⟩

/-- What the engine keeps of two compilers holds of two sessions at every head. -/
theorem forall₂_headsOf {R : Compiler → Compiler → Prop}
    (hR : ∀ c c' options, ∀ w ∈ work, R c c' →
      R (Compiler.engine.step options c w.2).2 (Compiler.engine.step options c' w.2).2)
    (hst : t.options = s.options) (hr : s.out.room = none)
    (hr' : t.out.room = none) (h : R s.compiler t.compiler) :
    List.Forall₂ (fun s t => R s.compiler t.compiler) (headsOf work s) (headsOf work t) := by
  induction work generalizing s t with
  | nil => exact .cons h .nil
  | cons w work ih =>
    refine .cons h ?_
    obtain ⟨s', hws, ha⟩ := (does_step w.1 w.2).answers s rfl rfl hr
    obtain ⟨t', hwt, ha'⟩ := (does_step w.1 w.2).answers t rfl rfl hr'
    obtain ⟨-, ho, hc⟩ := (does_step w.1 w.2).leaves s () s' rfl rfl hws
    obtain ⟨-, ho', hc'⟩ := (does_step w.1 w.2).leaves t () t' rfl rfl hwt
    rw [hws, hwt]
    refine ih (fun c c' o v hv => hR c c' o v (List.mem_cons_of_mem _ hv)) ?_ ha.room
      ha'.room ?_
    · rw [ho, ho', hst]
    · rw [hc, hc', hst]
      exact hR _ _ _ w List.mem_cons_self h

structure Said (s : Session) (e : Effect) : Prop where
  out : s.out.bytes.toList = e.out
  err : s.journal.bytes = e.err
  tally : s.tally = ⟨e.units, e.errors⟩

def opened (options : SessionOptions) (c : Compiler) : Session :=
  { options, compiler := c }

section Opened

variable {σ : Type} [TokenSupply σ]

/-- A session that begins with a compiler comes to say what the engine says, and leaves the
compiler that the engine leaves. -/
theorem run_opened (supply : σ) (options : SessionOptions) (hl : options.listing = false)
    (c : Compiler) :
    ∃ s, run supply (opened options c) = .ok () s ∧
      s.Said (Compiler.engine.run options c (Reader.start supply).items).1 ∧
      s.compiler = (Compiler.engine.run options c (Reader.start supply).items).2 := by
  obtain ⟨s, hs, ha⟩ := (does_run hl supply).answers (opened options c) rfl rfl rfl
  obtain ⟨-, -, hc⟩ := (does_run hl supply).leaves (opened options c) () s rfl rfl hs
  refine ⟨s, hs, ⟨ha.out, ha.err, ?_⟩, hc⟩
  exact congr (congrArg Tally.mk (ha.units.trans (Nat.zero_add _)))
    (ha.errors.trans (Nat.zero_add _))

theorem run_fresh (supply : σ) (options : SessionOptions) (hl : options.listing = false)
    (name : String) (cleaning : Bool) :
    ∃ s, run supply (fresh options name cleaning .unlimited) = .ok () s ∧
      s.Said (Compiler.engine.run options (.new name cleaning) (Reader.start supply).items).1 := by
  obtain ⟨s, hs, ha, -⟩ := run_opened supply options hl (.new name cleaning)
  exact ⟨s, hs, ha⟩

end Opened

end Session

end Reckoner
