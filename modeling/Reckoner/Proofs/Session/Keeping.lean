import Reckoner.Session

/-!
# What a session keeps

`Session.left` is the session that an action leaves, whether the action comes to its end or the
output fails in the middle of it.  A requirement on the compiler and on single notices that holds of
a session holds of what an action leaves, if the compiler meets it again after each compilation and
all that is noted meets it (`Keeps`): the output, the diagnostics and the counts have no part in it.
-/

namespace Reckoner

namespace Session

variable {α β : Type} {s t : Session}

/-- The session that an action leaves, whether it comes to its end or not. -/
def left (x : SessionM α) (s : Session) : Session :=
  match x s with
  | .ok _ t => t
  | .error _ t => t

theorem left_of_ok {x : SessionM α} {a : α} (h : x s = .ok a t) : left x s = t := by
  rw [left, h]

theorem left_of_error {x : SessionM α} {e : SinkFull} (h : x s = .error e t) : left x s = t := by
  rw [left, h]

theorem left_bind_of_ok {x : SessionM α} {f : α → SessionM β} {a : α} (h : x s = .ok a t) :
    left (x >>= f) s = left (f a) t := by
  rw [left, SinkFull.bind_of_ok h]
  rfl

theorem left_bind_of_error {x : SessionM α} {f : α → SessionM β} {e : SinkFull}
    (h : x s = .error e t) : left (x >>= f) s = t :=
  left_of_error (SinkFull.bind_of_error h)

structure Satisfies (I : Compiler → Prop) (N : Notice → Prop) (s : Session) : Prop where
  compiler : I s.compiler
  notices : ∀ n ∈ s.journal.notices, N n

def Keeps (I : Compiler → Prop) (N : Notice → Prop) (x : SessionM α) : Prop :=
  ∀ s : Session, s.Satisfies I N → (left x s).Satisfies I N

variable {I : Compiler → Prop} {N : Notice → Prop} {x : SessionM α} {f : α → SessionM β}
  {d : Definition} {p : Prototype}

theorem Satisfies.of_eq (h : s.Satisfies I N) (hc : t.compiler = s.compiler)
    (hn : t.journal.notices = s.journal.notices) : t.Satisfies I N where
  compiler := by
    rw [hc]
    exact h.compiler
  notices := by
    rw [hn]
    exact h.notices

/-- Where nothing is required of notices. -/
theorem Keeps.compiler_left (h : Keeps I (fun _ => True) x) (hs : I s.compiler) :
    I (left x s).compiler :=
  (h s ⟨hs, fun _ _ => trivial⟩).compiler

theorem Keeps.bind (h : Keeps I N x) (hf : ∀ a, Keeps I N (f a)) : Keeps I N (x >>= f) := by
  intro s hs
  have hx := h s hs
  cases hr : x s with
  | ok a t =>
    rw [left_of_ok hr] at hx
    rw [left_bind_of_ok hr]
    exact hf a t hx
  | error e t =>
    rw [left_of_error hr] at hx
    rwa [left_bind_of_error hr]

theorem Keeps.andThen {x : SessionM Unit} {y : SessionM β} (h : Keeps I N x) (hy : Keeps I N y) :
    Keeps I N (x >>= fun _ => y) :=
  h.bind fun _ => hy

theorem keeps_get_bind {f : Session → SessionM β} (h : ∀ s, Keeps I N (f s)) :
    Keeps I N (get >>= f) :=
  fun s hs => h s s hs

theorem keeps_of_eq (h : ∀ s, (left x s).compiler = s.compiler ∧
    (left x s).journal.notices = s.journal.notices) : Keeps I N x :=
  fun s hs => hs.of_eq (h s).1 (h s).2

theorem keeps_pure (a : α) : Keeps I N (pure a) :=
  keeps_of_eq fun _ => ⟨rfl, rfl⟩

theorem keeps_report (message : String) : Keeps I N (report message) :=
  keeps_of_eq fun s => ⟨rfl, Journal.notices_addBytes s.journal _⟩

theorem keeps_countUnit : Keeps I N countUnit :=
  keeps_of_eq fun _ => ⟨rfl, rfl⟩

theorem keeps_prompt : Keeps I N prompt := by
  refine keeps_of_eq fun s => ?_
  cases hp : s.options.prompting with
  | true =>
    have hl : left prompt s = { s with journal := s.journal.addText "ready> " } := if_pos hp
    rw [hl]
    exact ⟨rfl, Journal.notices_addBytes s.journal _⟩
  | false =>
    have hl : left prompt s = s := if_neg (by simp [hp])
    rw [hl]
    exact ⟨rfl, rfl⟩

theorem keeps_write (text : String) : Keeps I N (write text) := by
  refine keeps_of_eq fun s => ?_
  unfold left write
  cases Sink.writeText text s.out with
  | ok _ out => exact ⟨rfl, rfl⟩
  | error e out => exact ⟨rfl, rfl⟩

theorem keeps_writeIf (wanted : Bool) (text : String) : Keeps I N (writeIf wanted text) := by
  cases wanted with
  | true => exact keeps_write text
  | false => exact keeps_pure ()

theorem keeps_list (id : FuncId) : Keeps I N (list id) :=
  keeps_get_bind fun _ => keeps_writeIf _ _

theorem keeps_evaluate (id : FuncId) : Keeps I N (evaluate id) := by
  refine keeps_of_eq fun s => ?_
  unfold left evaluate
  cases s.compiler.program.call id [] .unlimited with
  | ok value sink => exact ⟨rfl, Journal.notices_addBytes s.journal _⟩
  | error e sink => exact ⟨rfl, Journal.notices_addBytes s.journal _⟩

theorem keeps_note {ns : List Notice} (hn : ∀ n ∈ ns, N n) : Keeps I N (note ns) := by
  intro s hs
  refine ⟨hs.compiler, fun n h => ?_⟩
  change n ∈ (s.journal.addNotices ns).notices at h
  rw [Journal.notices_addNotices, List.mem_append] at h
  exact h.elim (hs.notices n) (hn n)

theorem keeps_remove {id : FuncId}
    (h : ∀ c, I c → I { c with program := c.program.remove id }) : Keeps I N (remove id) :=
  fun _ hs => ⟨h _ hs.compiler, hs.notices⟩

theorem keeps_adopt {compile : Compiler → Compiled}
    (h : ∀ c, I c → I (compile c).compiler ∧ ∀ n ∈ (compile c).notices, N n) :
    Keeps I N (adopt compile) := by
  intro s hs
  obtain ⟨hc, hn⟩ := h s.compiler hs.compiler
  exact ⟨hc, (keeps_note (I := I) hn s hs).notices⟩

theorem keeps_unit {n : Notice} {text : String} (hn : N n) (h : Keeps I N x) :
    Keeps I N (do
      countUnit
      note [n]
      writeIf (← get).options.units text
      x) :=
  keeps_countUnit.andThen ((keeps_note (List.forall_mem_singleton.2 hn)).andThen
    (keeps_get_bind fun _ => (keeps_writeIf _ text).andThen h))

theorem keeps_define (hp : N (.parsedDefinition d.proto)) (hd : N (.defined d.proto))
    (h : ∀ c, I c → I (c.define d).compiler ∧ ∀ n ∈ (c.define d).notices, N n) :
    Keeps I N (define d) := by
  refine keeps_unit hp ((keeps_adopt h).bind fun outcome => ?_)
  cases outcome with
  | ok id => exact (keeps_note (List.forall_mem_singleton.2 hd)).andThen (keeps_list id)
  | error e => exact keeps_report _

theorem keeps_declare (hp : N (.parsedDeclaration p)) (hd : N (.declared p))
    (h : ∀ c, I c → I (c.declare p).compiler ∧ ∀ n ∈ (c.declare p).notices, N n) :
    Keeps I N (declare p) := by
  refine keeps_unit hp ((keeps_adopt h).bind fun outcome => ?_)
  cases outcome with
  | ok id => exact (keeps_note (List.forall_mem_singleton.2 hd)).andThen (keeps_list id)
  | error e => exact keeps_report _

theorem keeps_express (hp : N (.parsedExpression d.body)) (hv : N (.evaluated d.body))
    (h : ∀ c, I c → I (c.define d).compiler ∧ ∀ n ∈ (c.define d).notices, N n)
    (hr : ∀ id c, I c → I { c with program := c.program.remove id }) :
    Keeps I N (express d) := by
  refine keeps_unit hp ((keeps_adopt h).bind fun outcome => ?_)
  cases outcome with
  | error e => exact keeps_report _
  | ok id =>
    refine (keeps_list id).andThen ((keeps_evaluate id).bind fun result => ?_)
    refine (keeps_remove (hr id)).andThen ?_
    cases result with
    | ok value => exact (keeps_note (List.forall_mem_singleton.2 hv)).andThen (keeps_write _)
    | error e => exact keeps_report _

theorem keeps_finish (failure : Option String) : Keeps I N (finish failure) := by
  have hm : Keeps I N (modify fun s => { s with inputFailure := failure } : SessionM Unit) :=
    keeps_of_eq fun _ => ⟨rfl, rfl⟩
  refine hm.andThen (keeps_get_bind fun s => ?_)
  have hl : Keeps I N (writeIf s.options.listing s.compiler.program.listing) := keeps_writeIf _ _
  cases s.options.watching with
  | false => exact (keeps_pure ()).andThen hl
  | true =>
    cases failure with
    | none => exact (keeps_pure ()).andThen hl
    | some message => exact (keeps_report _).andThen hl

end Session

end Reckoner
