import Reckoner.Proofs.Compiler.History
import Reckoner.Proofs.Session.Keeping
import Reckoner.Proofs.Session.Run

/-!
# Sessions do not warn

The compiler has two warnings to give: that a return was added where nothing is being built, and that
a body is not well formed.  Definitions and declarations lead a program to neither, so all that a
session has to tell are details (`Session.isDetail_of_run`).
-/

namespace Reckoner

def Notice.IsDetail (n : Notice) : Prop :=
  Level.warn.rank < n.level.rank

theorem Notice.isDetail_mk {level : Level} (h : Level.warn.rank < level.rank) (origin : Origin)
    (text : String) : IsDetail ⟨level, origin, text⟩ :=
  h

namespace Compiler

variable {c : Compiler} {d : Definition} {id : FuncId} {params : List String} {p : Program}

theorem isDetail_declare (c : Compiler) (proto : Prototype) :
    ∀ n ∈ (c.declare proto).notices, n.IsDetail := by
  unfold declare
  split
  · split <;> exact nofun
  · exact List.forall_mem_singleton.2 (Notice.isDetail_mk (by decide) _ _)

theorem isDetail_abandon (c : Compiler) (id : FuncId) (proto : Prototype) (reused : Bool)
    (e : CompileError) : ∀ n ∈ (c.abandon id proto reused e).notices, n.IsDetail := by
  unfold abandon
  split <;> exact List.forall_mem_singleton.2 (Notice.isDetail_mk (by decide) _ _)

theorem isDetail_accept (c : Compiler) (id : FuncId) (proto : Prototype) :
    ∀ n ∈ (c.accept id proto).notices, n.IsDetail := by
  have hcompiled : ∀ n ∈ [Notice.compiled proto], n.IsDetail :=
    List.forall_mem_singleton.2 (Notice.isDetail_mk (by decide) _ _)
  unfold accept
  split
  · refine List.forall_mem_append.2 ⟨?_, hcompiled⟩
    unfold Program.cleanupNotices
    split
    · exact List.forall_mem_singleton.2 (Notice.isDetail_mk (by decide) _ _)
    · exact nofun
  · exact hcompiled

/-- Building the body of a function that is there ends in its place, and what could be lowered is
well formed. -/
theorem isDetail_build (h : c.program.NamesLive) {f : Func} (hf : c.program.func? id = some f)
    (d : Definition) (reused : Bool) : ∀ n ∈ (c.build id d reused).notices, n.IsDetail := by
  unfold build
  rw [Program.params_of_func? hf]
  simp only
  cases hc : d.body.lower (c.program.begin id) (Scope.ofParams f.params) 0 with
  | error e => exact isDetail_abandon _ _ _ _ _
  | ok code =>
    have hplaced : (((c.program.begin id).append code.insts).finish code.value).1 = true :=
      congrArg Option.isSome hf
    rw [Program.lower_begin] at hc
    have hv : (((c.program.begin id).append code.insts).finish code.value).2.verify id = true :=
      Program.verify_commit h hf hc
    simp only [hplaced, hv, if_true]
    refine List.forall_mem_append.2 ⟨?_, isDetail_accept _ _ _⟩
    rw [Program.verifyNotices_of_verify hv]
    exact nofun

theorem isDetail_define (h : c.program.Named) (d : Definition) :
    ∀ n ∈ (c.define d).notices, n.IsDetail := by
  unfold define
  split
  · rename_i id hl
    obtain ⟨f, hf, -⟩ := h _ _ hl
    split
    · exact nofun
    · exact isDetail_build h.namesLive hf d true
  · have hf : (c.program.declare d.proto.name d.proto.params).2.func?
        (c.program.declare d.proto.name d.proto.params).1 =
          some ⟨d.proto.name, d.proto.params, none⟩ :=
      (Program.func?_declare _ _ _ _).trans (if_pos rfl)
    exact List.forall_mem_append.2
      ⟨List.forall_mem_singleton.2 (Notice.isDetail_mk (by decide) _ _),
        isDetail_build (c := { c with program := (c.program.declare _ _).2 })
          (h.declare _ _).namesLive hf d false⟩

end Compiler

namespace Session

/-- The names of its program are in order, and it has nothing to tell but details. -/
def Discreet (s : Session) : Prop :=
  s.Satisfies (fun c => c.program.Named) Notice.IsDetail

theorem keeps_handle (item : Item) :
    Keeps (fun c => c.program.Named) Notice.IsDetail (handle item) := by
  have hdefine (d : Definition) (c : Compiler) (hc : c.program.Named) :
      (c.define d).compiler.program.Named ∧ ∀ n ∈ (c.define d).notices, n.IsDetail :=
    ⟨Compiler.named_define hc d, Compiler.isDetail_define hc d⟩
  cases item with
  | prompt => exact keeps_prompt
  | malformed e => exact keeps_report e.message
  | fault e => exact keeps_countUnit.andThen (keeps_report e.message)
  | definition d =>
    exact keeps_define (Notice.isDetail_mk (by decide) _ _) (Notice.isDetail_mk (by decide) _ _)
      (hdefine d)
  | declaration p =>
    exact keeps_declare (Notice.isDetail_mk (by decide) _ _) (Notice.isDetail_mk (by decide) _ _)
      fun c hc => ⟨Compiler.named_declare hc p, Compiler.isDetail_declare c p⟩
  | expression d =>
    exact keeps_express (Notice.isDetail_mk (by decide) _ _) (Notice.isDetail_mk (by decide) _ _)
      (hdefine d) fun id c hc => hc.remove id
  | finished failure => exact keeps_finish failure

theorem keeps_deal {work : List (List Notice × Item)}
    (hw : ∀ w ∈ work, ∀ n ∈ w.1, n.IsDetail) :
    Keeps (fun c => c.program.Named) Notice.IsDetail (deal work) := by
  induction work with
  | nil => exact keeps_pure ()
  | cons w work ih =>
    have hs : Keeps (fun c => c.program.Named) Notice.IsDetail (step w.1 w.2) :=
      (keeps_note (hw w List.mem_cons_self)).andThen (keeps_handle w.2)
    exact hs.andThen (ih fun v hv => hw v (List.mem_cons_of_mem _ hv))

end Session

section Reading

variable {σ : Type} [TokenSupply σ]

theorem Traced.isDetail_failureNotice {before after : Option String} :
    ∀ n ∈ failureNotice before after, n.IsDetail := by
  unfold failureNotice
  split
  · exact List.forall_mem_singleton.2 (Notice.isDetail_mk (by decide) _ _)
  · exact nofun

theorem Traced.isDetail_tokenNotice {result : Lexed} : ∀ n ∈ tokenNotice result, n.IsDetail := by
  cases result with
  | ok t => exact List.forall_mem_singleton.2 (Notice.isDetail_mk (by decide) _ _)
  | error e => exact nofun

theorem Traced.isDetail_pull {s : Traced σ} (h : ∀ n ∈ s.trace, n.IsDetail) :
    ∀ n ∈ s.pull.2.trace, n.IsDetail := by
  intro n hn
  rw [← Array.mem_toList_iff, pull] at hn
  simp only [Array.toList_appendList, List.mem_append, Array.mem_toList_iff] at hn
  rcases hn with (hn | hn) | hn
  · exact h n hn
  · exact isDetail_failureNotice n hn
  · exact isDetail_tokenNotice n hn

def Traced.discreet : Bisimulation σ (Traced σ) fun _ => True where
  Rel s t := t.supply = s ∧ ∀ n ∈ t.trace, n.IsDetail
  fst_pull h := by rw [← h.1]; rfl
  snd_pull h := ⟨by rw [← h.1]; rfl, isDetail_pull h.2⟩
  failure h := by rw [← h.1]; rfl
  names _ token _ := token.names_true

theorem Reader.isDetail_of_mem_noted {r : Reader σ} {r' : Reader (Traced σ)}
    (h : Traced.discreet.Alike r.parser r'.parser) (hp : r'.phase = r.phase)
    (seen : Nat) : ∀ w ∈ r'.noted seen, ∀ n ∈ w.1, n.IsDetail := by
  induction hw : r.weight using Nat.strongRecOn generalizing r r' seen with
  | ind w ih =>
    subst hw
    rcases matches_next h hp with ⟨-, hn'⟩ | ⟨⟨item, s⟩, ⟨item', s'⟩, hn, hn', -, -, hs, hsp⟩
    · rw [noted_of_next_eq_none hn']
      exact nofun
    · rw [noted_of_next_eq_some hn']
      refine List.forall_mem_cons.2 ⟨fun n hm => ?_, ih _ (weight_next_lt hn) hs hsp _ rfl⟩
      refine hs.supply.2 n ?_
      have hm := Array.mem_toList_iff.1 hm
      rw [Array.mem_extract_iff_getElem] at hm
      obtain ⟨k, hk, rfl⟩ := hm
      exact Array.getElem_mem _

/-- A run does not warn. -/
theorem Session.isDetail_of_run {supply : σ} {s t : Session} (hs : s.Discreet)
    (h : run supply s = .ok () t) : ∀ n ∈ t.journal.notices, n.IsDetail := by
  have hw : ∀ w ∈ (Reader.start (Traced.mk supply #[])).noted 0, ∀ n ∈ w.1, n.IsDetail :=
    Reader.isDetail_of_mem_noted (r := .start supply)
      ⟨rfl, Token.names_true _, rfl, fun n hn => absurd hn (Array.not_mem_empty n)⟩ rfl 0
  unfold run at h
  rw [runFrom_eq_deal] at h
  have ht := keeps_deal hw s hs
  rw [Session.left_of_ok h] at ht
  exact ht.notices

end Reading

end Reckoner
