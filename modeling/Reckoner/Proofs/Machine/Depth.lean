import Reckoner.Proofs.Machine.Step

/-!
# The counter of the machine

The counter tells how many bodies have been entered and not yet left: those that wait for a call of
theirs, and the one being carried out (`Machine.active`).  A machine that starts with the counter at
zero keeps to that (`Balanced.step`), and the limit is checked before a body is entered.  So an
interpreter that has answered a request, with a value or with an error, is as good as a fresh one
(`serves_requests`).
-/

namespace Reckoner

namespace Machine.Phase

def active : Phase → Nat
  | .running _ | .leaving _ _ => 1
  | .idle | .calling _ _ | .returned _ => 0

end Machine.Phase

namespace Machine

/-- How many bodies have been entered and not yet left. -/
def active (m : Machine) : Nat :=
  m.waiting.length + m.phase.active

/-- The counter counts the bodies, which are not too many and none between two requests. -/
structure Balanced (m : Machine) : Prop where
  depth_eq : m.depth = m.active
  depth_le : m.depth ≤ Program.maxDepth
  idle : m.phase = .idle → m.waiting = []

variable {p : Program} {m : Machine}

theorem balanced_new (sink : Sink) (requests : List Request) : (new 0 sink requests).Balanced where
  depth_eq := rfl
  depth_le := Nat.zero_le _
  idle _ := rfl

theorem Balanced.enter {id : FuncId} {args : List Float} (h : m.Balanced)
    (hm : m.phase = .calling id args) : (m.enter p id args).Balanced := by
  have hdepth : m.depth = m.waiting.length := by simpa [active, hm, Phase.active] using h.depth_eq
  unfold Machine.enter
  split
  · exact ⟨hdepth, h.depth_le, nofun⟩
  · split
    · unfold settle
      split <;> exact ⟨hdepth, h.depth_le, nofun⟩
    · split
      · rename_i hlt
        exact ⟨congrArg (· + 1) hdepth, hlt, nofun⟩
      · exact ⟨hdepth, h.depth_le, nofun⟩

theorem Balanced.advance {f : Frame} (h : m.Balanced) (hm : m.phase = .running f) :
    (m.advance f).Balanced := by
  have hdepth : m.depth = m.waiting.length + 1 := by
    simpa [active, hm, Phase.active] using h.depth_eq
  unfold Machine.advance
  split <;> exact ⟨hdepth, h.depth_le, nofun⟩

theorem Balanced.resume {outcome : Except ExecError Float} (h : m.Balanced)
    (hm : m.phase = .returned outcome) : (m.resume outcome).Balanced := by
  have hdepth : m.depth = m.waiting.length := by simpa [active, hm, Phase.active] using h.depth_eq
  unfold Machine.resume
  split
  · rename_i hw
    exact ⟨hdepth, h.depth_le, fun _ => hw⟩
  · rename_i hw
    rw [hw] at hdepth
    exact ⟨hdepth, h.depth_le, nofun⟩
  · rename_i hw
    rw [hw] at hdepth
    exact ⟨hdepth, h.depth_le, nofun⟩

theorem Balanced.step (h : m.Balanced) : (m.step p).Balanced := by
  obtain ⟨phase, waiting, depth, sink, requests, answers⟩ := m
  cases phase with
  | idle =>
    cases requests with
    | nil => exact h
    | cons request requests => exact ⟨h.depth_eq, h.depth_le, nofun⟩
  | calling id args => exact h.enter rfl
  | running f => exact h.advance rfl
  | leaving name left =>
    exact ⟨Nat.sub_eq_of_eq_add h.depth_eq, Nat.le_trans (Nat.sub_le _ _) h.depth_le, nofun⟩
  | returned outcome => exact h.resume rfl

theorem Balanced.after (h : m.Balanced) (n : Nat) : (m.after p n).Balanced := by
  induction n with
  | zero => exact h
  | succ n ih =>
    rw [after_succ]
    exact ih.step

/-- No more than 256 bodies are ever being carried out inside one another, the counter is the number
of these bodies, and it is zero between two requests.  Every call comes to its end, with the bodies
that wait and with the counter as they were, whether it gives a value or fails.  So all requests are
answered, and each as if it were the only one. -/
theorem serves_requests (p : Program) (sink : Sink) (requests : List Request) :
    (∀ n, ((new 0 sink requests).after p n).depth = ((new 0 sink requests).after p n).active ∧
      ((new 0 sink requests).after p n).active ≤ 256 ∧
      (((new 0 sink requests).after p n).phase = .idle →
        ((new 0 sink requests).after p n).depth = 0)) ∧
      (∀ (m : Machine) (id : FuncId) (args : List Float),
        Reaches p { m with phase := .calling id args }
          (m.settle .returned (p.callWithin (256 - m.depth) id args m.sink))) ∧
      ∃ sink', Reaches p (new 0 sink requests)
        ⟨.idle, [], 0, sink', [], Callee.answers p.call sink requests⟩ := by
  refine ⟨fun n => ?_, reaches_returned p, reaches_idle p 0 sink requests []⟩
  have hn : ((new 0 sink requests).after p n).Balanced := (balanced_new sink requests).after n
  refine ⟨hn.depth_eq, hn.depth_eq ▸ hn.depth_le, fun hidle => ?_⟩
  rw [hn.depth_eq, active, hn.idle hidle, hidle]
  rfl

end Machine

end Reckoner
