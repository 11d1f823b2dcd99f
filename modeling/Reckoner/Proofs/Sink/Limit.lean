import Mathlib.Data.List.Infix
import Reckoner.Journal

/-!
# Writing into limited room

An action writes to a sink that its state holds (`HasSink`).  `Attempts` follows the action from
one write to the next: it tells in which state which text comes to be written, if all writes before
have succeeded.  An action is `Limitable` if all that limited room does to it is to end it: as long
as its output fits, it does what it would do otherwise, and the first write that does not fit is the
last thing it does.  Whatever is put together from writes and from steps that do not look at the
sink is limitable (`Limitable.bind`, `limitable_forM`).
-/

namespace Reckoner

/-- A state that holds a sink, and beside it a record of what is said otherwise. -/
class HasSink (σ : Type) where
  sink : σ → Sink
  put : σ → Sink → σ
  aside : σ → List JournalEntry
  sink_put : ∀ s o, sink (put s o) = o
  put_put : ∀ s o o', put (put s o) o' = put s o'
  put_sink : ∀ s, put s (sink s) = s
  aside_put : ∀ s o, aside (put s o) = aside s

namespace HasSink

attribute [simp] sink_put put_put put_sink aside_put

variable {σ : Type} [HasSink σ]

def write (text : String) : EStateM SinkFull σ Unit := fun s =>
  match Sink.writeText text (sink s) with
  | .ok _ o => .ok () (put s o)
  | .error e o => .error e (put s o)

def written (s : σ) : Nat := (sink s).bytes.size

def limited (n : Nat) (s : σ) : σ := put s ⟨(sink s).bytes, some (n - written s)⟩

def filled (n : Nat) (bytes : Array UInt8) (s : σ) : σ := put s ⟨bytes.take n, some 0⟩

/-- From `s` to `t` nothing that was written or said is taken back. -/
structure Leads (s t : σ) : Prop where
  out : (sink s).bytes.toList <+: (sink t).bytes.toList
  aside : aside s <+: aside t

/-- On its way from a state, all writes so far having succeeded, the action comes to write `text`
in another state. -/
inductive Attempts : {α : Type} → EStateM SinkFull σ α → σ → String → σ → Prop
  | write (text : String) (s : σ) : Attempts (write text) s text s
  | first {α β : Type} {x : EStateM SinkFull σ α} {f : α → EStateM SinkFull σ β} {s t : σ}
    {text : String} (h : Attempts x s text t) : Attempts (x >>= f) s text t
  | later {α β : Type} {x : EStateM SinkFull σ α} {f : α → EStateM SinkFull σ β} {s s' t : σ}
    {text : String} {a : α} (hx : x s = .ok a s') (h : Attempts (f a) s' text t) :
    Attempts (x >>= f) s text t

/-- With a sink that takes everything the action comes to its end.  With room for `n` bytes in all
it comes to the same end if its output is no longer than that.  Otherwise it ends with the first
write that does not fit: its state is the one in which that write is attempted, but for the sink,
which holds the first `n` bytes of the whole output. -/
def Limitable {α : Type} (x : EStateM SinkFull σ α) (s : σ) : Prop :=
  (sink s).room = none →
    ∃ a t, x s = .ok a t ∧ (sink t).room = none ∧ Leads s t ∧
      ∀ n, written s ≤ n →
        (written t ≤ n → x (limited n s) = .ok a (limited n t)) ∧
        (n < written t → ∃ text u, Attempts x s text u ∧ Leads u t ∧
          written u ≤ n ∧ n < written u + (utf8 text).size ∧
          x (limited n s) = .error {} (filled n (sink t).bytes u))

variable {α β : Type} {s t u : σ}

theorem Leads.trans (h : Leads s t) (h' : Leads t u) : Leads s u :=
  ⟨h.out.trans h'.out, h.aside.trans h'.aside⟩

theorem Leads.written_le (h : Leads s t) : written s ≤ written t := h.out.length_le

theorem take_eq_of_prefix {a b : Array UInt8} {n : Nat} (h : a.toList <+: b.toList)
    (hn : n ≤ a.size) : a.take n = b.take n := by
  obtain ⟨c, hc⟩ := h
  have hb : a ++ c.toArray = b := Array.toList_inj.1 (by simpa using hc)
  rw [← hb]
  simp [hn]

theorem Leads.filled_eq (h : Leads s t) {n : Nat} (hn : n ≤ written s) (u : σ) :
    filled n (sink s).bytes u = filled n (sink t).bytes u := by
  rw [filled, filled, take_eq_of_prefix h.out hn]

/-- A step to `t` that leaves the sink alone and does not look at it. -/
theorem limitable_of_eq {x : EStateM SinkFull σ α} {a : α} (t : σ)
    (hx : ∀ o, x (put s o) = .ok a (put t o)) (hs : sink t = sink s) (ha : aside s <+: aside t) :
    Limitable x s := by
  intro hr
  have hxs : x s = .ok a t := by
    have h := hx (sink s)
    rwa [put_sink, ← hs, put_sink] at h
  have hw : written t = written s := congrArg (·.bytes.size) hs
  refine ⟨a, t, hxs, hs ▸ hr, ⟨hs ▸ List.prefix_refl _, ha⟩, fun n hn => ⟨fun _ => ?_, fun h => ?_⟩⟩
  · rw [limited, limited, hw, hs]
    exact hx _
  · exact absurd (hw ▸ hn) (Nat.not_le.2 h)

theorem limitable_pure (a : α) : Limitable (pure a) s :=
  limitable_of_eq s (fun _ => rfl) rfl (List.prefix_refl _)

theorem limitable_write (text : String) : Limitable (write text) s := by
  intro hr
  have hx : write text s = .ok () (put s ⟨(sink s).bytes ++ utf8 text, none⟩) := by
    unfold write Sink.writeText Sink.write
    rw [hr]
  have hs : written (put s ⟨(sink s).bytes ++ utf8 text, none⟩) =
      written s + (utf8 text).size := by
    simp [written]
  have hl : Leads s (put s ⟨(sink s).bytes ++ utf8 text, none⟩) := by
    constructor
    · rw [sink_put, Array.toList_append]
      exact List.prefix_append _ _
    · rw [aside_put]
  refine ⟨(), _, hx, by rw [sink_put], hl, fun n hn => ⟨fun h => ?_, fun h => ?_⟩⟩
  · rw [hs] at h
    have hle : (utf8 text).size ≤ n - written s := Nat.le_sub_of_add_le' h
    unfold write Sink.writeText Sink.write limited
    simp only [sink_put, put_put, if_pos hle, hs, Nat.sub_sub]
  · rw [hs] at h
    have hlt : ¬ (utf8 text).size ≤ n - written s := by omega
    refine ⟨text, s, .write text s, hl, hn, h, ?_⟩
    unfold write Sink.writeText Sink.write limited filled
    simp only [sink_put, put_put, if_neg hlt]
    have hfit : (sink s).bytes ++ (utf8 text).take (n - written s) =
        ((sink s).bytes ++ utf8 text).take n := by
      simp [written, Array.extract_eq_self_of_le hn]
    rw [hfit]

theorem Limitable.bind {x : EStateM SinkFull σ α} {f : α → EStateM SinkFull σ β}
    (h : Limitable x s) (hf : ∀ a t, x s = .ok a t → Limitable (f a) t) :
    Limitable (x >>= f) s := by
  intro hr
  obtain ⟨a, t, hx, hrt, hst, hn⟩ := h hr
  obtain ⟨b, u, hfx, hru, htu, hm⟩ := hf a t hx hrt
  refine ⟨b, u, (SinkFull.bind_of_ok hx).trans hfx, hru, hst.trans htu,
    fun n hsn => ⟨fun hu => ?_, fun hu => ?_⟩⟩
  · have ht : written t ≤ n := htu.written_le.trans hu
    exact (SinkFull.bind_of_ok ((hn n hsn).1 ht)).trans ((hm n ht).1 hu)
  · by_cases ht : written t ≤ n
    · obtain ⟨text, v, hv, hvu, hle, hlt, he⟩ := (hm n ht).2 hu
      exact ⟨text, v, .later hx hv, hvu, hle, hlt, (SinkFull.bind_of_ok ((hn n hsn).1 ht)).trans he⟩
    · obtain ⟨text, v, hv, hvt, hle, hlt, he⟩ := (hn n hsn).2 (Nat.not_le.1 ht)
      refine ⟨text, v, .first hv, hvt.trans htu, hle, hlt, SinkFull.bind_of_error ?_⟩
      rw [he, htu.filled_eq (Nat.le_of_not_le ht)]

theorem limitable_get_bind {f : σ → EStateM SinkFull σ β} (hf : ∀ o, f (put s o) = f s)
    (h : Limitable (f s) s) : Limitable (get >>= f) s := by
  intro hr
  obtain ⟨b, t, hx, hrt, hst, hn⟩ := h hr
  refine ⟨b, t, hx, hrt, hst, fun n hsn => ⟨fun ht => ?_, fun ht => ?_⟩⟩
  · exact (congrFun (hf _) _).trans ((hn n hsn).1 ht)
  · obtain ⟨text, u, hu, hut, hle, hlt, he⟩ := (hn n hsn).2 ht
    exact ⟨text, u, .later rfl hu, hut, hle, hlt, (congrFun (hf _) _).trans he⟩

theorem limitable_forM {γ : Type} {f : γ → EStateM SinkFull σ Unit} (items : List γ)
    (hf : ∀ i s, Limitable (f i) s) (s : σ) : Limitable (items.forM f) s := by
  induction items generalizing s with
  | nil => exact limitable_pure ()
  | cons i items ih => exact (hf i s).bind fun _ t _ => ih t

end HasSink

end Reckoner
