import Reckoner.Proofs.Grammar.Lockstep

/-!
# Reading up to a semicolon

Two lists of results that are the same up to a semicolon give the same items up to there, and
nothing of what was read before has a part in what is read afterwards (`items_semicolon`).

The semicolon may end a unit, or be what makes a unit ill-formed, or stand where a unit is looked
for.  In each case the reader comes to skip it, with a parser at the semicolon itself: no
production goes on past it, and a malformed lexeme before it leaves it to come.
-/

namespace Reckoner

/-- The lists are the same up to a semicolon, and `ys` and `ys'` after it. -/
def Joined (ys ys' : List Lexed) (a b : List Lexed) : Prop :=
  ∃ zs, .ok .eof ∉ zs ∧ a = zs ++ .ok (.operator ';') :: ys ∧
    b = zs ++ .ok (.operator ';') :: ys'

namespace Parser

variable {ys ys' : List Lexed} {p p' : Parser (List Lexed)}

structure UpTo (ys ys' : List Lexed) (p p' : Parser (List Lexed)) : Prop where
  current : p'.current = p.current
  ne_eof : p.current ≠ .eof
  supply : Joined ys ys' p.supply p'.supply ∨
    p.current = .operator ';' ∧ p.supply = ys ∧ p'.supply = ys'

theorem UpTo.joined (h : UpTo ys ys' p p') (hc : p.current ≠ .operator ';') :
    Joined ys ys' p.supply p'.supply :=
  h.supply.resolve_right fun hs => hc hs.1

theorem advance_joined (h : Joined ys ys' p.supply p'.supply) :
    p'.advance.1 = p.advance.1 ∧ p.advance.1 ≠ .ok .eof ∧
      (Joined ys ys' p.advance.2.supply p'.advance.2.supply ∨
        p.advance.1 = .ok (.operator ';') ∧ p.advance.2.supply = ys ∧
          p'.advance.2.supply = ys') := by
  obtain ⟨t, a⟩ := p
  obtain ⟨t', b⟩ := p'
  obtain ⟨zs, hz, ha, hb⟩ := h
  simp only at ha hb
  subst ha hb
  cases zs with
  | nil => exact ⟨rfl, nofun, .inr ⟨rfl, rfl, rfl⟩⟩
  | cons r zs =>
    have hr : r ≠ .ok .eof := fun he => hz (he ▸ List.mem_cons_self)
    exact ⟨rfl, hr, .inl ⟨zs, fun hm => hz (List.mem_cons_of_mem _ hm), rfl, rfl⟩⟩

theorem joined_advance (h : Joined ys ys' p.supply p'.supply) {e : LexError}
    (he : p.advance.1 = .error e) : Joined ys ys' p.advance.2.supply p'.advance.2.supply := by
  refine (advance_joined h).2.2.resolve_right ?_
  rintro ⟨hs, -⟩
  cases he.symm.trans hs

theorem upTo_advance (h : Joined ys ys' p.supply p'.supply) {t : Token}
    (ht : p.advance.1 = .ok t) : UpTo ys ys' p.advance.2 p'.advance.2 := by
  obtain ⟨hf, hne, hs⟩ := advance_joined h
  have hc := current_advance_of_ok ht
  refine ⟨hc ▸ current_advance_of_ok (hf.trans ht), ?_, hs.imp_right ?_⟩
  · intro he
    rw [ht, ← hc, he] at hne
    exact hne rfl
  · rintro ⟨hs, hs₁, hs₂⟩
    rw [hc]
    exact ⟨Except.ok.inj (ht.symm.trans hs), hs₁, hs₂⟩

theorem UpTo.advance (h : UpTo ys ys' p p') (hc : p.current ≠ .operator ';') :
    UpTo ys ys' p.advance.2 p'.advance.2 := by
  have hj := h.joined hc
  cases hp : p.advance.1 with
  | ok t => exact upTo_advance hj hp
  | error e =>
    have hp' := (advance_joined hj).1.trans hp
    refine ⟨?_, ?_, .inl (joined_advance hj hp)⟩
    · rw [current_advance_of_error hp, current_advance_of_error hp', h.current]
    · rw [current_advance_of_error hp]
      exact h.ne_eof

def upTo (ys ys' : List Lexed) : Lockstep (List Lexed) (List Lexed) fun _ => True where
  Alike := UpTo ys ys'
  current h := h.current
  names _ := Token.names_true _
  fst_advance h hc := (advance_joined (h.joined hc)).1
  snd_advance h hc := h.advance hc
  failure _ _ := rfl

end Parser

namespace Reader

section Skipping

variable {σ : Type} [TokenSupply σ]

def resumed (supply : σ) : Reader σ :=
  ⟨.start supply, .skipping⟩

theorem items_of_next {r s : Reader σ} {item : Item} (h : r.next = some (item, s)) :
    r.items = item :: s.items := by
  unfold items
  rw [walk_of_next_eq_some h]
  rfl

theorem items_start (supply : σ) : (start supply).items = .prompt :: (resumed supply).items :=
  items_of_next rfl

theorem items_of_next_eq_none {r : Reader σ} (h : r.next = none) : r.items = [] := by
  unfold items
  rw [walk_of_next_eq_none h]
  rfl

theorem items_resumed_nil : (resumed ([] : List Lexed)).items = [.finished none] := by
  rw [items_of_next rfl, items_of_next_eq_none rfl]
  rfl

theorem atSkip_of_error {p : Parser σ} {e : LexError} (h : p.advance.1 = .error e) :
    atSkip p = (.malformed e, ⟨p.advance.2, .skipping⟩) := by
  unfold atSkip
  simp only [h]

theorem atSkip_of_ok {p : Parser σ} {t : Token} (h : p.advance.1 = .ok t) :
    atSkip p = atHead p.advance.2 := by
  unfold atSkip
  simp only [h]

theorem items_skipping (p : Parser σ) :
    (⟨p, .skipping⟩ : Reader σ).items = (resumed p.supply).items := by
  generalize hq : (Parser.start p.supply : Parser σ) = q
  have hs : q.supply = p.supply := by rw [← hq]; rfl
  unfold resumed
  rw [hq]
  clear hq
  induction hw : (⟨p, .skipping⟩ : Reader σ).weight using Nat.strongRecOn generalizing p q with
  | ind w ih =>
    subst hw
    have hf : q.advance.1 = p.advance.1 := by
      unfold Parser.advance
      rw [hs]
    have hn : q.advance.2.supply = p.advance.2.supply := by
      unfold Parser.advance
      rw [hs]
    cases hp : p.advance.1 with
    | error e =>
      have h₁ : (⟨p, .skipping⟩ : Reader σ).next = some _ := congrArg some (atSkip_of_error hp)
      have h₂ : (⟨q, .skipping⟩ : Reader σ).next = some _ :=
        congrArg some (atSkip_of_error (hf.trans hp))
      rw [items_of_next h₁, items_of_next h₂, ih _ (weight_next_lt h₁) _ _ hn rfl]
    | ok t =>
      have he : q.advance.2 = p.advance.2 := by
        unfold Parser.advance at hp ⊢
        simp only at hp ⊢
        rw [hs, hp]
        rfl
      have h₁ : (⟨p, .skipping⟩ : Reader σ).next = some _ := congrArg some (atSkip_of_ok hp)
      have h₂ : (⟨q, .skipping⟩ : Reader σ).next = some _ :=
        congrArg some (atSkip_of_ok (hf.trans hp))
      rw [items_of_next h₁, items_of_next h₂, he]

theorem phase_atHead {p : Parser σ} (h : p.current ≠ .eof) :
    (atHead p).2.phase = .head ∨ (atHead p).2.phase = .skipping := by
  have phase_ofParse {α : Type} (r : Parse p α) (item : α → Item) :
      (ofParse r item).2.phase = .head ∨ (ofParse r item).2.phase = .skipping := by
    unfold ofParse
    split
    · exact .inl rfl
    · exact .inr rfl
  unfold atHead
  split
  · contradiction
  · exact .inr rfl
  · exact phase_ofParse _ _
  · exact phase_ofParse _ _
  · exact phase_ofParse _ _

end Skipping

variable {ys ys' : List Lexed} {r r' : Reader (List Lexed)}

/-- The readers have come to the same place of the lists, before the semicolon or at it. -/
inductive UpTo (ys ys' : List Lexed) : Reader (List Lexed) → Reader (List Lexed) → Prop
  | head {p p' : Parser (List Lexed)} (h : p.UpTo ys ys' p') : UpTo ys ys' ⟨p, .head⟩ ⟨p', .head⟩
  | skipping {p p' : Parser (List Lexed)} (h : Joined ys ys' p.supply p'.supply) :
    UpTo ys ys' ⟨p, .skipping⟩ ⟨p', .skipping⟩
  | past {p p' : Parser (List Lexed)} (h : p.supply = ys) (h' : p'.supply = ys') :
    UpTo ys ys' ⟨p, .skipping⟩ ⟨p', .skipping⟩

theorem upTo_atHead {p p' : Parser (List Lexed)} (h : p.UpTo ys ys' p') :
    (atHead p').1 = (atHead p).1 ∧ UpTo ys ys' (atHead p).2 (atHead p').2 := by
  obtain ⟨hi, -, hp, hph⟩ := matches_atHead (L := Parser.upTo ys ys') h
  refine ⟨hi, ?_⟩
  have hphase := phase_atHead h.ne_eof
  generalize (atHead p).2 = r at *
  generalize (atHead p').2 = r' at *
  obtain ⟨q, phase⟩ := r
  obtain ⟨q', phase'⟩ := r'
  cases hph
  rcases hphase with rfl | rfl
  · exact .head hp
  · rcases hp.supply with hs | ⟨-, hs, hs'⟩
    · exact .skipping hs
    · exact .past hs hs'

theorem UpTo.items (h : UpTo ys ys' r r') :
    ∃ before, r.items = before ++ (resumed ys).items ∧
      r'.items = before ++ (resumed ys').items := by
  induction hw : r.weight using Nat.strongRecOn generalizing r r' with
  | ind w ih =>
    subst hw
    have step {n n' : Item × Reader (List Lexed)} (hn : r.next = some n) (hn' : r'.next = some n')
        (hi : n'.1 = n.1) (hs : UpTo ys ys' n.2 n'.2) :
        ∃ before, r.items = before ++ (resumed ys).items ∧
          r'.items = before ++ (resumed ys').items := by
      obtain ⟨before, hb, hb'⟩ := ih _ (weight_next_lt hn) hs rfl
      refine ⟨n.1 :: before, ?_, ?_⟩
      · rw [items_of_next hn, hb, List.cons_append]
      · rw [items_of_next hn', hb', hi, List.cons_append]
    cases h with
    | @head p p' h =>
      obtain ⟨hi, hu⟩ := upTo_atHead h
      exact step rfl rfl hi hu
    | @skipping p p' h =>
      have hf := (Parser.advance_joined h).1
      cases hp : p.advance.1 with
      | error e =>
        have hn := congrArg some (atSkip_of_error hp)
        have hn' := congrArg some (atSkip_of_error (hf.trans hp))
        exact step hn hn' rfl (.skipping (Parser.joined_advance h hp))
      | ok t =>
        obtain ⟨hi, hu⟩ := upTo_atHead (Parser.upTo_advance h hp)
        have hn := congrArg some (atSkip_of_ok hp)
        have hn' := congrArg some (atSkip_of_ok (hf.trans hp))
        exact step hn hn' hi hu
    | @past p p' h h' =>
      refine ⟨[], ?_, ?_⟩
      · rw [items_skipping, h, List.nil_append]
      · rw [items_skipping, h', List.nil_append]

/-- What is read after a semicolon does not depend on what is before it, nor the other way
round. -/
theorem items_semicolon {xs : List Lexed} (h : .ok .eof ∉ xs) (ys ys' : List Lexed) :
    ∃ before, (start (xs ++ .ok (.operator ';') :: ys)).items = before ++ (resumed ys).items ∧
      (start (xs ++ .ok (.operator ';') :: ys')).items = before ++ (resumed ys').items := by
  have hu : UpTo ys ys' (resumed (xs ++ .ok (.operator ';') :: ys))
      (resumed (xs ++ .ok (.operator ';') :: ys')) := .skipping ⟨xs, h, rfl, rfl⟩
  obtain ⟨before, hb, hb'⟩ := hu.items
  exact ⟨.prompt :: before, by rw [items_start, hb]; rfl, by rw [items_start, hb']; rfl⟩

end Reader

end Reckoner
