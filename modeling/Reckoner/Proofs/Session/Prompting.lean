import Reckoner.Proofs.Session.Accounting
import Reckoner.Proofs.Source.Utf8
import Reckoner.Proofs.Token.Partition

/-!
# When a session asks for a unit

A session that asks for units is to ask for each of them once the unit before is done with
(`Session.AsksForUnits`).  It does so at its beginning and at every semicolon that stands where a
unit may begin; so the first unit is asked for, and any other one exactly if there is a semicolon
between it and the unit before (`Session.prompts_iff_semicolon`).  A unit may follow another one with
nothing in between.  And a unit that is not well formed reaches up to what makes it so: if that is a
semicolon, the semicolon is not between two units any more (`Session.not_asksForUnits`).
-/

namespace Reckoner

/-- The unit `unit` among items.  The items before it are `before`, which ends with the last unit
before it if there is one and is empty if not, and `gap`. -/
structure Item.Begins (items before gap : List Item) (unit : Item) : Prop where
  split : ∃ after, items = before ++ (gap ++ unit :: after)
  last : ∀ item ∈ before.getLast?, item.units = 1
  between : ∀ item ∈ gap, item.units = 0
  unit : unit.units = 1

namespace Session

def promptBytes : List UInt8 :=
  (utf8 "ready> ").toList

def PromptsBetween (s t : Session) : Prop :=
  ∃ written, t.journal.bytes = s.journal.bytes ++ written ∧ promptBytes <:+: written

/-- When a unit begins, the session has asked for one since it was done with the unit before, or
since its own beginning.  There is a head before each item and one at the end. -/
def AsksForUnits (items : List Item) (heads : List Session) : Prop :=
  ∀ before gap unit, Item.Begins items before gap unit →
    ∃ s t, heads[before.length]? = some s ∧ heads[before.length + gap.length]? = some t ∧
      PromptsBetween s t

end Session

namespace Lexer

/-- A malformed lexeme consists of digits and points. -/
theorem isNumeral_of_malformed {l : Lexer} {text : String}
    (h : .error (.malformedNumber text) ∈ l.results) :
    ∀ c ∈ text.toList, Decimal.isNumeral c = true := by
  fun_induction results l with
  | case1 l step hend => contradiction
  | case2 l step hend ih =>
    rcases List.mem_cons.1 h with hr | hr
    · obtain ⟨layout, lexeme, -, -, hs⟩ := (scans_next l).exists_spells fun he => by
        rw [he] at hr
        contradiction
      rw [← hr] at hs
      cases hs with
      | malformed _ hrun _ =>
        rw [String.toList_ofList]
        exact hrun.all
    · exact ih hr

end Lexer

namespace Item

/-- What is written beside the output about an item between units, if units are asked for. -/
def aside : Item → List UInt8
  | .prompt => Session.promptBytes
  | .malformed e => (Effect.error e.message).err
  | _ => []

inductive Between : Item → Prop
  | prompt : Between .prompt
  | malformed (e : LexError) : Between (.malformed e)

end Item

namespace Compiler

variable {options : SessionOptions} {items : List Item}

theorem err_effects (c : Compiler) (hp : options.prompting = true)
    (h : ∀ item ∈ items, item.Between) :
    (c.effects options items).err = items.flatMap Item.aside := by
  induction items generalizing c with
  | nil => rfl
  | cons item items ih =>
    obtain ⟨hfirst, hrest⟩ := List.forall_mem_cons.1 h
    have hitem : (c.effect options item).err = item.aside := by
      cases hfirst with
      | prompt =>
        simp only [effect, Engine.step, if_pos hp]
        rfl
      | malformed e => rfl
    rw [effects, List.flatMap_cons, ← hitem, ← ih _ hrest]
    rfl

end Compiler

namespace Session

section Written

variable {items : List Item}

theorem not_mem_aside {text : String} (h : ∀ c ∈ text.toList, Decimal.isNumeral c = true) :
    UInt8.ofNat '>'.toNat ∉ (Item.malformed (.malformedNumber text)).aside := by
  intro hm
  have hm : '>' ∈ ("error: " ++ ("malformed number literal '" ++ text ++ "'") ++ "\n").toList := by
    refine mem_of_mem_encode (by decide) ?_
    rw [← toList_utf8]
    exact hm
  simp only [String.toList_append, List.mem_append, or_assoc] at hm
  rcases hm with hm | hm | hm | hm | hm
  · exact absurd hm (by decide)
  · exact absurd hm (by decide)
  · exact absurd (h _ hm) (by decide)
  · exact absurd hm (by decide)
  · exact absurd hm (by decide)

/-- What is written between two units has a prompt in it exactly if one is called for there. -/
theorem infix_asides_iff (h : ∀ item ∈ items, item.Between)
    (hn : ∀ text, .malformed (.malformedNumber text) ∈ items →
      ∀ c ∈ text.toList, Decimal.isNumeral c = true) :
    promptBytes <:+: items.flatMap Item.aside ↔ .prompt ∈ items := by
  constructor
  · intro hi
    -- nothing but a prompt has this character in it
    have hm : UInt8.ofNat '>'.toNat ∈ items.flatMap Item.aside := hi.subset (by decide)
    obtain ⟨item, hitem, hm⟩ := List.mem_flatMap.1 hm
    cases h item hitem with
    | prompt => exact hitem
    | malformed e =>
      obtain ⟨text⟩ := e
      exact absurd hm (not_mem_aside (hn text hitem))
  · intro hm
    obtain ⟨front, back, rfl⟩ := List.append_of_mem hm
    refine ⟨front.flatMap Item.aside, back.flatMap Item.aside, ?_⟩
    simp [Item.aside]

end Written

section Heads

variable {before : List (List Notice × Item)} {s t : Session}

theorem deal_append (a b : List (List Notice × Item)) :
    deal (a ++ b) = deal a >>= fun _ => deal b :=
  List.forM_append

theorem getElem?_headsOf (h : deal before s = .ok () t) (rest : List (List Notice × Item)) :
    (headsOf (before ++ rest) s)[before.length]? = some t := by
  induction before generalizing s with
  | nil =>
    cases h
    cases rest <;> rfl
  | cons w before ih =>
    obtain ⟨a, s', hw, h⟩ := SinkFull.bind_eq_ok h
    have hw : step w.1 w.2 s = .ok a s' := hw
    rw [List.cons_append, headsOf, hw, List.length_cons, List.getElem?_cons_succ]
    exact ih h

theorem exists_heads {work : List (List Notice × Item)} {before gap rest : List Item}
    (hr : s.out.room = none) (h : work.map Prod.snd = before ++ (gap ++ rest)) :
    ∃ t u, (headsOf work s)[before.length]? = some t ∧
      (headsOf work s)[before.length + gap.length]? = some u ∧
      u.journal.bytes = t.journal.bytes ++ (t.compiler.effects s.options gap).err := by
  obtain ⟨w₁, w, rfl, rfl, hw⟩ := List.map_eq_append_iff.1 h
  obtain ⟨w₂, w₃, rfl, rfl, rfl⟩ := List.map_eq_append_iff.1 hw
  obtain ⟨t, ht, ha⟩ := (does_deal w₁).answers s rfl rfl hr
  obtain ⟨-, ho, -⟩ := (does_deal w₁).leaves s () t rfl rfl ht
  obtain ⟨u, hu, ha'⟩ := (does_deal w₂).answers t ho rfl ha.room
  have hdeal : deal (w₁ ++ w₂) s = .ok () u := by
    rw [deal_append]
    exact (SinkFull.bind_of_ok ht).trans hu
  refine ⟨t, u, ?_, ?_, ha'.err⟩
  · rw [List.length_map]
    exact getElem?_headsOf ht (w₂ ++ w₃)
  · rw [← List.append_assoc, List.length_map, List.length_map, ← List.length_append]
    exact getElem?_headsOf hdeal w₃

end Heads

end Session

section Pieces

open Reckoner.Parser Reader

/-- A piece that does not begin a unit is a semicolon or a malformed lexeme. -/
inductive Piece.Between : Piece → Prop
  | semicolon : Between .semicolon
  | malformed (e : LexError) : Between (.malformed e)

theorem Piece.between_of_mem_malformed (es : List LexError) :
    ∀ piece ∈ es.map Piece.malformed, piece.item.units = 0 → piece.Between := by
  intro piece hp _
  obtain ⟨e, -, rfl⟩ := List.mem_map.1 hp
  exact .malformed e

theorem Parser.Cuts.between {p : Parser Lexer} {pieces : List Piece} (h : Cuts p pieces) :
    ∀ piece ∈ pieces, piece.item.units = 0 → piece.Between := by
  induction h with
  | semicolon _ _ ih =>
    exact List.forall_mem_cons.2 ⟨fun _ => .semicolon,
      List.forall_mem_append.2 ⟨Piece.between_of_mem_malformed _, ih⟩⟩
  | @unit p q item ts pieces h _ _ ih =>
    have hu : item.units = 1 :=
      of_atHead (P := fun item => item.units = 1) (fun _ => rfl) (fun _ => rfl) (fun _ => rfl) h
    exact List.forall_mem_cons.2 ⟨fun h0 => absurd (hu.symm.trans h0) Nat.one_ne_zero, ih⟩
  | fault _ _ _ _ ih =>
    exact List.forall_mem_cons.2 ⟨fun h0 => absurd h0 Nat.one_ne_zero,
      List.forall_mem_append.2 ⟨Piece.between_of_mem_malformed _, ih⟩⟩
  | _ => exact nofun

variable {pieces : List Piece} {failure : Option String} {items before gap : List Item} {unit : Item}

theorem Item.Begins.front_eq (h : Begins items before gap unit)
    (hi : items = .prompt :: (pieces.map Piece.item ++ [.finished failure])) :
    before ++ gap = .prompt :: (pieces.take ((before ++ gap).length - 1)).map Piece.item := by
  obtain ⟨after, hs⟩ := h.split
  rw [hi, ← List.append_assoc] at hs
  generalize before ++ gap = front at hs
  cases front with
  | nil =>
    have hu := h.unit
    rw [← (List.cons.inj hs).1] at hu
    contradiction
  | cons item front =>
    rw [List.cons_append, List.cons.injEq] at hs
    obtain ⟨rfl, hs⟩ := hs
    have hlength := congrArg List.length hs
    simp only [List.length_append, List.length_map, List.length_cons, List.length_nil] at hlength
    have hfront := congrArg (List.take front.length) hs
    rw [List.take_left' rfl, List.take_append_of_le_length (by rw [List.length_map]; omega),
      ← List.map_take] at hfront
    rw [List.length_cons, Nat.add_sub_cancel, hfront]

theorem Item.Begins.gap_eq (h : Begins items before gap unit)
    (hi : items = .prompt :: (pieces.map Piece.item ++ [.finished failure])) (hb : before ≠ []) :
    gap = ((pieces.drop (before.length - 1)).take gap.length).map Piece.item := by
  have hfront := h.front_eq hi
  cases before with
  | nil => contradiction
  | cons item before =>
    rw [List.cons_append, List.cons.injEq] at hfront
    have hgap := congrArg (List.drop before.length) hfront.2
    rw [List.drop_left' rfl, ← List.map_drop, List.drop_take] at hgap
    have hlength : (item :: (before ++ gap)).length - 1 - before.length = gap.length := by
      rw [List.length_cons, List.length_append, Nat.add_sub_cancel, Nat.add_sub_cancel_left]
    rw [hlength] at hgap
    exact hgap

theorem Item.Begins.between_of_cuts (h : Begins items before gap unit)
    (hi : items = .prompt :: (pieces.map Piece.item ++ [.finished failure]))
    (hp : ∀ piece ∈ pieces, piece.item.units = 0 → piece.Between) :
    ∀ item ∈ gap, item.Between := by
  intro item hitem
  have hmem : item ∈ before ++ gap := List.mem_append_right _ hitem
  rw [h.front_eq hi] at hmem
  rcases List.mem_cons.1 hmem with rfl | hmem
  · exact .prompt
  · obtain ⟨piece, hpiece, rfl⟩ := List.mem_map.1 hmem
    cases hp piece (List.mem_of_mem_take hpiece) (h.between _ hitem) with
    | semicolon => exact .prompt
    | malformed e => exact .malformed e

/-- Between two units a prompt stands for a semicolon. -/
theorem Piece.prompt_mem_iff (h : ∀ piece ∈ pieces, piece.Between) :
    .prompt ∈ pieces.map Piece.item ↔ .ok (.operator ';') ∈ pieces.flatMap Piece.results := by
  rw [List.mem_map, List.mem_flatMap]
  refine exists_congr fun piece => and_congr_right fun hp => ?_
  cases h piece hp with
  | semicolon => simp [item, results]
  | malformed e => simp [item, results]

theorem Item.Begins.prompt_mem_iff (h : Begins items before gap unit)
    (hi : items = .prompt :: (pieces.map Piece.item ++ [.finished failure]))
    (hp : ∀ piece ∈ pieces, piece.item.units = 0 → piece.Between) :
    .prompt ∈ gap ↔ before = [] ∨
      .ok (.operator ';') ∈
        ((pieces.drop (before.length - 1)).take gap.length).flatMap Piece.results := by
  by_cases hb : before = []
  · have hfront := h.front_eq hi
    rw [hb, List.nil_append] at hfront
    refine iff_of_true ?_ (.inl hb)
    rw [hfront]
    exact List.mem_cons_self
  · have hgap := h.gap_eq hi hb
    have hpieces : ∀ piece ∈ (pieces.drop (before.length - 1)).take gap.length,
        piece.Between := by
      intro piece hpiece
      have hmem : piece.item ∈ gap := by
        rw [hgap]
        exact List.mem_map_of_mem hpiece
      exact hp piece (List.mem_of_mem_drop (List.mem_of_mem_take hpiece)) (h.between _ hmem)
    rw [or_iff_right hb, ← Piece.prompt_mem_iff hpieces, ← hgap]

end Pieces

namespace Session

theorem promptsBetween_iff {s t : Session} {written : List UInt8}
    (h : t.journal.bytes = s.journal.bytes ++ written) :
    PromptsBetween s t ↔ promptBytes <:+: written := by
  constructor
  · rintro ⟨written', h', hi⟩
    rwa [← List.append_cancel_left (h'.symm.trans h)]
  · exact fun hi => ⟨written, h, hi⟩

/-- Before a unit, the session has asked for one exactly if a prompt is among the items since the
unit before. -/
theorem exists_heads_of_begins (source : Source) {s : Session} (hp : s.options.prompting = true)
    (hr : s.out.room = none) {before gap : List Item} {unit : Item}
    (h : Item.Begins (Reader.start (Lexer.ofSource source)).items before gap unit)
    (hb : ∀ item ∈ gap, item.Between) :
    ∃ t u, (heads (Lexer.ofSource source) s)[before.length]? = some t ∧
      (heads (Lexer.ofSource source) s)[before.length + gap.length]? = some u ∧
      (PromptsBetween t u ↔ .prompt ∈ gap) := by
  obtain ⟨after, hs⟩ := h.split
  have hwork : ((Reader.start (Traced.mk (Lexer.ofSource source) #[])).noted 0).map Prod.snd =
      before ++ (gap ++ unit :: after) := by
    rw [Reader.map_snd_noted, Reader.items_traced, hs]
  have hnumeral : ∀ text, .malformed (.malformedNumber text) ∈ gap →
      ∀ c ∈ text.toList, Decimal.isNumeral c = true := by
    intro text hm
    have hitem : .malformed (.malformedNumber text) ∈
        (Reader.start (Lexer.ofSource source)).items := by
      rw [hs]
      exact List.mem_append_right _ (List.mem_append_left _ hm)
    exact Lexer.isNumeral_of_malformed
      (Reader.offender_subset_results _ _ hitem List.mem_cons_self)
  obtain ⟨t, u, ht, hu, hbytes⟩ := exists_heads hr hwork
  rw [Compiler.err_effects _ hp hb] at hbytes
  refine ⟨t, u, ht, hu, ?_⟩
  rw [promptsBetween_iff hbytes, infix_asides_iff hb hnumeral]

/-- Where a session asks for units.  The results of its lexer are cut into pieces, and the items that
it deals with, but for the first and the last one, are those of the pieces.  The session asks for the
first unit before it begins.  It asks for any other unit, after it is done with the unit before and
before it begins with this one, exactly if a semicolon is among the results between the pieces of the
two.  The piece of a unit that is not well formed includes what makes it so. -/
theorem prompts_iff_semicolon (source : Source) (options : SessionOptions) (c : Compiler) :
    let begun := opened { options with prompting := true } c
    let items := (Reader.start (Lexer.ofSource source)).items
    let heads := heads (Lexer.ofSource source) begun
    ∃ pieces failure ended,
      (let p := Parser.start (Lexer.ofSource source);
        ∃ rest, pieces = p.skip.1.map .malformed ++ rest ∧ p.skip.2.Cuts rest) ∧
      pieces.flatMap Piece.results = (Lexer.ofSource source).results ∧
      items = .prompt :: (pieces.map Piece.item ++ [.finished failure]) ∧
      run (Lexer.ofSource source) begun = .ok () ended ∧
      ∀ before gap unit, Item.Begins items before gap unit →
        ∃ s t, heads[before.length]? = some s ∧ heads[before.length + gap.length]? = some t ∧
          (PromptsBetween s t ↔ before = [] ∨
            .ok (.operator ';') ∈
              ((pieces.drop (before.length - 1)).take gap.length).flatMap Piece.results) := by
  intro begun items heads
  obtain ⟨rest, hcuts, hcovers⟩ :=
    Reader.exists_cuts _ (Parser.settled_skip (.start (Lexer.ofSource source)))
  obtain ⟨hresults, -, failure, hitems⟩ := hcovers.skip
  have hall : items = .prompt :: _ := (Reader.items_start _).trans (congrArg _ hitems)
  obtain ⟨ended, hended, -⟩ :=
    (does_run_effects (Lexer.ofSource source)).answers begun rfl rfl rfl
  have hpieces := List.forall_mem_append.2
    ⟨Piece.between_of_mem_malformed (Parser.start (Lexer.ofSource source)).skip.1, hcuts.between⟩
  refine ⟨_, failure, ended, ⟨rest, rfl, hcuts⟩, hresults, hall, hended, ?_⟩
  intro before gap unit hbegins
  obtain ⟨s, t, hs, ht, hiff⟩ :=
    exists_heads_of_begins source (s := begun) rfl rfl hbegins
      (hbegins.between_of_cuts hall hpieces)
  exact ⟨s, t, hs, ht, hiff.trans (hbegins.prompt_mem_iff hall hpieces)⟩

/-- The unit that is not well formed reaches up to the first semicolon.  The second unit is not
asked for. -/
theorem not_asksForUnits :
    let supply := Lexer.ofText "1+;2;".toList
    let begun := fresh { prompting := true } "test" true .unlimited
    ¬ AsksForUnits (Reader.start supply).items (heads supply begun) := by
  intro supply begun hasks
  have hunits : (Reader.start supply).items.map Item.units = [0, 1, 1, 0, 0] := by
    decide +kernel
  obtain ⟨first, items, hitems, -, hunits⟩ := List.map_eq_cons_iff.1 hunits
  obtain ⟨fault, items, rfl, hfault, hunits⟩ := List.map_eq_cons_iff.1 hunits
  obtain ⟨unit, items, rfl, hunit, -⟩ := List.map_eq_cons_iff.1 hunits
  have hbegins : Item.Begins (Reader.start supply).items [first, fault] [] unit :=
    { split := ⟨items, hitems⟩
      last := fun item hlast => Option.some.inj hlast ▸ hfault
      between := nofun
      unit := hunit }
  obtain ⟨s, t, hs, ht, written, hbytes, hprompt⟩ := hasks _ _ _ hbegins
  -- nothing comes between the two units, so the session is the same one before and after
  obtain rfl : s = t := Option.some.inj (hs.symm.trans ht)
  obtain rfl : written = [] := List.self_eq_append_right.1 hbytes
  exact absurd hprompt (by decide)

end Session

end Reckoner
