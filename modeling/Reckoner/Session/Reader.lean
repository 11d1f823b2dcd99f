import Reckoner.Grammar.Unit

/-!
# Reading units

A reader turns a token supply into the items that a session deals with, one at a time, and asks
the supply for no more than the item needs.  A unit is read up to the token after it, where the
next unit may begin; after a unit that is not well formed, and after a semicolon, the reader
first skips to the next token that can be read.

`Reader.walk` lists the items with the reader that each leaves.  It always ends, with the item
`finished`, since every item but the first and the last uses up a part of the supply or of the
steps between two tokens.
-/

namespace Reckoner

/-- What a reader comes upon. -/
inductive Item
  /-- A place where a new unit is asked for. -/
  | prompt
  /-- A malformed lexeme between units. -/
  | malformed (e : LexError)
  /-- A unit that is not well formed. -/
  | fault (e : ParseError)
  | definition (d : Definition)
  | declaration (p : Prototype)
  | expression (d : Definition)
  /-- The end, with the failure that brought it about if one did. -/
  | finished (failure : Option String)

inductive Phase
  | start
  | skipping
  | head
  | over
deriving DecidableEq

structure Reader (σ : Type) where
  parser : Parser σ
  phase : Phase := .start

namespace Reader

variable {σ : Type} [TokenSupply σ] {α : Type}

def start (supply : σ) : Reader σ :=
  { parser := .start supply }

/-- The item of a unit, and the reader after it. -/
def ofParse {p : Parser σ} (r : Parse p α) (item : α → Item) : Item × Reader σ :=
  match r.outcome with
  | .ok x => (item x, ⟨r.next, .head⟩)
  | .error e => (.fault e, ⟨r.next, .skipping⟩)

/-- The item that begins at the current token. -/
def atHead (p : Parser σ) : Item × Reader σ :=
  match p.current with
  | .eof => (.finished (TokenSupply.failure p.supply), ⟨p, .over⟩)
  | .operator ';' => (.prompt, ⟨p, .skipping⟩)
  | .defKeyword => ofParse p.definition .definition
  | .externKeyword => ofParse p.declaration .declaration
  | _ => ofParse p.standalone .expression

/-- The item after skipping the current token. -/
def atSkip (p : Parser σ) : Item × Reader σ :=
  let step := p.advance
  match step.1 with
  | .error e => (.malformed e, ⟨step.2, .skipping⟩)
  | .ok _ => atHead step.2

/-- The next item, unless the end has been read. -/
def next (r : Reader σ) : Option (Item × Reader σ) :=
  match r.phase with
  | .start => some (.prompt, ⟨r.parser, .skipping⟩)
  | .skipping => some (atSkip r.parser)
  | .head => some (atHead r.parser)
  | .over => none

def Phase.rank : Phase → Nat
  | .start => 2
  | .skipping => 1
  | .head => 2
  | .over => 0

/-- A bound on the items still to come. -/
def weight (r : Reader σ) : Nat :=
  3 * r.parser.weight + Phase.rank r.phase

theorem weight_ofParse_lt {p : Parser σ} (r : Parse p α) (item : α → Item)
    (h : ∀ x, r.outcome = .ok x → r.next.weight < p.weight) :
    (ofParse r item).2.weight < 3 * p.weight + 2 := by
  have hle := r.weight_le
  unfold ofParse
  split
  · rename_i x hx
    have := h x hx
    simp only [weight, Phase.rank]
    omega
  · simp only [weight, Phase.rank]
    omega

theorem weight_atHead_lt (p : Parser σ) : (atHead p).2.weight < 3 * p.weight + 2 := by
  unfold atHead
  split
  · simp only [weight, Phase.rank]; omega
  · simp only [weight, Phase.rank]; omega
  · exact weight_ofParse_lt _ _ fun _ => Parser.weight_definition_lt
  · exact weight_ofParse_lt _ _ fun _ => Parser.weight_declaration_lt
  · exact weight_ofParse_lt _ _ fun _ => Parser.weight_standalone_lt

theorem weight_atSkip_lt (p : Parser σ) : (atSkip p).2.weight < 3 * p.weight + 1 := by
  unfold atSkip
  simp only
  split
  · rename_i e he
    have := Parser.weight_advance_lt_of_error he
    simp only [weight, Phase.rank]
    omega
  · rename_i t ht
    have hle := p.weight_advance_le
    by_cases he : t = .eof
    · have hc := Parser.current_advance_of_ok ht
      simp only [atHead, hc, he, weight, Phase.rank]
      omega
    · have hlt := Parser.weight_advance_lt_of_ok ht he
      have := weight_atHead_lt p.advance.2
      omega

theorem weight_next_lt {r s : Reader σ} {item : Item} (h : r.next = some (item, s)) :
    s.weight < r.weight := by
  unfold next at h
  split at h
  · rename_i hp
    obtain ⟨rfl, rfl⟩ := Prod.mk.inj (Option.some.inj h)
    simp [weight, hp, Phase.rank]
  · rename_i hp
    have := weight_atSkip_lt r.parser
    rw [Option.some.inj h] at this
    simpa [weight, hp, Phase.rank] using this
  · rename_i hp
    have := weight_atHead_lt r.parser
    rw [Option.some.inj h] at this
    simpa [weight, hp, Phase.rank] using this
  · contradiction

/-- All items, each with the reader after it. -/
def walk (r : Reader σ) : List (Item × Reader σ) :=
  match _h : r.next with
  | none => []
  | some (item, s) => (item, s) :: s.walk
termination_by r.weight
decreasing_by exact weight_next_lt _h

/-- All items. -/
def items (r : Reader σ) : List Item :=
  r.walk.map Prod.fst

theorem walk_of_next_eq_none {r : Reader σ} (h : r.next = none) : r.walk = [] := by
  rw [walk]; split <;> simp_all

theorem walk_of_next_eq_some {r s : Reader σ} {item : Item} (h : r.next = some (item, s)) :
    r.walk = (item, s) :: s.walk := by
  rw [walk]; split <;> simp_all

end Reader

end Reckoner
