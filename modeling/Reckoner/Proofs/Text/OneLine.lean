import Reckoner.Proofs.Decimal.Reading
import Reckoner.Proofs.Token.Partition

/-!
# Texts on one line

Which characters end a line differs from reader to reader; here it is all that any of them takes for
an end.  Every such character is blank.  So it is no part of a token, and the texts of a result of
lexing, which may hold any character that an operator can be, are on one line all the same
(`Token.oneLine_description`, `Lexed.exists_listedAs`).
-/

namespace Reckoner

namespace Text

/-- The line feed, the other controls that end a line, and the separators of lines and of
paragraphs. -/
def isLineBreak (c : Char) : Bool :=
  inRanges [(0xA, 0xD), (0x85, 0x85), (0x2028, 0x2029)] c.toNat

def OneLine (text : String) : Prop :=
  ∀ c ∈ text.toList, isLineBreak c = false

theorem forall_isLineBreak_iff {cs : List Char} :
    (cs.all fun c => !isLineBreak c) = true ↔ ∀ c ∈ cs, isLineBreak c = false := by
  simp

instance (text : String) : Decidable (OneLine text) :=
  decidable_of_iff _ forall_isLineBreak_iff

theorem isLineBreak_eq_false_of_not_isBlank {c : Char} (h : isBlank c = false) :
    isLineBreak c = false := by
  simp only [isBlank, isLineBreak, inRanges, blankRanges, List.any_cons, List.any_nil,
    Bool.or_false, Bool.or_eq_false_iff, Bool.and_eq_false_iff, decide_eq_false_iff_not] at h ⊢
  omega

theorem isLineBreak_eq_false {c : Char} (h : 0x20 < c.toNat) (h' : c.toNat < 0x7F) :
    isLineBreak c = false :=
  isLineBreak_eq_false_of_not_isBlank (isBlank_eq_false h h')

theorem isLineBreak_of_isAlphanum {c : Char} (h : c.isAlphanum = true) : isLineBreak c = false := by
  rw [Char.isAlphanum, Bool.or_eq_true, Lexer.isAlpha_iff, Lexer.isDigit_iff] at h
  exact isLineBreak_eq_false (by omega) (by omega)

theorem isLineBreak_of_isTextual {c : Char} (h : Decimal.isTextual c = true) :
    isLineBreak c = false := by
  simp only [Decimal.isTextual, Bool.or_eq_true, beq_iff_eq] at h
  rcases h with (h | rfl) | rfl
  · exact isLineBreak_of_isAlphanum h
  · rfl
  · rfl

theorem oneLine_append {a b : String} : OneLine (a ++ b) ↔ OneLine a ∧ OneLine b := by
  unfold OneLine
  rw [String.toList_append]
  exact List.forall_mem_append

theorem oneLine_toString {n : Nat} : OneLine (toString n) := by
  intro c hc
  rw [Nat.toString_eq_ofList_toDigits, String.toList_ofList] at hc
  exact isLineBreak_of_isAlphanum (by simp [Char.isAlphanum, Decimal.isDigit_of_mem_toDigits hc])

theorem oneLine_number (l : Decimal.Layout) (x : Float) : OneLine (l.text x) :=
  fun c hc => isLineBreak_of_isTextual (Decimal.isTextual_of_mem_text c hc)

theorem oneLine_char {c : Char} (h : isLineBreak c = false) : OneLine c.toString := by
  intro d hd
  rw [Char.toString_eq_singleton, String.toList_singleton] at hd
  exact List.mem_singleton.1 hd ▸ h

theorem isAlphanum_of_mem_hexDigits {n : Nat} :
    ∀ c ∈ Nat.toDigits 16 n, c.isAlphanum = true := by
  have hdigit : ∀ k < 16, k.digitChar.isAlphanum = true := by decide
  induction n using Nat.strongRecOn with
  | ind n ih =>
    by_cases h : n < 16
    · rw [Nat.toDigits_of_lt_base h]
      exact List.forall_mem_singleton.2 (hdigit n h)
    · rw [Nat.toDigits_of_base_le (by decide) (by omega)]
      exact List.forall_mem_append.2 ⟨ih _ (by omega),
        List.forall_mem_singleton.2 (hdigit _ (Nat.mod_lt n (by decide)))⟩

def letterEscapes : List (Char × Char) :=
  [('\x00', '0'), ('\t', 't'), ('\r', 'r'), ('\n', 'n'), ('\\', '\\'), ('\x27', '\x27')]

inductive ShownAs : Char → List Char → Prop
  | letter {c l : Char} (h : (c, l) ∈ letterEscapes) : ShownAs c ['\\', l]
  | number {c : Char} (h : c ∉ letterEscapes.map Prod.fst)
    (hc : isUnseen c = true ∨ isAttaching c = true) :
    ShownAs c ("\\u\x7b".toList ++ Nat.toDigits 16 c.toNat ++ ['\x7d'])
  | itself {c : Char} (h : c ∉ letterEscapes.map Prod.fst) (hu : isUnseen c = false)
    (ha : isAttaching c = false) : ShownAs c [c]

theorem mem_letterEscapes_of_escapeLetter? {c l : Char} (h : escapeLetter? c = some l) :
    (c, l) ∈ letterEscapes := by
  unfold escapeLetter? at h
  split_ifs at h <;> cases h <;> subst c <;> decide

theorem not_mem_letterEscapes_of_escapeLetter? {c : Char} (h : escapeLetter? c = none) :
    c ∉ letterEscapes.map Prod.fst := by
  unfold escapeLetter? at h
  split_ifs at h
  simp_all [letterEscapes]

theorem shownAs_escapeChar (c : Char) : ShownAs c (escapeChar c) := by
  unfold escapeChar
  split
  · rename_i l hl
    exact .letter (mem_letterEscapes_of_escapeLetter? hl)
  · rename_i hl
    have h := not_mem_letterEscapes_of_escapeLetter? hl
    split
    · rename_i hc
      exact .number h (by simpa using hc)
    · rename_i hc
      rw [Bool.or_eq_true, not_or, Bool.not_eq_true, Bool.not_eq_true] at hc
      exact .itself h hc.1 hc.2

/-- A character that is shown as itself is the only one that could be a line break there. -/
theorem ShownAs.oneLine {c : Char} {shown : List Char} (h : ShownAs c shown)
    (hc : isLineBreak c = false) : OneLine (String.ofList shown) := by
  unfold OneLine
  rw [String.toList_ofList]
  cases h with
  | letter h =>
    have hl : ∀ e ∈ letterEscapes, isLineBreak e.2 = false := by decide
    exact List.forall_mem_cons.2 ⟨rfl, List.forall_mem_singleton.2 (hl _ h)⟩
  | number =>
    have hfront : ∀ d ∈ "\\u\x7b".toList, isLineBreak d = false := forall_isLineBreak_iff.1 rfl
    have hnumber : ∀ d ∈ Nat.toDigits 16 c.toNat, isLineBreak d = false := fun d hd =>
      isLineBreak_of_isAlphanum (isAlphanum_of_mem_hexDigits d hd)
    exact List.forall_mem_append.2
      ⟨List.forall_mem_append.2 ⟨hfront, hnumber⟩, List.forall_mem_singleton.2 rfl⟩
  | itself => exact List.forall_mem_singleton.2 hc

end Text

open Text

def Lexed.InLine : Lexed → Prop
  | .ok (.ident name) => OneLine name
  | .ok (.operator symbol) => isLineBreak symbol = false
  | .ok _ => True
  | .error (.malformedNumber text) => OneLine text

theorem Lexer.Scans.inLine {cs rest : List Char} {r : Lexed} (h : Scans cs r rest) : r.InLine := by
  induction h with
  | ended => trivial
  | @word cs ds c h hc =>
    unfold Token.ofWord
    split
    · trivial
    · split
      · trivial
      · intro d hd
        rw [String.toList_ofList] at hd
        exact isLineBreak_of_isAlphanum (List.all_eq_true.1 List.all_takeWhile d hd)
  | @number cs ds c h hc hn =>
    unfold numeral
    split
    · trivial
    · intro d hd
      rw [String.toList_ofList] at hd
      have hd := List.all_eq_true.1 List.all_takeWhile d hd
      exact isLineBreak_of_isTextual (Decimal.isTextual_of_isNumeral hd)
  | comment _ _ ih => exact ih
  | @symbol cs ds c h hc hn hh =>
    have hb := List.head?_dropWhile_not isBlank cs
    rw [h] at hb
    exact isLineBreak_eq_false_of_not_isBlank (by simpa using hb)

/-- No result of lexing is written with a line break. -/
theorem Lexer.inLine_of_mem_results {l : Lexer} : ∀ r ∈ l.results, r.InLine := by
  fun_induction results l with
  | case1 l step h => exact List.forall_mem_nil _
  | case2 l step h ih => exact List.forall_mem_cons.2 ⟨(scans_next l).inLine, ih⟩

theorem Lexer.isEnd_of_mem_results {l : Lexer} : ∀ r ∈ l.results, r.isEnd = false := by
  intro r hr
  refine Bool.eq_false_iff.2 fun h => (scansAll_results l).not_mem_eof ?_
  rwa [← Lexed.isEnd_iff.1 h]

theorem LexError.oneLine_message {e : LexError} (h : Lexed.InLine (.error e)) :
    OneLine e.message := by
  cases e with
  | malformedNumber text =>
    exact oneLine_append.2 ⟨oneLine_append.2 ⟨by decide, h⟩, by decide⟩

theorem Token.oneLine_description {t : Token} (h : Lexed.InLine (.ok t)) :
    OneLine t.description := by
  cases t with
  | ident name => exact oneLine_append.2 ⟨oneLine_append.2 ⟨by decide, h⟩, by decide⟩
  | number value => exact oneLine_append.2 ⟨by decide, oneLine_number _ value⟩
  | operator symbol =>
    exact oneLine_append.2 ⟨oneLine_append.2 ⟨by decide, oneLine_char h⟩, by decide⟩
  | _ => decide

/-- What a result of lexing is listed as.  The end of the source is not listed. -/
inductive Lexed.ListedAs : Lexed → String → Prop
  | defKeyword : ListedAs (.ok .defKeyword) "Def"
  | externKeyword : ListedAs (.ok .externKeyword) "Extern"
  | ident (name : String) : ListedAs (.ok (.ident name)) ("Ident(\"" ++ name ++ "\")")
  | number (value : Float) :
    ListedAs (.ok (.number value)) ("Number(" ++ Decimal.Layout.literal.text value ++ ")")
  | operator {symbol : Char} {shown : List Char} (h : ShownAs symbol shown) :
    ListedAs (.ok (.operator symbol)) ("Operator('" ++ String.ofList shown ++ "')")
  | malformed (text : String) :
    ListedAs (.error (.malformedNumber text)) ("error: malformed number literal '" ++ text ++ "'")

theorem Lexed.ListedAs.oneLine {r : Lexed} {line : String} (h : r.ListedAs line)
    (hr : r.InLine) : OneLine line := by
  cases h with
  | ident name => exact oneLine_append.2 ⟨oneLine_append.2 ⟨by decide, hr⟩, by decide⟩
  | number value =>
    exact oneLine_append.2 ⟨oneLine_append.2 ⟨by decide, oneLine_number _ value⟩, by decide⟩
  | operator h => exact oneLine_append.2 ⟨oneLine_append.2 ⟨by decide, h.oneLine hr⟩, by decide⟩
  | malformed text => exact oneLine_append.2 ⟨oneLine_append.2 ⟨by decide, hr⟩, by decide⟩
  | _ => decide

theorem Lexed.exists_listedAs {r : Lexed} (h : r.isEnd = false) :
    ∃ line, r.ListedAs line ∧ r.dumpLine = line ++ "\n" := by
  rcases r with ⟨⟨text⟩⟩ | t
  · have he : "error: " ++ ("malformed number literal '" ++ text ++ "'") =
        "error: malformed number literal '" ++ text ++ "'" := by
      rw [← String.append_assoc, ← String.append_assoc]
      rfl
    exact ⟨_, .malformed text, congrArg (· ++ "\n") he⟩
  · cases t with
    | eof => contradiction
    | defKeyword => exact ⟨_, .defKeyword, rfl⟩
    | externKeyword => exact ⟨_, .externKeyword, rfl⟩
    | ident name => exact ⟨_, .ident name, rfl⟩
    | number value => exact ⟨_, .number value, rfl⟩
    | operator symbol =>
      refine ⟨_, .operator (shownAs_escapeChar symbol), ?_⟩
      have hq : "Operator(" ++ quoteChar symbol ++ ")" =
          "Operator('" ++ String.ofList (escapeChar symbol) ++ "')" :=
        String.toList_injective (by simp [quoteChar])
      exact congrArg (· ++ "\n") hq

end Reckoner
