import Reckoner.Proofs.Token.Ending
import Reckoner.Sink

/-!
# Reading a text line by line

The bytes of a text are cut into lines at the byte 10, and no character but the line feed has that
byte in its encoding.  So every line is the encoding of some of the characters (`splitLine_encode`),
each of them can be decoded, and read line by line a text gives all its characters and no failure
(`Lines.chars_ofChars`, `Source.ending_ofChars`), wherever its line feeds are and whether or not it
ends in one.
-/

namespace Reckoner

def encode (cs : List Char) : List UInt8 :=
  cs.flatMap String.utf8EncodeChar

@[simp]
theorem encode_cons (c : Char) (cs : List Char) :
    encode (c :: cs) = String.utf8EncodeChar c ++ encode cs := rfl

theorem encode_ne_nil {cs : List Char} (h : cs ≠ []) : encode cs ≠ [] := by
  cases cs with
  | nil => exact absurd rfl h
  | cons c cs =>
    rw [encode_cons]
    exact List.append_ne_nil_of_left_ne_nil String.utf8EncodeChar_ne_nil _

theorem toList_utf8 (text : String) : (utf8 text).toList = encode text.toList := by
  have h : text.toByteArray = text.toList.utf8Encode := by
    rw [← String.toByteArray_ofList, String.ofList_toList]
  unfold utf8
  rw [String.toUTF8_eq_toByteArray, h, List.utf8Encode, List.data_toByteArray]
  rfl

theorem decodeUtf8?_encode (cs : List Char) : decodeUtf8? (encode cs) = some cs := by
  have h : (⟨(encode cs).toArray⟩ : ByteArray) = (String.ofList cs).toByteArray := by
    rw [String.toByteArray_ofList, List.utf8Encode]
    exact ByteArray.ext List.data_toByteArray.symm
  unfold decodeUtf8? String.fromUTF8?
  rw [h, dif_pos (String.ofList cs).isValidUTF8]
  exact congrArg some String.toList_ofList

/-- The byte of an ASCII character is in the encoding of no other character. -/
theorem eq_of_mem_utf8EncodeChar {c d : Char} (hd : d.toNat < 128)
    (h : UInt8.ofNat d.toNat ∈ String.utf8EncodeChar c) : c = d := by
  have hbyte : (UInt8.ofNat d.toNat).toNat = d.toNat := by
    exact UInt8.toNat_ofNat_of_lt' (Nat.lt_trans hd (by decide))
  have ofNat_ne {n : Nat} (h : 128 ≤ n) (h' : n < 256) : UInt8.ofNat d.toNat ≠ UInt8.ofNat n := by
    intro he
    have hn : d.toNat = n := by rw [← hbyte, he, UInt8.toNat_ofNat_of_lt' h']
    omega
  unfold String.utf8EncodeChar at h
  simp only at h
  split at h
  · rename_i hv
    have hlt : c.val.toNat < UInt8.size := Nat.lt_of_le_of_lt hv (by decide)
    have hn := congrArg UInt8.toNat (List.mem_singleton.1 h)
    rw [hbyte, UInt8.toNat_ofNat_of_lt' hlt] at hn
    exact Char.ext (UInt32.toNat_inj.1 hn.symm)
  -- all bytes of a longer encoding have their highest bit set
  · refine absurd h ?_
    split
    · simp only [List.mem_cons, List.not_mem_nil, or_false, not_or]
      exact ⟨ofNat_ne (by omega) (by omega), ofNat_ne (by omega) (by omega)⟩
    · split
      · simp only [List.mem_cons, List.not_mem_nil, or_false, not_or]
        exact ⟨ofNat_ne (by omega) (by omega), ofNat_ne (by omega) (by omega),
          ofNat_ne (by omega) (by omega)⟩
      · simp only [List.mem_cons, List.not_mem_nil, or_false, not_or]
        exact ⟨ofNat_ne (by omega) (by omega), ofNat_ne (by omega) (by omega),
          ofNat_ne (by omega) (by omega), ofNat_ne (by omega) (by omega)⟩

theorem mem_of_mem_encode {d : Char} (hd : d.toNat < 128) {cs : List Char}
    (h : UInt8.ofNat d.toNat ∈ encode cs) : d ∈ cs := by
  obtain ⟨c, hc, hm⟩ := List.mem_flatMap.1 h
  exact eq_of_mem_utf8EncodeChar hd hm ▸ hc

theorem splitLine_append_of_not_mem {as : List UInt8} (h : 10 ∉ as) (bs : List UInt8) :
    splitLine (as ++ bs) = (as ++ (splitLine bs).1, (splitLine bs).2) := by
  induction as with
  | nil => rfl
  | cons a as ih =>
    have ha : a ≠ 10 := fun he => h (he ▸ List.mem_cons_self)
    have has : 10 ∉ as := fun hm => h (List.mem_cons_of_mem _ hm)
    rw [List.cons_append, splitLine, if_neg ha, ih has]
    rfl

theorem splitLine_encode (cs : List Char) :
    ∃ line rest, cs = line ++ rest ∧ splitLine (encode cs) = (encode line, encode rest) ∧
      (cs ≠ [] → line ≠ []) := by
  induction cs with
  | nil => exact ⟨[], [], rfl, rfl, id⟩
  | cons c cs ih =>
    by_cases hc : c = '\n'
    · subst hc
      exact ⟨['\n'], cs, rfl, rfl, fun _ => List.cons_ne_nil _ _⟩
    · obtain ⟨line, rest, rfl, hs, -⟩ := ih
      have hn : 10 ∉ String.utf8EncodeChar c := fun hm => hc (eq_of_mem_utf8EncodeChar (by decide) hm)
      refine ⟨c :: line, rest, rfl, ?_, fun _ => List.cons_ne_nil _ _⟩
      rw [encode_cons, splitLine_append_of_not_mem hn, hs, encode_cons]

namespace Lines

def ofChars (cs : List Char) : Lines :=
  ⟨encode cs, none⟩

theorem ofChars_toList (text : String) : ofChars text.toList = ⟨(utf8 text).toList, none⟩ :=
  congrArg (Lines.mk · none) (toList_utf8 text).symm

theorem read_ofChars (cs : List Char) :
    (cs = [] ∧ (ofChars cs).read = .ended) ∨
      ∃ line rest, cs = line ++ rest ∧ line ≠ [] ∧
        (ofChars cs).read = .line line (ofChars rest) := by
  by_cases h : cs = []
  · subst h
    exact .inl ⟨rfl, rfl⟩
  obtain ⟨line, rest, hcs, hs, hne⟩ := splitLine_encode cs
  have hd : decodeLine (encode line) (ofChars rest) = .line line (ofChars rest) := by
    rw [decodeLine, decodeUtf8?_encode]
  refine .inr ⟨line, rest, hcs, hne h, ?_⟩
  rw [read, ofChars, hs]
  simp only [if_neg (encode_ne_nil (hne h))]
  split
  · exact hd
  · exact hd

theorem chars_ofChars (cs : List Char) : (ofChars cs).chars = cs := by
  induction hn : cs.length using Nat.strongRecOn generalizing cs with
  | ind n ih =>
    subst hn
    rw [chars]
    rcases read_ofChars cs with ⟨rfl, hr⟩ | ⟨line, rest, rfl, hne, hr⟩
    · split <;> simp_all
    · have hlt : rest.length < (line ++ rest).length := by
        have := List.length_pos_iff.2 hne
        rw [List.length_append]
        omega
      have hc := ih _ hlt rest rfl
      split <;> simp_all

end Lines

namespace Source

/-- Where every source on the way knows of no failure, none comes to light at the end. -/
theorem ending_eq_none {I : Source → Prop} (hI : ∀ s, I s → I s.next.2)
    (hf : ∀ s, I s → s.failure = none) {s : Source} (h : I s) : s.ending = none := by
  unfold ending drain
  generalize ([] : List Char) = taken
  fun_induction drainOnto taken s with
  | case1 taken s c t hn ih => exact ih (by simpa [hn] using hI s h)
  | case2 taken s t hn => exact hf t (by simpa [hn] using hI s h)

def Legible (s : Source) : Prop :=
  (∃ cs, s.lines = .ofChars cs) ∧ s.failure = none

theorem Legible.next {s : Source} (h : s.Legible) : s.next.2.Legible := by
  fun_induction Source.next s with
  | case1 s c cs hp => exact h
  | case2 s hp hf => exact h
  | case3 s hp hf cs rest hr ih =>
    obtain ⟨⟨ds, hd⟩, hn⟩ := h
    rcases Lines.read_ofChars ds with ⟨-, hl⟩ | ⟨line, left, -, -, hl⟩
    · cases (hd ▸ hr).symm.trans hl
    · cases (hd ▸ hr).symm.trans hl
      exact ih ⟨⟨left, rfl⟩, hn⟩
  | case4 s hp hf hr => exact h
  | case5 s hp hf message hr =>
    obtain ⟨⟨ds, hd⟩, -⟩ := h
    rcases Lines.read_ofChars ds with ⟨-, hl⟩ | ⟨line, left, -, -, hl⟩
    · cases (hd ▸ hr).symm.trans hl
    · cases (hd ▸ hr).symm.trans hl

theorem ending_ofChars (cs : List Char) : (ofLines (.ofChars cs)).ending = none :=
  ending_eq_none (I := Legible) (fun _ h => h.next) (fun _ h => h.2) ⟨⟨cs, rfl⟩, rfl⟩

end Source

end Reckoner
