import Mathlib.Data.List.TakeWhile
import Reckoner.Decimal.Layout
import Reckoner.Decimal.Literal
import Reckoner.Proofs.Decimal.Double
import Reckoner.Proofs.Decimal.Interval

/-!
# Reading number texts

The text of a finite double spells a rational (`reading`), in whichever layout it is written, and
that rational rounds to the double (`rounds_reading`).  So the text of a double determines it
(`text_injective`).
-/

namespace Reckoner.Decimal

def spelled (cs : List Char) : ℚ :=
  digitsValue cs * 10 ^ (-(placesAfterPoint cs : ℤ))

def powerOfTen (cs : List Char) : ℤ :=
  if '-' ∈ cs then -digitsValue cs else digitsValue cs

/-- The rational that an unsigned number spells, be it written with an exponent or without. -/
def reading (cs : List Char) : ℚ :=
  spelled (cs.takeWhile (· ≠ 'e')) * 10 ^ powerOfTen (cs.dropWhile (· ≠ 'e'))

section Spelled

variable {ds es cs : List Char}

theorem digitsValue_eq (cs : List Char) :
    digitsValue cs = Nat.ofDigitChars 10 (cs.filter Char.isDigit) 0 := by
  rw [digitsValue, Nat.ofDigitChars, List.foldl_filter]

theorem digitsValue_digits (h : ∀ c ∈ ds, c.isDigit = true) :
    digitsValue ds = Nat.ofDigitChars 10 ds 0 := by
  rw [digitsValue_eq, List.filter_eq_self.2 h]

theorem ne_of_isDigit {c d : Char} (h : c.isDigit = true) (hd : d.isDigit = false) : c ≠ d := by
  rintro rfl
  rw [hd] at h
  contradiction

theorem spelled_digits (h : ∀ c ∈ ds, c.isDigit = true) :
    spelled ds = Nat.ofDigitChars 10 ds 0 := by
  have hp : ds.dropWhile (· ≠ '.') = [] :=
    List.dropWhile_eq_nil_iff.2 fun c hc => by simpa using ne_of_isDigit (h c hc) rfl
  rw [spelled, digitsValue_digits h, placesAfterPoint, hp]
  simp

theorem spelled_point (h : ∀ c ∈ ds, c.isDigit = true) (h' : ∀ c ∈ es, c.isDigit = true) :
    spelled (ds ++ '.' :: es) = Nat.ofDigitChars 10 (ds ++ es) 0 * 10 ^ (-(es.length : ℤ)) := by
  have hp : (ds ++ '.' :: es).dropWhile (· ≠ '.') = '.' :: es := by
    rw [List.dropWhile_append_of_pos fun c hc => by simpa using ne_of_isDigit (h c hc) rfl]
    rfl
  have hf : (ds ++ '.' :: es).filter Char.isDigit = ds ++ es := by
    rw [List.filter_append, List.filter_eq_self.2 h, List.filter_cons_of_neg (by decide),
      List.filter_eq_self.2 h']
  rw [spelled, digitsValue_eq, hf, placesAfterPoint, hp, List.length_cons, Nat.add_sub_cancel]

theorem ofDigitChars_append_zeros (ds : List Char) (n : ℕ) :
    Nat.ofDigitChars 10 (ds ++ zeros n) 0 = Nat.ofDigitChars 10 ds 0 * 10 ^ n := by
  rw [Nat.ofDigitChars_append, zeros, Nat.ofDigitChars_replicate_zero, mul_comm]

theorem ofDigitChars_zeros_append (n : ℕ) (ds : List Char) :
    Nat.ofDigitChars 10 (zeros n ++ ds) 0 = Nat.ofDigitChars 10 ds 0 := by
  rw [Nat.ofDigitChars_append, zeros, Nat.ofDigitChars_replicate_zero, mul_zero]

theorem spelled_fixed (l : Layout) (h : ∀ c ∈ ds, c.isDigit = true) (whole : ℤ) :
    spelled (l.fixed ds whole) = Nat.ofDigitChars 10 ds 0 * 10 ^ (whole - ds.length) := by
  unfold Layout.fixed
  split
  · rename_i hw
    have hzeros : ∀ c ∈ zeros (-whole).toNat ++ ds, c.isDigit = true :=
      List.forall_mem_append.2 ⟨fun c hc => isDigit_of_mem_zeros hc, h⟩
    have hcs : ['0', '.'] ++ zeros (-whole).toNat ++ ds =
        zeros 1 ++ '.' :: (zeros (-whole).toNat ++ ds) := rfl
    rw [hcs, spelled_point (fun c hc => isDigit_of_mem_zeros hc) hzeros, ofDigitChars_zeros_append,
      ofDigitChars_zeros_append, List.length_append, zeros, List.length_replicate]
    congr 2
    omega
  · rename_i hw
    split
    · rename_i hlen
      have hall : ∀ c ∈ ds ++ zeros (whole.toNat - ds.length), c.isDigit = true :=
        List.forall_mem_append.2 ⟨h, fun c hc => isDigit_of_mem_zeros hc⟩
      have hpow : (10 : ℚ) ^ (whole - ds.length) = 10 ^ (whole.toNat - ds.length) := by
        rw [← zpow_natCast]
        congr 1
        omega
      split
      · rw [show ['.', '0'] = '.' :: zeros 1 from rfl,
          spelled_point hall fun c hc => isDigit_of_mem_zeros hc, ofDigitChars_append_zeros,
          ofDigitChars_append_zeros, hpow, zeros, List.length_replicate]
        push_cast
        rw [zpow_neg_one]
        ring
      · rw [List.append_nil, spelled_digits hall, ofDigitChars_append_zeros, hpow]
        push_cast
        rfl
    · rename_i hlen
      rw [List.append_assoc, List.singleton_append,
        spelled_point (fun c hc => h c (List.mem_of_mem_take hc))
          fun c hc => h c (List.mem_of_mem_drop hc), List.take_append_drop, List.length_drop]
      congr 2
      omega

theorem isNumeral_of_mem_fixed {l : Layout} (h : ∀ c ∈ ds, c.isDigit = true) {whole : ℤ} :
    ∀ c ∈ l.fixed ds whole, isNumeral c = true := by
  have hd : ∀ c ∈ ds, isNumeral c = true := fun c hc => isNumeral_of_isDigit (h c hc)
  have hz {n : ℕ} : ∀ c ∈ zeros n, isNumeral c = true :=
    fun c hc => isNumeral_of_isDigit (isDigit_of_mem_zeros hc)
  unfold Layout.fixed
  split
  · simp only [List.forall_mem_append]
    exact ⟨⟨List.all_eq_true.1 rfl, hz⟩, hd⟩
  · split
    · simp only [List.forall_mem_append]
      refine ⟨⟨hd, hz⟩, ?_⟩
      split
      · exact List.all_eq_true.1 rfl
      · nofun
    · simp only [List.forall_mem_append]
      exact ⟨⟨fun c hc => hd c (List.mem_of_mem_take hc), List.all_eq_true.1 rfl⟩,
        fun c hc => hd c (List.mem_of_mem_drop hc)⟩

def mantissa (ds : List Char) : List Char :=
  match ds with
  | d :: f :: rest => d :: '.' :: f :: rest
  | ds => ds

theorem spelled_mantissa (hne : ds ≠ []) (h : ∀ c ∈ ds, c.isDigit = true) :
    spelled (mantissa ds) = Nat.ofDigitChars 10 ds 0 * 10 ^ (1 - ds.length : ℤ) := by
  match ds with
  | [] => contradiction
  | [d] =>
    rw [show mantissa [d] = [d] from rfl, spelled_digits h, List.length_singleton]
    norm_num
  | d :: f :: rest =>
    obtain ⟨hd, hrest⟩ := List.forall_mem_cons.1 h
    have hp := spelled_point (List.forall_mem_singleton.2 hd) hrest
    rw [List.singleton_append, List.singleton_append] at hp
    rw [mantissa, hp, List.length_cons (a := d), Nat.cast_succ, sub_add_cancel_right]

theorem isNumeral_of_mem_mantissa (h : ∀ c ∈ ds, c.isDigit = true) :
    ∀ c ∈ mantissa ds, isNumeral c = true := by
  have hd : ∀ c ∈ ds, isNumeral c = true := fun c hc => isNumeral_of_isDigit (h c hc)
  unfold mantissa
  split
  · obtain ⟨hd, hrest⟩ := List.forall_mem_cons.1 hd
    exact List.forall_mem_cons.2 ⟨hd, List.forall_mem_cons.2 ⟨rfl, hrest⟩⟩
  · exact hd

end Spelled

section Point

theorem ne_of_isNumeral {c : Char} (h : isNumeral c = true) : c ≠ 'e' := by
  rintro rfl
  contradiction

theorem reading_positional {cs : List Char} (h : ∀ c ∈ cs, isNumeral c = true) :
    reading cs = spelled cs := by
  have hne : ∀ c ∈ cs, decide (c ≠ 'e') = true := fun c hc =>
    decide_eq_true (ne_of_isNumeral (h c hc))
  rw [reading, List.takeWhile_eq_self_iff.2 hne, List.dropWhile_eq_nil_iff.2 hne]
  exact mul_one _

theorem powerOfTen_exponent (power : ℤ) :
    powerOfTen ('e' :: ((if power < 0 then ['-'] else []) ++ Nat.toDigits 10 power.natAbs)) =
      power := by
  have hd : ∀ c ∈ Nat.toDigits 10 power.natAbs, c.isDigit = true :=
    fun _ => isDigit_of_mem_toDigits
  have hvalue : digitsValue (Nat.toDigits 10 power.natAbs) = power.natAbs := by
    rw [digitsValue_digits hd, Nat.ofDigitChars_ten_toDigits]
  by_cases hp : power < 0
  · rw [if_pos hp, powerOfTen, if_pos (by simp)]
    change -(digitsValue (Nat.toDigits 10 power.natAbs) : ℤ) = power
    omega
  · have hminus : '-' ∉ 'e' :: ([] ++ Nat.toDigits 10 power.natAbs) := by
      simpa using fun h => absurd (hd _ h) (by decide)
    rw [if_neg hp, powerOfTen, if_neg hminus]
    change (digitsValue (Nat.toDigits 10 power.natAbs) : ℤ) = power
    omega

theorem scientific_eq (ds : List Char) (power : ℤ) :
    scientific ds power = mantissa ds ++
      'e' :: ((if power < 0 then ['-'] else []) ++ Nat.toDigits 10 power.natAbs) := by
  have hm : scientific ds power = mantissa ds ++ ['e'] ++ (if power < 0 then ['-'] else []) ++
      Nat.toDigits 10 power.natAbs := rfl
  rw [hm, List.append_assoc, List.append_assoc, List.singleton_append]

theorem reading_scientific {ds : List Char} (hne : ds ≠ []) (h : ∀ c ∈ ds, c.isDigit = true)
    (power : ℤ) :
    reading (scientific ds power) =
      Nat.ofDigitChars 10 ds 0 * 10 ^ (power + 1 - ds.length : ℤ) := by
  have hm : ∀ c ∈ mantissa ds, decide (c ≠ 'e') = true := fun c hc =>
    decide_eq_true (ne_of_isNumeral (isNumeral_of_mem_mantissa h c hc))
  rw [reading, scientific_eq, List.takeWhile_append_of_pos hm, List.dropWhile_append_of_pos hm,
    List.takeWhile_cons_of_neg (by decide), List.dropWhile_cons_of_neg (by decide),
    List.append_nil, powerOfTen_exponent, spelled_mantissa hne h, mul_assoc,
    ← zpow_add₀ (by norm_num)]
  congr 2
  omega

theorem reading_point (l : Layout) (p : Point) : reading (l.point p) = p.value := by
  have hne : Nat.toDigits 10 p.digits ≠ [] := Nat.toDigits_ne_nil
  have hd : ∀ c ∈ Nat.toDigits 10 p.digits, c.isDigit = true :=
    fun _ => isDigit_of_mem_toDigits
  have hfixed : reading (l.fixed (Nat.toDigits 10 p.digits)
      (p.exponent + (Nat.toDigits 10 p.digits).length - 1 + 1)) = p.value := by
    rw [reading_positional (isNumeral_of_mem_fixed hd), spelled_fixed l hd,
      Nat.ofDigitChars_ten_toDigits, Point.value]
    congr 2
    omega
  unfold Layout.point
  simp only
  split
  · exact hfixed
  · split
    · exact hfixed
    · rw [reading_scientific hne hd, Nat.ofDigitChars_ten_toDigits, Point.value]
      congr 2
      omega

theorem fixed_eq_cons (l : Layout) {d : Char} (ds : List Char) (hd : d.isDigit = true)
    (whole : ℤ) : ∃ c cs, l.fixed (d :: ds) whole = c :: cs ∧ c.isDigit = true := by
  unfold Layout.fixed
  split
  · exact ⟨'0', _, rfl, rfl⟩
  · split
    · exact ⟨d, _, rfl, hd⟩
    · obtain ⟨k, hk⟩ : ∃ k, whole.toNat = k + 1 := ⟨whole.toNat - 1, by omega⟩
      rw [hk]
      exact ⟨d, _, rfl, hd⟩

theorem point_eq_cons (l : Layout) (p : Point) :
    ∃ c cs, l.point p = c :: cs ∧ c.isDigit = true := by
  obtain ⟨d, ds, hds⟩ : ∃ d ds, Nat.toDigits 10 p.digits = d :: ds :=
    List.exists_cons_of_ne_nil Nat.toDigits_ne_nil
  have hd : d.isDigit = true := isDigit_of_mem_toDigits (hds ▸ List.mem_cons_self)
  unfold Layout.point
  simp only [hds]
  split
  · exact fixed_eq_cons l ds hd _
  · split
    · exact fixed_eq_cons l ds hd _
    · cases ds with
      | nil => exact ⟨d, _, rfl, hd⟩
      | cons f rest => exact ⟨d, _, rfl, hd⟩

end Point

section Text

variable {x y : Float}

/-- What follows the sign in the text of a double other than a NaN. -/
def Layout.unsigned (l : Layout) (x : Float) : List Char :=
  if x.isInf then ['i', 'n', 'f']
  else if (Magnitude.ofBits x.toBits).significand = 0 then
    '0' :: (if l.pointZero then ['.', '0'] else [])
  else l.point (Magnitude.ofBits x.toBits).shortest

theorem text_of_isNaN (l : Layout) (h : x.isNaN = true) : l.text x = "NaN" := by
  rw [Layout.text, if_pos h]

theorem toList_text (l : Layout) (h : x.isNaN = false) :
    (l.text x).toList =
      (if x.toBits.toNat < 2 ^ 63 then [] else ['-']) ++ l.unsigned x := by
  rw [Layout.text, if_neg (ne_true_of_eq_false h)]
  exact String.toList_ofList

/-- What the text of a finite double spells rounds to the double. -/
theorem rounds_reading (l : Layout) (h : x.isInf = false) :
    (Magnitude.ofBits x.toBits).Rounds (reading (l.unsigned x)) := by
  unfold Layout.unsigned
  rw [if_neg (ne_true_of_eq_false h)]
  split
  · rename_i hs
    have hzero : reading ('0' :: (if l.pointZero then ['.', '0'] else [])) =
        (Magnitude.ofBits x.toBits).value := by
      have hd : ∀ c ∈ ['0'], c.isDigit = true := List.forall_mem_singleton.2 rfl
      rw [Magnitude.value, hs, Nat.cast_zero, zero_mul]
      split
      · rw [reading_positional (List.all_eq_true.1 rfl)]
        exact (spelled_point hd hd).trans (zero_mul _)
      · rw [reading_positional (List.all_eq_true.1 rfl)]
        exact (spelled_digits hd).trans Nat.cast_zero
    rw [hzero]
    exact Magnitude.rounds_value _
  · rw [reading_point]
    exact Magnitude.rounds_shortest _

theorem unsigned_of_isInf (l : Layout) (h : x.isInf = true) : l.unsigned x = ['i', 'n', 'f'] :=
  if_pos h

theorem unsigned_eq_cons (l : Layout) (h : x.isInf = false) :
    ∃ c cs, l.unsigned x = c :: cs ∧ c.isDigit = true := by
  unfold Layout.unsigned
  rw [if_neg (ne_true_of_eq_false h)]
  split
  · exact ⟨'0', _, rfl, rfl⟩
  · exact point_eq_cons l _

/-- No text begins with the sign or with the first letter of NaN after its sign. -/
theorem head_unsigned (l : Layout) (x : Float) :
    ∃ c cs, l.unsigned x = c :: cs ∧ c ≠ '-' ∧ c ≠ 'N' := by
  cases h : x.isInf with
  | true => exact ⟨'i', _, unsigned_of_isInf l h, by decide, by decide⟩
  | false =>
    obtain ⟨c, cs, hcs, hc⟩ := unsigned_eq_cons l h
    exact ⟨c, cs, hcs, ne_of_isDigit hc rfl, ne_of_isDigit hc rfl⟩

theorem text_ne_NaN (l : Layout) (h : x.isNaN = false) : l.text x ≠ "NaN" := by
  intro ht
  have hl := toList_text l h
  obtain ⟨c, cs, hcs, -, hc⟩ := head_unsigned l x
  rw [ht, hcs] at hl
  split at hl
  · exact hc (List.cons.inj hl).1.symm
  · exact absurd (List.cons.inj hl).1 (by decide)

theorem eq_of_unsigned_eq {l : Layout}
    (hs : x.toBits.toNat < 2 ^ 63 ↔ y.toBits.toNat < 2 ^ 63) (h : l.unsigned x = l.unsigned y) :
    x = y := by
  cases hx : x.isInf with
  | true =>
    cases hy : y.isInf with
    | true => exact eq_of_isInf hx hy hs
    | false =>
      obtain ⟨c, cs, hcs, hc⟩ := unsigned_eq_cons l hy
      rw [unsigned_of_isInf l hx, hcs] at h
      exact absurd (List.cons.inj h).1.symm (ne_of_isDigit hc rfl)
  | false =>
    cases hy : y.isInf with
    | true =>
      obtain ⟨c, cs, hcs, hc⟩ := unsigned_eq_cons l hx
      rw [unsigned_of_isInf l hy, hcs] at h
      exact absurd (List.cons.inj h).1 (ne_of_isDigit hc rfl)
    | false =>
      have hrx := rounds_reading l hx
      rw [h] at hrx
      exact eq_of_ofBits_eq hs (hrx.unique (rounds_reading l hy) (Magnitude.canonical_ofBits _)
        (Magnitude.canonical_ofBits _))

/-- The text of a double determines it. -/
theorem text_injective (l : Layout) : Function.Injective l.text := by
  intro x y h
  cases hx : x.isNaN with
  | true =>
    cases hy : y.isNaN with
    | true => exact eq_of_isNaN hx hy
    | false => exact absurd (h.symm.trans (text_of_isNaN l hx)) (text_ne_NaN l hy)
  | false =>
    cases hy : y.isNaN with
    | true => exact absurd (h.trans (text_of_isNaN l hy)) (text_ne_NaN l hx)
    | false =>
      have hl := (toList_text l hx).symm.trans ((congrArg String.toList h).trans (toList_text l hy))
      obtain ⟨c, cs, hcs, hc, -⟩ := head_unsigned l x
      obtain ⟨d, ds, hds, hd, -⟩ := head_unsigned l y
      by_cases hsx : x.toBits.toNat < 2 ^ 63 <;> by_cases hsy : y.toBits.toNat < 2 ^ 63
      · rw [if_pos hsx, if_pos hsy] at hl
        exact eq_of_unsigned_eq (iff_of_true hsx hsy) hl
      · rw [if_pos hsx, if_neg hsy, hcs] at hl
        exact absurd (List.cons.inj hl).1 hc
      · rw [if_neg hsx, if_pos hsy, hds] at hl
        exact absurd (List.cons.inj hl).1.symm hd
      · rw [if_neg hsx, if_neg hsy] at hl
        exact eq_of_unsigned_eq (iff_of_false hsx hsy) (List.cons.inj hl).2

def isTextual (c : Char) : Bool :=
  c.isAlphanum || c == '.' || c == '-'

theorem isTextual_of_isNumeral {c : Char} (h : isNumeral c = true) : isTextual c = true := by
  unfold isNumeral at h
  simp only [Bool.or_eq_true] at h
  rcases h with h | h
  · simp [isTextual, Char.isAlphanum, h]
  · simp [isTextual, h]

theorem isTextual_of_mem_point {l : Layout} {p : Point} : ∀ c ∈ l.point p, isTextual c = true := by
  have hd : ∀ n : ℕ, ∀ c ∈ Nat.toDigits 10 n, c.isDigit = true :=
    fun _ _ => isDigit_of_mem_toDigits
  have hfixed (whole : ℤ) :
      ∀ c ∈ l.fixed (Nat.toDigits 10 p.digits) whole, isTextual c = true :=
    fun c hc => isTextual_of_isNumeral (isNumeral_of_mem_fixed (hd _) c hc)
  have hscientific (power : ℤ) :
      ∀ c ∈ scientific (Nat.toDigits 10 p.digits) power, isTextual c = true := by
    rw [scientific_eq]
    refine List.forall_mem_append.2 ⟨fun c hc => ?_, List.forall_mem_cons.2 ⟨rfl, ?_⟩⟩
    · exact isTextual_of_isNumeral (isNumeral_of_mem_mantissa (hd _) c hc)
    · refine List.forall_mem_append.2 ⟨?_, fun c hc => ?_⟩
      · split
        · exact List.all_eq_true.1 rfl
        · nofun
      · exact isTextual_of_isNumeral (isNumeral_of_isDigit (hd _ c hc))
  unfold Layout.point
  simp only
  split
  · exact hfixed _
  · split
    · exact hfixed _
    · exact hscientific _

theorem isTextual_of_mem_text {l : Layout} {x : Float} :
    ∀ c ∈ (l.text x).toList, isTextual c = true := by
  cases h : x.isNaN with
  | true =>
    rw [text_of_isNaN l h]
    exact List.all_eq_true.1 rfl
  | false =>
    rw [toList_text l h]
    refine List.forall_mem_append.2 ⟨?_, ?_⟩
    · split
      · nofun
      · exact List.all_eq_true.1 rfl
    · unfold Layout.unsigned
      split
      · exact List.all_eq_true.1 rfl
      · split
        · split
          · exact List.all_eq_true.1 rfl
          · exact List.all_eq_true.1 rfl
        · exact isTextual_of_mem_point

end Text

end Reckoner.Decimal
