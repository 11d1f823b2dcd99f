import Mathlib.Algebra.Order.Field.Rat
import Mathlib.Tactic.Linarith
import Mathlib.Tactic.NormNum
import Mathlib.Tactic.Ring
import Reckoner.Decimal.Shortest

/-!
# Rounding intervals

A magnitude stands for a rational, and those that round to it form an interval around it
(`Magnitude.Rounds`).  The magnitudes of doubles are canonical, and the intervals of two canonical
magnitudes have no point in common (`Rounds.unique`).  The decimal chosen for a magnitude lies in
its interval (`rounds_shortest`), so it belongs to that one only.
-/

namespace Reckoner.Decimal

def Point.value (p : Point) : ℚ :=
  p.digits * 10 ^ p.exponent

namespace Magnitude

variable {x y : Magnitude} {q : ℚ}

def value (x : Magnitude) : ℚ :=
  x.significand * 2 ^ x.exponent

def quarter (x : Magnitude) : ℚ :=
  2 ^ (x.exponent - 2)

def lower (x : Magnitude) : ℚ :=
  x.value - (if x.narrow then 1 else 2) * x.quarter

def upper (x : Magnitude) : ℚ :=
  x.value + 2 * x.quarter

/-- The rational rounds to the magnitude.  The ends of the interval do if the significand is
even. -/
structure Rounds (x : Magnitude) (q : ℚ) : Prop where
  lower_le : x.lower ≤ q
  le_upper : q ≤ x.upper
  even_of_eq_lower : q = x.lower → x.significand % 2 = 0
  even_of_eq_upper : q = x.upper → x.significand % 2 = 0

theorem quarter_pos (x : Magnitude) : 0 < x.quarter :=
  zpow_pos (by norm_num) _

theorem value_eq (x : Magnitude) : x.value = 4 * x.significand * x.quarter := by
  have h : (2 : ℚ) ^ x.exponent = 2 ^ (x.exponent - 2) * 2 ^ (2 : ℤ) := by
    rw [← zpow_add₀ (by norm_num), sub_add_cancel]
  rw [value, quarter, h]
  norm_num
  ring

theorem lower_eq (x : Magnitude) :
    x.lower = (4 * x.significand - if x.narrow then 1 else 2) * x.quarter := by
  rw [lower, value_eq]
  ring

theorem upper_eq (x : Magnitude) : x.upper = (4 * x.significand + 2) * x.quarter := by
  rw [upper, value_eq]
  ring

theorem rounds_value (x : Magnitude) : x.Rounds x.value := by
  have hq := x.quarter_pos
  have hl : x.lower < x.value := by
    unfold lower
    split <;> linarith
  have hu : x.value < x.upper := by
    unfold upper
    linarith
  exact ⟨hl.le, hu.le, fun h => absurd h hl.ne', fun h => absurd h hu.ne⟩

section Canonical

/-- The significand is as large as 53 bits and the least exponent allow, and the magnitude is narrow
where the distance to the next one changes. -/
structure Canonical (x : Magnitude) : Prop where
  significand_lt : x.significand < 2 ^ 53
  le_exponent : -1074 ≤ x.exponent
  le_significand : x.exponent ≠ -1074 → 2 ^ 52 ≤ x.significand
  narrow_iff : x.narrow = true ↔ x.significand = 2 ^ 52 ∧ x.exponent ≠ -1074

theorem canonical_ofBits (bits : UInt64) : (ofBits bits).Canonical := by
  have hf : bits.toNat % Nat.pow 2 52 < 2 ^ 52 := Nat.mod_lt _ (by decide)
  unfold ofBits
  simp only
  generalize bits.toNat % Nat.pow 2 52 = fraction at hf
  generalize bits.toNat / Nat.pow 2 52 % Nat.pow 2 11 = biased
  have hp : Nat.pow 2 52 = 2 ^ 52 := rfl
  split
  · constructor <;> simp
    omega
  · constructor <;> simp <;> omega

def Below (x y : Magnitude) : Prop :=
  x.exponent < y.exponent ∨ (x.exponent = y.exponent ∧ x.significand < y.significand)

/-- No interval with a given exponent reaches beyond this point, and one that reaches it belongs to
an odd significand. -/
theorem Canonical.upper_le (hx : x.Canonical) :
    x.upper ≤ (2 ^ 55 - 2) * x.quarter ∧
      (x.upper = (2 ^ 55 - 2) * x.quarter → x.significand % 2 = 1) := by
  have hq := x.quarter_pos
  rw [upper_eq]
  constructor
  · have hs : (x.significand : ℚ) + 1 ≤ 2 ^ 53 := by
      exact_mod_cast hx.significand_lt
    exact mul_le_mul_of_nonneg_right (by linarith) hq.le
  · intro h
    have hs : (x.significand : ℚ) + 1 = 2 ^ 53 := by
      have := mul_right_cancel₀ hq.ne' h
      linarith
    have hs : x.significand + 1 = 2 ^ 53 := by
      exact_mod_cast hs
    omega

/-- Where the exponent is not the least one, no interval reaches below this point. -/
theorem Canonical.le_lower (hx : x.Canonical) (he : x.exponent ≠ -1074) :
    (2 ^ 54 - 1) * x.quarter ≤ x.lower := by
  rw [lower_eq]
  refine mul_le_mul_of_nonneg_right ?_ x.quarter_pos.le
  have hs := hx.le_significand he
  by_cases hn : x.narrow = true
  · have hs : (2 : ℚ) ^ 52 ≤ x.significand := by
      exact_mod_cast hs
    rw [if_pos hn]
    linarith
  · have hne : x.significand ≠ 2 ^ 52 := fun h => hn (hx.narrow_iff.2 ⟨h, he⟩)
    have hs : (2 : ℚ) ^ 52 + 1 ≤ x.significand := by
      exact_mod_cast (show 2 ^ 52 + 1 ≤ x.significand by omega)
    rw [if_neg hn]
    linarith

/-- Of two canonical magnitudes the intervals have an end in common at most, and there one of the
significands is odd. -/
theorem Below.upper_le_lower (h : x.Below y) (hx : x.Canonical) (hy : y.Canonical) :
    x.upper ≤ y.lower ∧
      (x.upper = y.lower → x.significand % 2 = 1 ∨ y.significand % 2 = 1) := by
  have hq := x.quarter_pos
  rcases h with he | ⟨he, hs⟩
  · -- a larger exponent at least doubles the distances, so what is above starts where this ends
    have hquarter : 2 * x.quarter ≤ y.quarter := by
      calc 2 * x.quarter = 2 ^ (x.exponent - 2 + 1) := by
            rw [quarter, zpow_add₀ (by norm_num), zpow_one, mul_comm]
        _ ≤ y.quarter := zpow_le_zpow_right₀ (by norm_num) (by omega)
    obtain ⟨hu, hodd⟩ := hx.upper_le
    have hl := hy.le_lower (by have := hx.le_exponent; omega)
    have hm : (2 ^ 55 - 2) * x.quarter ≤ y.lower := by linarith
    exact ⟨hu.trans hm, fun h => .inl (hodd (le_antisymm hu (h ▸ hm)))⟩
  · have hquarter : y.quarter = x.quarter := by rw [quarter, quarter, he]
    have hl : (4 * y.significand - 2) * x.quarter ≤ y.lower := by
      rw [lower_eq, hquarter]
      refine mul_le_mul_of_nonneg_right ?_ hq.le
      split <;> linarith
    have hs' : (x.significand : ℚ) + 1 ≤ y.significand := by
      exact_mod_cast hs
    have hu : x.upper ≤ (4 * y.significand - 2) * x.quarter := by
      rw [upper_eq]
      exact mul_le_mul_of_nonneg_right (by linarith) hq.le
    refine ⟨hu.trans hl, fun h => ?_⟩
    have heq : (4 * (x.significand : ℚ) + 2) * x.quarter = (4 * y.significand - 2) * x.quarter := by
      rw [← upper_eq]
      exact le_antisymm hu (h ▸ hl)
    have hsucc : (x.significand : ℚ) + 1 = y.significand := by
      have := mul_right_cancel₀ hq.ne' heq
      linarith
    have hsucc : x.significand + 1 = y.significand := by
      exact_mod_cast hsucc
    omega

theorem Below.not_rounds (h : x.Below y) (hx : x.Canonical) (hy : y.Canonical) (hr : x.Rounds q)
    (hr' : y.Rounds q) : False := by
  obtain ⟨hle, hodd⟩ := h.upper_le_lower hx hy
  have hu : q = x.upper := le_antisymm hr.le_upper (hle.trans hr'.lower_le)
  have hl : q = y.lower := le_antisymm (hr.le_upper.trans hle) hr'.lower_le
  have hx := hr.even_of_eq_upper hu
  have hy := hr'.even_of_eq_lower hl
  have := hodd (hu.symm.trans hl)
  omega

/-- Two canonical magnitudes to which a rational rounds are the same. -/
theorem Rounds.unique (h : x.Rounds q) (h' : y.Rounds q) (hx : x.Canonical) (hy : y.Canonical) :
    x = y := by
  by_cases hxy : x.Below y
  · exact (hxy.not_rounds hx hy h h').elim
  by_cases hyx : y.Below x
  · exact (hyx.not_rounds hy hx h' h).elim
  unfold Below at hxy hyx
  have hs : x.significand = y.significand := by omega
  have he : x.exponent = y.exponent := by omega
  have hn : x.narrow = y.narrow := by
    rw [Bool.eq_iff_iff, hx.narrow_iff, hy.narrow_iff, hs, he]
  cases x
  cases y
  simp_all

end Canonical

section Shortest

theorem pow_toNat_eq {b : ℚ} (hb : b ≠ 0) (k : ℤ) : b ^ k.toNat = b ^ (-k).toNat * b ^ k := by
  rw [← zpow_natCast, ← zpow_natCast, ← zpow_add₀ hb]
  congr 1
  omega

/-- How many units of the lengths there are to one. -/
def scale (x : Magnitude) (e : ℤ) : ℚ :=
  2 ^ (2 - x.exponent).toNat * 10 ^ (-e).toNat

theorem scale_pos (x : Magnitude) (e : ℤ) : 0 < x.scale e := by
  unfold scale
  positivity

theorem cast_step (x : Magnitude) (e : ℤ) :
    ((x.measured e).step : ℚ) = x.scale e * 10 ^ e := by
  have h10 := pow_toNat_eq (b := 10) (by norm_num) e
  simp only [measured, scale, Nat.pow_eq]
  push_cast
  rw [h10]
  ring

theorem cast_quarter (x : Magnitude) (e : ℤ) :
    ((Nat.pow 2 (x.exponent - 2).toNat * Nat.pow 10 (-e).toNat : ℕ) : ℚ) =
      x.scale e * x.quarter := by
  have h2 := pow_toNat_eq (b := 2) (by norm_num) (x.exponent - 2)
  rw [neg_sub] at h2
  simp only [scale, quarter, Nat.pow_eq]
  push_cast
  rw [h2]
  ring

theorem cast_value (x : Magnitude) (e : ℤ) :
    ((x.measured e).value : ℚ) = x.scale e * x.value := by
  have hq := x.cast_quarter e
  simp only [measured]
  rw [Nat.cast_mul, hq, value_eq]
  push_cast
  ring

theorem cast_below (x : Magnitude) (e : ℤ) :
    ((x.measured e).below : ℚ) = x.scale e * (x.value - x.lower) := by
  have hq := x.cast_quarter e
  simp only [measured, lower]
  split
  · rw [hq]
    ring
  · rw [Nat.cast_mul, hq]
    push_cast
    ring

theorem cast_above (x : Magnitude) (e : ℤ) :
    ((x.measured e).above : ℚ) = x.scale e * (x.upper - x.value) := by
  have hq := x.cast_quarter e
  simp only [measured, upper]
  rw [Nat.cast_mul, hq]
  push_cast
  ring

theorem rounds_of_holds {e : ℤ} {n : ℕ} (h : (x.measured e).holds n = true) :
    x.Rounds (n * 10 ^ e) := by
  have hpos := x.scale_pos e
  have hlower : ((n * (x.measured e).step + (x.measured e).below : ℕ) : ℚ) -
      (x.measured e).value = x.scale e * (n * 10 ^ e - x.lower) := by
    push_cast
    rw [cast_step, cast_below, cast_value]
    ring
  have hupper : (((x.measured e).value + (x.measured e).above : ℕ) : ℚ) -
      (n * (x.measured e).step : ℕ) = x.scale e * (x.upper - n * 10 ^ e) := by
    push_cast
    rw [cast_step, cast_above, cast_value]
    ring
  unfold Measured.holds at h
  split at h
  · rename_i hc
    have heven : x.significand % 2 = 0 := by simpa [measured] using hc
    obtain ⟨hl, hu⟩ := Bool.and_eq_true_iff.1 h
    have hl := sub_nonneg.2 (Nat.cast_le (α := ℚ).2 (of_decide_eq_true hl))
    have hu := sub_nonneg.2 (Nat.cast_le (α := ℚ).2 (of_decide_eq_true hu))
    rw [hlower, mul_nonneg_iff_of_pos_left hpos, sub_nonneg] at hl
    rw [hupper, mul_nonneg_iff_of_pos_left hpos, sub_nonneg] at hu
    exact ⟨hl, hu, fun _ => heven, fun _ => heven⟩
  · obtain ⟨hl, hu⟩ := Bool.and_eq_true_iff.1 h
    have hl := sub_pos.2 (Nat.cast_lt (α := ℚ).2 (of_decide_eq_true hl))
    have hu := sub_pos.2 (Nat.cast_lt (α := ℚ).2 (of_decide_eq_true hu))
    rw [hlower, mul_pos_iff_of_pos_left hpos, sub_pos] at hl
    rw [hupper, mul_pos_iff_of_pos_left hpos, sub_pos] at hu
    exact ⟨hl.le, hu.le, fun h => absurd h hl.ne', fun h => absurd h hu.ne⟩

theorem Measured.holds_of_choose? {r : Measured} {n : ℕ} (h : r.choose? = some n) :
    r.holds n = true := by
  unfold Measured.choose? at h
  simp only at h
  split at h
  · contradiction
  · rename_i hn _
    cases h
    exact hn
  · rename_i _ hn
    cases h
    exact hn
  · rename_i hn hn'
    split at h
    · cases h
      exact hn
    · cases h
      exact hn'

theorem value_exact (x : Magnitude) : x.exact.value = x.value := by
  unfold exact Point.value value
  split
  · rename_i he
    have h2 : (2 : ℚ) ^ x.exponent.toNat = 2 ^ x.exponent := by
      rw [← zpow_natCast, Int.toNat_of_nonneg he]
    simp only [Nat.pow_eq]
    push_cast
    rw [h2, mul_one]
  · rename_i he
    have h5 : (5 : ℚ) ^ (-x.exponent).toNat * 5 ^ x.exponent = 1 := by
      rw [← zpow_natCast, Int.toNat_of_nonneg (by omega), ← zpow_add₀ (by norm_num),
        neg_add_cancel, zpow_zero]
    have h10 : (10 : ℚ) ^ x.exponent = 5 ^ x.exponent * 2 ^ x.exponent := by
      rw [← mul_zpow]
      norm_num
    simp only [Nat.pow_eq]
    push_cast
    rw [h10, ← mul_assoc, mul_assoc _ _ (5 ^ x.exponent), h5, mul_one]

/-- What is written for a magnitude rounds to it. -/
theorem rounds_shortest (x : Magnitude) : x.Rounds x.shortest.value := by
  unfold shortest
  cases h : (List.range 20).findSome? fun i : Nat => x.onGrid? (x.coarsest - i) with
  | none =>
    rw [Option.getD_none, value_exact]
    exact x.rounds_value
  | some p =>
    obtain ⟨i, -, hi⟩ := List.exists_of_findSome?_eq_some h
    obtain ⟨n, hn, rfl⟩ := Option.map_eq_some_iff.1 hi
    exact rounds_of_holds (Measured.holds_of_choose? hn)

end Shortest

end Magnitude

end Reckoner.Decimal
