import Mathlib.Algebra.Group.Nat.Defs
import Reckoner.Decimal.Shortest

/-!
# The bits of a double

What the bits of a double say: which of them an infinity has, that there is a single NaN
(`eq_of_isNaN`), and that the sign bit and the magnitude are all there is to a finite double
(`eq_of_ofBits_eq`).
-/

namespace Reckoner.Decimal

open Float.Model

variable {x y : Float}

theorem eq_of_toBits_eq (h : x.toBits = y.toBits) : x = y := by
  obtain ⟨⟨b, hb⟩⟩ := x
  obtain ⟨⟨c, hc⟩⟩ := y
  cases (h : b = c)
  rfl

theorem toNat_unpackMantissa (b : UInt64) :
    (@UnpackedFloat.unpackMantissa .binary64 b.toBitVec).toNat =
      b.toNat % 2 ^ 52 := by
  simp [UnpackedFloat.unpackMantissa]

theorem toNat_unpackExponent (b : UInt64) :
    (@UnpackedFloat.unpackExponent .binary64 b.toBitVec).toNat =
      b.toNat / 2 ^ 52 % 2 ^ 11 := by
  simp [UnpackedFloat.unpackExponent, Nat.shiftRight_eq_div_pow]

/-- Infinities and NaNs have the greatest exponent, and the mantissa tells them apart. -/
theorem unpack_cases (b : BitVec 64) :
    let exponent := @UnpackedFloat.unpackExponent .binary64 b
    let mantissa := @UnpackedFloat.unpackMantissa .binary64 b
    let u := UnpackedFloat.unpack .binary64 b
    (exponent = -1#11 ∧ mantissa = 0#52 ∧ u.isNaN = false) ∨
      (exponent = -1#11 ∧ mantissa ≠ 0#52 ∧ u.isInf = false) ∨
      (u.isNaN = false ∧ u.isInf = false) := by
  intro exponent mantissa u
  have hu : u = UnpackedFloat.unpack .binary64 b := rfl
  unfold UnpackedFloat.unpack at hu
  by_cases he : exponent = -1#11
  · rw [if_pos he] at hu
    by_cases hm : mantissa = 0#52
    · rw [if_pos hm] at hu
      exact .inl ⟨he, hm, by rw [hu]; rfl⟩
    · rw [if_neg hm] at hu
      exact .inr (.inl ⟨he, hm, by rw [hu]; rfl⟩)
  · rw [if_neg he] at hu
    refine .inr (.inr ?_)
    by_cases hz : exponent = 0#11
    · rw [if_pos hz] at hu
      by_cases hm : mantissa = 0#52
      · rw [dif_pos hm] at hu
        rw [hu]
        exact ⟨rfl, rfl⟩
      · rw [dif_neg hm] at hu
        rw [hu]
        exact ⟨rfl, rfl⟩
    · rw [if_neg hz] at hu
      rw [hu]
      exact ⟨rfl, rfl⟩

theorem unpack_of_isNaN (h : x.isNaN = true) :
    @UnpackedFloat.unpackExponent .binary64 x.toBits.toBitVec = -1#11 ∧
      @UnpackedFloat.unpackMantissa .binary64 x.toBits.toBitVec ≠ 0#52 := by
  rcases unpack_cases x.toBits.toBitVec with ⟨-, -, hn⟩ | ⟨he, hm, -⟩ | ⟨hn, -⟩
  · exact absurd (h.symm.trans hn) nofun
  · exact ⟨he, hm⟩
  · exact absurd (h.symm.trans hn) nofun

/-- There is one NaN. -/
theorem eq_of_isNaN (hx : x.isNaN = true) (hy : y.isNaN = true) : x = y := by
  obtain ⟨hex, hmx⟩ := unpack_of_isNaN hx
  obtain ⟨hey, hmy⟩ := unpack_of_isNaN hy
  have hb : x.toBits.toBitVec = y.toBits.toBitVec :=
    (x.toModel.valid.eq_packedNaN hex hmx).trans (y.toModel.valid.eq_packedNaN hey hmy).symm
  exact eq_of_toBits_eq (UInt64.eq_of_toBitVec_eq hb)

theorem unpack_of_isInf (h : x.isInf = true) :
    @UnpackedFloat.unpackExponent .binary64 x.toBits.toBitVec = -1#11 ∧
      @UnpackedFloat.unpackMantissa .binary64 x.toBits.toBitVec = 0#52 := by
  rcases unpack_cases x.toBits.toBitVec with ⟨he, hm, -⟩ | ⟨-, -, hi⟩ | ⟨-, hi⟩
  · exact ⟨he, hm⟩
  · exact absurd (h.symm.trans hi) nofun
  · exact absurd (h.symm.trans hi) nofun

/-- Two infinities with the same sign bit are the same. -/
theorem eq_of_isInf (hx : x.isInf = true) (hy : y.isInf = true)
    (hs : x.toBits.toNat < 2 ^ 63 ↔ y.toBits.toNat < 2 ^ 63) : x = y := by
  obtain ⟨hex, hmx⟩ := unpack_of_isInf hx
  obtain ⟨hey, hmy⟩ := unpack_of_isInf hy
  have he := congrArg BitVec.toNat (hex.trans hey.symm)
  have hm := congrArg BitVec.toNat (hmx.trans hmy.symm)
  rw [toNat_unpackExponent, toNat_unpackExponent] at he
  rw [toNat_unpackMantissa, toNat_unpackMantissa] at hm
  have hbx := x.toBits.toNat_lt
  have hby := y.toBits.toNat_lt
  refine eq_of_toBits_eq (UInt64.toNat_inj.1 ?_)
  omega

/-- The magnitude says all that the bits say but for the sign. -/
theorem Magnitude.ofBits_inj {b c : UInt64} (h : ofBits b = ofBits c) :
    b.toNat % 2 ^ 63 = c.toNat % 2 ^ 63 := by
  have hp : Nat.pow 2 52 = 2 ^ 52 := rfl
  have hp' : Nat.pow 2 11 = 2 ^ 11 := rfl
  unfold ofBits at h
  simp only [hp, hp'] at h
  split at h
  · split at h
    all_goals
      rw [Magnitude.mk.injEq] at h
      omega
  · split at h
    all_goals
      rw [Magnitude.mk.injEq] at h
      omega

/-- Two doubles with the same sign bit and the same magnitude are the same. -/
theorem eq_of_ofBits_eq (hs : x.toBits.toNat < 2 ^ 63 ↔ y.toBits.toNat < 2 ^ 63)
    (h : Magnitude.ofBits x.toBits = Magnitude.ofBits y.toBits) : x = y := by
  have hm := Magnitude.ofBits_inj h
  have hbx := x.toBits.toNat_lt
  have hby := y.toBits.toNat_lt
  refine eq_of_toBits_eq (UInt64.toNat_inj.1 ?_)
  omega

end Reckoner.Decimal
