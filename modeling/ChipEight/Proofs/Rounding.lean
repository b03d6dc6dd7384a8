import ChipEight.Number.Quantity
import Mathlib.Tactic.Ring
import Mathlib.Tactic.NormNum
import Mathlib.Tactic.Linarith

/-!
# Rounding

A quotient is taken to the nearest binary number. That is itself if it is whole and has no more bits than
a binary number has in front of the point (`Binary64.truncate_nearest_of_whole`). A larger one may be
changed, but by no more than a factor of two (`Binary64.roundSize_near`), and so stays large
(`Binary64.le_of_truncate_nearest`).
-/

namespace ChipEight

/-! ## Up to a factor of two

Rounding moves a quotient by less than one. Where the quotient is one or more, that is no more than
a factor of two, and scaling by a power of two before and after keeps the factor. The exponent is
chosen so that what is rounded has some fifty bits, so the factor is a generous bound, but one that
is easy to carry through. -/

/-- To round what is not less than one changes it by no more than a factor of two. -/
theorem roundHalfEven_near {num den : Nat} (hden : 0 < den) (h : den ≤ num) :
    num ≤ 2 * (roundHalfEven num den * den) ∧ roundHalfEven num den * den ≤ 2 * num := by
  have hquotient : 1 ≤ num / den := (Nat.one_le_div_iff hden).mpr h
  have hlow : num / den ≤ roundHalfEven num den := by
    unfold roundHalfEven
    dsimp only
    split
    · exact Nat.le_refl _
    · split <;> omega
  have hhigh : roundHalfEven num den ≤ num / den + 1 := by
    unfold roundHalfEven
    dsimp only
    split
    · omega
    · split <;> omega
  have hfloor : num / den * den ≤ num := Nat.div_mul_le_self num den
  have hnext : num < (num / den + 1) * den := Nat.lt_mul_of_div_lt (Nat.lt_succ_self _) hden
  -- The quotient and what it is rounded to differ by one at most, and neither is zero.
  generalize num / den = quotient at *
  generalize roundHalfEven num den = rounded at *
  refine ⟨?_, ?_⟩
  · calc num ≤ (quotient + 1) * den := hnext.le
      _ ≤ 2 * rounded * den := Nat.mul_le_mul_right den (by omega)
      _ = 2 * (rounded * den) := Nat.mul_assoc 2 rounded den
  · calc rounded * den ≤ 2 * quotient * den := Nat.mul_le_mul_right den (by omega)
      _ = 2 * (quotient * den) := Nat.mul_assoc 2 quotient den
      _ ≤ 2 * num := Nat.mul_le_mul_left 2 hfloor

namespace Binary64

variable {f : Fraction} {k : Nat}

theorem exponent_le (f : Fraction) :
    exponent f ≤ max minExponent ((f.num.log2 : Int) - (f.den.log2 : Int) - 52) := by
  unfold exponent
  dsimp only
  split <;> omega

/-- What is divided by its exponent is not less than one, unless it is less than all binary numbers. -/
theorem den_descale_le (hnum : 0 < f.num) (hk : k ≤ 1074) (hsmall : f.den ≤ f.num * 2 ^ k)
    {e : Int} (he : e ≤ max minExponent ((f.num.log2 : Int) - (f.den.log2 : Int) - 52)) :
    (descale f e).den ≤ (descale f e).num := by
  have hlow : 2 ^ f.num.log2 ≤ f.num := Nat.log2_self_le (by omega)
  have hhigh : f.den < 2 ^ (f.den.log2 + 1) := Nat.lt_log2_self
  rw [minExponent] at he
  rcases Int.lt_or_le e 0 with hnegative | hpositive
  · rw [descale, if_pos hnegative]
    show f.den ≤ f.num * 2 ^ e.natAbs
    -- Only the smallest exponent may be larger than the sizes of both parts ask for.
    rcases Int.lt_or_le (-1074) e with hnormal | htiny
    · -- The exponent is such that the numerator has the more bits of the two.
      calc f.den ≤ 2 ^ (f.den.log2 + 1) := hhigh.le
        _ ≤ 2 ^ (f.num.log2 + e.natAbs) := Nat.pow_le_pow_right (by decide) (by omega)
        _ = 2 ^ f.num.log2 * 2 ^ e.natAbs := Nat.pow_add _ _ _
        _ ≤ f.num * 2 ^ e.natAbs := Nat.mul_le_mul_right _ hlow
    · exact hsmall.trans (Nat.mul_le_mul_left _ (Nat.pow_le_pow_right (by decide) (by omega)))
  · rw [descale, if_neg (by omega)]
    show f.den * 2 ^ e.natAbs ≤ f.num
    calc f.den * 2 ^ e.natAbs ≤ 2 ^ (f.den.log2 + 1) * 2 ^ e.natAbs :=
          Nat.mul_le_mul_right _ hhigh.le
      _ = 2 ^ (f.den.log2 + 1 + e.natAbs) := (Nat.pow_add _ _ _).symm
      _ ≤ 2 ^ f.num.log2 := Nat.pow_le_pow_right (by decide) (by omega)
      _ ≤ f.num := hlow

theorem fraction_round_near (hden : 0 < f.den) {e : Int}
    (h : (descale f e).den ≤ (descale f e).num) :
    let size := fraction (descale f e).round e
    0 < size.den ∧ f.num * size.den ≤ 2 * (size.num * f.den) ∧
      size.num * f.den ≤ 2 * (f.num * size.den) := by
  have hpower : 0 < 2 ^ e.natAbs := Nat.two_pow_pos _
  rcases Int.lt_or_le e 0 with hnegative | hpositive
  · rw [descale, if_pos hnegative] at h ⊢
    rw [fraction, if_pos hnegative]
    obtain ⟨hlow, hhigh⟩ := roundHalfEven_near hden h
    refine ⟨hpower, ?_, ?_⟩
    · exact hlow
    · exact hhigh
  · rw [descale, if_neg (by omega)] at h ⊢
    rw [fraction, if_neg (by omega)]
    obtain ⟨hlow, hhigh⟩ := roundHalfEven_near (Nat.mul_pos hden hpower) h
    have hshift : ∀ m : Nat, m * 2 ^ e.natAbs * f.den = m * (f.den * 2 ^ e.natAbs) := by
      intro m
      ring
    refine ⟨Nat.one_pos, ?_, ?_⟩
    · show f.num * 1 ≤ 2 * (Fraction.round _ * 2 ^ e.natAbs * f.den)
      rw [hshift, Nat.mul_one]
      exact hlow
    · show Fraction.round _ * 2 ^ e.natAbs * f.den ≤ 2 * (f.num * 1)
      rw [hshift, Nat.mul_one]
      exact hhigh

/-- The nearest size is not more than twice as large as a fraction, and not less than half as large. -/
theorem roundSize_near (hnum : 0 < f.num) (hden : 0 < f.den) (hk : k ≤ 1074)
    (hsmall : f.den ≤ f.num * 2 ^ k) :
    0 < (roundSize f).den ∧
      f.num * (roundSize f).den ≤ 2 * ((roundSize f).num * f.den) ∧
      (roundSize f).num * f.den ≤ 2 * (f.num * (roundSize f).den) := by
  have hsize : roundSize f = fraction (descale f (exponent f)).round (exponent f) :=
    if_neg (Nat.ne_of_gt hnum)
  rw [hsize]
  exact fraction_round_near hden (den_descale_le hnum hk hsmall (exponent_le f))

/-- What is above a whole number is not taken to less than the half of it. -/
theorem le_of_truncate_nearest {m n : Nat} (hm : 0 < m) (hden : 0 < f.den) (hlarge : m * f.den ≤ f.num)
    (h : (nearest false f).truncate = .ok (n : Int)) : m ≤ 2 * n + 1 := by
  have hatLeast : f.den ≤ f.num := (Nat.le_mul_of_pos_left f.den hm).trans hlarge
  obtain ⟨hpositive, hlow, -⟩ := roundSize_near (k := 0) (hden.trans_le hatLeast) hden (by decide)
    (by rw [Nat.pow_zero, Nat.mul_one]; exact hatLeast)
  rw [nearest] at h
  -- The nearest number may be infinite, but that cannot be truncated.
  split at h
  · cases h
  · have hfloor : (roundSize f).num / (roundSize f).den = n := by
      have hwhole := Except.ok.inj h
      exact Int.ofNat.inj hwhole
    have hbelow : (roundSize f).num < (n + 1) * (roundSize f).den := by
      rw [← hfloor]
      exact Nat.lt_mul_of_div_lt (Nat.lt_succ_self _) hpositive
    have htwice : m * (roundSize f).den * f.den < 2 * (n + 1) * (roundSize f).den * f.den :=
      calc m * (roundSize f).den * f.den = m * f.den * (roundSize f).den := by ring
        _ ≤ f.num * (roundSize f).den := Nat.mul_le_mul_right _ hlarge
        _ ≤ 2 * ((roundSize f).num * f.den) := hlow
        _ < 2 * ((n + 1) * (roundSize f).den * f.den) := by
          have := Nat.mul_lt_mul_of_pos_right hbelow hden
          omega
        _ = 2 * (n + 1) * (roundSize f).den * f.den := by ring
    have := Nat.lt_of_mul_lt_mul_right (Nat.lt_of_mul_lt_mul_right htwice)
    omega

/-! ## Whole numbers

Nothing is rounded where the scaled quotient is whole. A whole number of 52 bits at most needs no
digits of its own to be dropped, so its exponent is not positive and scaling multiplies it by a
power of two. -/

theorem roundHalfEven_mul (m : Nat) {den : Nat} (hden : 0 < den) : roundHalfEven (m * den) den = m := by
  rw [roundHalfEven, Nat.mul_div_cancel m hden, Nat.mul_mod_left]
  exact if_pos (by omega)

/-- A whole number of 52 bits has no bits behind the point to be rounded away. -/
theorem exponent_nonpos {m : Nat} (hwhole : f.num = m * f.den) (hm : m < 2 ^ 52) :
    exponent f ≤ 0 := by
  have hlog : f.num.log2 ≤ f.den.log2 + 52 := by
    -- Zero has no leading bit to be counted.
    rcases Nat.eq_zero_or_pos f.num with hzero | hpositive
    · rw [hzero]
      exact Nat.zero_le _
    · have hbelow : f.num < 2 ^ (f.den.log2 + 53) :=
        calc f.num = m * f.den := hwhole
          _ ≤ 2 ^ 52 * f.den := Nat.mul_le_mul_right _ hm.le
          _ < 2 ^ 52 * 2 ^ (f.den.log2 + 1) :=
            Nat.mul_lt_mul_of_pos_left Nat.lt_log2_self (Nat.two_pow_pos 52)
          _ = 2 ^ (f.den.log2 + 53) := by rw [← Nat.pow_add]; congr 1; omega
      have := (Nat.log2_lt (by omega)).mpr hbelow
      omega
  have := exponent_le f
  rw [minExponent] at this
  omega

theorem fraction_round_of_whole {m : Nat} (hden : 0 < f.den) (hwhole : f.num = m * f.den) {e : Int}
    (he : e ≤ 0) :
    let size := fraction (descale f e).round e
    0 < size.den ∧ size.num = m * size.den := by
  rcases Int.lt_or_le e 0 with hnegative | hzero
  · have hround : (descale f e).round = m * 2 ^ e.natAbs := by
      rw [descale, if_pos hnegative, Fraction.round, Fraction.times, hwhole]
      show roundHalfEven (m * f.den * 2 ^ e.natAbs) f.den = _
      rw [Nat.mul_right_comm, roundHalfEven_mul _ hden]
    rw [hround, fraction, if_pos hnegative]
    exact ⟨Nat.two_pow_pos _, rfl⟩
  · obtain rfl : e = 0 := Int.le_antisymm he hzero
    have hround : (descale f 0).round = m := by
      rw [descale, if_neg (by decide), Fraction.round, Fraction.dividedBy, hwhole]
      show roundHalfEven (m * f.den) (f.den * 1) = m
      rw [Nat.mul_one, roundHalfEven_mul _ hden]
    rw [hround, fraction, if_neg (by decide)]
    exact ⟨Nat.one_pos, rfl⟩

/-- So it is taken to itself. -/
theorem roundSize_of_whole {m : Nat} (hden : 0 < f.den) (hwhole : f.num = m * f.den)
    (hm : m < 2 ^ 52) : 0 < (roundSize f).den ∧ (roundSize f).num = m * (roundSize f).den := by
  by_cases hzero : f.num = 0
  · have hnone : m = 0 :=
      (Nat.mul_eq_zero.mp (hwhole.symm.trans hzero)).resolve_right (Nat.ne_of_gt hden)
    rw [roundSize, if_pos hzero, hnone]
    exact ⟨Nat.one_pos, rfl⟩
  · have hsize : roundSize f = fraction (descale f (exponent f)).round (exponent f) := if_neg hzero
    rw [hsize]
    exact fraction_round_of_whole hden hwhole (exponent_nonpos hwhole hm)

theorem truncate_nearest_of_whole {m : Nat} (hden : 0 < f.den) (hwhole : f.num = m * f.den)
    (hm : m < 2 ^ 52) : (nearest false f).truncate = .ok (m : Int) := by
  obtain ⟨hpositive, hnum⟩ := roundSize_of_whole hden hwhole hm
  -- The largest number stays a variable, for its power is too large to be computed.
  have hpower : ∀ n, 52 ≤ n → m < Nat.pow 2 n := fun n hn =>
    hm.trans_le (Nat.pow_le_pow_right (by decide) hn)
  have hfinite : nearest false f = finite false (roundSize f) := by
    rw [nearest]
    generalize hn : 1024 = n
    refine if_neg (Nat.not_le_of_lt ?_)
    rw [hnum, Nat.mul_comm]
    exact Nat.mul_lt_mul_of_pos_left (hpower n (by omega)) hpositive
  rw [hfinite, truncate, Fraction.floor, hnum, Nat.mul_div_cancel _ hpositive]
  rfl

end Binary64

end ChipEight
