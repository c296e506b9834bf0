import Mathlib.Data.Rat.Floor
import RpcPolicy.Proofs.Number.Decimals
import RpcPolicy.Proofs.Number.Error
/-! Whole numbers as doubles. Main statement: up to `2^53` they are exact, and so is taking one
away. -/

namespace RpcPolicy.Binary64

variable {m n : Nat} {hm : Representable m} {x : Binary64}

/-! ### Whole numbers that fit -/

/-- The bound itself is a power of two. -/
theorem representable_upTo (h : n ≤ 2 ^ 53) : Representable (n * unitsPerOne) := by
  rcases Nat.lt_or_eq_of_le h with hlt | rfl
  · exact representable_whole hlt
  · have hone : unitsPerOne = 2 ^ 1074 := by decide +kernel
    have hbound : 2 ^ 53 * unitsPerOne < unitsOverflow := by decide +kernel
    exact ⟨hbound, 1, 53 + 1074, by decide, by rw [hone, Nat.one_mul, Nat.pow_add]⟩

theorem ofNat_whole (h : n ≤ 2 ^ 53) :
    ofNat n = finite false (n * unitsPerOne) (representable_upTo h) := by
  have hexact := nearest_of_representable false (representable_upTo h) Nat.one_pos
  rw [Nat.mul_one] at hexact
  exact hexact

theorem value_ofNat (h : n ≤ 2 ^ 53) : (ofNat n).value = n := by
  rw [ofNat_whole h, value_finite, Nat.cast_mul, mul_div_assoc, div_self unitsPerOne_pos.ne',
    mul_one]

theorem not_one_le_zero : (1 : Binary64).le (ofNat 0) = false := by
  rw [← Bool.not_eq_true, one_eq, ofNat_whole (Nat.zero_le _), le_finite, Nat.one_mul,
    Nat.zero_mul, Nat.le_zero]
  exact Nat.ne_of_gt (by decide +kernel)

/-! ### Operations that stay exact -/

theorem ofNat_sub_one (h : n + 1 ≤ 2 ^ 53) : ofNat (n + 1) - 1 = ofNat n := by
  have hunits : (n + 1) * unitsPerOne - 1 * unitsPerOne = n * unitsPerOne := by
    rw [← Nat.sub_mul, Nat.add_sub_cancel]
  rw [ofNat_whole h, one_eq, sub_finite (Nat.mul_le_mul_right _ (Nat.le_add_left 1 n)), hunits]
  rfl

theorem add_zero_ofNat (h : n ≤ 2 ^ 53) : ofNat n + 0 = ofNat n := by
  rw [ofNat_whole h, zero_eq, add_finite, Nat.add_zero]
  exact ofNat_whole h

/-- No time brings no tokens, at any finite rate. -/
theorem zero_mul_finite : (0 : Binary64) * finite false m hm = 0 := by
  have hexact := nearest_of_representable false representable_zero
    (by decide +kernel : 0 < unitsPerOne)
  rw [zero_eq, mul_finite]
  rw [Nat.zero_mul] at hexact ⊢
  exact hexact

theorem ofNat_min (hmn : m ≤ n) (h : n ≤ 2 ^ 53) : (ofNat m).min (ofNat n) = ofNat m := by
  rw [(nonneg_ofNat m).min_eq (nonneg_ofNat n), if_neg]
  rw [ofNat_whole h, ofNat_whole (hmn.trans h), lt_finite, Nat.not_lt]
  exact Nat.mul_le_mul_right _ hmn

theorem floor_finite : (finite false m hm).floor = ofNat (m / unitsPerOne) := by
  by_cases h : m % unitsPerOne = 0
  · have hwhole : m / unitsPerOne * unitsPerOne * 1 = m * 1 := by
      rw [Nat.div_mul_cancel (Nat.dvd_of_mod_eq_zero h)]
    have hexact := nearest_of_representable false hm Nat.one_pos
    rw [← hwhole, Nat.mul_one] at hexact
    rw [Binary64.floor, if_pos h]
    exact hexact.symm
  · rw [Binary64.floor, if_neg h, if_neg Bool.false_ne_true]
    rfl

theorem ofNat_max_one (n : Nat) : (ofNat n).max 1 = ofNat (Max.max 1 n) := by
  rw [(nonneg_ofNat n).max_eq nonneg_one]
  rcases Nat.eq_zero_or_pos n with rfl | hpos
  · rw [if_pos ((nonneg_ofNat 0).lt_iff_not_le nonneg_one |>.mpr not_one_le_zero)]
    rfl
  · rw [if_neg, Nat.max_eq_right hpos]
    rw [(nonneg_ofNat n).lt_iff_not_le nonneg_one, one_le_ofNat hpos]
    decide

end RpcPolicy.Binary64
