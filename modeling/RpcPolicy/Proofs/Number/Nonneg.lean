import RpcPolicy.Proofs.Number.Rounding
/-! Numbers without a minus sign: their order, and which operations keep to them. Main statements:
sums do not fall below their parts, and what is taken away comes off. -/

namespace RpcPolicy.Binary64

/-- A number from zero on, or positive infinity; neither a NaN nor the negative zero. -/
def Nonneg : Binary64 → Prop
  | nan => False
  | infinite negative => negative = false
  | finite negative _ _ => negative = false

variable {x y z : Binary64} {m n num den : Nat} {hm : Representable m} {hn : Representable n}

theorem nonneg_finite : (finite false m hm).Nonneg := rfl

theorem nonneg_infinity : infinity.Nonneg := rfl

theorem Nonneg.cases (hx : x.Nonneg) : x = infinity ∨ ∃ m hm, x = finite false m hm := by
  cases x with
  | nan => exact hx.elim
  | infinite negative =>
    cases hx
    exact Or.inl rfl
  | finite negative m hm =>
    cases hx
    exact Or.inr ⟨m, hm, rfl⟩

theorem Nonneg.isNaN (hx : x.Nonneg) : x.isNaN = false := by
  cases x with
  | nan => exact hx.elim
  | infinite => rfl
  | finite => rfl

/-! ### Order -/

theorem lt_finite : (finite false m hm).lt (finite false n hn) = true ↔ m < n := by
  simp [lt, signedUnits]

theorem le_finite : (finite false m hm).le (finite false n hn) = true ↔ m ≤ n := by
  simp only [le, lt, eq, signedUnits, Bool.or_eq_true, decide_eq_true_eq, beq_iff_eq,
    Bool.false_eq_true, if_false]
  omega

theorem Nonneg.le_infinity (hx : x.Nonneg) : x.le infinity = true := by
  rcases hx.cases with rfl | ⟨m, hm, rfl⟩
  · rfl
  · rfl

theorem Nonneg.le_refl (hx : x.Nonneg) : x.le x = true := by
  rcases hx.cases with rfl | ⟨m, hm, rfl⟩
  · rfl
  · exact le_finite.mpr (Nat.le_refl m)

theorem Nonneg.le_trans (hx : x.Nonneg) (hy : y.Nonneg) (hz : z.Nonneg) (hxy : x.le y = true)
    (hyz : y.le z = true) : x.le z = true := by
  rcases hz.cases with rfl | ⟨k, hk, rfl⟩
  · exact hx.le_infinity
  · rcases hy.cases with rfl | ⟨n, hn, rfl⟩
    · cases hyz
    · rcases hx.cases with rfl | ⟨m, hm, rfl⟩
      · cases hxy
      · rw [le_finite] at hxy hyz ⊢
        omega

/-- Of two such numbers one is below the other or not above it. -/
theorem Nonneg.lt_iff_not_le (hx : x.Nonneg) (hy : y.Nonneg) :
    x.lt y = true ↔ y.le x = false := by
  rcases hx.cases with rfl | ⟨m, hm, rfl⟩ <;> rcases hy.cases with rfl | ⟨n, hn, rfl⟩
  · exact ⟨fun h => (by cases h), fun h => (by cases h)⟩
  · exact ⟨fun h => (by cases h), fun h => (by cases h)⟩
  · exact ⟨fun _ => rfl, fun _ => rfl⟩
  · rw [← Bool.not_eq_true, lt_finite, le_finite]
    omega

/-! ### Rounded numbers -/

theorem nonneg_nearest (num den : Nat) : (nearest false num den).Nonneg := by
  unfold nearest
  split <;> rfl

theorem le_nearest (h : m ≤ num) : (finite false m hm).le (nearest false num 1) = true := by
  have hle := nearestUnits_mono h 1
  rw [nearestUnits_of_representable hm] at hle
  unfold nearest
  split
  · exact le_finite.mpr hle
  · rfl

theorem nearest_le (h : num ≤ n) : (nearest false num 1).le (finite false n hn) = true := by
  have hle := nearestUnits_mono h 1
  rw [nearestUnits_of_representable hn] at hle
  have hlt := Nat.lt_of_le_of_lt hle hn.1
  unfold nearest
  rw [dif_pos hlt]
  exact le_finite.mpr hle

theorem nonneg_ofNat (n : Nat) : (ofNat n).Nonneg := nonneg_nearest _ _

theorem representable_whole (h : n < 2 ^ 53) : Representable (n * unitsPerOne) := by
  have hone : unitsPerOne = 2 ^ 1074 := by decide +kernel
  have hbound : 2 ^ 53 * unitsPerOne ≤ unitsOverflow := by decide +kernel
  have hlt : n * unitsPerOne < 2 ^ 53 * unitsPerOne :=
    Nat.mul_lt_mul_of_pos_right h (by rw [hone]; exact Nat.two_pow_pos 1074)
  exact ⟨Nat.lt_of_lt_of_le hlt hbound, n, 1074, h, by rw [hone]⟩

/-- Whole numbers below `2^53` are exact. -/
theorem ofNat_eq (h : n < 2 ^ 53) :
    ofNat n = finite false (n * unitsPerOne) (representable_whole h) := by
  have hround := nearestUnits_of_representable (representable_whole h)
  change nearest false (n * unitsPerOne) 1 = _
  unfold nearest
  simp only [hround]
  rw [dif_pos (representable_whole h).1]

theorem zero_eq : (0 : Binary64) = finite false 0 representable_zero := by
  have h : (0 : Binary64) = finite false (0 * unitsPerOne) (representable_whole (by decide)) :=
    ofNat_eq (by decide)
  simpa only [Nat.zero_mul] using h

theorem one_eq :
    (1 : Binary64) = finite false (1 * unitsPerOne) (representable_whole (by decide)) :=
  ofNat_eq (by decide)

theorem nonneg_one : (1 : Binary64).Nonneg := nonneg_ofNat 1

theorem Nonneg.zero_le (hx : x.Nonneg) : (0 : Binary64).le x = true := by
  rw [zero_eq]
  rcases hx.cases with rfl | ⟨m, hm, rfl⟩
  · rfl
  · exact le_finite.mpr (Nat.zero_le m)

theorem one_le_ofNat (h : 0 < n) : (1 : Binary64).le (ofNat n) = true := by
  rw [one_eq]
  exact le_nearest (Nat.mul_le_mul_right unitsPerOne h)

/-- What is neither a NaN nor at most zero has no minus sign. -/
theorem nonneg_of_not_le_zero (hn : x.isNaN = false) (h : x.le 0 = false) : x.Nonneg := by
  rw [zero_eq] at h
  cases x with
  | nan => cases hn
  | infinite negative =>
    cases negative with
    | false => rfl
    | true => cases h
  | finite negative m hm =>
    cases negative with
    | false => rfl
    | true =>
      simp only [le, lt, eq, signedUnits, if_true, Bool.false_eq_true, if_false,
        Bool.or_eq_false_iff, decide_eq_false_iff_not, beq_eq_false_iff_ne] at h
      omega

/-! ### Sums and differences -/

theorem add_finite : finite false m hm + finite false n hn = nearest false (m + n) 1 := by
  have hsum : (m : Int) + n = ((m + n : Nat) : Int) := by omega
  have hneg : ¬ ((m + n : Nat) : Int) < 0 := by omega
  change nearest (if (m : Int) + n = 0 then false && false else decide ((m : Int) + n < 0))
    ((m : Int) + n).natAbs 1 = _
  rw [hsum, Int.natAbs_natCast, decide_eq_false hneg, Bool.and_false, ite_self]

theorem sub_finite (h : n ≤ m) :
    finite false m hm - finite false n hn = nearest false (m - n) 1 := by
  have hsum : (m : Int) + -n = ((m - n : Nat) : Int) := by omega
  have hneg : ¬ ((m - n : Nat) : Int) < 0 := by omega
  change nearest (if (m : Int) + -n = 0 then false && true else decide ((m : Int) + -n < 0))
    ((m : Int) + -n).natAbs 1 = _
  rw [hsum, Int.natAbs_natCast, decide_eq_false hneg, Bool.false_and, ite_self]

theorem Nonneg.add (hx : x.Nonneg) (hy : y.Nonneg) : (x + y).Nonneg := by
  rcases hx.cases with rfl | ⟨m, hm, rfl⟩ <;> rcases hy.cases with rfl | ⟨n, hn, rfl⟩
  · exact nonneg_infinity
  · exact nonneg_infinity
  · exact nonneg_infinity
  · rw [add_finite]
    exact nonneg_nearest _ _

theorem Nonneg.le_add (hx : x.Nonneg) (hy : y.Nonneg) : x.le (x + y) = true := by
  rcases hx.cases with rfl | ⟨m, hm, rfl⟩ <;> rcases hy.cases with rfl | ⟨n, hn, rfl⟩
  · rfl
  · rfl
  · rfl
  · rw [add_finite]
    exact le_nearest (Nat.le_add_right m n)

/-- Taking away no more than there is leaves no less than nothing, and no more than there was. -/
theorem Nonneg.sub (hx : x.Nonneg) (hy : (finite false n hn).le x = true) :
    (x - finite false n hn).Nonneg ∧ (x - finite false n hn).le x = true := by
  rcases hx.cases with rfl | ⟨m, hm, rfl⟩
  · exact ⟨nonneg_infinity, rfl⟩
  · rw [sub_finite (le_finite.mp hy)]
    exact ⟨nonneg_nearest _ _, nearest_le (Nat.sub_le m n)⟩

theorem Nonneg.sub_one (hx : x.Nonneg) (h : (1 : Binary64).le x = true) :
    (x - 1).Nonneg ∧ (x - 1).le x = true := by
  rw [one_eq] at h ⊢
  exact hx.sub h

theorem add_nan (x : Binary64) : x + nan = nan := by
  cases x <;> rfl

/-! ### Products, quotients and whole parts -/

theorem mul_finite :
    finite false m hm * finite false n hn = nearest false (m * n) unitsPerOne := rfl

/-- A product is a NaN only for a zero and an infinity. -/
theorem Nonneg.mul (hx : x.Nonneg) (hy : y.Nonneg) : x * y = nan ∨ (x * y).Nonneg := by
  rcases hx.cases with rfl | ⟨m, hm, rfl⟩ <;> rcases hy.cases with rfl | ⟨n, hn, rfl⟩
  · exact Or.inr rfl
  · change (if n = 0 then nan else infinity) = nan ∨ (if n = 0 then nan else infinity).Nonneg
    split
    · exact Or.inl rfl
    · exact Or.inr rfl
  · change (if m = 0 then nan else infinity) = nan ∨ (if m = 0 then nan else infinity).Nonneg
    split
    · exact Or.inl rfl
    · exact Or.inr rfl
  · exact Or.inr (nonneg_nearest (m * n) unitsPerOne)

theorem Nonneg.div_finite (hx : x.Nonneg) (h : n ≠ 0) : (x / finite false n hn).Nonneg := by
  rcases hx.cases with rfl | ⟨m, hm, rfl⟩
  · exact nonneg_infinity
  · change (if n = 0 then if m = 0 then nan else infinity
      else nearest false (m * unitsPerOne) n).Nonneg
    rw [if_neg h]
    exact nonneg_nearest _ _

theorem Nonneg.floor (hx : x.Nonneg) : x.floor.Nonneg := by
  rcases hx.cases with rfl | ⟨m, hm, rfl⟩
  · exact nonneg_infinity
  · by_cases h : m % unitsPerOne = 0
    · rw [Binary64.floor, if_pos h]
      exact nonneg_finite
    · rw [Binary64.floor, if_neg h, if_neg Bool.false_ne_true]
      exact nonneg_nearest _ _

/-! ### Smaller and larger -/

theorem nan_min (y : Binary64) : nan.min y = y := rfl

theorem Nonneg.min_eq (hx : x.Nonneg) (hy : y.Nonneg) :
    x.min y = if y.lt x then y else x := by
  unfold Binary64.min
  rw [hx.isNaN, hy.isNaN]
  rfl

theorem Nonneg.max_eq (hx : x.Nonneg) (hy : y.Nonneg) :
    x.max y = if x.lt y then y else x := by
  unfold Binary64.max
  rw [hx.isNaN, hy.isNaN]
  rfl

theorem Nonneg.min (hx : x.Nonneg) (hy : y.Nonneg) : (x.min y).Nonneg := by
  rw [hx.min_eq hy]
  split
  · exact hy
  · exact hx

theorem Nonneg.min_le_right (hx : x.Nonneg) (hy : y.Nonneg) : (x.min y).le y = true := by
  rw [hx.min_eq hy]
  split
  · exact hy.le_refl
  · rename_i h
    rw [hy.lt_iff_not_le hx, Bool.not_eq_false] at h
    exact h

theorem Nonneg.le_min (hx : x.Nonneg) (hy : y.Nonneg) (hzx : z.le x = true)
    (hzy : z.le y = true) : z.le (x.min y) = true := by
  rw [hx.min_eq hy]
  split
  · exact hzy
  · exact hzx

theorem Nonneg.max (hx : x.Nonneg) (hy : y.Nonneg) : (x.max y).Nonneg := by
  rw [hx.max_eq hy]
  split
  · exact hy
  · exact hx

theorem Nonneg.le_max_right (hx : x.Nonneg) (hy : y.Nonneg) : y.le (x.max y) = true := by
  rw [hx.max_eq hy]
  split
  · exact hy.le_refl
  · rename_i h
    rw [hx.lt_iff_not_le hy, Bool.not_eq_false] at h
    exact h

end RpcPolicy.Binary64
