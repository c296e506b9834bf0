import Mathlib.Algebra.Order.Group.MinMax
import Mathlib.Data.Nat.Cast.Order.Field
import Mathlib.Data.Rat.Floor
import Mathlib.Tactic.GCongr
import Mathlib.Tactic.Linarith
import Mathlib.Tactic.Positivity
import RpcPolicy.Proofs.Number.Nonneg
/-! How far rounding leads away from exact arithmetic. Main statement: a rounded result is within
one part in `2^53` of the exact one, and half of the smallest positive number. -/

namespace RpcPolicy.Binary64

/-- The number itself, zero for what is not finite. -/
def value : Binary64 → ℚ
  | finite negative units _ => signedUnits negative units / unitsPerOne
  | _ => 0

/-- The greatest share by which rounding changes a number. -/
def roundoff : ℚ := 1 / 2 ^ 53

/-- Whether a number is within a share and a distance of another. -/
def Near (share distance x y : ℚ) : Prop := |x - y| ≤ share * y + distance

variable {m n num den : Nat} {hm : Representable m} {hn : Representable n}
  {x y z share distance : ℚ}

theorem unitsPerOne_pos : (0 : ℚ) < unitsPerOne := by
  have h : 0 < unitsPerOne := by decide +kernel
  exact_mod_cast h

theorem value_finite : (finite false m hm).value = m / unitsPerOne := by
  change ((m : ℤ) : ℚ) / unitsPerOne = _
  rw [Int.cast_natCast]

theorem value_units : (finite false m hm).value * unitsPerOne = m := by
  rw [value_finite, div_mul_cancel₀ _ unitsPerOne_pos.ne']

/-- A distance may be measured in units. -/
theorem abs_sub_le_of_units
    (h : |x * unitsPerOne - y * unitsPerOne| ≤ distance * unitsPerOne) : |x - y| ≤ distance := by
  have hunit := unitsPerOne_pos
  rw [← sub_mul, abs_mul, abs_of_pos hunit] at h
  exact le_of_mul_le_mul_right h hunit

theorem roundoff_pos : 0 < roundoff := by
  unfold roundoff
  positivity

theorem div_finite (h : n ≠ 0) :
    finite false m hm / finite false n hn = nearest false (m * unitsPerOne) n := by
  change (if n = 0 then if m = 0 then nan else infinite false
    else nearest false (m * unitsPerOne) n) = _
  rw [if_neg h]

/-! ### One rounding -/

theorem nearestWhole_near (num : Nat) (h : 0 < den) : Near 0 (1 / 2) (nearestWhole num den) (num / den) := by
  have hpos : (0 : ℚ) < den := Nat.cast_pos.mpr h
  have hsplit := Nat.div_add_mod num den
  have hrest := Nat.mod_lt num h
  have hle : 2 * (nearestWhole num den * den) ≤ 2 * num + den := by
    unfold nearestWhole
    split
    · rw [Nat.mul_comm (num / den)]
      omega
    · rw [Nat.add_mul, Nat.mul_comm (num / den)]
      omega
  have hge : 2 * num ≤ 2 * (nearestWhole num den * den) + den := by
    unfold nearestWhole
    split
    · rw [Nat.mul_comm (num / den)]
      omega
    · rw [Nat.add_mul, Nat.mul_comm (num / den)]
      omega
  have hle' : (2 * (nearestWhole num den * den) : ℚ) ≤ 2 * num + den := by exact_mod_cast hle
  have hge' : (2 * num : ℚ) ≤ 2 * (nearestWhole num den * den) + den := by exact_mod_cast hge
  have hnum : (num / den : ℚ) * den = num := div_mul_cancel₀ _ hpos.ne'
  unfold Near
  rw [zero_mul, zero_add, abs_le]
  constructor
  · refine le_of_mul_le_mul_right ?_ hpos
    rw [sub_mul, hnum]
    linarith
  · refine le_of_mul_le_mul_right ?_ hpos
    rw [sub_mul, hnum]
    linarith

/-- Rounding moves a number by half of the spacing. -/
theorem nearestUnits_near_spacing (num : Nat) (h : 0 < den) :
    Near 0 (2 ^ spacing num den / 2) (nearestUnits num den) (num / den) := by
  have hgrid : (0 : ℚ) < 2 ^ spacing num den := by positivity
  have hwhole := nearestWhole_near num (Nat.mul_pos h (Nat.two_pow_pos (spacing num den)))
  unfold Near at hwhole ⊢
  have hscale : (nearestUnits num den - num / den : ℚ) =
      (nearestWhole num (den * 2 ^ spacing num den) -
        num / (den * 2 ^ spacing num den : ℕ)) * 2 ^ spacing num den := by
    unfold nearestUnits
    push_cast
    rw [sub_mul, ← div_div, div_mul_cancel₀ _ hgrid.ne']
  rw [hscale, abs_mul, abs_of_pos hgrid]
  calc _ ≤ (0 * (num / (den * 2 ^ spacing num den : ℕ) : ℚ) + 1 / 2) * 2 ^ spacing num den := by
        gcongr
    _ = _ := by ring

theorem two_pow_le_of_spacing (h : 2 ^ 52 ≤ num / den) :
    2 ^ (52 + spacing num den) ≤ num / den := by
  have hne : num / den ≠ 0 := by omega
  have hlog : 52 ≤ (num / den).log2 := (Nat.le_log2 hne).mpr h
  have hself := Nat.log2_self_le hne
  have heq : 52 + spacing num den = (num / den).log2 := by
    unfold spacing
    omega
  rwa [heq]

/-- From `2^52` units on rounding moves a number by a share of it. -/
theorem nearestUnits_near_share (h : 2 ^ 52 ≤ num / den) :
    Near roundoff 0 (nearestUnits num den) (num / den) := by
  have hden : 0 < den := by
    rcases Nat.eq_zero_or_pos den with rfl | hpos
    · rw [Nat.div_zero] at h
      omega
    · exact hpos
  have hnear := nearestUnits_near_spacing num hden
  have hpow : ((2 ^ (52 + spacing num den) : ℕ) : ℚ) ≤ num / den :=
    (Nat.cast_le.mpr (two_pow_le_of_spacing h)).trans Nat.cast_div_le
  push_cast at hpow
  rw [pow_add] at hpow
  unfold Near at hnear ⊢
  unfold roundoff
  linarith

theorem spacing_eq_zero (h : num / den < 2 ^ 52) : spacing num den = 0 := by
  rcases Nat.eq_zero_or_pos (num / den) with h0 | hpos
  · rw [spacing, h0]
    rfl
  · have hlog : (num / den).log2 < 52 := (Nat.log2_lt (by omega)).mpr h
    unfold spacing
    omega

/-- Rounding moves a number by a share of it and half a unit. -/
theorem nearestUnits_near (num : Nat) (h : 0 < den) :
    Near roundoff (1 / 2) (nearestUnits num den) (num / den) := by
  rcases Nat.lt_or_ge (num / den) (2 ^ 52) with hlt | hge
  · have hnear := nearestUnits_near_spacing num h
    have hshare : 0 ≤ roundoff * (num / den : ℚ) := by
      unfold roundoff
      positivity
    rw [spacing_eq_zero hlt, pow_zero] at hnear
    unfold Near at hnear ⊢
    linarith
  · have hnear := nearestUnits_near_share hge
    unfold Near at hnear ⊢
    linarith

/-- Rounding moves a whole number of units by a share of it. -/
theorem nearestUnits_near_whole (num : Nat) : Near roundoff 0 (nearestUnits num 1) num := by
  rcases Nat.lt_or_ge num (2 ^ 52) with hlt | hge
  · have hs : spacing num 1 = 0 := spacing_eq_zero (by rwa [Nat.div_one])
    have hexact : nearestUnits num 1 = num := by
      unfold nearestUnits
      rw [hs, pow_zero, Nat.mul_one, Nat.mul_one, nearestWhole_of_dvd (Nat.one_dvd num),
        Nat.div_one]
    have hshare : 0 ≤ roundoff * (num : ℚ) := by
      unfold roundoff
      positivity
    rw [hexact]
    unfold Near
    rwa [sub_self, abs_zero, add_zero]
  · have hbits : 2 ^ 52 ≤ num / 1 := by rwa [Nat.div_one]
    have hnear := nearestUnits_near_share hbits
    rwa [Nat.cast_one, div_one] at hnear

theorem nearestUnits_zero (den : Nat) : nearestUnits 0 den = 0 := by
  unfold nearestUnits
  rw [nearestWhole_of_dvd (Nat.dvd_zero _), Nat.zero_div, Nat.zero_mul]

/-! ### Several roundings -/

theorem Near.le (h : Near share distance x y) : |x - y| ≤ share * y + distance := h

theorem Near.le_double (h : Near share distance x y) (hs : share ≤ 1) (hy : 0 ≤ y) :
    x ≤ 2 * y + distance := by
  have hle := le_abs_self (x - y)
  have hnear := h.le
  have hshare : share * y ≤ y := mul_le_of_le_one_left hy hs
  linarith

theorem near_refl (hs : 0 ≤ share) (hd : 0 ≤ distance) (hy : 0 ≤ y) : Near share distance y y := by
  unfold Near
  rw [sub_self, abs_zero]
  positivity

theorem Near.mono {share' distance' : ℚ} (h : Near share distance x y) (hy : 0 ≤ y)
    (hs : share ≤ share') (hd : distance ≤ distance') : Near share' distance' x y := by
  refine le_trans h.le ?_
  gcongr

/-- A further rounding adds its share, also of what was added before. -/
theorem Near.trans {share' distance' : ℚ} (h : Near share distance x y) (hs : 0 ≤ share)
    (h' : Near share' distance' y z) :
    Near (share + share' + share * share') (distance + distance' + share * distance') x z := by
  have hxy := h.le
  have hyz := h'.le
  have hy : y ≤ z + (share' * z + distance') := by
    have := le_abs_self (y - z)
    linarith
  have htriangle : |x - z| ≤ |x - y| + |y - z| := abs_sub_le x y z
  have hgrow : share * y ≤ share * (z + (share' * z + distance')) := by gcongr
  unfold Near
  linarith

theorem Near.add {x' y' distance' : ℚ} (h : Near share distance x y)
    (h' : Near share distance' x' y') : Near share (distance + distance') (x + x') (y + y') := by
  have hsplit : x + x' - (y + y') = x - y + (x' - y') := by ring
  have hsum := abs_add_le (x - y) (x' - y')
  have hx := h.le
  have hx' := h'.le
  unfold Near
  rw [hsplit]
  linarith

theorem Near.mul_right {k : ℚ} (h : Near share distance x y) (hk : 0 ≤ k) :
    Near share (distance * k) (x * k) (y * k) := by
  have hx := h.le
  unfold Near
  rw [← sub_mul, abs_mul, abs_of_nonneg hk]
  calc |x - y| * k ≤ (share * y + distance) * k := by gcongr
    _ = share * (y * k) + distance * k := by ring

/-- Below a bound the error is no more than the share of the bound. -/
theorem Near.min {bound : ℚ} (h : Near share distance x y) (hs : 0 ≤ share) (hs1 : share ≤ 1)
    (hb : 0 ≤ bound) (hd : 0 ≤ distance) :
    |Min.min x bound - Min.min y bound| ≤ share * bound + distance := by
  have hx := h.le
  rcases le_total y bound with hy | hy
  · have hmin := abs_min_sub_min_le_max x bound y bound
    rw [sub_self, abs_zero, max_eq_left (abs_nonneg _)] at hmin
    have hgrow : share * y ≤ share * bound := by gcongr
    linarith
  · -- What exceeds the bound before rounding falls short of it by no more than a share of it.
    rw [min_eq_right hy]
    have hlow : y - (share * y + distance) ≤ x := by
      have := neg_abs_le (x - y)
      linarith
    have hshrink : (1 - share) * bound ≤ (1 - share) * y :=
      mul_le_mul_of_nonneg_left hy (by linarith)
    have hbound : 0 ≤ share * bound := mul_nonneg hs hb
    rcases le_total x bound with hxb | hxb
    · rw [min_eq_left hxb, abs_le]
      constructor <;> linarith
    · rw [min_eq_right hxb, sub_self, abs_zero]
      linarith

/-! ### What overflows -/

theorem nearest_of_lt (h : nearestUnits num den < unitsOverflow) :
    ∃ hr, nearest false num den = finite false (nearestUnits num den) hr := by
  unfold nearest
  rw [dif_pos h]
  exact ⟨_, rfl⟩

theorem nearest_of_ge (h : unitsOverflow ≤ nearestUnits num den) :
    nearest false num den = infinity := by
  unfold nearest
  rw [dif_neg (Nat.not_lt.mpr h)]
  rfl

/-- No whole number of units below a finite number overflows. -/
theorem lt_overflow_of_le (hn : Representable n) (h : num ≤ n) :
    nearestUnits num 1 < unitsOverflow := by
  have hmono := nearestUnits_mono h 1
  rw [nearestUnits_of_representable hn] at hmono
  exact lt_of_le_of_lt hmono hn.1

/-- A number that stays clear of the overflow threshold is rounded to a finite one. -/
theorem Near.lt_overflow (h : Near share distance (nearestUnits num den) y) (hs : share ≤ 1)
    (hy : 0 ≤ y) (hlt : 2 * y + distance < unitsOverflow) :
    nearestUnits num den < unitsOverflow := by
  have hnear := h.le_double hs hy
  have hcast : (nearestUnits num den : ℚ) < unitsOverflow := by linarith
  exact_mod_cast hcast

theorem isFinite_floor (hn : Representable n) : (finite false n hn).floor.isFinite = true := by
  by_cases h : n % unitsPerOne = 0
  · rw [Binary64.floor, if_pos h]
    rfl
  · obtain ⟨hr, heq⟩ := nearest_of_lt (lt_overflow_of_le hn (Nat.div_mul_le_self n unitsPerOne))
    rw [Binary64.floor, if_neg h, if_neg Bool.false_ne_true, heq]
    rfl

theorem isFinite_max {x y : Binary64} (hx : x.isFinite = true) (hy : y.isFinite = true) :
    (x.max y).isFinite = true := by
  unfold Binary64.max
  split
  · exact hy
  · split
    · exact hx
    · split
      · exact hy
      · exact hx

/-- The smaller of a rounded number and a finite bound is finite. -/
theorem nearest_min (num den : Nat) (hn : Representable n) :
    ∃ m hm, (nearest false num den).min (finite false n hn) = finite false m hm ∧
      m = Min.min (nearestUnits num den) n := by
  rcases Nat.lt_or_ge (nearestUnits num den) unitsOverflow with hlt | hge
  · obtain ⟨hr, heq⟩ := nearest_of_lt hlt
    rw [heq, Nonneg.min_eq nonneg_finite nonneg_finite]
    split
    · rename_i h
      rw [lt_finite] at h
      exact ⟨n, hn, rfl, (min_eq_right (by omega)).symm⟩
    · rename_i h
      rw [lt_finite] at h
      exact ⟨_, hr, rfl, (min_eq_left (by omega)).symm⟩
  · have hlt := hn.1
    rw [nearest_of_ge hge]
    exact ⟨n, hn, rfl, (min_eq_right (by omega)).symm⟩

end RpcPolicy.Binary64
