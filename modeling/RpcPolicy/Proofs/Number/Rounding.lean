import RpcPolicy.Number.Binary64
/-! Rounding to fifty-three significant bits. Main statements: it is monotone, and changes nothing
that fits already. -/

namespace RpcPolicy.Binary64

variable {m n den units : Nat}

theorem le_nearestWhole (num den : Nat) : num / den ≤ nearestWhole num den := by
  unfold nearestWhole
  split <;> omega

theorem nearestWhole_mono (h : m ≤ n) : nearestWhole m den ≤ nearestWhole n den := by
  have hq : m / den ≤ n / den := Nat.div_le_div_right h
  rcases Nat.lt_or_eq_of_le hq with hlt | heq
  · have hm := nearestWhole_le m den
    have hn := le_nearestWhole n den
    omega
  · -- With equal quotients the larger number has the larger remainder.
    have hm := Nat.div_add_mod m den
    have hn := Nat.div_add_mod n den
    rw [heq] at hm
    have hr : m % den ≤ n % den := by omega
    unfold nearestWhole
    rw [heq]
    split <;> split <;> omega

theorem nearestWhole_of_dvd (h : den ∣ n) : nearestWhole n den = n / den := by
  have hr : n % den = 0 := Nat.mod_eq_zero_of_dvd h
  rcases Nat.eq_zero_or_pos den with rfl | hpos
  · rw [Nat.zero_dvd.mp h]
    rfl
  · rw [nearestWhole, hr, if_pos (Or.inl (by omega))]

theorem log2_le_log2 (h : m ≤ n) : m.log2 ≤ n.log2 := by
  rcases Nat.eq_zero_or_pos m with rfl | hm
  · exact Nat.zero_le _
  · have hself : 2 ^ m.log2 ≤ m := Nat.log2_self_le (by omega)
    rw [Nat.le_log2 (by omega)]
    omega

theorem spacing_mono (h : m ≤ n) (den : Nat) : spacing m den ≤ spacing n den :=
  Nat.sub_le_sub_right (log2_le_log2 (Nat.div_le_div_right h)) 52

/-- The rounded number stays within the range of its spacing. -/
theorem nearestUnits_le (num den : Nat) : nearestUnits num den ≤ 2 ^ (53 + spacing num den) := by
  have hq := quotient_lt num den
  have hw := nearestWhole_le num (den * 2 ^ spacing num den)
  rw [Nat.pow_add]
  exact Nat.mul_le_mul_right _ (by omega)

/-- Numbers with a spacing above one have all fifty-three bits. -/
theorem le_nearestUnits (h : 0 < spacing n den) :
    2 ^ (52 + spacing n den) ≤ nearestUnits n den := by
  have hlog : (n / den).log2 = 52 + spacing n den := by
    unfold spacing at h ⊢
    omega
  have hne : n / den ≠ 0 := by
    intro h0
    rw [h0, Nat.log2_zero] at hlog
    omega
  have hself : 2 ^ (52 + spacing n den) ≤ n / den := by
    rw [← hlog]
    exact Nat.log2_self_le hne
  have hquot : 2 ^ 52 ≤ n / (den * 2 ^ spacing n den) := by
    rw [← Nat.div_div_eq_div_mul, Nat.le_div_iff_mul_le (Nat.two_pow_pos _), ← Nat.pow_add]
    exact hself
  rw [Nat.pow_add]
  exact Nat.mul_le_mul_right _ (Nat.le_trans hquot (le_nearestWhole _ _))

theorem nearestUnits_mono (h : m ≤ n) (den : Nat) : nearestUnits m den ≤ nearestUnits n den := by
  rcases Nat.lt_or_eq_of_le (spacing_mono h den) with hlt | heq
  · have hpow : 2 ^ (53 + spacing m den) ≤ 2 ^ (52 + spacing n den) :=
      Nat.pow_le_pow_right (by decide) (by omega)
    exact Nat.le_trans (nearestUnits_le m den) (Nat.le_trans hpow (le_nearestUnits (by omega)))
  · unfold nearestUnits
    rw [heq]
    exact Nat.mul_le_mul_right _ (nearestWhole_mono h)

/-- The spacing near a number that fits divides it. -/
theorem two_pow_spacing_dvd (h : Representable units) : 2 ^ spacing units 1 ∣ units := by
  obtain ⟨-, m, k, hm, rfl⟩ := h
  have hlt : m * 2 ^ k < 2 ^ (53 + k) := by
    rw [Nat.pow_add]
    exact Nat.mul_lt_mul_of_pos_right hm (Nat.two_pow_pos k)
  have hle : spacing (m * 2 ^ k) 1 ≤ k := by
    unfold spacing
    rw [Nat.div_one]
    rcases Nat.eq_zero_or_pos (m * 2 ^ k) with h0 | hpos
    · rw [h0]
      simp
    · have hlog : (m * 2 ^ k).log2 < 53 + k := (Nat.log2_lt (by omega)).mpr hlt
      omega
  exact Nat.dvd_mul_left_of_dvd (Nat.pow_dvd_pow 2 hle) m

theorem nearestUnits_of_representable (h : Representable units) :
    nearestUnits units 1 = units := by
  have hd := two_pow_spacing_dvd h
  unfold nearestUnits
  rw [Nat.one_mul, nearestWhole_of_dvd hd, Nat.div_mul_cancel hd]

end RpcPolicy.Binary64
