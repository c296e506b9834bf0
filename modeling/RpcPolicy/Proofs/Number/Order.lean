import RpcPolicy.Proofs.Number.Signed
import RpcPolicy.Proofs.Number.Whole
/-! The order of doubles and that of the numbers they stand for. Main statement: on finite doubles
they are the same, and a range of finite bounds holds nothing else. -/

namespace RpcPolicy.Binary64

variable {x y low high : Binary64}

theorem lt_signed {a b : Bool} {m n : Nat} {hm : Representable m} {hn : Representable n} :
    (finite a m hm).lt (finite b n hn) = true ↔ signedUnits a m < signedUnits b n := by
  simp only [lt, decide_eq_true_eq]

theorem le_iff_value (hx : x.isFinite = true) (hy : y.isFinite = true) :
    x.le y = true ↔ x.value ≤ y.value := by
  cases x with
  | nan => cases hx
  | infinite => cases hx
  | finite a m hm =>
    cases y with
    | nan => cases hy
    | infinite => cases hy
    | finite b n hn =>
      rw [le_signed, value, value, div_le_div_iff_of_pos_right unitsPerOne_pos, Int.cast_le]

theorem lt_iff_value (hx : x.isFinite = true) (hy : y.isFinite = true) :
    x.lt y = true ↔ x.value < y.value := by
  cases x with
  | nan => cases hx
  | infinite => cases hx
  | finite a m hm =>
    cases y with
    | nan => cases hy
    | infinite => cases hy
    | finite b n hn =>
      rw [lt_signed, value, value, div_lt_div_iff_of_pos_right unitsPerOne_pos, Int.cast_lt]

/-- What lies between finite numbers is finite. -/
theorem isFinite_of_between (hlow : low.isFinite = true) (hhigh : high.isFinite = true)
    (hl : low.le x = true) (hh : x.le high = true) : x.isFinite = true := by
  cases x with
  | finite => rfl
  | nan => cases high <;> cases hh
  | infinite negative =>
    cases low with
    | nan => cases hlow
    | infinite => cases hlow
    | finite =>
      cases high with
      | nan => cases hhigh
      | infinite => cases hhigh
      | finite =>
        cases negative with
        | false => cases hh
        | true => cases hl

theorem between_iff_value (hlow : low.isFinite = true) (hhigh : high.isFinite = true) :
    (low.le x && x.le high) = true ↔
      x.isFinite = true ∧ low.value ≤ x.value ∧ x.value ≤ high.value := by
  rw [Bool.and_eq_true]
  constructor
  · rintro ⟨hl, hh⟩
    have hx := isFinite_of_between hlow hhigh hl hh
    exact ⟨hx, (le_iff_value hlow hx).mp hl, (le_iff_value hx hhigh).mp hh⟩
  · rintro ⟨hx, hl, hh⟩
    exact ⟨(le_iff_value hlow hx).mpr hl, (le_iff_value hx hhigh).mpr hh⟩

theorem isFinite_zero : (0 : Binary64).isFinite = true := by
  rw [zero_eq]
  rfl

theorem isFinite_one : (1 : Binary64).isFinite = true := by
  rw [one_eq]
  rfl

theorem value_zero : (0 : Binary64).value = 0 := by
  have h : (0 : Binary64).value = (0 : ℕ) := value_ofNat (Nat.zero_le _)
  rwa [Nat.cast_zero] at h

theorem value_one : (1 : Binary64).value = 1 := by
  have h : (1 : Binary64).value = (1 : ℕ) := value_ofNat (Nat.one_le_two_pow)
  rwa [Nat.cast_one] at h

end RpcPolicy.Binary64
