import RpcPolicy.Proofs.Number.Decimals
import RpcPolicy.Proofs.Number.Nonneg
/-! Numbers of either sign. Main statement: a sum that lies between a number and its negative still
does so when it is rounded. -/

namespace RpcPolicy.Binary64

/-- A number no farther from zero than another one. -/
def Within (x width : Binary64) : Prop :=
  (-width).le x = true ∧ x.le width = true

variable {a b : Bool} {m n num den : Nat} {hm : Representable m} {hn : Representable n}

theorem le_signed :
    (finite a m hm).le (finite b n hn) = true ↔ signedUnits a m ≤ signedUnits b n := by
  simp only [le, lt, eq, Bool.or_eq_true, decide_eq_true_eq, beq_iff_eq]
  omega

/-- Only the distance from zero counts. -/
theorem within_iff : (finite a m hm).Within (finite false n hn) ↔ m ≤ n := by
  have hneg : -finite false n hn = finite true n hn := rfl
  rw [Within, hneg, le_signed, le_signed]
  cases a <;> simp only [signedUnits, if_true, Bool.false_eq_true, if_false] <;> omega

/-- Rounding takes no quotient past a number that fits. -/
theorem nearest_within (hn : Representable n) (negative : Bool) (hden : 0 < den)
    (h : num ≤ n * den) :
    ∃ k hk, nearest negative num den = finite negative k hk ∧ k ≤ n := by
  have hexact : nearestUnits (n * den) den = n := by
    have hround := nearest_of_representable false hn hden
    unfold nearest at hround
    split at hround
    · injection hround
    · cases hround
  have hle := nearestUnits_mono h den
  rw [hexact] at hle
  have hlt := Nat.lt_of_le_of_lt hle hn.1
  refine ⟨nearestUnits num den, ⟨hlt, nearestUnits_significand num den⟩, ?_, hle⟩
  unfold nearest
  rw [dif_pos hlt]

/-- A number that fits may be doubled up to the overflow threshold. -/
theorem representable_double (hm : Representable m) (h : m + m < unitsOverflow) :
    Representable (m + m) := by
  obtain ⟨-, k, e, hk, rfl⟩ := hm
  refine ⟨h, k, e + 1, hk, ?_⟩
  rw [Nat.pow_succ, ← Nat.mul_assoc]
  omega

theorem add_self (h : Representable (m + m)) :
    finite false m hm + finite false m hm = finite false (m + m) h := by
  rw [add_finite]
  simpa only [Nat.mul_one] using nearest_of_representable false h Nat.one_pos

/-- What is left of at most twice a number without that number is within it. -/
theorem sub_within (h : m ≤ n + n) :
    (finite false m hm + -finite false n hn).Within (finite false n hn) := by
  have hsum : ((m : Int) + -n).natAbs ≤ n * 1 := by omega
  obtain ⟨k, hk, heq, hle⟩ := nearest_within hn
    (if (m : Int) + -n = 0 then false && true else decide ((m : Int) + -n < 0)) Nat.one_pos hsum
  have hadd : finite false m hm + -finite false n hn = finite _ k hk := heq
  rw [hadd, within_iff]
  exact hle

end RpcPolicy.Binary64
