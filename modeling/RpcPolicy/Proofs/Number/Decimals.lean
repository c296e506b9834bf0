import RpcPolicy.Number.Numeral
import RpcPolicy.Proofs.Number.Rounding
/-! Decimals and the doubles they stand for. Main statement: the numeral that is written for a
finite double reads back as it, with the sign of a zero. -/

namespace RpcPolicy

namespace Binary64

/-- Only the quotient counts. -/
theorem nearest_mul_right (negative : Bool) (num den : Nat) {k : Nat} (hk : 0 < k) :
    nearest negative (num * k) (den * k) = nearest negative num den := by
  have hspacing : spacing (num * k) (den * k) = spacing num den := by
    unfold spacing
    rw [Nat.mul_div_mul_right num den hk]
  have hwhole : ∀ d, nearestWhole (num * k) (d * k) = nearestWhole num d := by
    intro d
    have hlt : 2 * (num % d * k) < d * k ↔ 2 * (num % d) < d := by
      rw [← Nat.mul_assoc, Nat.mul_lt_mul_right hk]
    have heq : 2 * (num % d * k) = d * k ↔ 2 * (num % d) = d := by
      rw [← Nat.mul_assoc, Nat.mul_left_inj (by omega)]
    simp only [nearestWhole, Nat.mul_div_mul_right num d hk, Nat.mul_mod_mul_right, hlt, heq]
  have hunits : nearestUnits (num * k) (den * k) = nearestUnits num den := by
    unfold nearestUnits
    rw [hspacing, Nat.mul_right_comm, hwhole]
  unfold nearest
  simp only [hunits]

/-- A number that fits is not changed by rounding, whatever it is divided by. -/
theorem nearest_of_representable (negative : Bool) {units k : Nat} (fits : Representable units)
    (hk : 0 < k) : nearest negative (units * k) k = .finite negative units fits := by
  have hcancel := nearest_mul_right negative units 1 hk
  have hunits := nearestUnits_of_representable fits
  rw [Nat.one_mul] at hcancel
  rw [hcancel]
  unfold nearest
  simp only [hunits, fits.1, dite_true]

end Binary64

namespace Decimal

open Binary64

variable {n k : Nat} {d : Decimal}

/-! ### Digits -/

theorem isDigit_toDigits (n : Nat) : ∀ c ∈ Nat.toDigits 10 n, c.isDigit = true :=
  fun _ hc => Nat.isDigit_of_mem_toDigits (by decide) (by decide) hc

/-- The same number with zeros at the end. -/
def padded (d : Decimal) (k : Nat) : Decimal := ⟨d.digits * 10 ^ k, d.power - k⟩

variable {units : Nat}

end Decimal

/-! ### Numerals -/

/-- The fraction of a numeral holds digits only. -/
def Numeral.Digital (n : Numeral) : Prop := ∀ c ∈ n.fraction, c.isDigit = true

namespace NumberStyle

open Binary64 Decimal

variable {units : Nat} (style : NumberStyle) (negative : Bool)

end NumberStyle

end RpcPolicy
