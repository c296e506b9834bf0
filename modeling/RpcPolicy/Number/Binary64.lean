import RpcPolicy.Number.Power
/-! Double-precision numbers as exact multiples of the smallest positive one, and their rounded
arithmetic. -/

namespace RpcPolicy

/-- How many units of `2^-1074` make one. -/
@[irreducible] def unitsPerOne : Nat := 2 ^ 1074

/-- The overflow threshold `2^1024` in units. -/
@[irreducible] def unitsOverflow : Nat := 2 ^ 2098

/-- Fits fifty-three significant bits and lies below the overflow threshold. -/
def Representable (units : Nat) : Prop :=
  units < unitsOverflow ∧ ∃ m k : Nat, m < 2 ^ 53 ∧ units = m * 2 ^ k

/-- A double-precision number: a finite one is `units * 2^-1074` with a sign, and zero has two
signs. -/
inductive Binary64 where
  | nan
  | infinite (negative : Bool)
  | finite (negative : Bool) (units : Nat) (fits : Representable units)
deriving DecidableEq

theorem unitsOverflow_pos : 0 < unitsOverflow := by
  decide +kernel

theorem representable_zero : Representable 0 :=
  ⟨unitsOverflow_pos, 0, 0, by decide, rfl⟩

instance : Inhabited Binary64 := ⟨.finite false 0 representable_zero⟩

namespace Binary64

/-! ### Rounding -/

/-- The spacing exponent of the numbers near `num / den`. -/
def spacing (num den : Nat) : Nat :=
  (num / den).log2 - 52

/-- The quotient rounded to the nearest whole number, a half going to the even neighbour. -/
def nearestWhole (num den : Nat) : Nat :=
  if 2 * (num % den) < den ∨ (2 * (num % den) = den ∧ num / den % 2 = 0) then num / den
  else num / den + 1

/-- The quotient `num / den` rounded to fifty-three significant bits, a half going to the even
neighbour. -/
def nearestUnits (num den : Nat) : Nat :=
  nearestWhole num (den * 2 ^ spacing num den) * 2 ^ spacing num den

theorem nearestWhole_le (num den : Nat) : nearestWhole num den ≤ num / den + 1 := by
  unfold nearestWhole
  split <;> omega

theorem quotient_lt (num den : Nat) : num / (den * 2 ^ spacing num den) < 2 ^ 53 := by
  rw [← Nat.div_div_eq_div_mul, Nat.div_lt_iff_lt_mul (Nat.two_pow_pos _), ← Nat.pow_add]
  have h : num / den < 2 ^ ((num / den).log2 + 1) := Nat.lt_log2_self
  exact Nat.lt_of_lt_of_le h (Nat.pow_le_pow_right (by decide) (by unfold spacing; omega))

/-- Rounding leaves at most fifty-three significant bits. -/
theorem nearestUnits_significand (num den : Nat) :
    ∃ m k : Nat, m < 2 ^ 53 ∧ nearestUnits num den = m * 2 ^ k := by
  have hq := quotient_lt num den
  have hw := nearestWhole_le num (den * 2 ^ spacing num den)
  by_cases h : nearestWhole num (den * 2 ^ spacing num den) < 2 ^ 53
  · exact ⟨_, _, h, rfl⟩
  · refine ⟨1, 53 + spacing num den, by decide, ?_⟩
    have he : nearestWhole num (den * 2 ^ spacing num den) = 2 ^ 53 := by omega
    rw [nearestUnits, he, ← Nat.pow_add, Nat.one_mul]

/-- The number nearest to `± num / den` units, infinite from the overflow threshold on. -/
def nearest (negative : Bool) (num den : Nat) : Binary64 :=
  if h : nearestUnits num den < unitsOverflow then
    .finite negative (nearestUnits num den) ⟨h, nearestUnits_significand num den⟩
  else .infinite negative

/-- The number nearest to a fraction of whole numbers. -/
def ofRatio (num den : Nat) : Binary64 :=
  nearest false (num * unitsPerOne) den

/-- The number nearest to a whole number. -/
def ofNat (n : Nat) : Binary64 :=
  ofRatio n 1

instance (n : Nat) : OfNat Binary64 n := ⟨ofNat n⟩

/-- Positive infinity. -/
def infinity : Binary64 := .infinite false

/-! ### Reading a number -/

def isNaN : Binary64 → Bool
  | nan => true
  | _ => false

def isFinite : Binary64 → Bool
  | finite .. => true
  | _ => false

/-- The signed count of units of a finite number. -/
def signedUnits (negative : Bool) (units : Nat) : Int :=
  if negative then -units else units

/-! ### Order: nothing compares with a NaN, and the two zeros are equal -/

def lt : Binary64 → Binary64 → Bool
  | nan, _ => false
  | _, nan => false
  | infinite a, infinite b => a && !b
  | infinite a, finite .. => a
  | finite .., infinite b => !b
  | finite a m _, finite b n _ => signedUnits a m < signedUnits b n

def eq : Binary64 → Binary64 → Bool
  | nan, _ => false
  | _, nan => false
  | infinite a, infinite b => a == b
  | infinite _, finite .. => false
  | finite .., infinite _ => false
  | finite a m _, finite b n _ => signedUnits a m == signedUnits b n

def le (x y : Binary64) : Bool :=
  x.lt y || x.eq y

/-- The smaller of two numbers; a NaN gives way to the other. -/
def min (x y : Binary64) : Binary64 :=
  if x.isNaN then y else if y.isNaN then x else if y.lt x then y else x

/-- The larger of two numbers; a NaN gives way to the other. -/
def max (x y : Binary64) : Binary64 :=
  if x.isNaN then y else if y.isNaN then x else if x.lt y then y else x

/-- Brings a number that is not a NaN into a closed range. -/
def clamp (x low high : Binary64) : Binary64 :=
  if x.lt low then low else if high.lt x then high else x

/-! ### Arithmetic: each result is the exact one, rounded -/

def neg : Binary64 → Binary64
  | nan => nan
  | infinite a => infinite !a
  | finite a m h => finite (!a) m h

def add : Binary64 → Binary64 → Binary64
  | nan, _ => nan
  | _, nan => nan
  | infinite a, infinite b => if a = b then infinite a else nan
  | infinite a, finite .. => infinite a
  | finite .., infinite b => infinite b
  | finite a m _, finite b n _ =>
    let sum := signedUnits a m + signedUnits b n
    nearest (if sum = 0 then a && b else sum < 0) sum.natAbs 1

def sub (x y : Binary64) : Binary64 :=
  x.add y.neg

def mul : Binary64 → Binary64 → Binary64
  | nan, _ => nan
  | _, nan => nan
  | infinite a, infinite b => infinite (a != b)
  | infinite a, finite b n _ => if n = 0 then nan else infinite (a != b)
  | finite a m _, infinite b => if m = 0 then nan else infinite (a != b)
  | finite a m _, finite b n _ => nearest (a != b) (m * n) unitsPerOne

def div : Binary64 → Binary64 → Binary64
  | nan, _ => nan
  | _, nan => nan
  | infinite _, infinite _ => nan
  | infinite a, finite b _ _ => infinite (a != b)
  | finite a _ _, infinite b => finite (a != b) 0 representable_zero
  | finite a m _, finite b n _ =>
    if n = 0 then if m = 0 then nan else infinite (a != b)
    else nearest (a != b) (m * unitsPerOne) n

instance : Neg Binary64 := ⟨neg⟩
instance : Add Binary64 := ⟨add⟩
instance : Sub Binary64 := ⟨sub⟩
instance : Mul Binary64 := ⟨mul⟩
instance : Div Binary64 := ⟨div⟩

/-- The greatest whole number that is not above. -/
def floor : Binary64 → Binary64
  | finite a m h =>
    if m % unitsPerOne = 0 then finite a m h
    else if a then nearest true ((m / unitsPerOne + 1) * unitsPerOne) 1
    else nearest false (m / unitsPerOne * unitsPerOne) 1
  | x => x

/-! ### Interchange form -/

/-- The sixty-four bits of a number, those of the quiet one for a NaN. -/
def toBits : Binary64 → Nat
  | nan => 0x7ff8000000000000
  | infinite a => (if a then 2 ^ 63 else 0) + 0x7ff0000000000000
  | finite a m _ =>
    (if a then 2 ^ 63 else 0) +
      (m.log2 - 52) * 2 ^ 52 + m / 2 ^ (m.log2 - 52)

end Binary64

end RpcPolicy
