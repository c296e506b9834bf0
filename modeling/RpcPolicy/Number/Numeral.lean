import RpcPolicy.Number.Binary64
/-! Decimal numerals: the number one stands for, and the fewest digits that read back as a
number. -/

namespace RpcPolicy

/-- Which of two whole numbers is taken when a quotient lies halfway between them. -/
inductive Tie where
  | even
  | up

/-- The whole number nearest to a quotient. -/
def Tie.nearestWhole (tie : Tie) (num den : Nat) : Nat :=
  match tie with
  | even => Binary64.nearestWhole num den
  | up => (2 * num + den) / (2 * den)

/-- The decimal number `digits * 10 ^ power`. -/
structure Decimal where
  digits : Nat
  power : Int
deriving DecidableEq, Inhabited

namespace Decimal

/-- How many decimal digits a number is written with. -/
def width (n : Nat) : Nat :=
  (Nat.toDigits 10 n).length

/-- The place of the leading digit: the number is at least `10 ^ leading` and below
`10 ^ (leading + 1)`. -/
def leading (d : Decimal) : Int :=
  width d.digits - 1 + d.power

/-- The number nearest to a decimal with the given sign; far outside the range it is infinite or
zero. -/
def toBinary64 (negative : Bool) (d : Decimal) : Binary64 :=
  if d.digits = 0 ∨ d.leading < -400 then .finite negative 0 representable_zero
  else if 400 < d.leading then .infinite negative
  else if d.power < 0 then
    .nearest negative (d.digits * unitsPerOne) (10 ^ d.power.natAbs)
  else .nearest negative (d.digits * 10 ^ d.power.natAbs * unitsPerOne) 1

/-- Moves trailing zeros of the digits into the power. -/
def normalize (d : Decimal) : Decimal :=
  if h : d.digits ≠ 0 ∧ d.digits % 10 = 0 then
    normalize ⟨d.digits / 10, d.power + 1⟩
  else d
termination_by d.digits
decreasing_by omega

/-- Whether a decimal reads back as the given positive units. -/
def readsAs (units : Nat) (d : Decimal) : Bool :=
  match d.toBinary64 false with
  | .finite _ n _ => n = units
  | _ => false

/-- The place of the leading digit of a positive number of units. -/
def leadingOfUnits (units : Nat) : Int :=
  if unitsPerOne ≤ units then (width (units / unitsPerOne) : Int) - 1
  else -width ((unitsPerOne - 1) / units)

/-- A decimal with its last digit at the given place that reads back, the nearer neighbour first. -/
def atPlace? (tie : Tie) (units : Nat) (place : Int) : Option Decimal :=
  let num := if place < 0 then units * 10 ^ place.natAbs else units
  let den := if place < 0 then unitsPerOne else unitsPerOne * 10 ^ place.natAbs
  let near := tie.nearestWhole num den
  let far := if near = num / den then near + 1 else num / den
  ([near, far].map (⟨·, place⟩)).find? (readsAs units)

/-- The exact decimal expansion of a number of units. -/
def exact (units : Nat) : Decimal :=
  ⟨units * 5 ^ 1074, -1074⟩

/-- The decimal of fewest digits that reads back as a positive number of units, the nearest of
them if there are several. -/
def shortest (tie : Tie) (units : Nat) : Decimal :=
  ((List.range 17).findSome? fun n : Nat => atPlace? tie units (leadingOfUnits units - n)).getD
    (exact units) |>.normalize

end Decimal

/-- A numeral in parts: a sign, a whole number, the digits after the point and a power of ten. -/
structure Numeral where
  negative : Bool
  whole : Nat
  fraction : List Char
  exponent : Option Int
deriving DecidableEq, Inhabited

namespace Numeral

/-- A numeral without point, exponent or sign. -/
def ofNat (n : Nat) : Numeral :=
  ⟨false, n, [], none⟩

/-- The whole number of a numeral written without sign, point or exponent. -/
def toNat? (n : Numeral) : Option Nat :=
  if n.negative || !n.fraction.isEmpty || n.exponent.isSome then none else some n.whole

/-- The magnitude a numeral stands for. -/
def toDecimal (n : Numeral) : Decimal :=
  ⟨Nat.ofDigitChars 10 n.fraction n.whole, n.exponent.getD 0 - n.fraction.length⟩

/-- The number nearest to a numeral. -/
def toBinary64 (n : Numeral) : Binary64 :=
  n.toDecimal.toBinary64 n.negative

/-- The numeral's characters; a positive exponent has a plus sign if asked for. -/
def chars (plus : Bool) (n : Numeral) : List Char :=
  (if n.negative then ['-'] else []) ++ Nat.toDigits 10 n.whole ++
    (if n.fraction.isEmpty then [] else '.' :: n.fraction) ++
    match n.exponent with
    | none => []
    | some e =>
      'e' :: (if e < 0 then ['-'] else if plus then ['+'] else []) ++ Nat.toDigits 10 e.natAbs

end Numeral

/-- How finite numbers are written: which places of the leading digit go without an exponent,
whether whole numbers keep a zero after the point, whether exponents have a plus sign, and which
of two shortest decimals equally near is taken. -/
structure NumberStyle where
  positional : Int → Bool
  pointZero : Bool
  plus : Bool
  tie : Tie

namespace NumberStyle

/-- Never an exponent and no zero after the point; halves go up. -/
def plain : NumberStyle :=
  ⟨fun _ => true, false, false, .up⟩

/-- An exponent below `10^-4` and from `10^16` on; halves go up. -/
def literal : NumberStyle :=
  ⟨fun place => -4 ≤ place && place < 16, true, false, .up⟩

/-- An exponent, with its sign, below `10^-5` and from `10^16` on; halves go to the even digit. -/
def json : NumberStyle :=
  ⟨fun place => -5 ≤ place && place < 16, true, true, .even⟩

/-- The point written after a whole number. -/
def wholeFraction (style : NumberStyle) : List Char :=
  if style.pointZero then ['0'] else []

/-- The numeral of a decimal with its last digit nonzero. -/
def numeralOfDecimal (style : NumberStyle) (negative : Bool) (d : Decimal) : Numeral :=
  let digits := Nat.toDigits 10 d.digits
  if style.positional d.leading then
    if 0 ≤ d.power then ⟨negative, d.digits * 10 ^ d.power.natAbs, style.wholeFraction, none⟩
    else
      let scale := 10 ^ d.power.natAbs
      ⟨negative, d.digits / scale,
        List.replicate (d.power.natAbs - Decimal.width (d.digits % scale)) '0' ++
          Nat.toDigits 10 (d.digits % scale), none⟩
  else
    ⟨negative, Nat.ofDigitChars 10 (digits.take 1) 0, digits.drop 1, some d.leading⟩

/-- The numeral of a finite number. -/
def numeral (style : NumberStyle) (negative : Bool) (units : Nat) : Numeral :=
  if units = 0 then ⟨negative, 0, style.wholeFraction, none⟩
  else style.numeralOfDecimal negative (Decimal.shortest style.tie units)

/-- The text of a number; the special values have names. -/
def text (style : NumberStyle) : Binary64 → String
  | .nan => "NaN"
  | .infinite negative => if negative then "-inf" else "inf"
  | .finite negative units _ => String.ofList ((style.numeral negative units).chars style.plus)

end NumberStyle

end RpcPolicy
