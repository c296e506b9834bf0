import Mathlib.Data.Rat.Floor
import RpcPolicy.Proofs.TokenBucket.Sound
/-! Token buckets over any kind of numbers, so that one algorithm can be read in doubles and in
exact arithmetic. Main statement: read in doubles it is the token bucket. -/

namespace RpcPolicy

/-- The arithmetic that a bucket needs of its numbers. -/
class Reckoning (N : Type) where
  ofNat : Nat → N
  add : N → N → N
  sub : N → N → N
  mul : N → N → N
  div : N → N → N
  floor : N → N
  min : N → N → N
  max : N → N → N
  le : N → N → Bool
  isNaN : N → Bool

/-- Doubles, each result rounded. -/
instance : Reckoning Binary64 where
  ofNat := .ofNat
  add := .add
  sub := .sub
  mul := .mul
  div := .div
  floor := .floor
  min := .min
  max := .max
  le := Binary64.le
  isNaN := Binary64.isNaN

/-- Rational numbers: nothing is rounded. -/
instance : Reckoning ℚ where
  ofNat n := n
  add := (· + ·)
  sub := (· - ·)
  mul := (· * ·)
  div := (· / ·)
  floor x := ⌊x⌋
  min := Min.min
  max := Max.max
  le x y := decide (x ≤ y)
  isNaN _ := false

namespace TokenBucket

/-- A bucket with numbers of any kind. -/
structure Reading (N : Type) where
  rate : N
  capacity : N
  tokens : N
  refilledAt : Instant

namespace Reading

variable {N : Type} [Reckoning N]

/-- The length of a time in seconds: the whole seconds and the rest, divided and added. -/
def seconds (d : Duration) : N :=
  Reckoning.add (Reckoning.ofNat d.seconds)
    (Reckoning.div (Reckoning.ofNat d.subsecond) (Reckoning.ofNat nanosPerSecond))

/-- The capacity of a rate and a burst: the burst, or without one the whole tokens of a second
and at least one. -/
def capacityOf (rate : N) (burst : UInt32) : N :=
  if burst = 0 then Reckoning.max (Reckoning.floor rate) (Reckoning.ofNat 1) else Reckoning.ofNat burst.toNat

/-- A full bucket. -/
def full (rate : N) (burst : UInt32) (now : Instant) : Reading N :=
  ⟨rate, capacityOf rate burst, capacityOf rate burst, now⟩

/-- Whether the bucket admits everything. -/
def isUnlimited (b : Reading N) : Bool :=
  Reckoning.isNaN b.rate || Reckoning.le b.rate (Reckoning.ofNat 0)

/-- Adds the tokens of the time since the last refill, up to the capacity. -/
def refill (b : Reading N) (now : Instant) : Reading N :=
  { b with
    tokens := Reckoning.min
      (Reckoning.add b.tokens (Reckoning.mul (seconds (now.since b.refilledAt)) b.rate)) b.capacity
    refilledAt := now }

/-- Takes a token if at least one is there after refilling. -/
def tryAcquire (b : Reading N) (now : Instant) : Bool × Reading N :=
  if b.isUnlimited then (true, b)
  else
    let b := b.refill now
    if Reckoning.le (Reckoning.ofNat 1) b.tokens then
      (true, { b with tokens := Reckoning.sub b.tokens (Reckoning.ofNat 1) })
    else (false, b)

/-- The tokens there after refilling; nothing limits them if the bucket admits everything. -/
def available (b : Reading N) (now : Instant) : Option N × Reading N :=
  if b.isUnlimited then (none, b) else (some (b.refill now).tokens, b.refill now)

/-- The bucket after an operation. -/
def apply (b : Reading N) : Op → Reading N
  | .acquire now => (b.tryAcquire now).2
  | .available now => (b.available now).2

/-- The bucket after some operations. -/
def run (b : Reading N) (ops : List Op) : Reading N := ops.foldl apply b

/-- The instants of the attempts that are admitted. -/
def admissions (b : Reading N) : List Op → List Instant
  | [] => []
  | .acquire now :: ops =>
    (if (b.tryAcquire now).1 then [now] else []) ++ (b.tryAcquire now).2.admissions ops
  | .available now :: ops => (b.available now).2.admissions ops

/-! ### Operations that give an answer -/

variable {b : Reading N} {now : Instant}

theorem tryAcquire_of_unlimited (h : b.isUnlimited = true) : b.tryAcquire now = (true, b) := by
  rw [tryAcquire, if_pos h]

theorem tryAcquire_of_le (h : b.isUnlimited = false)
    (hle : Reckoning.le (Reckoning.ofNat 1) (b.refill now).tokens = true) :
    b.tryAcquire now = (true, { b.refill now with
      tokens := Reckoning.sub (b.refill now).tokens (Reckoning.ofNat 1) }) := by
  rw [tryAcquire, h, if_neg Bool.false_ne_true]
  simp only [hle, if_true]

theorem tryAcquire_of_not_le (h : b.isUnlimited = false)
    (hle : Reckoning.le (Reckoning.ofNat 1) (b.refill now).tokens = false) :
    b.tryAcquire now = (false, b.refill now) := by
  rw [tryAcquire, h, if_neg Bool.false_ne_true]
  simp only [hle, Bool.false_eq_true, if_false]

theorem available_of_limited (h : b.isUnlimited = false) :
    b.available now = (some (b.refill now).tokens, b.refill now) := by
  rw [available, h, if_neg Bool.false_ne_true]

theorem admissions_of_admitted {ops : List Op} (h : (b.tryAcquire now).1 = true) :
    b.admissions (.acquire now :: ops) = now :: (b.apply (.acquire now)).admissions ops := by
  rw [admissions, if_pos h]
  rfl

theorem admissions_of_refused {ops : List Op} (h : (b.tryAcquire now).1 = false) :
    b.admissions (.acquire now :: ops) = (b.apply (.acquire now)).admissions ops := by
  rw [admissions, h, if_neg Bool.false_ne_true]
  rfl

end Reading

/-- The instants of the attempts that are admitted. -/
def admissions (b : TokenBucket) : List Op → List Instant
  | [] => []
  | .acquire now :: ops =>
    (if (b.tryAcquire now).1 then [now] else []) ++ (b.tryAcquire now).2.admissions ops
  | .available now :: ops => (b.available now).2.admissions ops

/-! ### Doubles -/

/-- A bucket read in its own numbers. -/
def toReading (b : TokenBucket) : Reading Binary64 :=
  ⟨b.rate, b.capacity, b.tokens, b.refilledAt⟩

section Operations

variable (x y : Binary64) (n : Nat)

theorem ofNat_eq_ofNat : Reckoning.ofNat n = Binary64.ofNat n := rfl

theorem add_eq_add : Reckoning.add x y = x + y := rfl

theorem mul_eq_mul : Reckoning.mul x y = x * y := rfl

theorem div_eq_div : Reckoning.div x y = x / y := rfl

theorem min_eq_min : Reckoning.min x y = x.min y := rfl

end Operations

theorem seconds_toBinary64 (d : Duration) : Reading.seconds d = d.toBinary64 := by
  rw [Reading.seconds, Duration.toBinary64, add_eq_add, div_eq_div, ofNat_eq_ofNat,
    ofNat_eq_ofNat, ofNat_eq_ofNat]

theorem isUnlimited_toReading (b : TokenBucket) : b.toReading.isUnlimited = b.isUnlimited := rfl

theorem refill_toReading (b : TokenBucket) (now : Instant) :
    b.toReading.refill now = (b.refill now).toReading := by
  rw [Reading.refill, seconds_toBinary64, mul_eq_mul, add_eq_add, min_eq_min]
  rfl

theorem tryAcquire_toReading (b : TokenBucket) (now : Instant) :
    b.toReading.tryAcquire now = ((b.tryAcquire now).1, (b.tryAcquire now).2.toReading) := by
  have hu := isUnlimited_toReading b
  cases h : b.isUnlimited with
  | true =>
    rw [tryAcquire_of_unlimited h, Reading.tryAcquire_of_unlimited (hu.trans h)]
  | false =>
    have hle : Reckoning.le (Reckoning.ofNat 1) (b.toReading.refill now).tokens =
        (1 : Binary64).le (b.refill now).tokens := by
      rw [refill_toReading]
      rfl
    cases h1 : (1 : Binary64).le (b.refill now).tokens with
    | true =>
      rw [tryAcquire_of_le h h1, Reading.tryAcquire_of_le (hu.trans h) (hle.trans h1),
        refill_toReading]
      rfl
    | false =>
      rw [tryAcquire_of_not_le h h1, Reading.tryAcquire_of_not_le (hu.trans h) (hle.trans h1),
        refill_toReading]

theorem available_toReading (b : TokenBucket) (now : Instant) :
    (b.toReading.available now).1.getD .infinity = (b.available now).1 ∧
      (b.toReading.available now).2 = (b.available now).2.toReading := by
  unfold Reading.available TokenBucket.available
  rw [isUnlimited_toReading, refill_toReading]
  split
  · exact ⟨rfl, rfl⟩
  · exact ⟨rfl, rfl⟩

theorem apply_toReading (b : TokenBucket) (op : Op) :
    b.toReading.apply op = (b.apply op).toReading := by
  cases op with
  | acquire now =>
    have h := tryAcquire_toReading b now
    exact congrArg Prod.snd h
  | available now => exact (available_toReading b now).2

/-- Read in doubles, a bucket goes through the states of the token bucket. -/
theorem run_toReading (b : TokenBucket) (ops : List Op) :
    b.toReading.run ops = (b.run ops).toReading := by
  induction ops generalizing b with
  | nil => rfl
  | cons op ops ih =>
    have hop := apply_toReading b op
    have hrest := ih (b.apply op)
    rw [← hop] at hrest
    exact hrest

/-- Read in doubles, a bucket admits what the token bucket admits. -/
theorem admissions_toReading (b : TokenBucket) (ops : List Op) :
    b.toReading.admissions ops = b.admissions ops := by
  induction ops generalizing b with
  | nil => rfl
  | cons op ops ih =>
    cases op with
    | acquire now =>
      have h := tryAcquire_toReading b now
      unfold Reading.admissions admissions
      rw [h, ih]
    | available now =>
      have h := (available_toReading b now).2
      unfold Reading.admissions admissions
      rw [h, ih]

/-! ### Schedules -/

/-- The instant of an operation. -/
def Op.time : Op → Instant
  | .acquire now => now
  | .available now => now

/-- Operations at instants that never go back, from an instant on. -/
def InOrder : Instant → List Op → Prop
  | _, [] => True
  | start, op :: ops => start.nanos ≤ op.time.nanos ∧ InOrder op.time ops

instance decidableInOrder : (start : Instant) → (ops : List Op) → Decidable (InOrder start ops)
  | _, [] => .isTrue trivial
  | start, op :: ops =>
    have := decidableInOrder op.time ops
    inferInstanceAs (Decidable (start.nanos ≤ op.time.nanos ∧ InOrder op.time ops))

theorem InOrder.of_append {start : Instant} {before after : List Op}
    (h : InOrder start (before ++ after)) : InOrder start before := by
  induction before generalizing start with
  | nil => trivial
  | cons op before ih => exact ⟨h.1, ih h.2⟩

end TokenBucket

end RpcPolicy
