import RpcPolicy.Number.Numeral
/-! Lengths of time and the instants of a clock, in whole nanoseconds. -/

namespace RpcPolicy

/-- Nanoseconds in a second. -/
def nanosPerSecond : Nat := 1000000000

/-- Below this many nanoseconds a length of time can be held: `2^64` seconds. -/
def Duration.bound : Nat := 2 ^ 64 * nanosPerSecond

/-- A length of time. -/
structure Duration where
  nanos : Nat
  nanos_lt : nanos < Duration.bound
deriving DecidableEq

namespace Duration

/-- The longest length of time. -/
def longest : Duration := ⟨bound - 1, by decide⟩

/-- The length of a number of nanoseconds, or the longest one if that is too many. -/
def ofNanos (n : Nat) : Duration :=
  if h : n < bound then ⟨n, h⟩ else longest

/-- The length of a number of nanoseconds, if it can be held. -/
def ofNanos? (n : Nat) : Option Duration :=
  if h : n < bound then some ⟨n, h⟩ else none

def ofSeconds (n : Nat) : Duration := ofNanos (n * nanosPerSecond)

def ofMillis (n : Nat) : Duration := ofNanos (n * 1000000)

def zero : Duration := ⟨0, by decide⟩

instance : Inhabited Duration := ⟨zero⟩

/-- The whole seconds. -/
def seconds (d : Duration) : Nat := d.nanos / nanosPerSecond

/-- The nanoseconds past the last whole second. -/
def subsecond (d : Duration) : Nat := d.nanos % nanosPerSecond

theorem seconds_lt (d : Duration) : d.seconds < 2 ^ 64 :=
  Nat.div_lt_of_lt_mul (Nat.lt_of_lt_of_eq d.nanos_lt (Nat.mul_comm ..))

theorem subsecond_lt (d : Duration) : d.subsecond < nanosPerSecond :=
  Nat.mod_lt _ (by decide)

/-- The whole milliseconds. -/
def millis (d : Duration) : Nat := d.nanos / 1000000

def isZero (d : Duration) : Bool := d.nanos = 0

def min (a b : Duration) : Duration := if b.nanos < a.nanos then b else a

def max (a b : Duration) : Duration := if a.nanos < b.nanos then b else a

/-- Brings a length into the range from `low` to `high`. -/
def clamp (d low high : Duration) : Duration := (d.min high).max low

/-- Twice a length, or the longest one. -/
def double (d : Duration) : Duration := ofNanos (2 * d.nanos)

/-! ### Seconds as a number -/

/-- The length in seconds: the whole seconds and the rest are each rounded, divided and added. -/
def toBinary64 (d : Duration) : Binary64 :=
  Binary64.ofNat d.seconds + Binary64.ofNat d.subsecond / Binary64.ofNat nanosPerSecond

/-- The length of a number of seconds to the nearest nanosecond, a half going to the even one;
only numbers from zero on and below `2^64` have one. -/
def ofBinary64? : Binary64 → Option Duration
  | .finite negative units _ =>
    if negative && units != 0 then none
    else ofNanos? (Binary64.nearestWhole (units * nanosPerSecond) unitsPerOne)
  | _ => none

/-! ### Text -/

/-- A whole number and the nonzero part of its fraction, written with the given number of places. -/
private def fixedPoint (whole fraction places : Nat) : String :=
  let digits := Nat.toDigits 10 fraction
  let padded := List.replicate (places - digits.length) '0' ++ digits
  let kept := (padded.reverse.dropWhile (· = '0')).reverse
  toString whole ++ if kept.isEmpty then "" else "." ++ String.ofList kept

/-- The length in the largest unit that leaves a whole part, without trailing zeros. -/
def text (d : Duration) : String :=
  if 0 < d.seconds then fixedPoint d.seconds d.subsecond 9 ++ "s"
  else if 1000000 ≤ d.nanos then fixedPoint (d.nanos / 1000000) (d.nanos % 1000000) 6 ++ "ms"
  else if 1000 ≤ d.nanos then fixedPoint (d.nanos / 1000) (d.nanos % 1000) 3 ++ "µs"
  else toString d.nanos ++ "ns"

end Duration

/-- Below this many nanoseconds an instant can be held: `2^63` seconds. -/
def Instant.bound : Nat := 2 ^ 63 * nanosPerSecond

/-- A reading of the clock, counted from its start. -/
structure Instant where
  nanos : Nat
  nanos_lt : nanos < Instant.bound
deriving DecidableEq

namespace Instant

/-- The start of the clock. -/
def start : Instant := ⟨0, by decide⟩

instance : Inhabited Instant := ⟨start⟩

/-- The instant a length of time after another, if it can be held. -/
def add? (t : Instant) (d : Duration) : Option Instant :=
  if h : t.nanos + d.nanos < bound then some ⟨t.nanos + d.nanos, h⟩ else none

theorem add?_eq_none {t : Instant} {d : Duration} :
    t.add? d = none ↔ bound ≤ t.nanos + d.nanos := by
  unfold add?
  split <;> simp <;> omega

theorem nanos_of_add? {t u : Instant} {d : Duration} (h : t.add? d = some u) :
    u.nanos = t.nanos + d.nanos := by
  unfold add? at h
  split at h
  · cases h
    rfl
  · cases h

/-- The last instant. -/
def last : Instant := ⟨bound - 1, by decide⟩

/-- The instant a length of time after another, or the last one. -/
def after (t : Instant) (d : Duration) : Instant := (t.add? d).getD last

theorem nanos_after (t : Instant) (d : Duration) :
    (t.after d).nanos = min (t.nanos + d.nanos) last.nanos := by
  have hlast : last.nanos + 1 = bound := rfl
  unfold after
  cases h : t.add? d with
  | none =>
    have hpast := add?_eq_none.mp h
    rw [Option.getD_none]
    omega
  | some u =>
    have hu := nanos_of_add? h
    have hlt := u.nanos_lt
    rw [Option.getD_some]
    omega

/-- The time from `earlier` to `t`, nothing if `t` comes first. -/
def since (t earlier : Instant) : Duration :=
  Duration.ofNanos (t.nanos - earlier.nanos)

theorem nanos_since (s t : Instant) : (t.since s).nanos = t.nanos - s.nanos := by
  have hbound : bound ≤ Duration.bound := by decide
  have ht := t.nanos_lt
  unfold since Duration.ofNanos
  rw [dif_pos (by omega)]

/-- Whether `t` has come when the clock reads `now`. -/
def reached (t now : Instant) : Bool := t.nanos ≤ now.nanos

/-- The later of two instants. -/
def later (a b : Instant) : Instant := if a.nanos < b.nanos then b else a

/-- The time from the start of the clock. -/
def elapsed (t : Instant) : Duration := t.since start

end Instant

end RpcPolicy
