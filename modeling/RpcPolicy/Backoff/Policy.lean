import RpcPolicy.ConfigError
/-! The settings of the delays between attempts. -/

namespace RpcPolicy

/-- How the delays between attempts grow, how many there may be and how much they vary. -/
structure BackoffPolicy where
  /-- The delay before the first retry. -/
  minDelay : Duration
  /-- The bound on every delay; zero stands for none. -/
  maxDelay : Duration
  /-- How many retries follow the first attempt; zero stands for any number. -/
  maxRetries : UInt32
  /-- The part of a delay by which it may vary either way. -/
  jitter : Binary64
deriving DecidableEq

namespace BackoffPolicy

/-- From 100 ms to 10 s, ten retries, a fifth either way. -/
def standard : BackoffPolicy :=
  ⟨.ofMillis 100, .ofSeconds 10, 10, Decimal.toBinary64 false ⟨2, -1⟩⟩

instance : Inhabited BackoffPolicy := ⟨standard⟩

/-- Sets the jitter, brought into the range from 0 to 1; a NaN counts as 0. -/
def withJitter (p : BackoffPolicy) (jitter : Binary64) : BackoffPolicy :=
  { p with jitter := if jitter.isNaN then 0 else jitter.clamp 0 1 }

/-- The bound on every delay. -/
def cap (p : BackoffPolicy) : Duration :=
  if p.maxDelay.isZero then .longest else p.maxDelay

/-- The least delay of any step. -/
def floor (p : BackoffPolicy) : Duration :=
  p.minDelay.min p.cap

/-- The first fault of a policy: the jitter is looked at before the delays. -/
def validate (p : BackoffPolicy) : Except ConfigError Unit :=
  if !((0 : Binary64).le p.jitter && p.jitter.le 1) then .error (.invalidJitter p.jitter)
  else if !p.minDelay.isZero && !p.maxDelay.isZero && p.maxDelay.nanos < p.minDelay.nanos then
    .error (.invalidBackoff p.minDelay p.maxDelay)
  else .ok ()

/-- How far a delay may vary either way, or nothing if it does not vary. -/
def swing? (p : BackoffPolicy) : Option Binary64 :=
  if p.jitter.isNaN || p.jitter.le 0 then none else some (p.jitter.min 1)

/-- A delay varied by a part of itself and kept between the least delay and the cap. -/
def vary (p : BackoffPolicy) (delay : Duration) (part : Binary64) : Duration :=
  let seconds := delay.toBinary64 * (1 + part)
  if seconds.isNaN || seconds.le 0 then p.floor
  else ((Duration.ofBinary64? seconds).getD p.cap).clamp p.floor p.cap

/-- The text that shows every part. -/
def structureText (p : BackoffPolicy) : String :=
  Text.record "BackoffPolicy"
    [("min_delay", p.minDelay.text), ("max_delay", p.maxDelay.text),
      ("max_retries", toString p.maxRetries), ("jitter", NumberStyle.literal.text p.jitter)] false

end BackoffPolicy

end RpcPolicy
