import RpcPolicy.Time
/-! A bucket that fills with tokens at a steady rate and gives one to each admitted attempt. -/

namespace RpcPolicy

/-- A bucket of tokens, refilled lazily. -/
structure TokenBucket where
  /-- Tokens added in a second. -/
  rate : Binary64
  /-- The most tokens it holds. -/
  capacity : Binary64
  tokens : Binary64
  refilledAt : Instant
deriving DecidableEq

namespace TokenBucket

/-- The capacity of a rate and a burst: the burst, or without one the whole tokens of a second
and at least one. -/
def capacityOf (rate : Binary64) (burst : UInt32) : Binary64 :=
  if burst = 0 then rate.floor.max 1 else .ofNat burst.toNat

/-- A full bucket. -/
def full (rate : Binary64) (burst : UInt32) (now : Instant) : TokenBucket :=
  ⟨rate, capacityOf rate burst, capacityOf rate burst, now⟩

/-- Whether a rate admits everything. -/
def isUnlimitedRate (rate : Binary64) : Bool :=
  rate.isNaN || rate.le 0

/-- Whether the bucket admits everything. -/
def isUnlimited (b : TokenBucket) : Bool :=
  isUnlimitedRate b.rate

/-- Adds the tokens of the time since the last refill, up to the capacity. -/
def refill (b : TokenBucket) (now : Instant) : TokenBucket :=
  { b with
    tokens := (b.tokens + (now.since b.refilledAt).toBinary64 * b.rate).min b.capacity
    refilledAt := now }

/-- Takes a token if at least one is there after refilling. -/
def tryAcquire (b : TokenBucket) (now : Instant) : Bool × TokenBucket :=
  if b.isUnlimited then (true, b)
  else
    let b := b.refill now
    if (1 : Binary64).le b.tokens then (true, { b with tokens := b.tokens - 1 }) else (false, b)

/-- The tokens there after refilling. -/
def available (b : TokenBucket) (now : Instant) : Binary64 × TokenBucket :=
  if b.isUnlimited then (.infinity, b)
  else ((b.refill now).tokens, b.refill now)

end TokenBucket

end RpcPolicy
