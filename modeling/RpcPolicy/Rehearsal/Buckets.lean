import RpcPolicy.TokenBucket
/-! A token bucket driven by commands on a clock of its own. -/

namespace RpcPolicy.Buckets

/-- A command for a bucket or its clock. -/
inductive Command where
  | acquire
  /-- Tries a number of times. -/
  | acquireMany (times : Nat)
  | available
  | advance (length : Duration)
deriving DecidableEq

/-- What a command gives. -/
inductive Result where
  | nothing
  | admitted (answer : Bool)
  | count (successes : Nat)
  | tokens (available : Binary64)
deriving DecidableEq

/-- Tries a number of times and counts the successes. -/
def acquireMany (now : Instant) : Nat → Nat → TokenBucket → Nat × TokenBucket
  | 0, successes, b => (successes, b)
  | times + 1, successes, b =>
    let (admitted, b) := b.tryAcquire now
    acquireMany now times (if admitted then successes + 1 else successes) b

/-- Gives commands in order. -/
def run : Instant → TokenBucket → List Command → List Result
  | _, _, [] => []
  | now, b, .acquire :: rest =>
    let (admitted, b) := b.tryAcquire now
    .admitted admitted :: run now b rest
  | now, b, .acquireMany times :: rest =>
    let (successes, b) := acquireMany now times 0 b
    .count successes :: run now b rest
  | now, b, .available :: rest =>
    let (tokens, b) := b.available now
    .tokens tokens :: run now b rest
  | now, b, .advance length :: rest => .nothing :: run (now.after length) b rest

end RpcPolicy.Buckets
