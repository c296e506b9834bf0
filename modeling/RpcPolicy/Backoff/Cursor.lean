import RpcPolicy.Backoff.Policy
import RpcPolicy.Random.ChaCha
/-! The position of one call in the delays of its policy. -/

namespace RpcPolicy

/-- The largest count of attempts; it stays there. -/
def attemptLimit : Nat := 2 ^ 32 - 1

/-- One more attempt, up to the largest count. -/
def countAttempt (n : Nat) : Nat :=
  Nat.min (n + 1) attemptLimit

/-- A draw from the range from `-width` to `width`, both included. -/
def RandomSource.swing (source : RandomSource) (width : Binary64) : Binary64 × RandomSource :=
  let (bits, source) := source.next
  let fraction := Binary64.ofRatio (bits >>> 12).toNat (2 ^ 52)
  (fraction * (width - -width) + -width, source)

/-- The delay of a step and whether no retry is left. -/
structure BackoffStep where
  delay : Duration
  done : Bool
deriving DecidableEq

/-- Where one call stands: the steps taken, the next delay before it is varied, and the source of
its variation. -/
structure Cursor where
  policy : BackoffPolicy
  source : RandomSource
  attempts : Nat
  current : Duration
deriving DecidableEq

namespace Cursor

/-- A cursor before its first step. -/
def ofSource (policy : BackoffPolicy) (source : RandomSource) : Cursor :=
  ⟨policy, source, 0, policy.floor⟩

/-- A cursor whose variation is fixed by a seed. -/
def ofSeed (policy : BackoffPolicy) (seed : UInt64) : Cursor :=
  ofSource policy (.ofSeed seed)

/-- Back to before the first step; the source goes on. -/
def reset (c : Cursor) : Cursor :=
  { c with attempts := 0, current := c.policy.floor }

/-- Whether a retry is left. -/
def canRetry (c : Cursor) : Bool :=
  c.policy.maxRetries = 0 || c.attempts < c.policy.maxRetries.toNat

/-- The current delay, varied; a policy without jitter draws nothing. -/
def jittered (c : Cursor) : Duration × RandomSource :=
  match c.policy.swing? with
  | none => (c.current.clamp c.policy.floor c.policy.cap, c.source)
  | some width =>
    let (part, source) := c.source.swing width
    (c.policy.vary c.current part, source)

/-- Takes a step: the delay doubles up to the cap, also past the last retry. -/
def step (c : Cursor) : BackoffStep × Cursor :=
  (⟨c.jittered.1, !c.canRetry⟩,
    { c with
      source := c.jittered.2
      attempts := countAttempt c.attempts
      current := c.current.double.min c.policy.cap })

/-- Takes a step and gives its delay while a retry is left. -/
def next (c : Cursor) : Option Duration × Cursor :=
  let (s, c) := c.step
  (if s.done then none else some s.delay, c)

/-- Takes a number of steps and gives the last one. -/
def steps : Nat → Cursor → Option BackoffStep × Cursor
  | 0, c => (none, c)
  | 1, c => let (s, c) := c.step; (some s, c)
  | n + 2, c => steps (n + 1) c.step.2

/-- Takes up to a number of delays, stopping at the first step without one. -/
def take : Nat → Cursor → List Duration × Cursor
  | 0, c => ([], c)
  | n + 1, c =>
    match c.next with
    | (none, c) => ([], c)
    | (some d, c) =>
      let (ds, c) := take n c
      (d :: ds, c)

end Cursor

end RpcPolicy
