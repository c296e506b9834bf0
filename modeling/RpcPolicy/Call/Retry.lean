import RpcPolicy.Backoff.Cursor
import RpcPolicy.Call.Interceptor
/-! The layer that makes a call again after a rate limit rejected it. -/

namespace RpcPolicy

/-- A way to let time pass: asking for it may act at once, the future it gives does the rest. -/
abbrev Sleep := Duration → World → Future Unit × World

namespace Sleep

/-- Waits on the clock, for as long as it can show at most. -/
def timer : Sleep := fun delay w => (.sleepUntil (w.clock.after delay), w)

/-- Writes the delay down and does not wait. -/
def recorded : Sleep := fun delay w => (.ready (), w.record (.sleep delay))

/-- Writes the delay down and waits on the clock. -/
def logged : Sleep := fun delay w =>
  (.sleepUntil (w.clock.after delay), w.record (.sleep delay))

end Sleep

/-- The settings of retries; a seeded one counts its calls in a counter that clones share. -/
structure Retry where
  policy : BackoffPolicy
  seed : Option UInt64
  sleep : Sleep
  place : Nat

namespace Retry

/-- Retries with a counter of their own. -/
def create (policy : BackoffPolicy) (seed : Option UInt64) (sleep : Sleep) (w : World) :
    Retry × World :=
  let (place, w) := w.addCounter
  (⟨policy, seed, sleep, place⟩, w)

/-- The cursor of the next call: the k-th call of a seeded layer adds k to the seed. -/
def cursor (r : Retry) (w : World) : Cursor × World :=
  match r.seed with
  | some seed =>
    let (k, w) := w.count r.place
    (.ofSeed r.policy (seed + UInt64.ofNat k), w)
  | none =>
    let (seed, w) := w.nextSeed
    (.ofSeed r.policy seed, w)

/-- The bounds of a request before an attempt. -/
def attemptBounds (request : Request) : Bounds :=
  ⟨request.token, "call canceled", request.deadline, "deadline exceeded"⟩

/-- The bounds of a request during a backoff. -/
def backoffBounds (request : Request) : Bounds :=
  ⟨request.token, "call canceled during backoff", request.deadline,
    "deadline exceeded during backoff"⟩

/-- Lets a delay pass within the bounds of a request. The sleep is asked for before anything else
is looked at. -/
def pause (sleep : Sleep) (request : Request) (delay : Duration) :
    Future (Except CallError Unit) := fun w =>
  let (nap, w) := sleep delay w
  (backoffBounds request).limit (nap.bind fun _ => .ready (.ok ())) w

/-- The event of a backoff. -/
def backoffEvent (request : Request) (error : CallError) (attempt : Nat) (delay : Duration) :
    Entry :=
  .event .debug "backing off after rate limit"
    [("procedure", request.procedure), ("error", error.message), ("attempt", toString attempt),
      ("delay_ms", toString delay.millis)]

/-- The event of a call that is given up. -/
def exhaustedEvent (request : Request) (error : CallError) (attempts : Nat) : Entry :=
  .event .warn "giving up on rate-limited call"
    [("procedure", request.procedure), ("attempts", toString attempts), ("error", error.message)]

/-- What follows a backoff: the call goes on, unless a bound of the request ended it. -/
def afterPause (again : Future Outcome) : Except CallError Unit → Future Outcome
  | .ok () => again
  | .error e => .ready (.error e)

/-- What follows an attempt: its outcome is passed on unless a rate limit rejected it; then the
call is given up, or goes on with `again` after a backoff. -/
def afterAttempt (sleep : Sleep) (request : Request) (made : Nat) (cursor : Cursor)
    (again : Cursor → Future Outcome) : Outcome → Future Outcome
  | .ok response => .ready (.ok response)
  | .error e =>
    if e.isRateLimited then
      let (step, cursor) := cursor.step
      if step.done then fun w =>
        (.done (.error (.retriesExhausted made e)), w.record (exhaustedEvent request e made))
      else fun w =>
        Future.bind (pause sleep request step.delay) (afterPause (again cursor))
          (w.record (backoffEvent request e made step.delay))
    else .ready (.error e)

/-- Makes attempts until one is not rejected by a rate limit, no retry is left, or a bound of the
request ends it. At most the given number of attempts is followed. -/
def attempts (next : Unary) (sleep : Sleep) (request : Request) :
    Nat → Nat → Cursor → Future Outcome
  | 0, _, _ => .never
  | follow + 1, made, cursor => fun w =>
    match (attemptBounds request).broken? w with
    | some e => (.done (.error e), w)
    | none =>
      let made := countAttempt made
      Future.bind (next.deferred request)
        (afterAttempt sleep request made cursor (attempts next sleep request follow made)) w

/-- How many attempts of a call are followed: all of them if there is a ceiling. -/
def followed (policy : BackoffPolicy) (w : World) : Nat :=
  if policy.maxRetries = 0 then w.patience else policy.maxRetries.toNat + 1

/-- Takes a cursor as soon as the call is made; the attempts follow when it is looked at. -/
def wrapUnary (r : Retry) (next : Unary) : Unary := fun request w =>
  let (cursor, w) := r.cursor w
  (attempts next r.sleep request (followed r.policy w) 0 cursor, w)

/-- The retries as a layer; streams pass. -/
def interceptor (r : Retry) : Interceptor where
  name := "retry"
  wrapUnary := r.wrapUnary

/-- The text that shows the policy and the seed. -/
def structureText (policy : BackoffPolicy) (seed : Option UInt64) : String :=
  Text.record "RetryInterceptor"
    [("policy", policy.structureText),
      ("seed", Text.optional (seed.map fun s => toString s))] true

end Retry

end RpcPolicy
