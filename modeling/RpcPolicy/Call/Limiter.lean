import RpcPolicy.Call.Interceptor
/-! The layer that rejects an attempt for which its bucket has no token. -/

namespace RpcPolicy

/-- A limiter: the place of its bucket, which clones share, and what never changes about it. -/
structure Limiter where
  place : Nat
  rate : Binary64
  capacity : Binary64
deriving DecidableEq, Inhabited

namespace Limiter

/-- A limiter with a full bucket of its own. -/
def create (rate : Binary64) (burst : UInt32) (w : World) : Limiter × World :=
  let (place, w) := w.addBucket (.full rate burst w.clock)
  (⟨place, rate, TokenBucket.capacityOf rate burst⟩, w)

/-- Whether the limiter admits everything. -/
def isUnlimited (l : Limiter) : Bool :=
  TokenBucket.isUnlimitedRate l.rate

/-- The failure of a rejected attempt. -/
def rejection (l : Limiter) : CallError :=
  .rateLimited ("client rate limit of " ++ NumberStyle.plain.text l.rate ++ "/s (burst " ++
    NumberStyle.plain.text l.capacity ++ ") exceeded")

/-- The event of a rejected attempt. -/
def rejectionEvent (l : Limiter) (procedure : String) : Entry :=
  .event .debug "request rejected by client rate limit"
    [("procedure", procedure), ("rate", NumberStyle.literal.text l.rate),
      ("burst", NumberStyle.literal.text l.capacity)]

/-- Takes a token as soon as the call is made, and never waits for one. -/
def wrapUnary (l : Limiter) (next : Unary) : Unary :=
  if l.isUnlimited then next
  else fun request w =>
    let (admitted, w) := w.acquire l.place
    if admitted then next request w
    else (.ready (.error l.rejection), w.record (l.rejectionEvent request.procedure))

theorem wrapUnary_unlimited {l : Limiter} (hl : l.isUnlimited = true) (next : Unary) :
    l.wrapUnary next = next := by
  rw [wrapUnary, if_pos hl]

section Limited

variable {l : Limiter} {next : Unary} {request : Request} {v w : World}

theorem wrapUnary_admitted (hl : l.isUnlimited = false) (ha : w.acquire l.place = (true, v)) :
    l.wrapUnary next request w = next request v := by
  unfold wrapUnary
  rw [hl, if_neg Bool.false_ne_true]
  simp only [ha, if_true]

theorem wrapUnary_refused (hl : l.isUnlimited = false) (ha : w.acquire l.place = (false, v)) :
    l.wrapUnary next request w =
      (.ready (.error l.rejection), v.record (l.rejectionEvent request.procedure)) := by
  unfold wrapUnary
  rw [hl, if_neg Bool.false_ne_true]
  simp only [ha, Bool.false_eq_true, if_false]

end Limited

/-- The limiter as a layer; streams pass. -/
def interceptor (l : Limiter) : Interceptor where
  name := "rate_limit"
  wrapUnary := l.wrapUnary

end Limiter

end RpcPolicy
