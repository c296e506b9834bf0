import RpcPolicy.Call.Limiter
import RpcPolicy.Call.Retry
import RpcPolicy.Config.Basic
/-! The layers a configuration puts around unary calls. -/

namespace RpcPolicy

/-- The layers ahead of the caller's own. -/
structure UnaryPolicies where
  retry : Option Retry
  limiter : Option Limiter

namespace UnaryPolicies

/-- The layers of a configuration, with a bucket and a counter of their own. -/
def ofConfig (c : ClientConfig) (w : World) : UnaryPolicies × World :=
  let (retry, w) :=
    if c.retryOnRateLimit then
      let (retry, w) := Retry.create c.backoff none Sleep.timer w
      (some retry, w)
    else (none, w)
  let (limiter, w) :=
    if (0 : Binary64).lt c.rate then
      let (limiter, w) := Limiter.create c.rate c.burst w
      (some limiter, w)
    else (none, w)
  (⟨retry, limiter⟩, w)

/-- The whole chain: retries outermost, then the limiter, then the caller's layers, so that every
attempt takes a token of its own and passes all of the caller's layers. -/
def compose (p : UnaryPolicies) (caller : List Interceptor) : Chain :=
  ⟨(p.retry.map Retry.interceptor).toList ++ (p.limiter.map Limiter.interceptor).toList ++
    caller⟩

end UnaryPolicies

end RpcPolicy
