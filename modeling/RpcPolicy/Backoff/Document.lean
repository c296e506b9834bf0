import RpcPolicy.Backoff.Policy
import RpcPolicy.Json.Fields
/-! Backoff policies in documents. -/

namespace RpcPolicy.BackoffPolicy

variable (lib : Json.Library)

/-- Reads a policy: an object with any of its fields, or an array of the first of them in order. -/
def ofJson? : Json → Option BackoffPolicy
  | .object members => do
    if !Json.namesSound members then none
    let minDelay ← Json.field? members "min_period" Duration.ofJson? standard.minDelay
    let maxDelay ← Json.field? members "max_period" Duration.ofJson? standard.maxDelay
    let maxRetries ← Json.field? members "max_retries" Json.uint32? standard.maxRetries
    let jitter ← Json.field? members "jitter" (Json.binary64? lib) standard.jitter
    return ⟨minDelay, maxDelay, maxRetries, jitter⟩
  | .array items => do
    if 4 < items.length then none
    let minDelay ← Json.item? items 0 Duration.ofJson? standard.minDelay
    let maxDelay ← Json.item? items 1 Duration.ofJson? standard.maxDelay
    let maxRetries ← Json.item? items 2 Json.uint32? standard.maxRetries
    let jitter ← Json.item? items 3 (Json.binary64? lib) standard.jitter
    return ⟨minDelay, maxDelay, maxRetries, jitter⟩
  | _ => none

/-- The document of a policy. -/
def toJson (p : BackoffPolicy) : Json :=
  .ofFields
    [("min_period", p.minDelay.toJson), ("max_period", p.maxDelay.toJson),
      ("max_retries", .nat p.maxRetries.toNat), ("jitter", .ofBinary64 lib p.jitter)]

end RpcPolicy.BackoffPolicy
