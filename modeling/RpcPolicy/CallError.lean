import RpcPolicy.Code
import RpcPolicy.Text.Quoted
/-! What a call can fail with. -/

namespace RpcPolicy

/-- Why a call failed. -/
inductive CallError where
  /-- A status of the server, or one made up by the client. -/
  | status (code : Code) (message : Option String)
  /-- The client's own limiter had no token for the attempt. -/
  | rateLimited (message : String)
  /-- Every permitted attempt was rejected by a rate limit. -/
  | retriesExhausted (attempts : Nat) (last : CallError)
  /-- A message was larger than its limit. -/
  | messageTooLarge (size limit : Nat)
  | transport (message : String)
  | protocol (message : String)
deriving DecidableEq, Inhabited

namespace CallError

def canceled (message : String) : CallError := .status .canceled (some message)

def deadlineExceeded (message : String) : CallError := .status .deadlineExceeded (some message)

def unavailable (message : String) : CallError := .status .unavailable (some message)

def invalidArgument (message : String) : CallError := .status .invalidArgument (some message)

/-- The status code a failure counts as. -/
def code : CallError → Code
  | status c _ => c
  | rateLimited _ | retriesExhausted .. | messageTooLarge .. => .resourceExhausted
  | transport _ => .unavailable
  | protocol _ => .internal

/-- The message a failure carries. -/
def detail : CallError → Option String
  | status _ m => m
  | rateLimited m => some m
  | retriesExhausted _ last => last.detail
  | messageTooLarge .. => none
  | transport m => some m
  | protocol m => some m

/-- Whether a rate limit rejected the attempt, so that a later one may succeed. -/
def isRateLimited : CallError → Bool
  | rateLimited _ => true
  | status c _ => c.isRateLimit
  | _ => false

def isRetriesExhausted : CallError → Bool
  | retriesExhausted .. => true
  | _ => false

/-- The name of the case. -/
def caseName : CallError → String
  | status .. => "Status"
  | rateLimited _ => "RateLimited"
  | retriesExhausted .. => "RetriesExhausted"
  | messageTooLarge .. => "MessageTooLarge"
  | transport _ => "Transport"
  | protocol _ => "Protocol"

/-- The text for a reader. -/
def message : CallError → String
  | status c m => c.name ++ ": " ++ m.getD "<no message>"
  | rateLimited m => "rate limited: " ++ m
  | retriesExhausted n last =>
    "retries exhausted after " ++ toString n ++ " attempts: " ++ last.message
  | messageTooLarge size limit =>
    "message of " ++ toString size ++ " bytes exceeds the " ++ toString limit ++ " byte limit"
  | transport m => "transport error: " ++ m
  | protocol m => "protocol error: " ++ m

/-- The text that shows every part. -/
def structureText : CallError → String
  | status c m =>
    Text.record "Status"
      [("code", c.caseName), ("message", Text.optional (m.map Text.quoted))] false
  | rateLimited m => Text.record "RateLimited" [("message", Text.quoted m)] false
  | retriesExhausted n last =>
    Text.record "RetriesExhausted"
      [("attempts", toString n), ("last", last.structureText)] false
  | messageTooLarge size limit =>
    Text.record "MessageTooLarge" [("size", toString size), ("limit", toString limit)] false
  | transport m => Text.wrapped "Transport" (Text.quoted m)
  | protocol m => Text.wrapped "Protocol" (Text.quoted m)

end CallError

end RpcPolicy
