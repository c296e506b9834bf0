import RpcPolicy.Text.Quoted
import RpcPolicy.Time
/-! What makes a client configuration invalid. -/

namespace RpcPolicy

/-- A message size that a configuration limits. -/
inductive SizeField where
  | receive
  | send
deriving DecidableEq

/-- The key of the size in a document. -/
def SizeField.key : SizeField → String
  | receive => "max_recv_msg_size"
  | send => "max_send_msg_size"

/-- Why a configuration is invalid. -/
inductive ConfigError where
  | unsupportedCompression (name : String)
  | invalidMessageSize (field : SizeField)
  | invalidRateLimit (rate : Binary64)
  | invalidBackoff (min max : Duration)
  | invalidJitter (jitter : Binary64)
deriving DecidableEq

namespace ConfigError

/-- The name of the case. -/
def caseName : ConfigError → String
  | unsupportedCompression _ => "UnsupportedCompression"
  | invalidMessageSize _ => "InvalidMessageSize"
  | invalidRateLimit _ => "InvalidRateLimit"
  | invalidBackoff .. => "InvalidBackoff"
  | invalidJitter _ => "InvalidJitter"

/-- The text for a reader. -/
def message : ConfigError → String
  | unsupportedCompression name =>
    "unsupported compression type: " ++ Text.quoted name ++
      " (supported values are 'gzip', 'snappy' and '')"
  | invalidMessageSize field => field.key ++ " must be a positive number of bytes"
  | invalidRateLimit rate =>
    "rate limit must be a finite, non-negative number of events per second, got " ++
      NumberStyle.plain.text rate
  | invalidBackoff min max =>
    "backoff min period " ++ min.text ++ " must not exceed max period " ++ max.text
  | invalidJitter jitter =>
    "backoff jitter must be between 0.0 and 1.0, got " ++ NumberStyle.plain.text jitter

end ConfigError

end RpcPolicy
