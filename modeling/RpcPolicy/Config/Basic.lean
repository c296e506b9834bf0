import RpcPolicy.Backoff.Policy
import RpcPolicy.Config.Options
import RpcPolicy.Security.Material
/-! The configuration of a client, its defaults and its faults. -/

namespace RpcPolicy

/-- The configuration of a client. -/
structure ClientConfig where
  maxReceive : UInt64
  maxSend : UInt64
  /-- The name of the payload codec; the empty name stands for none. -/
  compression : String
  /-- Attempts per second; zero turns the limiter off. -/
  rate : Binary64
  burst : UInt32
  /-- Whether attempts rejected by a rate limit are retried. -/
  retryOnRateLimit : Bool
  backoff : BackoffPolicy
  tlsEnabled : Bool
  tls : TlsMaterial
deriving DecidableEq

namespace ClientConfig

/-- The standard limits, without codec, limiter, retries or transport security. -/
def standard : ClientConfig :=
  ⟨CallOptions.standardReceive, CallOptions.standardSend, "", 0, 0, false, .standard, false,
    .empty⟩

instance : Inhabited ClientConfig := ⟨standard⟩

/-- Whether two configurations agree, comparing doubles as numbers. -/
def agrees (a b : ClientConfig) : Bool :=
  a.rate.eq b.rate && a.backoff.jitter.eq b.backoff.jitter &&
    { a with rate := 0, backoff := { a.backoff with jitter := 0 } } =
      { b with rate := 0, backoff := { b.backoff with jitter := 0 } }

/-- Sets the transport security material and turns it on. -/
def withTls (c : ClientConfig) (tls : TlsMaterial) : ClientConfig :=
  { c with tlsEnabled := true, tls }

/-- The codec of the configured name. -/
def codec (c : ClientConfig) : Except ConfigError (Option Compression) :=
  match Compression.select? c.compression with
  | some codec => .ok codec
  | none => .error (.unsupportedCompression c.compression)

/-- The first fault of a configuration, in the order of its fields. -/
def validate (c : ClientConfig) : Except ConfigError Unit :=
  match c.codec with
  | .error e => .error e
  | .ok _ =>
    if c.maxReceive = 0 then .error (.invalidMessageSize .receive)
    else if c.maxSend = 0 then .error (.invalidMessageSize .send)
    else if !c.rate.isFinite || c.rate.lt 0 then .error (.invalidRateLimit c.rate)
    else c.backoff.validate

/-- The options of every call. -/
def callOptions (c : ClientConfig) : Except ConfigError CallOptions :=
  c.codec.map fun codec => ⟨c.maxReceive, c.maxSend, codec⟩

/-- The text that shows every part. -/
def structureText (c : ClientConfig) : String :=
  Text.record "ClientConfig"
    [("max_recv_msg_size", toString c.maxReceive), ("max_send_msg_size", toString c.maxSend),
      ("grpc_compression", Text.quoted c.compression),
      ("rate_limit", NumberStyle.literal.text c.rate), ("rate_limit_burst", toString c.burst),
      ("backoff_on_ratelimits", toString c.retryOnRateLimit),
      ("backoff_config", c.backoff.structureText), ("tls_enabled", toString c.tlsEnabled),
      ("tls", c.tls.structureText)] false

end ClientConfig

end RpcPolicy
