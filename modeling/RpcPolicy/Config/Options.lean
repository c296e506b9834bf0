import RpcPolicy.Compression
import RpcPolicy.Time
import RpcPolicy.Text.Quoted
/-! The options of calls and of the probing of a connection. -/

namespace RpcPolicy

/-- The limits and the codec attached to every call. -/
structure CallOptions where
  /-- The largest response accepted, in bytes. -/
  maxReceive : UInt64
  /-- The largest request sent, in bytes. -/
  maxSend : UInt64
  /-- The codec of request payloads. -/
  compression : Option Compression
deriving DecidableEq

namespace CallOptions

/-- The largest response accepted unless set otherwise: 100 MiB. -/
def standardReceive : UInt64 := 100 * 1024 * 1024

/-- The largest request sent unless set otherwise: 16 MiB. -/
def standardSend : UInt64 := 16 * 1024 * 1024

def standard : CallOptions := ⟨standardReceive, standardSend, none⟩

instance : Inhabited CallOptions := ⟨standard⟩

/-- The text that shows every part. -/
def structureText (o : CallOptions) : String :=
  Text.record "CallOptions"
    [("max_recv_size", toString o.maxReceive), ("max_send_size", toString o.maxSend),
      ("compression", Text.optional (o.compression.map Compression.caseName))] false

end CallOptions

/-- When an idle connection is probed. -/
structure Keepalive where
  /-- The idle time before a probe. -/
  time : Duration
  /-- The time an answer may take. -/
  timeout : Duration
  /-- Whether a connection without a stream is probed. -/
  permitWithoutStream : Bool
deriving DecidableEq

namespace Keepalive

/-- Probing after whole seconds, with or without a stream. -/
def ofSeconds (time timeout : UInt64) : Keepalive :=
  ⟨.ofSeconds time.toNat, .ofSeconds timeout.toNat, true⟩

/-- The text that shows every part. -/
def structureText (k : Keepalive) : String :=
  Text.record "KeepaliveParams"
    [("time", k.time.text), ("timeout", k.timeout.text),
      ("permit_without_stream", toString k.permitWithoutStream)] false

end Keepalive

end RpcPolicy
