import RpcPolicy.Backoff.Document
import RpcPolicy.Code
import RpcPolicy.Config.Basic
/-! Client configurations in documents. -/

namespace RpcPolicy

namespace ClientConfig

variable (lib : Json.Library)

/-- The keys of a document that are the configuration's own. -/
def ownKeys : List String :=
  ["max_recv_msg_size", "max_send_msg_size", "grpc_compression", "rate_limit",
    "rate_limit_burst", "backoff_on_ratelimits", "backoff_config", "tls_enabled"]

/-- Whether a member is one of the configuration's own. -/
def isOwn (member : JsonText × Json) : Bool :=
  ownKeys.any fun key => member.1 = some key

/-- How many containers may lie within each other in a member that is not the configuration's
own. -/
def heldDepth : Nat := 126

/-- Reads a configuration out of an object. Missing fields take their defaults. Members that are
not its own are held until the end, so they have to be sound; what the transport security
material does not know among them is dropped. -/
def ofJson? : Json → Option ClientConfig
  | .object members => do
    let held := members.filter fun m => !isOwn m
    if !Json.namesSound members then none
    if !held.all (fun m => m.2.isSound lib heldDepth) then none
    let maxReceive ← Json.field? members "max_recv_msg_size" Json.uint64? standard.maxReceive
    let maxSend ← Json.field? members "max_send_msg_size" Json.uint64? standard.maxSend
    let compression ← Json.field? members "grpc_compression" Json.text? standard.compression
    let rate ← Json.field? members "rate_limit" (Json.binary64? lib) standard.rate
    let burst ← Json.field? members "rate_limit_burst" Json.uint32? standard.burst
    let retryOnRateLimit ←
      Json.field? members "backoff_on_ratelimits" Json.bool? standard.retryOnRateLimit
    let backoff ← Json.field? members "backoff_config" (BackoffPolicy.ofJson? lib) standard.backoff
    let tlsEnabled ← Json.field? members "tls_enabled" Json.bool? standard.tlsEnabled
    let tls ← TlsMaterial.ofMembers? Json.heldCase? held
    return ⟨maxReceive, maxSend, compression, rate, burst, retryOnRateLimit, backoff, tlsEnabled,
      tls⟩
  | _ => none

/-- The document of a configuration, with the transport security material among its members. -/
def toJson (c : ClientConfig) : Json :=
  .ofFields
    ([("max_recv_msg_size", .nat c.maxReceive.toNat), ("max_send_msg_size", .nat c.maxSend.toNat),
      ("grpc_compression", .text c.compression), ("rate_limit", .ofBinary64 lib c.rate),
      ("rate_limit_burst", .nat c.burst.toNat),
      ("backoff_on_ratelimits", .bool c.retryOnRateLimit),
      ("backoff_config", c.backoff.toJson lib), ("tls_enabled", .bool c.tlsEnabled)] ++
      c.tls.fields)

/-- The text of a configuration. -/
def encode (c : ClientConfig) : String := lib.write (c.toJson lib)

/-- Reads a configuration out of a text. -/
def decode? (text : String) : Option ClientConfig := (lib.read? text).bind (ofJson? lib)

end ClientConfig

namespace Code

/-- Reads a code from its name in documents. -/
def ofJson? (j : Json) : Option Code := j.case?.bind ofDocumentName?

def toJson (c : Code) : Json := .text c.documentName

end Code

namespace Compression

/-- Reads a codec from its name. -/
def ofJson? (j : Json) : Option Compression := j.case?.bind ofName?

def toJson (c : Compression) : Json := .text c.name

end Compression

namespace TlsVersion

/-- Reads a version from its name in documents. -/
def ofJson? (j : Json) : Option TlsVersion := j.case?.bind ofDocumentName?

def toJson (v : TlsVersion) : Json := .text v.documentName

end TlsVersion

end RpcPolicy
