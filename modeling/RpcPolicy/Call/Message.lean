import RpcPolicy.CallError
import RpcPolicy.Config.Options
import RpcPolicy.Metadata
/-! The requests and responses of calls. -/

namespace RpcPolicy

/-- Names a cancellation signal; the copies of a request share theirs. -/
abbrev Token := Nat

/-- An encoded message. -/
abbrev Body := ByteArray

instance : Inhabited Body := ⟨ByteArray.empty⟩

instance : DecidableEq Body := ByteArray.instDecidableEq

/-- The request of a unary call. -/
structure Request where
  procedure : String
  metadata : Metadata
  body : Body
  options : CallOptions
  /-- When the call must give up. -/
  deadline : Option Instant
  token : Token
deriving DecidableEq

namespace Request

/-- A request with the standard options and without deadline. -/
def ofBody (procedure : String) (body : Body) (token : Token) : Request :=
  ⟨procedure, [], body, .standard, none, token⟩

/-- Sets the deadline a length of time after now; fails if there is no such instant. -/
def withTimeout? (r : Request) (now : Instant) (timeout : Duration) : Option Request :=
  (now.add? timeout).map fun t => { r with deadline := some t }

/-- The time left before the deadline, nothing once it has passed. -/
def remaining (r : Request) (now : Instant) : Option Duration :=
  r.deadline.map (·.since now)

end Request

/-- The response of a unary call. -/
structure Response where
  metadata : Metadata
  body : Body
deriving DecidableEq, Inhabited

/-- The text that shows every part. -/
def Response.structureText (r : Response) : String :=
  Text.record "UnaryResponse"
    [("metadata", r.metadata.structureText), ("body", Text.quotedBytes r.body)] false

/-- The request of a streaming call. -/
structure StreamRequest where
  procedure : String
  metadata : Metadata
  outbound : List Body
  options : CallOptions
  token : Token
deriving DecidableEq

/-- The text that shows every part but the messages. -/
def StreamRequest.structureText (r : StreamRequest) : String :=
  Text.record "StreamRequest"
    [("procedure", Text.quoted r.procedure), ("metadata", r.metadata.structureText),
      ("options", r.options.structureText)] true

/-- What a unary call ends in. -/
abbrev Outcome := Except CallError Response

/-- An open streaming call: the inbound messages in order, errors among them. -/
structure Streaming where
  metadata : Metadata
  inbound : List (Except CallError Body)
deriving Inhabited

/-- The text that shows every part but the messages. -/
def Streaming.structureText (s : Streaming) : String :=
  Text.record "Streaming" [("metadata", s.metadata.structureText)] true

/-- The name of what a call ended in: `ok`, or the case of its failure. -/
def outcomeName {α : Type} : Except CallError α → String
  | .ok _ => "ok"
  | .error e => e.caseName

end RpcPolicy
