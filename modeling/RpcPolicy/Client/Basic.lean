import RpcPolicy.Call.Transport
import RpcPolicy.Client.Dial
/-! A client: calls through composed layers, bounded by their requests. -/

namespace RpcPolicy

/-- A client; its copies share the connection and the layers. -/
structure Client where
  wrappedUnary : Unary
  wrappedStream : StreamCall
  /-- The options of every call. -/
  options : CallOptions

/-- A way to open connections. -/
abbrev Connector := String → DialOptions → Future (Except CallError Transport)

namespace Client

/-- A client on an established connection. -/
def ofTransport (t : Transport) (o : DialOptions) : Client where
  wrappedUnary := o.unary.wrapUnary t.innermostUnary
  wrappedStream := o.stream.wrapStream t.innermostStream
  options := o.callOptions

/-- The event of an opened connection. -/
def connectedEvent (target : String) (o : DialOptions) : Entry :=
  .event .debug "connected" [("endpoint", target), ("tls", toString o.security.isTls)]

/-- Opens a connection and puts a client on it. -/
def connect (connector : Connector) (target : String) (o : DialOptions) :
    Future (Except CallError Client) :=
  Future.bind (connector target o) fun
    | .error e => .ready (.error e)
    | .ok t => fun w => (.done (.ok (ofTransport t o)), w.record (connectedEvent target o))

/-- The span of a call. -/
def callSpan (procedure kind : String) : Entry :=
  .span "rpc.call" [("rpc.method", procedure), ("rpc.type", kind), ("otel.kind", "client")]

/-- The bounds of a whole unary call, retries and backoff included. -/
def unaryBounds (request : Request) : Bounds :=
  ⟨request.token, "call canceled", request.deadline, "deadline exceeded"⟩

/-- The bounds of a streaming call. -/
def streamBounds (request : StreamRequest) : Bounds :=
  ⟨request.token, "call canceled", none, "deadline exceeded"⟩

/-- Makes a unary call with the client's options. The composed layers are called first; from then
on the bounds of the request come before them. -/
def unary (c : Client) (request : Request) : Future Outcome := fun w =>
  let w := w.record (callSpan request.procedure "unary")
  let (call, w) := c.wrappedUnary { request with options := c.options } w
  (unaryBounds request).limit call w

/-- Opens a streaming call with the client's options. -/
def stream (c : Client) (request : StreamRequest) : Future (Except CallError Streaming) := fun w =>
  let w := w.record (callSpan request.procedure "stream")
  let (call, w) := c.wrappedStream { request with options := c.options } w
  (streamBounds request).limit call w

/-- The text that shows the options. -/
def structureText (c : Client) : String :=
  Text.record "Client" [("call_options", c.options.structureText)] true

end Client

end RpcPolicy
