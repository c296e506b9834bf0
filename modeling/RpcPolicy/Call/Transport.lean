import RpcPolicy.Call.Interceptor
/-! The connection that carries calls, and the innermost call around it. -/

namespace RpcPolicy

/-- An established connection. -/
structure Transport where
  unary : Unary
  stream : StreamCall

/-- The metadata name that tells the codec of the payload. -/
def encodingName : MetadataName := ⟨"grpc-encoding"⟩

/-- Names the codec of the options in the metadata. -/
def stampEncoding (metadata : Metadata) (options : CallOptions) : Metadata :=
  match options.compression with
  | none => metadata
  | some codec => metadata.insert encodingName (.ofVisible codec.name)

/-- A message, if it is not larger than a limit. -/
def checkSize (limit : UInt64) (message : Body) : Except CallError Body :=
  if limit.toNat < message.size then .error (.messageTooLarge message.size limit.toNat)
  else .ok message

theorem checkSize_eq_ok_iff {limit : UInt64} {message : Body} :
    checkSize limit message = .ok message ↔ message.size ≤ limit.toNat := by
  unfold checkSize
  split <;> simp <;> omega

namespace Transport

/-- Checks the size of a response. -/
def checkResponse (limit : UInt64) (response : Response) : Outcome :=
  (checkSize limit response.body).map fun _ => response

/-- Checks the size of every inbound message; what fails keeps its place. -/
def checkInbound (limit : UInt64) (streaming : Streaming) : Streaming :=
  { streaming with inbound := streaming.inbound.map fun item => item.bind (checkSize limit) }

/-- The innermost unary call: the request is checked, stamped and handed to the transport when it
is looked at, and its response is checked. -/
def innermostUnary (t : Transport) : Unary := fun request w =>
  (fun w =>
    match checkSize request.options.maxSend request.body with
    | .error e => (.done (.error e), w)
    | .ok _ =>
      let stamped := { request with metadata := stampEncoding request.metadata request.options }
      Future.bind (Unary.deferred t.unary stamped)
        (fun outcome => .ready (outcome.bind (checkResponse request.options.maxReceive))) w,
    w)

/-- The innermost streaming call: the request is stamped and handed to the transport when it is
looked at, and every inbound message is checked. -/
def innermostStream (t : Transport) : StreamCall := fun request w =>
  (fun w =>
    let stamped := { request with metadata := stampEncoding request.metadata request.options }
    let (call, w) := t.stream stamped w
    Future.bind call
      (fun outcome => .ready (outcome.map (checkInbound request.options.maxReceive))) w,
    w)

end Transport

end RpcPolicy
