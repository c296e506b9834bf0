import RpcPolicy.Call.Transport
/-! A transport that answers calls from a script. -/

namespace RpcPolicy.World

/-- The next answer to a unary call; past the end of the script the request comes back. -/
def nextUnary (w : World) : Reply UnaryAnswer × World :=
  match w.unaryScript with
  | [] => (⟨.ok ⟨[], none⟩, none, false⟩, w)
  | reply :: rest => (reply, { w with unaryScript := rest })

/-- The next answer to a streaming call; past the end of the script the messages come back. -/
def nextStream (w : World) : Reply StreamAnswer × World :=
  match w.streamScript with
  | [] => (⟨.ok ⟨[], none⟩, none, false⟩, w)
  | reply :: rest => (reply, { w with streamScript := rest })

end RpcPolicy.World

namespace RpcPolicy.Reply

variable {α β : Type}

/-- What a reply does at once: it may cancel the call. -/
def act (r : Reply α) (token : Token) (w : World) : World :=
  if r.cancels then w.cancel token else w

/-- The work of a reply: its delay passes before its outcome. -/
def future (r : Reply α) (answer : α → β) : Future (Except CallError β) :=
  match r.delay with
  | none => .ready (r.outcome.map answer)
  | some delay => fun w =>
    Future.bind (.sleepUntil (w.clock.after delay)) (fun _ => .ready (r.outcome.map answer)) w

end RpcPolicy.Reply

namespace RpcPolicy

/-- The transport of the world's script. Every call is written down as soon as it is made. -/
def Transport.scripted : Transport where
  unary := fun request w =>
    let number := w.calls + 1
    let w := { w with calls := number }.record (.call number w.clock request)
    let (reply, w) := w.nextUnary
    (reply.future fun answer => ⟨answer.metadata, answer.body.getD request.body⟩,
      reply.act request.token w)
  stream := fun request w =>
    let w := w.record (.stream w.clock request)
    let (reply, w) := w.nextStream
    (reply.future fun answer =>
        ⟨answer.metadata, answer.inbound.getD (request.outbound.map .ok)⟩,
      reply.act request.token w)

end RpcPolicy
