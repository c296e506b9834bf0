import RpcPolicy.Proofs.Limits.Retries
import RpcPolicy.Proofs.Retry.Stages
/-! What is handed to the transport. Main statements: the innermost calls are one exchange with the
transport, and policies hand on the request that they get, at every attempt. -/

namespace RpcPolicy

/-- A streaming request as the transport receives it. -/
def StreamRequest.stamped (request : StreamRequest) : StreamRequest :=
  { request with metadata := stampEncoding request.metadata request.options }

namespace Transport

/-- Hands a request to the transport, if it is not too large, and checks the response. -/
def exchange (t : Transport) (sent : Request) : Future Outcome :=
  if sent.body.size ≤ sent.options.maxSend.toNat then
    Future.bind (t.unary.deferred sent) fun answer =>
      .ready (answer.bind (checkResponse sent.options.maxReceive))
  else .ready (.error (.messageTooLarge sent.body.size sent.options.maxSend.toNat))

/-- Hands a streaming request to the transport, and checks every inbound message. -/
def opening (t : Transport) (sent : StreamRequest) : Future (Except CallError Streaming) := fun w =>
  Future.bind (t.stream sent w).1
    (fun opened => .ready (opened.map (checkInbound sent.options.maxReceive))) (t.stream sent w).2

theorem innermostUnary_eq (t : Transport) (request : Request) (w : World) :
    t.innermostUnary request w = (t.exchange (Pipeline.stamped request), w) := by
  have hcall : t.innermostUnary.deferred request = t.exchange (Pipeline.stamped request) := by
    unfold exchange
    split
    · rename_i hfits
      exact Limits.deferred_fits hfits
    · rename_i hlarge
      exact Limits.deferred_oversized hlarge
  rw [← hcall]
  rfl

theorem innermostStream_eq (t : Transport) (request : StreamRequest) (w : World) :
    t.innermostStream request w = (t.opening request.stamped, w) := rfl

end Transport

/-! ### Policies -/

variable {next other : Unary} {request : Request}

/-- A limiter hands on what it gets. -/
theorem Limiter.wrapUnary_congr (l : Limiter) (h : next request = other request) :
    l.wrapUnary next request = l.wrapUnary other request := by
  unfold Limiter.wrapUnary
  split
  · exact h
  · dsimp only
    rw [h]

/-- Every attempt of a retried call gets its request. -/
theorem Retry.wrapUnary_congr (r : Retry) (h : next request = other request) :
    r.wrapUnary next request = r.wrapUnary other request := by
  funext w
  rw [wrapUnary_eq, wrapUnary_eq]
  have hsame : ∀ w, Live request w → next request w = other request w := fun w _ => congrFun h w
  rw [attempts_congr hsame]

namespace UnaryPolicies

/-- The policies around a call, without layers of a caller. -/
def around (p : UnaryPolicies) (call : Unary) : Unary := (p.compose []).wrapUnary call

theorem compose_eq (p : UnaryPolicies) (caller : List Interceptor) (call : Unary) :
    (p.compose caller).wrapUnary call = p.around ((Chain.mk caller).wrapUnary call) := by
  unfold around compose
  rw [Chain.wrapUnary_append, List.append_nil]

/-- Policies hand on the request that they get, at every attempt. -/
theorem around_congr (p : UnaryPolicies) (h : next request = other request) :
    p.around next request = p.around other request := by
  obtain ⟨retry, limiter⟩ := p
  have hlimited :
      (limiter.map Limiter.interceptor).toList.foldr Interceptor.wrapUnary next request =
        (limiter.map Limiter.interceptor).toList.foldr Interceptor.wrapUnary other request := by
    cases limiter with
    | none => exact h
    | some l => exact l.wrapUnary_congr h
  unfold around compose
  rw [List.append_nil, Chain.wrapUnary_append, Chain.wrapUnary_append]
  cases retry with
  | none => exact hlimited
  | some r => exact r.wrapUnary_congr hlimited

end UnaryPolicies

/-! ### Clients -/

namespace Client

variable {c c' : Client}

theorem stream_eq (c : Client) (request : StreamRequest) (w : World) :
    let called := c.wrappedStream { request with options := c.options }
      (w.record (callSpan request.procedure "stream"))
    c.stream request w = (streamBounds request).limit called.1 called.2 := rfl

/-- Clients with the same options make the same calls of layers that do the same. -/
theorem unary_congr (ho : c'.options = c.options)
    (h : c'.wrappedUnary { request with options := c.options } =
      c.wrappedUnary { request with options := c.options }) :
    c'.unary request = c.unary request := by
  funext w
  rw [unary_eq, unary_eq]
  unfold called
  rw [ho, h]

theorem stream_congr {request : StreamRequest} (ho : c'.options = c.options)
    (h : c'.wrappedStream { request with options := c.options } =
      c.wrappedStream { request with options := c.options }) :
    c'.stream request = c.stream request := by
  funext w
  rw [stream_eq, stream_eq, ho, h]

end Client

end RpcPolicy
