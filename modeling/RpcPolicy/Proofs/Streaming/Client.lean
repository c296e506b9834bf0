import RpcPolicy.Proofs.Client.Received
import RpcPolicy.Proofs.Streaming.Runs
/-! The streaming calls of a client. Main statement: policies have no part in them, they come to the
transport at most once, and no message of the transport is lost. -/

namespace RpcPolicy

/-- What is handed on of the messages that came in, with a limit on their size: each in its place,
or the failure of one that is too large. -/
structure Delivered (limit : UInt64) (received delivered : List (Except CallError Body)) :
    Prop where
  length : delivered.length = received.length
  error : ∀ (i : Nat) (e : CallError), received[i]? = some (.error e) →
    delivered[i]? = some (.error e)
  message : ∀ (i : Nat) (m : Body), received[i]? = some (.ok m) → m.size ≤ limit.toNat →
    delivered[i]? = some (.ok m)
  oversized : ∀ (i : Nat) (m : Body), received[i]? = some (.ok m) → limit.toNat < m.size →
    delivered[i]? = some (.error (.messageTooLarge m.size limit.toNat))

theorem delivered_checkInbound (limit : UInt64) (opened : Streaming) :
    Delivered limit opened.inbound (Transport.checkInbound limit opened).inbound := by
  have hplace : ∀ (i : Nat) (item : Except CallError Body), opened.inbound[i]? = some item →
      (Transport.checkInbound limit opened).inbound[i]? = some (item.bind (checkSize limit)) := by
    intro i item h
    unfold Transport.checkInbound
    rw [List.getElem?_map, h]
    rfl
  refine ⟨List.length_map _, fun i e h => hplace i _ h, ?message, ?oversized⟩
  case message =>
    intro i m h hsize
    have hok : checkSize limit m = .ok m := checkSize_eq_ok_iff.mpr hsize
    exact (hplace i _ h).trans (congrArg some hok)
  case oversized =>
    intro i m h hsize
    have herror : checkSize limit m = .error (.messageTooLarge m.size limit.toNat) := by
      rw [checkSize, if_pos hsize]
    exact (hplace i _ h).trans (congrArg some herror)

namespace Client

variable {R env : Environment} {c : Client} {t : Transport} {request : StreamRequest}
  {v w : World}

/-- A canceled streaming call has done no more than to make its layers' calls; the others are
bounded. -/
theorem stream_cases (c : Client) (request : StreamRequest) (w : World) :
    let sent := { request with options := c.options }
    let u := w.record (callSpan request.procedure "stream")
    (∃ e, c.stream request w = (.done (.error e), (c.wrappedStream sent u).2)) ∨
      c.stream request w =
        ((c.wrappedStream.deferred sent u).1.cutOff
          (fun v => ((streamBounds request).broken? v).map .error) (streamBounds request).wait,
          (c.wrappedStream.deferred sent u).2) := by
  intro sent u
  rw [stream_eq]
  cases hb : (streamBounds request).broken? (c.wrappedStream sent u).2 with
  | some e => exact Or.inl ⟨e, Bounds.limit_of_broken hb⟩
  | none => exact Or.inr (Bounds.limit_of_unbroken hb)

theorem stream_once (hR : Quiet R) (hc : Direct R t c.wrappedStream) {q : Process _}
    (h : (c.stream request).Becomes env w q v) : Once R t env c.options w v := by
  have htold : Trace (Beside R env) (t.Streams env) [] w
      (w.record (callSpan request.procedure "stream")) := .silently (Or.inl (hR.told _ _))
  unfold Future.Becomes at h
  rcases c.stream_cases request w with ⟨e, hdead⟩ | hlive
  · rw [hdead] at h
    obtain ⟨-, rfl⟩ := Process.becomes_of_done h
    exact .of_beside (htold.concat_quiet (Or.inl (hc.made _ _)))
  · rw [hlive] at h
    rcases Process.becomes_cutOff.mp h with ⟨rest, hwithin, -⟩ | ⟨rest, u, e, hwithin, -, act, -, -⟩
    · have hrest := hwithin.mono fun _ _ act => act.1
      exact (hc.once env _ _ rest v hrest).cons_beside htold
    · have hrest := hwithin.mono fun _ _ act => act.1
      have honce := (hc.once env _ _ rest u hrest).cons_beside htold
      exact honce.concat_beside (.silently (Or.inr act))

theorem stream_moves (hR : Quiet R) (hc : Direct R t c.wrappedStream)
    (ht : ∀ sent, (t.stream.deferred sent).Moves Unmoved) :
    (c.stream request).Moves Unmoved := by
  intro w
  rcases c.stream_cases request w with ⟨e, hdead⟩ | hlive
  · rw [hdead]
    exact ⟨hR.buckets _ _ (hR.trans (hR.told _ _) (hc.made _ _)), .done _⟩
  · rw [hlive]
    obtain ⟨hfirst, hrest⟩ := hc.moves ht { request with options := c.options }
      (w.record (callSpan request.procedure "stream"))
    exact ⟨hfirst, hrest.cutOff flow_unmoved⟩

theorem stream_opened (hc : Direct R t c.wrappedStream) {streaming : Streaming}
    (h : (c.stream request).Ends env w (.ok streaming) v) :
    Opened t env c.options streaming := by
  unfold Future.Ends at h
  rcases c.stream_cases request w with ⟨e, hdead⟩ | hlive
  · rw [hdead] at h
    cases h
  · rw [hlive] at h
    rcases Process.ends_cutOff h with hends | ⟨e, heq, -⟩
    · exact hc.opened env _ _ streaming v hends
    · cases heq

end Client

/-- What the transport opens comes back unless the call is canceled. -/
theorem Transport.opening_ends {t : Transport} {env : Environment} {sent : StreamRequest}
    {opened : Streaming} {v w : World} (h : (t.stream.deferred sent).Ends env w (.ok opened) v) :
    (t.opening sent).Ends env w (.ok (checkInbound sent.options.maxReceive opened)) v := by
  let checked : Except CallError Streaming → Future (Except CallError Streaming) :=
    fun x => .ready (x.map (checkInbound sent.options.maxReceive))
  have hopening : t.opening sent = Future.bind (t.stream.deferred sent) checked := rfl
  rw [hopening]
  exact h.bind (.done _ _)

/-! ### Clients that were dialed -/

section Dialed

variable {config : ClientConfig} {provider : SecurityProvider} {unary is : List Interceptor}
  {keepalive : Keepalive} {o : DialOptions} {t : Transport} {v₀ w₀ : World}

/-- Streaming calls see none of the policies of a configuration, and what is taken out of their own
layers does not show. -/
theorem stream_stripped (dialed : config.dial provider unary is keepalive w₀ = (.ok o, v₀))
    {js : List Interceptor} (h : Stripped is js) :
    ∃ o' v', config.dial provider unary js keepalive w₀ = (.ok o', v') ∧
      ∀ t, (Client.ofTransport t o').stream = (Client.ofTransport t o).stream := by
  obtain ⟨security, options, hvalid, hoptions, hsecurity, rfl, -⟩ :=
    ClientConfig.dial_eq_ok_iff.mp dialed
  refine ⟨_, _, ClientConfig.dial_eq_ok_iff.mpr
    ⟨security, options, hvalid, hoptions, hsecurity, rfl, rfl⟩, fun t => ?_⟩
  funext request
  refine Client.stream_congr rfl ?_
  exact (congrFun (h.wrapStream t.innermostStream) _).symm

/-- What a streaming call hands to the transport through header layers. -/
def headed (headers : Headers) (options : CallOptions) (request : StreamRequest) : StreamRequest :=
  { request with metadata := stampEncoding (request.metadata.given headers) options, options }

/-- With no more than header layers left, a streaming call is one call of the transport. -/
theorem stream_headers {headers : Headers} (h : Stripped o.stream.layers (headerLayers headers))
    (t : Transport) (request : StreamRequest) (w : World) :
    (Client.ofTransport t o).stream request w =
      (Client.streamBounds request).limit (t.opening (headed headers o.callOptions request))
        (w.record (Client.callSpan request.procedure "stream")) := by
  have hlayers := congrFun (h.wrapStream t.innermostStream)
    { request with options := (Client.ofTransport t o).options }
  rw [wrapStream_headers] at hlayers
  have hcall : (Client.ofTransport t o).wrappedStream
      { request with options := (Client.ofTransport t o).options } =
        fun w => (t.opening (headed headers o.callOptions request), w) := hlayers
  rw [Client.stream_eq, hcall]

/-- That call comes to its end if it is not canceled. -/
theorem stream_headers_ends {headers : Headers}
    (h : Stripped o.stream.layers (headerLayers headers)) {env : Environment}
    {request : StreamRequest} {opened : Streaming} {v w : World}
    (hw : w.isCanceled request.token = false)
    (henv : ∀ u v, env u v → v.isCanceled request.token = false)
    (hends : (t.stream.deferred (headed headers o.callOptions request)).Ends env
      (w.record (Client.callSpan request.procedure "stream")) (.ok opened) v) :
    ((Client.ofTransport t o).stream request).Ends env w
      (.ok (Transport.checkInbound o.callOptions.maxReceive opened)) v := by
  have hunbroken : ∀ {v : World}, v.isCanceled request.token = false →
      (Client.streamBounds request).broken? v = none := by
    intro v hv
    exact Bounds.broken?_eq_none.mpr ⟨hv, rfl⟩
  have hopening := Transport.opening_ends hends
  have hlive : (w.record (Client.callSpan request.procedure "stream")).isCanceled request.token =
      false := hw
  unfold Future.Ends at hopening ⊢
  rw [stream_headers h, Bounds.limit_of_unbroken (hunbroken hlive)]
  exact hopening.cutOff fun _ v hv => hunbroken (henv _ v hv)

/-- Policies do not show in streaming calls. Through layers that pass everything on, a call comes to
the transport at most once and hands back every message in its place. -/
theorem stream_direct (dialed : config.dial provider unary is keepalive w₀ = (.ok o, v₀)) :
    (∀ js, Stripped is js → ∃ o' v', config.dial provider unary js keepalive w₀ = (.ok o', v') ∧
      ∀ t, (Client.ofTransport t o').stream = (Client.ofTransport t o).stream) ∧
    (∀ headers, Stripped is (headerLayers headers) → ∀ t request w,
      let sent := headed headers o.callOptions request
      let u := w.record (Client.callSpan request.procedure "stream")
      (Client.ofTransport t o).stream request w =
          (Client.streamBounds request).limit (t.opening sent) u ∧
        ∀ env opened v, w.isCanceled request.token = false →
          (∀ w v, env w v → v.isCanceled request.token = false) →
          (t.stream.deferred sent).Ends env u (.ok opened) v →
          ∃ streaming, ((Client.ofTransport t o).stream request).Ends env w (.ok streaming) v ∧
            streaming.metadata = opened.metadata ∧
            Delivered config.maxReceive opened.inbound streaming.inbound) ∧
    ∀ R, Quiet R → (∀ i ∈ is, Passing R i) → ∀ t request w,
      (∀ env q v, ((Client.ofTransport t o).stream request).Becomes env w q v →
        Once R t env o.callOptions w v) ∧
      ((∀ sent, (t.stream.deferred sent).Moves Unmoved) →
        ((Client.ofTransport t o).stream request).Moves Unmoved) ∧
      ∀ env streaming v, ((Client.ofTransport t o).stream request).Ends env w (.ok streaming) v →
        ∃ sent opened u u', sent.options = o.callOptions ∧
          (t.stream.deferred sent).Ends env u (.ok opened) u' ∧
          Delivered config.maxReceive opened.inbound streaming.inbound := by
  obtain ⟨security, options, -, hoptions, -, hmade, -⟩ := ClientConfig.dial_eq_ok_iff.mp dialed
  have hstream : o.stream = ⟨is⟩ := by rw [hmade]
  have hlimit : o.callOptions.maxReceive = config.maxReceive := by
    rw [hmade]
    exact (ClientConfig.callOptions_eq_ok.mp hoptions).1
  refine ⟨fun js h => stream_stripped dialed h, ?headers, ?layers⟩
  case headers =>
    intro headers h t request w sent u
    have hlayers : Stripped o.stream.layers (headerLayers headers) := by
      rw [hstream]
      exact h
    refine ⟨stream_headers hlayers t request w, ?_⟩
    intro env opened v hw henv hends
    refine ⟨_, stream_headers_ends hlayers hw henv hends, rfl, ?_⟩
    rw [hlimit]
    exact delivered_checkInbound _ opened
  case layers =>
    intro R hR his t request w
    have hdirect : Direct R t (Client.ofTransport t o).wrappedStream := by
      have hchain := Direct.chain (fun i hi _ h => h.passing hR (his i hi)) (Direct.innermost hR t)
      unfold Client.ofTransport
      rw [hstream]
      exact hchain
    refine ⟨fun env q v => Client.stream_once hR hdirect, Client.stream_moves hR hdirect, ?_⟩
    intro env streaming v hends
    obtain ⟨sent, opened, u, u', hsent, hopened, hinbound⟩ := Client.stream_opened hdirect hends
    refine ⟨sent, opened, u, u', hsent, hopened, ?_⟩
    have hchecked : streaming.inbound =
        (Transport.checkInbound config.maxReceive opened).inbound := by
      rw [← hlimit]
      exact hinbound
    rw [hchecked]
    exact delivered_checkInbound _ opened

/-- Policies, a function and a plain layer around a header layer, some of them in a nested chain,
and a transport that opens four messages, the third too large. -/
theorem stream_direct_fourMessages :
    let config : ClientConfig := { ClientConfig.standard with
      maxReceive := 2, rate := 1, burst := 1, retryOnRateLimit := true }
    let is : List Interceptor := [(Retry.mk .standard none .timer 0).interceptor,
      .ofChain ⟨[(Limiter.mk 0 1 1).interceptor, .header ⟨"x-a"⟩ (.ofVisible "1"),
        .ofFunction fun next request w => (next request, w)]⟩, .plain]
    let inbound : List (Except CallError Body) := [.ok ⟨#[1, 2]⟩, .error (.rateLimited "busy"),
      .ok ⟨#[1, 2, 3]⟩, .ok ⟨#[4]⟩]
    let t : Transport := ⟨fun _ w => (.never, w),
      fun _ w => (.ready (.ok ⟨[], inbound⟩), { w with calls := w.calls + 1 })⟩
    let request : StreamRequest := ⟨"p", [], [], .standard, 0⟩
    let R : Environment := fun w v => v.buckets = w.buckets ∧ v.calls = w.calls
    ∃ o v₀, config.dial (.resolving fun _ => .ok .insecure) [] is (.ofSeconds 20 10) .initial =
        (.ok o, v₀) ∧
      ∃ streaming v, ((Client.ofTransport t o).stream request).Ends (Uncanceled 0) .initial
          (.ok streaming) v ∧
        Once R t (Uncanceled 0) o.callOptions .initial v ∧ streaming.inbound.length = 4 ∧
        streaming.inbound[1]? = some (.error (.rateLimited "busy")) ∧
        streaming.inbound[2]? = some (.error (.messageTooLarge 3 2)) ∧
        streaming.inbound[3]? = some (.ok ⟨#[4]⟩) := by
  intro config is inbound t request R
  have hvalid : config.validate = .ok () :=
    ClientConfig.validate_of_isOk (by decide +kernel)
  obtain ⟨v₀, hdial⟩ : ∃ v, config.dial (.resolving fun _ => .ok .insecure) [] is
      (.ofSeconds 20 10) .initial = (.ok _, v) := ClientConfig.dial_of_valid hvalid rfl rfl
  obtain ⟨-, hheaders, hlayers⟩ := stream_direct hdial
  have hstripped : Stripped is (headerLayers [(⟨"x-a"⟩, .ofVisible "1")]) :=
    .without (.retry _) (.spread (.without (.limiter _) (.keep _ (.without (.function _)
      (.without (.plain _) .nil)))))
  have hR : Quiet R := by
    refine ⟨fun _ => ⟨rfl, rfl⟩, ?_, fun _ _ => ⟨rfl, rfl⟩, fun _ _ h => h.1⟩
    rintro u v w ⟨hb, hc⟩ ⟨hb', hc'⟩
    exact ⟨hb'.trans hb, hc'.trans hc⟩
  have hpassing : ∀ i ∈ is, Passing R i := by
    intro i hi
    rcases List.mem_cons.mp hi with rfl | hi
    · exact .unaryOnly (.retry _)
    rcases List.mem_cons.mp hi with rfl | hi
    · refine .chain _ fun j hj => ?_
      rcases List.mem_cons.mp hj with rfl | hj
      · exact .unaryOnly (.limiter _)
      rcases List.mem_cons.mp hj with rfl | hj
      · exact .conduit (.header hR _ _)
      · rw [List.mem_singleton.mp hj]
        exact .unaryOnly (.function _)
    · rw [List.mem_singleton.mp hi]
      exact .unaryOnly (.plain _)
  obtain ⟨-, hcall⟩ := hheaders _ hstripped t request .initial
  obtain ⟨streaming, hends, -, hdelivered⟩ := hcall (Uncanceled 0) ⟨[], inbound⟩ _ rfl
    (fun _ _ h => h) (.done _ _)
  have honce := (hlayers R hR hpassing t request .initial).1 (Uncanceled 0) _ _
    (Process.becomes_done_iff.mpr hends)
  exact ⟨_, v₀, hdial, streaming, _, hends, honce, hdelivered.length,
    hdelivered.error 1 _ rfl, hdelivered.oversized 2 _ rfl (by decide),
    hdelivered.message 3 _ rfl (by decide)⟩

end Dialed

end RpcPolicy
