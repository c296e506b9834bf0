import RpcPolicy.Proofs.Limits.Retries
/-! Calls of a client whose layers may edit what is sent. Main statement: the limits of the
configuration hold on every attempt, and a message that breaks one ends the call. -/

namespace RpcPolicy.Limits

variable {config : ClientConfig} {t : Transport} {request : Request} {w : World}

/-! ### What the transport does not get -/

section Agreeing

variable {o : CallOptions} {t' : Transport} {next other : Unary}

/-- Two calls that do the same with every request that has the given options. -/
def Agree (o : CallOptions) (next other : Unary) : Prop :=
  ∀ request, request.options = o → next.deferred request = other.deferred request

theorem agree_innermost (h : ∀ sent, sent.options = o → sent.body.size ≤ o.maxSend.toNat →
      t'.unary.deferred sent = t.unary.deferred sent) :
    Agree o t'.innermostUnary t.innermostUnary := by
  rintro sent rfl
  by_cases hf : Pipeline.Fits sent
  · rw [deferred_fits hf, deferred_fits hf, h (Pipeline.stamped sent) rfl hf]
  · rw [deferred_oversized hf, deferred_oversized hf]

theorem Agree.edited {token : Token} (h : Agree o next other) (es : List (Editor token)) :
    Agree o ((Chain.mk (editors es)).wrapUnary next)
      ((Chain.mk (editors es)).wrapUnary other) := by
  induction es with
  | nil => exact h
  | cons e es ih =>
    rintro request rfl
    have hlayer := e.wraps ((Chain.mk (editors es)).wrapUnary next) request
    have hlayer' := e.wraps ((Chain.mk (editors es)).wrapUnary other) request
    refine hlayer.trans (Eq.trans ?_ hlayer'.symm)
    congr 1
    funext part
    rw [ih (Limits.edited request part) rfl]

theorem Agree.limited (h : Agree o next other) (l : Limiter) :
    Agree o (l.wrapUnary next) (l.wrapUnary other) := by
  intro request ho
  cases hl : l.isUnlimited with
  | true =>
    rw [Limiter.wrapUnary_unlimited hl, Limiter.wrapUnary_unlimited hl]
    exact h request ho
  | false =>
    funext w
    cases ha : w.acquire l.place with
    | mk admitted v =>
      cases admitted with
      | true =>
        rw [Pipeline.deferred_admitted hl ha, Pipeline.deferred_admitted hl ha, h request ho]
      | false => rw [Pipeline.deferred_refused hl ha, Pipeline.deferred_refused hl ha]

theorem attempts_congr {sleep : Sleep} (h : next.deferred request = other.deferred request)
    (follow made : Nat) (cursor : Cursor) :
    Retry.attempts next sleep request follow made cursor =
      Retry.attempts other sleep request follow made cursor := by
  induction follow generalizing made cursor with
  | zero => rfl
  | succ follow ih =>
    funext w
    have hagain := funext (ih (countAttempt made))
    simp only [Retry.attempts, h, hagain]

theorem Agree.composed (h : Agree o next other) (config : ClientConfig) (w₀ : World)
    {token : Token} (es : List (Editor token)) :
    Agree o (((UnaryPolicies.ofConfig config w₀).1.compose (editors es)).wrapUnary next)
      (((UnaryPolicies.ofConfig config w₀).1.compose (editors es)).wrapUnary other) := by
  have hlayers : Agree o
      (Chain.wrapUnary ⟨(((UnaryPolicies.ofConfig config w₀).1.limiter.map
        Limiter.interceptor).toList ++ editors es)⟩ next)
      (Chain.wrapUnary ⟨(((UnaryPolicies.ofConfig config w₀).1.limiter.map
        Limiter.interceptor).toList ++ editors es)⟩ other) := by
    cases (UnaryPolicies.ofConfig config w₀).1.limiter with
    | none => exact h.edited es
    | some l => exact (h.edited es).limited l
  cases hr : (UnaryPolicies.ofConfig config w₀).1.retry with
  | none =>
    unfold UnaryPolicies.compose
    rw [hr]
    exact hlayers
  | some r =>
    rw [wrapUnary_retry hr, wrapUnary_retry hr]
    intro request ho
    funext w
    rw [Pipeline.deferred_retry, Pipeline.deferred_retry,
      attempts_congr (hlayers request ho)]

end Agreeing

/-! ### Calls of a client -/

/-- Making a call through the layers of a configuration cancels nothing. -/
theorem spares_composed (config : ClientConfig) (w₀ : World) {token : Token}
    (es : List (Editor token)) (t : Transport) :
    Spares token
      (((UnaryPolicies.ofConfig config w₀).1.compose (editors es)).wrapUnary t.innermostUnary) := by
  have hlayers : Spares token ((Chain.mk (editors es)).wrapUnary t.innermostUnary) := by
    induction es with
    | nil => exact fun _ _ hw => hw
    | cons e es ih => exact e.made _ ih
  cases hr : (UnaryPolicies.ofConfig config w₀).1.retry with
  | some r =>
    intro request w hw
    rw [wrapUnary_retry hr]
    have hkept : (r.cursor w).2.isCanceled token = w.isCanceled token := by
      rw [World.isCanceled, (cursor_buckets r w).1]
      rfl
    exact hkept.trans hw
  | none =>
    cases hl : (UnaryPolicies.ofConfig config w₀).1.limiter with
    | none =>
      rw [wrapUnary_callers hr hl]
      exact hlayers
    | some l =>
      intro request w hw
      rw [wrapUnary_limiter hr hl]
      have hkept := isCanceled_acquire w l.place token
      cases ha : w.acquire l.place with
      | mk admitted v =>
        rw [ha] at hkept
        cases admitted with
        | true =>
          rw [Limiter.wrapUnary_admitted (limits_ofConfig hl) ha]
          exact hlayers request v (hkept.trans hw)
        | false =>
          rw [Limiter.wrapUnary_refused (limits_ofConfig hl) ha]
          exact hkept.trans hw

/-- What the attempts of a call amount to: a message that breaks a limit ends the call, and what
it ends in says how large the message was and what was allowed. -/
structure Account (config : ClientConfig) (o : CallOptions) (past : List Attempt) (last : Attempt)
    (x : Outcome) : Prop where
  within : ∀ a ∈ past ++ [last], a.Within o
  rejected : Rejected past
  once : config.retryOnRateLimit = false → past = []
  concludes : Concludes config.retryOnRateLimit last.outcome x
  received : ∀ response, x = .ok response → response.body.size ≤ config.maxReceive.toNat
  oversized : ∀ sent, .oversized sent ∈ past ++ [last] →
    .oversized sent ∉ past ∧ last = .oversized sent ∧ config.maxSend.toNat < sent.body.size ∧
      x = .error (.messageTooLarge sent.body.size config.maxSend.toNat)
  overlong : ∀ sent response, .exchanged sent (.ok response) ∈ past ++ [last] →
    config.maxReceive.toNat < response.body.size →
    .exchanged sent (.ok response) ∉ past ∧ last = .exchanged sent (.ok response) ∧
      x = .error (.messageTooLarge response.body.size config.maxReceive.toNat)

section Accounts

variable {o : CallOptions} {past : List Attempt} {last a : Attempt} {x : Outcome}

/-- Only a rejection is retried. -/
theorem last_of_passed (hrejected : Rejected past) (ha : a ∈ past ++ [last])
    (hpassed : isRejection a.outcome = false) : a ∉ past ∧ last = a := by
  have hpast : a ∉ past := by
    intro hmem
    rw [hrejected a hmem] at hpassed
    cases hpassed
  rcases List.mem_append.mp ha with hmem | hmem
  · exact absurd hmem hpast
  · exact ⟨hpast, (List.mem_singleton.mp hmem).symm⟩

/-- Nothing but a rejection is turned into something else. -/
theorem Concludes.of_passed {retries : Bool} {y : Outcome} (h : Concludes retries y x)
    (hpassed : isRejection y = false) : x = y := by
  rcases h with ⟨-, hx⟩ | ⟨e, rfl, he, -⟩
  · exact hx
  · rw [isRejection, he] at hpassed
    cases hpassed

theorem Concludes.eq_ok {retries : Bool} {y : Outcome} {response : Response}
    (h : Concludes retries y (.ok response)) : y = .ok response := by
  rcases h with ⟨-, hx⟩ | ⟨e, rfl, -, hx⟩
  · exact hx.symm
  · cases retries with
    | false => exact hx.symm
    | true =>
      obtain ⟨n, hn⟩ := hx
      cases hn

theorem checkResponse_eq_ok {limit : UInt64} {answer : Outcome} {response : Response}
    (h : answer.bind (Transport.checkResponse limit) = .ok response) :
    response.body.size ≤ limit.toNat := by
  cases answer with
  | error e => cases h
  | ok r =>
    simp only [Except.bind, Transport.checkResponse, checkSize] at h
    split at h
    · cases h
    · cases h
      rename_i hle
      exact Nat.le_of_not_lt hle

theorem checkResponse_of_lt {limit : UInt64} {response : Response}
    (h : limit.toNat < response.body.size) :
    Except.bind (.ok response) (Transport.checkResponse limit) =
      .error (.messageTooLarge response.body.size limit.toNat) := by
  simp only [Except.bind, Transport.checkResponse, checkSize, h, if_true]
  rfl

theorem account (hreceive : o.maxReceive = config.maxReceive) (hsend : o.maxSend = config.maxSend)
    (hwithin : ∀ a ∈ past ++ [last], a.Within o) (hrejected : Rejected past)
    (honce : config.retryOnRateLimit = false → past = [])
    (hconcludes : Concludes config.retryOnRateLimit last.outcome x) :
    Account config o past last x where
  within := hwithin
  rejected := hrejected
  once := honce
  concludes := hconcludes
  received := by
    rintro response rfl
    have hlast := hwithin last (by simp)
    have hok := hconcludes.eq_ok
    cases last with
    | refused e => cases hok
    | oversized sent => cases hok
    | exchanged sent answer =>
      rw [← hreceive, ← hlast.1]
      exact checkResponse_eq_ok hok
  oversized := by
    intro sent hmem
    obtain ⟨hoptions, hsize⟩ := hwithin _ hmem
    obtain ⟨hpast, rfl⟩ := last_of_passed hrejected hmem rfl
    have hx := hconcludes.of_passed rfl
    rw [← hsend]
    refine ⟨hpast, rfl, hsize, ?_⟩
    rw [hx, Attempt.outcome, hoptions]
  overlong := by
    intro sent response hmem hsize
    obtain ⟨hoptions, -⟩ := hwithin _ hmem
    have houtcome : (Attempt.exchanged sent (.ok response)).outcome =
        .error (.messageTooLarge response.body.size config.maxReceive.toNat) := by
      rw [← hreceive] at hsize ⊢
      rw [Attempt.outcome, hoptions, checkResponse_of_lt hsize]
    have hpassed : isRejection (Attempt.exchanged sent (.ok response)).outcome = false := by
      rw [houtcome]
      rfl
    obtain ⟨hpast, rfl⟩ := last_of_passed hrejected hmem hpassed
    exact ⟨hpast, rfl, (hconcludes.of_passed hpassed).trans houtcome⟩

end Accounts

/-- A call whose layers may edit what is sent, through a client of some options. -/
structure LimitedCall (config : ClientConfig) (o : DialOptions) (t : Transport)
    (limiter : Option Limiter) (request : Request) (es : List (Editor request.token))
    (w : World) : Prop where
  /-- Every call has the options of the configuration. -/
  options : config.callOptions = .ok o.callOptions
  /-- What the transport would do with other requests, or with larger ones, makes no difference:
  it gets none of them. -/
  unsent : ∀ t', (∀ sent, sent.options = o.callOptions →
      sent.body.size ≤ config.maxSend.toNat → t'.unary.deferred sent = t.unary.deferred sent) →
    (Client.ofTransport t' o).unary request w = (Client.ofTransport t o).unary request w
  /-- A call that ends is made of attempts that keep to the limits. -/
  ends : ∀ x v, ((Client.ofTransport t o).unary request).Ends (Uncanceled request.token) w x v →
    ∃ past last, Account config o.callOptions past last x ∧
      History t limiter es { request with options := o.callOptions } (past ++ [last]) w v
  /-- A call that does not end had no attempt that broke a limit. -/
  halts : ∀ v, ((Client.ofTransport t o).unary request).Halts (Uncanceled request.token) w v →
    ∃ past, Rejected past ∧ (∀ a ∈ past, a.Within o.callOptions) ∧
      StandsStill config t limiter es { request with options := o.callOptions } past w v

theorem limits_of_callOptions {o : CallOptions} (h : config.callOptions = .ok o) :
    o.maxReceive = config.maxReceive ∧ o.maxSend = config.maxSend := by
  unfold ClientConfig.callOptions at h
  cases hcodec : config.codec with
  | error e =>
    rw [hcodec] at h
    cases h
  | ok codec =>
    rw [hcodec] at h
    cases h
    exact ⟨rfl, rfl⟩

section Called

variable {o : DialOptions} {t' : Transport}

/-- A call that nothing ends early comes to what its layers come to, whatever its bounds. -/
theorem unary_eq_cutOff (hd : request.deadline = none) (hw : w.isCanceled request.token = false)
    (hspares : Spares request.token (o.unary.wrapUnary t.innermostUnary)) :
    let call := (o.unary.wrapUnary t.innermostUnary).deferred
      { request with options := o.callOptions }
    let u := w.record (Client.callSpan request.procedure "unary")
    (Client.ofTransport t o).unary request w =
      ((call u).1.cutOff (fun v => ((Client.unaryBounds request).broken? v).map .error)
        (Client.unaryBounds request).wait, (call u).2) := by
  intro call u
  have hlive : ((Client.ofTransport t o).called request w).2.isCanceled request.token = false :=
    hspares _ u hw
  have hunbroken : (Client.unaryBounds request).broken?
      ((Client.ofTransport t o).called request w).2 = none := unbroken hd hlive
  rw [Client.unary_eq, Bounds.limit_of_unbroken hunbroken]
  rfl

theorem unary_congr (hd : request.deadline = none) (hw : w.isCanceled request.token = false)
    (hspares : ∀ t : Transport, Spares request.token (o.unary.wrapUnary t.innermostUnary))
    (h : Agree o.callOptions (o.unary.wrapUnary t'.innermostUnary)
      (o.unary.wrapUnary t.innermostUnary)) :
    (Client.ofTransport t' o).unary request w = (Client.ofTransport t o).unary request w := by
  have hsame := h { request with options := o.callOptions } rfl
  rw [unary_eq_cutOff hd hw (hspares t'), unary_eq_cutOff hd hw (hspares t), hsame]

theorem unary_leads {Q : Outcome → World → Prop} {H : World → Prop} (hd : request.deadline = none)
    (hw : w.isCanceled request.token = false)
    (hspares : Spares request.token (o.unary.wrapUnary t.innermostUnary))
    (h : ((o.unary.wrapUnary t.innermostUnary).deferred
      { request with options := o.callOptions }).Leads (Uncanceled request.token)
        (w.record (Client.callSpan request.procedure "unary")) Q H) :
    ((Client.ofTransport t o).unary request).Leads (Uncanceled request.token) w Q H := by
  have hlive : ((Client.ofTransport t o).called request w).2.isCanceled request.token = false :=
    hspares _ _ hw
  have hchain : ((Client.ofTransport t o).called request w).1.Leads (Uncanceled request.token)
      ((Client.ofTransport t o).called request w).2 Q H := h.of_eq rfl
  have hbounded := hchain.limit (b := Client.unaryBounds request) (unbroken hd hlive)
    fun _ v hv => unbroken hd hv
  exact hbounded.of_eq (Client.unary_eq _ request w)

end Called

/-- The limits of a configuration hold on every attempt of every unary call that nothing ends early,
whatever the caller, the layers and the transport do. -/
theorem unary_limited {config : ClientConfig} {provider : SecurityProvider} {request : Request}
    {es : List (Editor request.token)} {stream : List Interceptor} {keepalive : Keepalive}
    {o : DialOptions} {w₀ v₀ w : World} {t : Transport}
    (hdial : config.dial provider (editors es) stream keepalive w₀ = (.ok o, v₀))
    (ht : Mild request.token t) (hd : request.deadline = none)
    (hw : w.isCanceled request.token = false) :
    ∃ limiter : Option Limiter, limiter.isSome = (0 : Binary64).lt config.rate ∧
      LimitedCall config o t limiter request es w := by
  obtain ⟨hoptions, hunary, -⟩ := ClientConfig.dial_ok hdial
  obtain ⟨hreceive, hsend⟩ := limits_of_callOptions hoptions
  have hspares : ∀ t : Transport, Spares request.token (o.unary.wrapUnary t.innermostUnary) := by
    intro t
    rw [hunary]
    exact spares_composed config _ es t
  have hcall := compose_leads config (config.asked provider w₀)
    { request with options := o.callOptions } es ht hd
    (w := w.record (Client.callSpan request.procedure "unary")) hw
  dsimp only at hcall
  rw [← hunary] at hcall
  have hleads := unary_leads hd hw (hspares t) hcall
  have hspan : Silent request.token w (w.record (Client.callSpan request.procedure "unary")) :=
    .told w _
  refine ⟨(UnaryPolicies.ofConfig config (config.asked provider w₀)).1.limiter,
    Pipeline.isSome_limiter config _, hoptions, ?_, ?_, ?_⟩
  · intro t' hagree
    rw [← hsend] at hagree
    refine unary_congr hd hw hspares ?_
    rw [hunary]
    exact (agree_innermost hagree).composed config _ es
  · intro x v hends
    obtain ⟨past, last, hrejected, honce, hconcludes, hpast⟩ := hleads.ends x v hends
    have hwithin := History.within hpast
    exact ⟨past, last, account hreceive hsend hwithin hrejected honce hconcludes,
      .quiet hspan hpast⟩
  · intro v hhalts
    obtain ⟨past, hrejected, ⟨u, sent, hpast, hhangs⟩ | ⟨hon, h0, hlen, hpast⟩⟩ :=
      hleads.halts v hhalts
    · exact ⟨past, hrejected, History.within hpast, Or.inl ⟨u, sent, .quiet hspan hpast, hhangs⟩⟩
    · exact ⟨past, hrejected, History.within hpast, Or.inr ⟨hon, h0, hlen, .quiet hspan hpast⟩⟩

/-- Retried calls through a header and a layer that makes the body longer, with tight limits. -/
theorem unary_limited_tight :
    let config := { ClientConfig.standard with
      maxReceive := 2, maxSend := 3, rate := 1, burst := 1, retryOnRateLimit := true }
    let es : List (Editor 0) := [.header 0 ⟨"x"⟩ (.ofVisible "y"),
      .rewrite 0 fun r => (r.metadata, r.body ++ ⟨#[0x61, 0x62]⟩)]
    let t : Transport := ⟨fun r w => (.ready (.ok ⟨[], r.body⟩), w), fun _ w => (.never, w)⟩
    let request := Request.ofBody "/test.Service/Method" ⟨#[0x63, 0x64]⟩ 0
    ∃ o v, config.dial (.resolving fun _ => .ok .insecure) (editors es) []
        (.ofSeconds 20 10) .initial = (.ok o, v) ∧
      Mild request.token t ∧ request.deadline = none ∧
      World.initial.isCanceled request.token = false ∧
      ∃ limiter : Option Limiter, limiter.isSome = (0 : Binary64).lt config.rate ∧
        LimitedCall config o t limiter request es .initial := by
  intro config es t request
  have hvalid : config.validate = .ok () :=
    ClientConfig.validate_of_isOk (by decide +kernel)
  obtain ⟨v, hdial⟩ : ∃ v, config.dial (.resolving fun _ => .ok .insecure) (editors es) []
      (.ofSeconds 20 10) .initial = (.ok _, v) := ClientConfig.dial_of_valid hvalid rfl rfl
  have hmild : Mild request.token t := by
    intro sent w x v hw hends
    obtain ⟨-, rfl⟩ := Future.ends_ready hends
    exact hw
  exact ⟨_, v, hdial, hmild, rfl, rfl, unary_limited hdial hmild rfl rfl⟩

end RpcPolicy.Limits
