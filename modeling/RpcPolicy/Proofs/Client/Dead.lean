import RpcPolicy.Proofs.Client.Making
import RpcPolicy.Proofs.Pipeline.Order
/-! Calls that are canceled or expired before anybody looks at them. Main statement: such a call
ends at once, and costs a token exactly where a limiter is the outermost layer. -/

namespace RpcPolicy

/-- Nothing is canceled, no time passes, and one bucket is left alone. -/
structure Aside (place : Nat) (w v : World) : Prop where
  canceled : v.canceled = w.canceled
  clock : v.clock = w.clock
  bucket : v.buckets[place]? = w.buckets[place]?

/-- Nothing is canceled, no time passes, and one attempt is made on a bucket. -/
structure Spent (place : Nat) (w v : World) : Prop where
  canceled : v.canceled = w.canceled
  clock : v.clock = w.clock
  bucket : v.buckets[place]? = w.buckets[place]?.map fun b => (b.tryAcquire w.clock).2

variable {c : ClientConfig} {callers : List Interceptor} {o : DialOptions} {t : Transport}
  {request : Request} {next : Unary} {r : Retry} {l : Limiter} {place : Nat} {u v w w₀ : World}

/-- The limiter of a configuration uses the first place that was free. -/
theorem place_ofConfig (hl : (UnaryPolicies.ofConfig c w₀).1.limiter = some l) :
    l.place = w₀.buckets.length := by
  unfold UnaryPolicies.ofConfig at hl
  cases hrate : (0 : Binary64).lt c.rate with
  | false =>
    rw [hrate] at hl
    cases c.retryOnRateLimit <;> cases hl
  | true =>
    rw [hrate] at hl
    cases hflag : c.retryOnRateLimit with
    | false =>
      rw [hflag] at hl
      cases hl
      rfl
    | true =>
      rw [hflag] at hl
      cases hl
      rfl

/-! ### Making a call -/

/-- Retries take a cursor, and touch no bucket. -/
theorem cursor_buckets (r : Retry) (w : World) :
    (r.cursor w).2.canceled = w.canceled ∧ (r.cursor w).2.clock = w.clock ∧
      (r.cursor w).2.buckets = w.buckets := by
  unfold Retry.cursor
  split
  · exact ⟨rfl, rfl, rfl⟩
  · exact ⟨rfl, rfl, rfl⟩

theorem spent_acquire (w : World) (place : Nat) : Spent place w (w.acquire place).2 := by
  unfold World.acquire
  cases hb : w.buckets[place]? with
  | none => exact ⟨rfl, rfl, by rw [hb]; rfl⟩
  | some b =>
    refine ⟨rfl, rfl, ?_⟩
    have hlt : place < w.buckets.length := (List.getElem?_eq_some_iff.mp hb).1
    rw [hb]
    exact List.getElem?_set_self hlt

theorem Spent.aside (h : Spent place w u) (h' : Aside place u v) : Spent place w v :=
  ⟨h'.canceled.trans h.canceled, h'.clock.trans h.clock, h'.bucket.trans h.bucket⟩

/-- A limiter makes an attempt on its bucket as soon as the call is made. -/
theorem spent_limiter (hl : l.isUnlimited = false)
    (hnext : ∀ request u, Aside l.place u (next request u).2) (request : Request) (w : World) :
    Spent l.place w (l.wrapUnary next request w).2 := by
  have hspent := spent_acquire w l.place
  cases ha : w.acquire l.place with
  | mk admitted u =>
    rw [ha] at hspent
    cases admitted with
    | true =>
      rw [Limiter.wrapUnary_admitted hl ha]
      exact hspent.aside (hnext request u)
    | false =>
      rw [Limiter.wrapUnary_refused hl ha]
      exact ⟨hspent.canceled, hspent.clock, hspent.bucket⟩

/-! ### Dead calls -/

/-- Why a call that is dead ends, with the token before the deadline. -/
def deathOf (request : Request) (w : World) : CallError :=
  if w.isCanceled request.token then .canceled "call canceled"
  else .deadlineExceeded "deadline exceeded"

theorem unary_of_dead {c : Client}
    (hdead : w.isCanceled request.token = true ∨ w.isPast request.deadline = true)
    (hcanceled : (c.called request w).2.canceled = w.canceled)
    (hclock : (c.called request w).2.clock = w.clock) :
    c.unary request w = (.done (.error (deathOf request w)), (c.called request w).2) := by
  have hc : (c.called request w).2.isCanceled request.token = w.isCanceled request.token := by
    unfold World.isCanceled
    rw [hcanceled]
  have hd : (c.called request w).2.isPast request.deadline = w.isPast request.deadline := by
    unfold World.isPast
    rw [hclock]
  rw [Client.unary_eq]
  refine Bounds.limit_of_broken ?_
  unfold deathOf
  cases hw : w.isCanceled request.token with
  | true => exact Bounds.broken?_of_canceled (hc.trans hw)
  | false =>
    have hpast := hdead.resolve_left (by rw [hw]; exact Bool.false_ne_true)
    exact Bounds.broken?_of_past (hc.trans hw) (hd.trans hpast)

/-! ### The layers of a configuration -/

variable {p : UnaryPolicies} {call : Unary}

theorem wrapUnary_retry (hr : p.retry = some r) :
    (p.compose callers).wrapUnary call =
      r.wrapUnary (Chain.wrapUnary ⟨(p.limiter.map Limiter.interceptor).toList ++ callers⟩ call) := by
  unfold UnaryPolicies.compose
  rw [hr]
  rfl

theorem wrapUnary_limiter (hr : p.retry = none) (hl : p.limiter = some l) :
    (p.compose callers).wrapUnary call = l.wrapUnary (Chain.wrapUnary ⟨callers⟩ call) := by
  unfold UnaryPolicies.compose
  rw [hr, hl]
  rfl

theorem wrapUnary_callers (hr : p.retry = none) (hl : p.limiter = none) :
    (p.compose callers).wrapUnary call = Chain.wrapUnary ⟨callers⟩ call := by
  unfold UnaryPolicies.compose
  rw [hr, hl]
  rfl

/-- What making a call through the layers of a configuration does, before anybody looks at it. -/
structure Made (c : ClientConfig) (place : Nat) (w v : World) : Prop where
  canceled : v.canceled = w.canceled
  clock : v.clock = w.clock
  retried : c.retryOnRateLimit = true → v.buckets = w.buckets
  unlimited : (0 : Binary64).lt c.rate = false → v.buckets[place]? = w.buckets[place]?
  limited : c.retryOnRateLimit = false → (0 : Binary64).lt c.rate = true →
    v.buckets[place]? = w.buckets[place]?.map fun b => (b.tryAcquire w.clock).2

/-- The outermost layer decides: retries wait for the first look, and a limiter does not. -/
theorem made (w₀ : World)
    (hcallers : c.retryOnRateLimit = false → ∀ sent u, Aside w₀.buckets.length u
      (Chain.wrapUnary ⟨callers⟩ call sent u).2) (sent : Request) (w : World) :
    Made c w₀.buckets.length w
      (((UnaryPolicies.ofConfig c w₀).1.compose callers).wrapUnary call sent w).2 := by
  have hretry := Pipeline.isSome_retry c w₀
  have hlimiter := Pipeline.isSome_limiter c w₀
  cases hr : (UnaryPolicies.ofConfig c w₀).1.retry with
  | some r =>
    rw [hr] at hretry
    obtain ⟨hcanceled, hclock, hbuckets⟩ := cursor_buckets r w
    rw [wrapUnary_retry hr]
    refine ⟨hcanceled, hclock, fun _ => hbuckets, fun _ => ?_, fun hoff => ?_⟩
    · exact congrArg (fun buckets => buckets[w₀.buckets.length]?) hbuckets
    · rw [← hretry] at hoff
      cases hoff
  | none =>
    rw [hr] at hretry
    have hinner := hcallers hretry.symm
    have hoff : c.retryOnRateLimit ≠ true := by
      rw [← hretry]
      exact Bool.false_ne_true
    cases hl : (UnaryPolicies.ofConfig c w₀).1.limiter with
    | none =>
      rw [hl] at hlimiter
      have haside := hinner sent w
      rw [wrapUnary_callers hr hl]
      refine ⟨haside.canceled, haside.clock, fun hon => absurd hon hoff, fun _ => haside.bucket,
        fun _ hrate => ?_⟩
      rw [← hlimiter] at hrate
      cases hrate
    | some l =>
      rw [hl] at hlimiter
      have hlimits : l.isUnlimited = false := by
        rw [Limiter.isUnlimited, (Pipeline.limiter_ofConfig hl).1]
        exact TokenBucket.isUnlimitedRate_of_pos hlimiter.symm
      rw [← place_ofConfig hl] at hinner ⊢
      have hspent := spent_limiter hlimits hinner sent w
      rw [wrapUnary_limiter hr hl]
      refine ⟨hspent.canceled, hspent.clock, fun hon => absurd hon hoff, fun hrate => ?_,
        fun _ _ => hspent.bucket⟩
      rw [← hlimiter] at hrate
      cases hrate

/-- A call that is dead when it is made ends at once, canceled before expired. Only a limiter
without retries takes its token for the call nevertheless. -/
theorem dead_call (c : ClientConfig) (w₀ : World) (callers : List Interceptor) (o : DialOptions)
    (t : Transport) (request : Request) (w : World)
    (ho : o.unary = (UnaryPolicies.ofConfig c w₀).1.compose callers)
    (hdead : w.isCanceled request.token = true ∨ w.isPast request.deadline = true)
    (hcallers : c.retryOnRateLimit = false → ∀ sent u, Aside w₀.buckets.length u
      (Chain.wrapUnary ⟨callers⟩ t.innermostUnary sent u).2) :
    ∃ v, (Client.ofTransport t o).unary request w = (.done (.error (deathOf request w)), v) ∧
      v.canceled = w.canceled ∧ v.clock = w.clock ∧
      (c.retryOnRateLimit = true → v.buckets = w.buckets) ∧
      ((0 : Binary64).lt c.rate = false →
        v.buckets[w₀.buckets.length]? = w.buckets[w₀.buckets.length]?) ∧
      (c.retryOnRateLimit = false → (0 : Binary64).lt c.rate = true →
        v.buckets[w₀.buckets.length]? =
          w.buckets[w₀.buckets.length]?.map fun b => (b.tryAcquire w.clock).2) := by
  let sent := { request with options := o.callOptions }
  let begun := w.record (Client.callSpan request.procedure "unary")
  have hmade := made w₀ hcallers sent begun
  have hcalled : (Client.ofTransport t o).called request w =
      ((UnaryPolicies.ofConfig c w₀).1.compose callers).wrapUnary t.innermostUnary sent begun := by
    rw [← ho]
    rfl
  rw [← hcalled] at hmade
  exact ⟨_, unary_of_dead hdead hmade.canceled hmade.clock, hmade.canceled, hmade.clock,
    hmade.retried, hmade.unlimited, hmade.limited⟩

/-- A limiter with one token and no retries: a canceled call takes it, and the next one is turned
away. -/
theorem dead_call_not_free :
    ¬ ∀ (c : ClientConfig) (w₀ : World) (o : DialOptions) (t : Transport) (request : Request)
      (w : World), c.validate = .ok () →
      o.unary = (UnaryPolicies.ofConfig c w₀).1.compose [] →
      w.isCanceled request.token = true ∨ w.isPast request.deadline = true →
      (((Client.ofTransport t o).unary request w).2.acquire w₀.buckets.length).1 =
        (w.acquire w₀.buckets.length).1 := by
  intro h
  let c := { ClientConfig.standard with rate := 1, burst := 1 }
  let o : DialOptions := ⟨.insecure, .standard, (UnaryPolicies.ofConfig c .initial).1.compose [],
    ⟨[]⟩, .ofSeconds 20 10⟩
  let request := Request.ofBody "/test.Service/Method" default 0
  let w := (UnaryPolicies.ofConfig c .initial).2.cancel 0
  have hvalid : c.validate = .ok () := by
    have hok : c.validate.isOk = true := by decide +kernel
    cases hv : c.validate with
    | ok a => rfl
    | error e =>
      rw [hv] at hok
      cases hok
  have hsame := h c .initial o Transport.scripted request w hvalid rfl (Or.inl rfl)
  have hfree : (w.acquire 0).1 = true := by decide +kernel
  have htaken : (((Client.ofTransport Transport.scripted o).unary request w).2.acquire 0).1 =
      false := by decide +kernel
  rw [show World.initial.buckets.length = 0 from rfl, hfree, htaken] at hsame
  cases hsame

/-- A canceled call on a client with retries, and one on a client with a limiter alone. -/
theorem dead_call_canceled :
    let limited := { ClientConfig.standard with rate := 1, burst := 1 }
    let retried := { limited with retryOnRateLimit := true }
    let request := Request.ofBody "/test.Service/Method" default 0
    let options (c : ClientConfig) : DialOptions := ⟨.insecure, .standard,
      (UnaryPolicies.ofConfig c .initial).1.compose [], ⟨[]⟩, .ofSeconds 20 10⟩
    let before (c : ClientConfig) := (UnaryPolicies.ofConfig c .initial).2.cancel 0
    let after (c : ClientConfig) :=
      ((Client.ofTransport Transport.scripted (options c)).unary request (before c)).2
    (after retried).buckets = (before retried).buckets ∧
      (after limited).buckets[0]? =
        (before limited).buckets[0]?.map fun b => (b.tryAcquire (before limited).clock).2 := by
  intro limited retried request options before after
  have hlimited : (0 : Binary64).lt limited.rate = true := by decide +kernel
  have hnone : ∀ c : ClientConfig, c.retryOnRateLimit = false → ∀ sent u, Aside 0 u
      (Chain.wrapUnary ⟨[]⟩ Transport.scripted.innermostUnary sent u).2 :=
    fun _ _ _ u => ⟨rfl, rfl, rfl⟩
  obtain ⟨v, hv, -, -, hretried, -⟩ := dead_call retried .initial [] (options retried)
    Transport.scripted request (before retried) rfl (Or.inl rfl) (hnone retried)
  obtain ⟨u, hu, -, -, -, -, htaken⟩ := dead_call limited .initial [] (options limited)
    Transport.scripted request (before limited) rfl (Or.inl rfl) (hnone limited)
  have hafter : after retried = v := congrArg Prod.snd hv
  have hafter' : after limited = u := congrArg Prod.snd hu
  rw [hafter, hafter']
  exact ⟨hretried rfl, htaken rfl hlimited⟩

end RpcPolicy
