import RpcPolicy.Proofs.Call.Moves
import RpcPolicy.Proofs.Limits.Retries
/-! Bundles of dial options, and the attempts of the clients that are built from them. Main
statements: a bundle is made with one bucket of its own, and an attempt takes its token there before
it comes to anything else. -/

namespace RpcPolicy.Sharing

/-- The buckets at some places are left alone; anything else may happen. -/
def Spares (own : Nat → Prop) : Environment := fun w v =>
  ∀ place, own place → v.buckets[place]? = w.buckets[place]?

variable {own : Nat → Prop}

theorem flow_spares : Flow (Spares own) where
  idle h place _ := by rw [h]
  trans h h' place hplace := (h' place hplace).trans (h place hplace)

/-- Dial options, with what they were dialed from: the configuration, the layers of the caller, the
limiter that was made and the instant. -/
structure Bundle where
  config : ClientConfig
  callers : List Interceptor
  options : DialOptions
  limiter : Option Limiter
  since : Instant

/-- Asking the provider leaves the clock, the counters and the buckets alone; anything else may
happen. -/
structure Aside (provider : SecurityProvider) : Prop where
  clock : ∀ enabled w, (provider enabled w).2.clock = w.clock
  counters : ∀ enabled w, (provider enabled w).2.counters = w.counters
  buckets : ∀ enabled w, (provider enabled w).2.buckets = w.buckets

namespace Bundle

/-- The bundle is what dialing in a world gives; the limiter in it is the one made then. -/
def Dialed (b : Bundle) (w v : World) : Prop :=
  ∃ provider stream keepalive, Aside provider ∧
    b.config.dial provider b.callers stream keepalive w = (.ok b.options, v) ∧
      b.limiter = (UnaryPolicies.ofConfig b.config (b.config.asked provider w)).1.limiter ∧
      b.since = w.clock

/-- The full bucket of the configuration. -/
def fresh (b : Bundle) : TokenBucket := .full b.config.rate b.config.burst b.since

/-- What the limiter is asked before an attempt, and the world after that. -/
def acquire (b : Bundle) (w : World) : Bool × World :=
  match b.limiter with
  | none => (true, w)
  | some l => w.acquire l.place

/-- What an admitted attempt comes to: the layers of the caller, and the transport. -/
def inner (b : Bundle) (t : Transport) : Unary :=
  (Chain.mk b.callers).wrapUnary t.innermostUnary

/-- An attempt of a client on some transport: all of its layers but the retries. -/
def attempt (b : Bundle) (t : Transport) : Unary :=
  (Chain.mk ((b.limiter.map Limiter.interceptor).toList ++ b.callers)).wrapUnary t.innermostUnary

end Bundle

/-! ### Making a bundle -/

/-- Two worlds at one instant, with as many buckets and counters. -/
structure Matching (w u : World) : Prop where
  clock : u.clock = w.clock
  counters : u.counters.length = w.counters.length
  buckets : u.buckets.length = w.buckets.length

variable {b : Bundle} {c : ClientConfig} {l : Limiter} {provider : SecurityProvider}
  {u v w : World}

theorem recordAll_keeps (w : World) (es : List Entry) :
    (w.recordAll es).clock = w.clock ∧ (w.recordAll es).counters = w.counters ∧
      (w.recordAll es).buckets = w.buckets := by
  induction es generalizing w with
  | nil => exact ⟨rfl, rfl, rfl⟩
  | cons e es ih => exact ih (w.record e)

/-- The provider of a configuration does no more than write down what it noticed. -/
theorem aside_resolving (resolve : Bool → Resolution TransportSecurity) :
    Aside (.resolving resolve) where
  clock _ w := (recordAll_keeps w _).1
  counters _ w := (recordAll_keeps w _).2.1
  buckets _ w := (recordAll_keeps w _).2.2

theorem Aside.matching (h : Aside provider) (c : ClientConfig) (w : World) :
    Matching w (c.asked provider w) where
  clock := h.clock _ w
  counters := congrArg List.length (h.counters _ w)
  buckets := congrArg List.length (h.buckets _ w)

theorem Matching.symm (h : Matching w u) : Matching u w :=
  ⟨h.clock.symm, h.counters.symm, h.buckets.symm⟩

theorem Matching.trans (h : Matching u v) (h' : Matching v w) : Matching u w :=
  ⟨h'.clock.trans h.clock, h'.counters.trans h.counters, h'.buckets.trans h.buckets⟩

/-- Which layers are made, and where their buckets and counters stand, depends on nothing else. -/
theorem Matching.ofConfig (h : Matching w u) (c : ClientConfig) :
    (UnaryPolicies.ofConfig c u).1 = (UnaryPolicies.ofConfig c w).1 ∧
      Matching (UnaryPolicies.ofConfig c w).2 (UnaryPolicies.ofConfig c u).2 := by
  obtain ⟨hclock, hcounters, hbuckets⟩ := h
  unfold UnaryPolicies.ofConfig
  cases c.retryOnRateLimit <;> cases (0 : Binary64).lt c.rate <;>
    simp [Retry.create, Limiter.create, World.addCounter, World.addBucket, hclock, hcounters,
      hbuckets]
  all_goals constructor <;> simp [hclock, hcounters, hbuckets]

/-- The layers of a configuration come with a full bucket behind the others, or with none. -/
theorem ofConfig_buckets (c : ClientConfig) (w : World) :
    match (UnaryPolicies.ofConfig c w).1.limiter with
    | none => (UnaryPolicies.ofConfig c w).2.buckets = w.buckets
    | some l => l.place = w.buckets.length ∧
        (UnaryPolicies.ofConfig c w).2.buckets = w.buckets ++ [.full c.rate c.burst w.clock] := by
  unfold UnaryPolicies.ofConfig
  cases c.retryOnRateLimit <;> cases (0 : Binary64).lt c.rate <;>
    simp [Retry.create, Limiter.create, World.addCounter, World.addBucket]

/-- A valid configuration with a security is dialed to a bundle in every world. -/
theorem exists_dialed {security : TransportSecurity} {options : CallOptions}
    (hprovider : Aside provider) (callers : List Interceptor) (hvalid : c.validate = .ok ())
    (hoptions : c.callOptions = .ok options) (w : World)
    (hsecurity : (provider c.tlsEnabled w).1 = .ok security) :
    ∃ (b : Bundle) (v : World), b.Dialed w v ∧ b.config = c ∧ b.callers = callers ∧
      b.since = w.clock := by
  obtain ⟨v, hdial⟩ : ∃ v, c.dial provider callers [] (.ofSeconds 0 0) w = (.ok _, v) :=
    ClientConfig.dial_of_valid hvalid hoptions hsecurity
  let l := (UnaryPolicies.ofConfig c (c.asked provider w)).1.limiter
  exact ⟨⟨c, callers, _, l, w.clock⟩, v, ⟨provider, [], _, hprovider, hdial, rfl, rfl⟩, rfl, rfl,
    rfl⟩

namespace Bundle.Dialed

/-- Dialing in another world gives the same bundle, if the two worlds match. The provider may answer
something else there, so one is asked that always gives this answer. -/
theorem congr (h : b.Dialed w v) (hm : Matching w u) : ∃ v', b.Dialed u v' ∧ Matching v v' := by
  obtain ⟨provider, stream, keepalive, hprovider, hdial, hlimiter, hsince⟩ := h
  obtain ⟨security, options, hvalid, hoptions, hsecurity, ho, rfl⟩ :=
    ClientConfig.dial_eq_ok_iff.mp hdial
  have hasked : Matching (b.config.asked provider w) u :=
    (hprovider.matching b.config w).symm.trans hm
  obtain ⟨hmade, hlater⟩ := hasked.ofConfig b.config
  let constant : SecurityProvider := fun _ x => (.ok security, x)
  have hconstant : Aside constant := ⟨fun _ _ => rfl, fun _ _ => rfl, fun _ _ => rfl⟩
  refine ⟨_, ⟨constant, stream, keepalive, hconstant, ClientConfig.dial_eq_ok_iff.mpr
    ⟨security, options, hvalid, hoptions, rfl, ?_, rfl⟩, ?_, ?_⟩, ?_⟩
  · exact ho.trans (congrArg (fun p => DialOptions.mk security options
      (UnaryPolicies.compose p b.callers) ⟨stream⟩ keepalive) hmade.symm)
  · exact hlimiter.trans (congrArg UnaryPolicies.limiter hmade.symm)
  · exact hsince.trans hm.clock.symm
  · exact ⟨hlater.clock, hlater.counters, hlater.buckets⟩

/-- A bundle without a limiter comes with no bucket. -/
theorem of_none (h : b.Dialed w v) (hl : b.limiter = none) : v.buckets = w.buckets := by
  obtain ⟨provider, stream, keepalive, hprovider, hdial, hlimiter, -⟩ := h
  obtain ⟨-, -, -, -, -, -, rfl⟩ := ClientConfig.dial_eq_ok_iff.mp hdial
  have hmade := ofConfig_buckets b.config (b.config.asked provider w)
  rw [← hlimiter, hl] at hmade
  exact hmade.trans (hprovider.buckets _ w)

/-- A bundle with a limiter comes with the full bucket of its configuration, behind the others. -/
theorem of_some (h : b.Dialed w v) (hl : b.limiter = some l) :
    l.place = w.buckets.length ∧ v.buckets = w.buckets ++ [b.fresh] := by
  obtain ⟨provider, stream, keepalive, hprovider, hdial, hlimiter, hsince⟩ := h
  obtain ⟨-, -, -, -, -, -, rfl⟩ := ClientConfig.dial_eq_ok_iff.mp hdial
  have hclock : (b.config.asked provider w).clock = w.clock := hprovider.clock _ w
  have hbuckets : (b.config.asked provider w).buckets = w.buckets := hprovider.buckets _ w
  have hmade := ofConfig_buckets b.config (b.config.asked provider w)
  rw [← hlimiter, hl] at hmade
  rw [fresh, hsince, ← hclock, ← hbuckets]
  exact hmade

theorem isSome_limiter (h : b.Dialed w v) :
    b.limiter.isSome = (0 : Binary64).lt b.config.rate := by
  obtain ⟨provider, stream, keepalive, -, -, hlimiter, -⟩ := h
  rw [hlimiter]
  exact Pipeline.isSome_limiter _ _

/-- Without a limiter the bucket of the configuration would admit everything. -/
theorem unlimited (h : b.Dialed w v) (hl : b.limiter = none) : b.fresh.isUnlimited = true := by
  have hrate := h.isSome_limiter
  rw [hl, Option.isSome_none] at hrate
  have hunlimited := TokenBucket.isUnlimitedRate_eq b.config.rate
  rwa [← hrate] at hunlimited

theorem limits (h : b.Dialed w v) (hl : b.limiter = some l) : l.isUnlimited = false := by
  obtain ⟨provider, stream, keepalive, -, -, hlimiter, -⟩ := h
  exact Limits.limits_ofConfig (hlimiter.symm.trans hl)

/-- A client of the bundle makes its attempts within retries, if the configuration asks for them,
and directly if not. -/
theorem wrappedUnary (h : b.Dialed w v) : ∃ retry : Option Retry,
    retry.isSome = b.config.retryOnRateLimit ∧ (∀ r ∈ retry, r.sleep = Sleep.timer) ∧
      ∀ t, (Client.ofTransport t b.options).wrappedUnary =
        retry.elim (b.attempt t) fun r => r.wrapUnary (b.attempt t) := by
  obtain ⟨provider, stream, keepalive, -, hdial, hlimiter, -⟩ := h
  let p := (UnaryPolicies.ofConfig b.config (b.config.asked provider w)).1
  have hunary : b.options.unary = p.compose b.callers := (ClientConfig.dial_ok hdial).2.1
  refine ⟨p.retry, Pipeline.isSome_retry _ _, fun r hr => (Pipeline.retry_ofConfig hr).2, ?_⟩
  intro t
  unfold Client.ofTransport attempt
  rw [hunary, hlimiter]
  cases hr : p.retry with
  | none =>
    unfold UnaryPolicies.compose
    rw [hr]
    rfl
  | some r => exact wrapUnary_retry hr

end Bundle.Dialed

/-! ### Attempts -/

variable {t : Transport}

namespace Bundle

theorem acquire_of_none (hl : b.limiter = none) : b.acquire w = (true, w) := by
  rw [acquire, hl]

theorem acquire_of_some (hl : b.limiter = some l) : b.acquire w = w.acquire l.place := by
  rw [acquire, hl]

theorem attempt_of_none (hl : b.limiter = none) : b.attempt t = b.inner t := by
  unfold attempt
  rw [hl]
  rfl

theorem attempt_of_some (hl : b.limiter = some l) : b.attempt t = l.wrapUnary (b.inner t) := by
  unfold attempt
  rw [hl]
  rfl

/-- An admitted attempt comes to the layers of the caller. -/
theorem attempt_admitted (t : Transport) (request : Request)
    (hlimits : ∀ l, b.limiter = some l → l.isUnlimited = false) (ha : b.acquire w = (true, v)) :
    b.attempt t request w = b.inner t request v := by
  cases hl : b.limiter with
  | none =>
    rw [acquire_of_none hl] at ha
    cases ha
    rw [attempt_of_none hl]
  | some l =>
    rw [acquire_of_some hl] at ha
    rw [attempt_of_some hl, Limiter.wrapUnary_admitted (hlimits l hl) ha]

/-- A refused attempt ends in the rejection of the limiter, and comes to nothing else. -/
theorem attempt_refused (t : Transport) (request : Request)
    (hlimits : ∀ l, b.limiter = some l → l.isUnlimited = false) (ha : b.acquire w = (false, v)) :
    ∃ l, b.limiter = some l ∧ b.attempt t request w =
      (.ready (.error l.rejection), v.record (l.rejectionEvent request.procedure)) := by
  cases hl : b.limiter with
  | none =>
    rw [acquire_of_none hl] at ha
    cases ha
  | some l =>
    rw [acquire_of_some hl] at ha
    refine ⟨l, rfl, ?_⟩
    rw [attempt_of_some hl, Limiter.wrapUnary_refused (hlimits l hl) ha]

/-- Taking a token leaves every other bucket alone. -/
theorem acquire_apart {place : Nat} (h : ∀ l, b.limiter = some l → l.place ≠ place) (w : World) :
    (b.acquire w).2.buckets[place]? = w.buckets[place]? := by
  cases hl : b.limiter with
  | none => rw [acquire_of_none hl]
  | some l =>
    rw [acquire_of_some hl]
    unfold World.acquire
    split
    · rfl
    · exact List.getElem?_set_ne (h l hl)

/-- Beside taking a token, making an attempt does what the layers of the caller do. -/
theorem spares_attempt (hlimits : ∀ l, b.limiter = some l → l.isUnlimited = false)
    (hinner : ∀ request u, Spares own u (b.inner t request u).2) (request : Request) (w : World) :
    Spares own (b.acquire w).2 (b.attempt t request w).2 := by
  cases ha : b.acquire w with
  | mk admitted v =>
    cases admitted with
    | true =>
      rw [attempt_admitted t request hlimits ha]
      exact hinner request v
    | false =>
      obtain ⟨l, -, hrefused⟩ := attempt_refused t request hlimits ha
      rw [hrefused]
      exact flow_spares.idle rfl

theorem length_acquire (b : Bundle) (w : World) :
    (b.acquire w).2.buckets.length = w.buckets.length := by
  cases hl : b.limiter with
  | none => rw [acquire_of_none hl]
  | some l =>
    rw [acquire_of_some hl]
    unfold World.acquire
    split
    · rfl
    · exact List.length_set

end Bundle

/-! ### Layers that leave buckets alone -/

/-- A layer that leaves the buckets at the owned places alone, if the calls inside do. -/
def Tame (own : Nat → Prop) (i : Interceptor) : Prop :=
  ∀ next : Unary, next.Moves (Spares own) → (i.wrapUnary next).Moves (Spares own)

theorem tame_header (own : Nat → Prop) (name : MetadataName) (value : MetadataValue) :
    Tame own (.header name value) :=
  fun _ h _ w => h _ w

theorem layers_move {is : List Interceptor} {next : Unary} (his : ∀ i ∈ is, Tame own i)
    (h : next.Moves (Spares own)) : ((Chain.mk is).wrapUnary next).Moves (Spares own) := by
  induction is with
  | nil => exact h
  | cons i is ih =>
    have hrest := ih fun j hj => his j (List.mem_cons_of_mem i hj)
    exact his i (List.mem_cons_self ..) _ hrest

theorem inner_moves (hcallers : ∀ i ∈ b.callers, Tame own i) (ht : t.unary.Moves (Spares own)) :
    (b.inner t).Moves (Spares own) :=
  layers_move hcallers (.innermost flow_spares ht)

end RpcPolicy.Sharing
