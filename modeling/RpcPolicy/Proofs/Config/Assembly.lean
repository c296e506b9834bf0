import RpcPolicy.Proofs.Config.Validation
import RpcPolicy.Proofs.Sharing.Bundles
/-! Assembling the options of a connection. Main statement: the rules of a configuration and the
answer of the provider decide whether options are assembled, and all of what they are. -/

namespace RpcPolicy.ClientConfig

variable {c : ClientConfig} {provider : SecurityProvider} {unary stream : List Interceptor}
  {keepalive : Keepalive} {e : ConfigError} {u v w : World}

/-! ### Failures -/

/-- An invalid configuration fails before anything else is done. -/
theorem dial_of_invalid (h : c.validate = .error e) :
    c.dial provider unary stream keepalive w = (.error (.config e), w) := by
  unfold dial
  rw [h]

/-- The provider's failure is passed on, in the world the provider leaves. -/
theorem dial_of_insecure {e : SecurityError} (h : c.validate = .ok ())
    (hsecurity : provider c.tlsEnabled w = (.error e, v)) :
    c.dial provider unary stream keepalive w = (.error (.security e), v) := by
  unfold dial
  rw [h]
  dsimp only
  rw [hsecurity]

/-- The provider is asked nothing but whether encryption is enabled, in the world of the call. -/
theorem dial_congr {provider' : SecurityProvider}
    (h : provider' c.tlsEnabled w = provider c.tlsEnabled w) :
    c.dial provider' unary stream keepalive w = c.dial provider unary stream keepalive w := by
  unfold dial
  rw [h]

/-! ### The layers of a configuration -/

/-- The retries that a configuration asks for, if any: with its policy, without a seed, on the
clock. -/
structure RetryOf (c : ClientConfig) (retry : Option Retry) : Prop where
  enabled : retry.isSome = c.retryOnRateLimit
  policy : ∀ r ∈ retry, r.policy = c.backoff
  unseeded : ∀ r ∈ retry, r.seed = none
  sleep : ∀ r ∈ retry, r.sleep = Sleep.timer

/-- The limiter that a configuration asks for, if any: with its rate and burst, and a full bucket
behind all others. The bucket alone would tell the same configurations apart. -/
structure LimiterOf (c : ClientConfig) (limiter : Option Limiter) (w v : World) : Prop where
  enabled : limiter.isSome = true ↔ 0 < c.rate.value
  agrees : TokenBucket.isUnlimitedRate c.rate = true ↔ ¬ 0 < c.rate.value
  rate : ∀ l ∈ limiter, l.rate = c.rate
  capacity : ∀ l ∈ limiter, l.capacity = TokenBucket.capacityOf c.rate c.burst
  limits : ∀ l ∈ limiter, l.isUnlimited = false
  place : ∀ l ∈ limiter, l.place = w.buckets.length
  buckets : v.buckets = w.buckets ++
    limiter.toList.map fun _ => .full c.rate c.burst w.clock

theorem retryOf_ofConfig (c : ClientConfig) (w : World) :
    RetryOf c (UnaryPolicies.ofConfig c w).1.retry where
  enabled := Pipeline.isSome_retry c w
  policy r hr := (Pipeline.retry_ofConfig hr).1
  unseeded r hr := by
    unfold UnaryPolicies.ofConfig at hr
    cases hflag : c.retryOnRateLimit <;> rw [hflag] at hr <;>
      cases (0 : Binary64).lt c.rate <;> cases hr <;> rfl
  sleep r hr := (Pipeline.retry_ofConfig hr).2

theorem capacity_ofConfig {l : Limiter} (hl : l ∈ (UnaryPolicies.ofConfig c w).1.limiter) :
    l.capacity = TokenBucket.capacityOf c.rate c.burst := by
  unfold UnaryPolicies.ofConfig at hl
  cases hrate : (0 : Binary64).lt c.rate <;> rw [hrate] at hl <;>
    cases c.retryOnRateLimit <;> cases hl <;> rfl

/-- A limiter is made for a positive rate. -/
theorem limited_iff (h : c.rate.isFinite = true) :
    (0 : Binary64).lt c.rate = true ↔ 0 < c.rate.value := by
  have hlt := Binary64.lt_iff_value Binary64.isFinite_zero h
  rwa [Binary64.value_zero] at hlt

theorem limiterOf_ofConfig (h : c.rate.isFinite = true) (w : World) :
    LimiterOf c (UnaryPolicies.ofConfig c w).1.limiter w (UnaryPolicies.ofConfig c w).2 := by
  have hmade := Sharing.ofConfig_buckets c w
  refine ⟨?enabled, ?agrees, ?rate, ?capacity, ?limits, ?place, ?buckets⟩
  case enabled => rw [Pipeline.isSome_limiter, limited_iff h]
  case agrees =>
    rw [TokenBucket.isUnlimitedRate_eq, Bool.not_eq_true', ← limited_iff h, Bool.not_eq_true]
  case rate =>
    intro l hl
    exact (Pipeline.limiter_ofConfig hl).1
  case capacity => exact fun l hl => capacity_ofConfig hl
  case limits => exact fun l hl => Limits.limits_ofConfig hl
  case place =>
    intro l hl
    rw [Option.mem_def.mp hl] at hmade
    exact hmade.1
  case buckets =>
    cases hl : (UnaryPolicies.ofConfig c w).1.limiter with
    | none =>
      rw [hl] at hmade
      simpa using hmade
    | some l =>
      rw [hl] at hmade
      exact hmade.2

/-! ### Success -/

/-- All of what is assembled with a security once the provider has been asked, and what that leaves
of the world. -/
structure Assembled (c : ClientConfig) (security : TransportSecurity)
    (unary stream : List Interceptor) (time timeout : UInt64) (u : World) (o : DialOptions)
    (v : World) : Prop where
  security : o.security = security
  maxReceive : o.callOptions.maxReceive = c.maxReceive
  maxSend : o.callOptions.maxSend = c.maxSend
  codec : o.callOptions.compression.elim "" Compression.name = c.compression
  unary : ∃ retry limiter, RetryOf c retry ∧ LimiterOf c limiter u v ∧ o.unary.layers =
    (retry.map Retry.interceptor).toList ++ (limiter.map Limiter.interceptor).toList ++ unary
  stream : o.stream.layers = stream
  keepalive : o.keepalive.time = .ofSeconds time.toNat ∧
    o.keepalive.timeout = .ofSeconds timeout.toNat ∧ o.keepalive.permitWithoutStream = true
  /-- What is assembled is written down once. -/
  log : v.log = u.log ++ [c.assembledEvent o.unary o.stream]
  /-- Beside that, only the layers are made. -/
  rest : v = { u with counters := v.counters, buckets := v.buckets, journal := v.journal }

/-- Making the layers adds to the counters and the buckets, and does nothing else. -/
theorem ofConfig_keeps (c : ClientConfig) (w : World) :
    let v := (UnaryPolicies.ofConfig c w).2
    v = { w with counters := v.counters, buckets := v.buckets } := by
  unfold UnaryPolicies.ofConfig
  cases c.retryOnRateLimit <;> cases (0 : Binary64).lt c.rate <;> rfl

/-- What is written down after the layers are made does not matter to them. -/
theorem LimiterOf.record {limiter : Option Limiter} (h : LimiterOf c limiter w v) (entry : Entry) :
    LimiterOf c limiter w (v.record entry) :=
  ⟨h.enabled, h.agrees, h.rate, h.capacity, h.limits, h.place, h.buckets⟩

theorem finite_rate (h : c.validate = .ok ()) : c.rate.isFinite = true := by
  have hrate := c.validate_checks.ok_iff.mp h
    ⟨c.rate.isFinite = true ∧ 0 ≤ c.rate.value, .invalidRateLimit c.rate⟩ (by simp [rules])
  exact hrate.1

theorem dial_assembles {security : TransportSecurity} {time timeout : UInt64}
    (h : c.validate = .ok ()) (hsecurity : provider c.tlsEnabled w = (.ok security, u)) :
    ∃ o v, c.dial provider unary stream (.ofSeconds time timeout) w = (.ok o, v) ∧
      Assembled c security unary stream time timeout u o v := by
  obtain ⟨options, hoptions⟩ := exists_callOptions h
  obtain ⟨hreceive, hsend, hcodec⟩ := callOptions_eq_ok.mp hoptions
  have hasked : c.asked provider w = u := congrArg Prod.snd hsecurity
  have hretry := retryOf_ofConfig c u
  have hlimiter := limiterOf_ofConfig (finite_rate h) u
  have hkeeps := ofConfig_keeps c u
  refine ⟨_, _, dial_eq_ok_iff.mpr ⟨security, options, h, hoptions, congrArg Prod.fst hsecurity,
    rfl, rfl⟩, ?_⟩
  rw [hasked]
  refine ⟨rfl, hreceive, hsend, hcodec, ⟨_, _, hretry, hlimiter.record _, rfl⟩, rfl,
    ⟨rfl, rfl, rfl⟩, ?log, ?rest⟩
  case log =>
    rw [World.log_record, hkeeps]
    rfl
  case rest =>
    rw [hkeeps]
    rfl

/-- Validation names the first broken rule, which is all that assembly then comes to. Otherwise the
provider is asked once; it fails, or all options are assembled with its answer. -/
theorem dial_decides (c : ClientConfig) (provider : SecurityProvider)
    (unary stream : List Interceptor) (time timeout : UInt64) (w : World) :
    (c.validate = .ok () ↔ ∀ r ∈ c.rules, r.holds) ∧
    (∀ e, c.validate = .error e ↔ FirstBroken c.rules e) ∧
    (∀ e, FirstBroken c.rules e → ∀ provider' : SecurityProvider,
      c.dial provider' unary stream (.ofSeconds time timeout) w = (.error (.config e), w)) ∧
    (∀ provider' : SecurityProvider, provider' c.tlsEnabled w = provider c.tlsEnabled w →
      c.dial provider' unary stream (.ofSeconds time timeout) w =
        c.dial provider unary stream (.ofSeconds time timeout) w) ∧
    ((∀ r ∈ c.rules, r.holds) →
      (∀ e v, provider c.tlsEnabled w = (.error e, v) →
        c.dial provider unary stream (.ofSeconds time timeout) w = (.error (.security e), v)) ∧
      ∀ security u, provider c.tlsEnabled w = (.ok security, u) →
        ∃ o v, c.dial provider unary stream (.ofSeconds time timeout) w = (.ok o, v) ∧
          Assembled c security unary stream time timeout u o v) := by
  have hok := c.validate_checks.ok_iff
  have herror : ∀ e, c.validate = .error e ↔ FirstBroken c.rules e :=
    fun e => c.validate_checks.error_iff
  refine ⟨hok, herror, ?invalid, fun _ => dial_congr, ?valid⟩
  case invalid =>
    intro e hbroken provider'
    exact dial_of_invalid ((herror e).mpr hbroken)
  case valid =>
    intro hkept
    have hvalid := hok.mpr hkept
    exact ⟨fun _ _ => dial_of_insecure hvalid, fun _ _ => dial_assembles hvalid⟩

/-- A valid configuration with both answers of a provider that counts how often it is asked, and the
same with a negative rate and a jitter that is not a number, of which the rate is reported. -/
theorem dial_decides_thrice :
    let valid : ClientConfig :=
      { standard with compression := "gzip", rate := 1, burst := 2, retryOnRateLimit := true }
    let broken : ClientConfig :=
      { valid with rate := -1, backoff := { valid.backoff with jitter := .nan } }
    let asked : World := { World.initial with calls := 1 }
    let ready : SecurityProvider := fun _ w => (.ok .insecure, { w with calls := w.calls + 1 })
    let failing : SecurityProvider := fun _ w =>
      (.error (.invalidServerName "x"), { w with calls := w.calls + 1 })
    (∃ o v, valid.dial ready [] [] (.ofSeconds 20 10) .initial = (.ok o, v) ∧
      Assembled valid .insecure [] [] 20 10 asked o v) ∧
    valid.dial failing [] [] (.ofSeconds 20 10) .initial =
      (.error (.security (.invalidServerName "x")), asked) ∧
    broken.dial failing [] [] (.ofSeconds 20 10) .initial =
      (.error (.config (.invalidRateLimit (-1))), .initial) := by
  intro valid broken asked ready failing
  have hvalid : valid.validate = .ok () := validate_of_isOk (by decide +kernel)
  have hbroken : broken.validate = .error (.invalidRateLimit (-1)) := by decide +kernel
  obtain ⟨hok, -, -, -, hready⟩ := dial_decides valid ready [] [] 20 10 .initial
  obtain ⟨-, -, -, -, hfailing⟩ := dial_decides valid failing [] [] 20 10 .initial
  obtain ⟨-, herror, hinvalid, -⟩ := dial_decides broken failing [] [] 20 10 .initial
  have hkept := hok.mp hvalid
  exact ⟨(hready hkept).2 .insecure asked rfl, (hfailing hkept).1 _ _ rfl,
    hinvalid _ ((herror _).mp hbroken) failing⟩

end RpcPolicy.ClientConfig
