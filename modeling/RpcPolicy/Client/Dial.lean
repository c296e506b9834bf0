import RpcPolicy.Client.Policies
import RpcPolicy.Security.Structure
/-! Everything a connection is opened with, assembled from a configuration. -/

namespace RpcPolicy

/-- What a connection is opened with. -/
structure DialOptions where
  security : TransportSecurity
  callOptions : CallOptions
  unary : Chain
  stream : Chain
  keepalive : Keepalive

/-- Why the options of a connection cannot be assembled. -/
inductive DialError where
  | config (error : ConfigError)
  | security (error : SecurityError)
deriving DecidableEq

/-- The text for a reader. -/
def DialError.message : DialError → String
  | config e => e.message
  | security e => e.message

/-- A source of the security of a connection, told whether encryption is enabled. Asking it may
change the world. -/
abbrev SecurityProvider := Bool → World → Except SecurityError TransportSecurity × World

/-- The event of something noticed while security is resolved. -/
def Notice.event? : Notice → Option Entry
  | opened _ => none
  | unverified => some (.event .warn "TLS server certificate verification is disabled" [])

/-- The provider that resolves the security and writes down what it noticed. -/
def SecurityProvider.resolving (resolve : Bool → Resolution TransportSecurity) :
    SecurityProvider := fun enabled w =>
  let resolution := resolve enabled
  (resolution.outcome, w.recordAll (resolution.notices.filterMap Notice.event?))

/-- The text that shows every part. -/
def DialOptions.structureText (o : DialOptions) : String :=
  Text.record "DialOptions"
    [("security", o.security.structureText), ("call_options", o.callOptions.structureText),
      ("unary_interceptor", o.unary.structureText), ("stream_interceptor", o.stream.structureText),
      ("keepalive", o.keepalive.structureText)] false

namespace ClientConfig

/-- The event of assembled options. -/
def assembledEvent (c : ClientConfig) (unary stream : Chain) : Entry :=
  .event .debug "assembled dial options"
    [("unary", unary.quotedNames), ("stream", stream.quotedNames), ("tls", toString c.tlsEnabled)]

/-- Assembles the options of a connection. The configuration is validated first; only then the
provider is asked, once. Streams see none of the policies. -/
def dial (c : ClientConfig) (provider : SecurityProvider) (unary stream : List Interceptor)
    (keepalive : Keepalive) (w : World) : Except DialError DialOptions × World :=
  match c.validate with
  | .error e => (.error (.config e), w)
  | .ok () =>
    let (security, w) := provider c.tlsEnabled w
    match security with
    | .error e => (.error (.security e), w)
    | .ok security =>
      let (policies, w) := UnaryPolicies.ofConfig c w
      let unary := policies.compose unary
      let stream := Chain.mk stream
      let w := w.record (c.assembledEvent unary stream)
      match c.callOptions with
      | .error e => (.error (.config e), w)
      | .ok options => (.ok ⟨security, options, unary, stream, keepalive⟩, w)

/-- The world in which a configuration makes its layers: the provider has been asked. -/
def asked (c : ClientConfig) (provider : SecurityProvider) (w : World) : World :=
  (provider c.tlsEnabled w).2

/-- Whether a configuration is valid can be computed. -/
theorem validate_of_isOk {c : ClientConfig} (h : c.validate.isOk = true) : c.validate = .ok () := by
  cases hv : c.validate with
  | ok _ => rfl
  | error e =>
    rw [hv] at h
    cases h

section Dialed

variable {c : ClientConfig} {provider : SecurityProvider} {unary stream : List Interceptor}
  {keepalive : Keepalive} {v w : World}

/-- What is assembled, from what, and what that leaves of the world. -/
theorem dial_eq_ok_iff {o : DialOptions} :
    c.dial provider unary stream keepalive w = (.ok o, v) ↔
      ∃ security options, c.validate = .ok () ∧ c.callOptions = .ok options ∧
        (provider c.tlsEnabled w).1 = .ok security ∧
        let made := UnaryPolicies.ofConfig c (c.asked provider w)
        o = ⟨security, options, made.1.compose unary, ⟨stream⟩, keepalive⟩ ∧
          v = made.2.record (c.assembledEvent (made.1.compose unary) ⟨stream⟩) := by
  refine ⟨fun h => ?_, ?_⟩
  · unfold dial at h
    cases hvalid : c.validate with
    | error e =>
      rw [hvalid] at h
      cases h
    | ok _ =>
      rw [hvalid] at h
      dsimp only at h
      split at h
      · cases h
      · split at h
        · cases h
        · rename_i security hsecurity _ options hoptions
          cases h
          exact ⟨security, options, rfl, hoptions, hsecurity, rfl, rfl⟩
  · rintro ⟨security, options, hvalid, hoptions, hsecurity, rfl, rfl⟩
    simp only [dial, hvalid, hsecurity, hoptions]
    rfl

/-- A valid configuration with a security is assembled. -/
theorem dial_of_valid {security : TransportSecurity} {options : CallOptions}
    (hvalid : c.validate = .ok ()) (hoptions : c.callOptions = .ok options)
    (hsecurity : (provider c.tlsEnabled w).1 = .ok security) :
    ∃ v, c.dial provider unary stream keepalive w =
      (.ok ⟨security, options, (UnaryPolicies.ofConfig c (c.asked provider w)).1.compose unary,
        ⟨stream⟩, keepalive⟩, v) :=
  ⟨_, dial_eq_ok_iff.mpr ⟨security, options, hvalid, hoptions, hsecurity, rfl, rfl⟩⟩

/-- What is assembled has the layers of the configuration, and its options. -/
theorem dial_ok {o : DialOptions} (h : c.dial provider unary stream keepalive w = (.ok o, v)) :
    c.callOptions = .ok o.callOptions ∧
      o.unary = (UnaryPolicies.ofConfig c (c.asked provider w)).1.compose unary ∧
      ∃ e, v = (UnaryPolicies.ofConfig c (c.asked provider w)).2.record e := by
  obtain ⟨security, options, -, hoptions, -, rfl, rfl⟩ := dial_eq_ok_iff.mp h
  exact ⟨hoptions, rfl, _, rfl⟩

end Dialed

end ClientConfig

end RpcPolicy
