import RpcPolicy.Proofs.Client.Handover
import RpcPolicy.Proofs.Config.Validation
/-! The metadata that the transport receives. Main statement: the last header layer of a name
decides its value, the codec comes after all of them, and every attempt carries the same. -/

namespace RpcPolicy

/-- The names and the values of some header layers, the outermost first. -/
abbrev Headers := List (MetadataName × MetadataValue)

/-- Gives each name its value, one after the other. -/
def Metadata.given (m : Metadata) (headers : Headers) : Metadata :=
  headers.foldl (fun m header => m.insert header.1 header.2) m

/-- The names of some metadata, in order. -/
def Metadata.names (m : Metadata) : List MetadataName := m.map Prod.fst

/-- Header layers as a caller gives them. -/
def headerLayers (headers : Headers) : List Interceptor :=
  headers.map fun header => .header header.1 header.2

variable {headers before after : Headers} {m : Metadata} {name : MetadataName}
  {value : MetadataValue} {o : CallOptions}

/-! ### Metadata -/

namespace Metadata

theorem given_append (m : Metadata) (before after : Headers) :
    m.given (before ++ after) = (m.given before).given after := List.foldl_append

/-- A name that is given no value keeps those it has. -/
theorem values_given_of_not_mem (h : ∀ header ∈ headers, header.1 ≠ name) :
    (m.given headers).values name = m.values name := by
  induction headers generalizing m with
  | nil => rfl
  | cons header headers ih =>
    obtain ⟨hne, hrest⟩ := List.forall_mem_cons.mp h
    have hstep : m.given (header :: headers) = (m.insert header.1 header.2).given headers := rfl
    rw [hstep, ih hrest, values_insert_of_ne m hne.symm]

/-- The last value that a name is given stands in place of all others. -/
theorem values_given_of_last (h : ∀ header ∈ after, header.1 ≠ name) :
    (m.given (before ++ (name, value) :: after)).values name = [value] := by
  have hstep : m.given (before ++ (name, value) :: after) =
      ((m.given before).insert name value).given after := given_append m before _
  rw [hstep, values_given_of_not_mem h, values_insert_self]

theorem mem_names_update {f : List MetadataValue → List MetadataValue} {other : MetadataName}
    (h : other ∈ (m.update name f).names) : other = name ∨ other ∈ m.names := by
  induction m with
  | nil => exact Or.inl (List.mem_singleton.mp h)
  | cons entry rest ih =>
    unfold update at h
    split at h
    · exact Or.inr h
    · rcases List.mem_cons.mp h with rfl | hrest
      · exact Or.inr (List.mem_cons_self ..)
      · exact (ih hrest).imp_right (List.mem_cons_of_mem _)

/-- No name comes twice. -/
theorem nodup_insert (h : m.names.Nodup) : (m.insert name value).names.Nodup := by
  unfold insert
  induction m with
  | nil => exact List.nodup_singleton name
  | cons entry rest ih =>
    obtain ⟨hfirst, hrest⟩ := List.nodup_cons.mp h
    unfold update
    split
    · exact h
    · rename_i hne
      refine List.nodup_cons.mpr ⟨fun hmem => ?_, ih hrest⟩
      rcases mem_names_update hmem with heq | hmem
      · exact hne heq
      · exact hfirst hmem

theorem nodup_given (h : m.names.Nodup) : (m.given headers).names.Nodup := by
  induction headers generalizing m with
  | nil => exact h
  | cons header headers ih => exact ih (nodup_insert h)

end Metadata

/-! ### The codec -/

theorem nodup_stampEncoding (h : m.names.Nodup) : (stampEncoding m o).names.Nodup := by
  unfold stampEncoding
  split
  · exact h
  · exact Metadata.nodup_insert h

/-- Without a codec, and for other names, nothing is named. -/
theorem values_stampEncoding_of_ne (h : name ≠ encodingName ∨ o.compression = none) :
    (stampEncoding m o).values name = m.values name := by
  unfold stampEncoding
  split
  · rfl
  · rename_i codec hcodec
    rcases h with hne | hnone
    · exact Metadata.values_insert_of_ne m hne _
    · rw [hcodec] at hnone
      cases hnone

theorem values_stampEncoding_self {codec : Compression} (h : o.compression = some codec) :
    (stampEncoding m o).values encodingName = [.ofVisible codec.name] := by
  unfold stampEncoding
  rw [h]
  exact Metadata.values_insert_self m encodingName _

/-! ### Header layers -/

theorem text_of_headerParts {s t : String} {header : MetadataName × MetadataValue}
    (h : headerParts s t = .ok header) : header.1.text = s.toLower := by
  unfold headerParts at h
  cases hname : MetadataName.ofText? s with
  | none => simp [hname] at h
  | some n =>
    have htext : n.text = s.toLower := by
      unfold MetadataName.ofText? at hname
      dsimp only at hname
      split at hname
      · cases hname
        rfl
      · cases hname
    cases hvalue : MetadataValue.ofText? t with
    | none => simp [hname, hvalue] at h
    | some v =>
      simp only [hname, hvalue, Except.ok.injEq] at h
      rw [← h]
      exact htext

/-- The names of header layers are equal when their texts are, up to the case of letters. -/
theorem headerParts_name {s t s' t' : String} {header header' : MetadataName × MetadataValue}
    (h : headerParts s t = .ok header) (h' : headerParts s' t' = .ok header') :
    header.1 = header'.1 ↔ s.toLower = s'.toLower := by
  rw [← text_of_headerParts h, ← text_of_headerParts h']
  constructor
  · exact congrArg MetadataName.text
  · intro htext
    obtain ⟨⟨a⟩, v⟩ := header
    obtain ⟨⟨b⟩, v'⟩ := header'
    cases htext
    rfl

/-- A call through header layers is made with what they give. -/
theorem wrapUnary_headers (headers : Headers) (call : Unary) (request : Request) :
    (Chain.mk (headerLayers headers)).wrapUnary call request =
      call { request with metadata := request.metadata.given headers } := by
  induction headers generalizing request with
  | nil => rfl
  | cons header headers ih => exact ih _

theorem wrapStream_headers (headers : Headers) (call : StreamCall) (request : StreamRequest) :
    (Chain.mk (headerLayers headers)).wrapStream call request =
      call { request with metadata := request.metadata.given headers } := by
  induction headers generalizing request with
  | nil => rfl
  | cons header headers ih => exact ih _

/-! ### Clients -/

/-- A client that hands over one request at every attempt of a unary call, and one streaming
request, whatever it is called with. -/
def Client.sending (t : Transport) (p : UnaryPolicies) (options : CallOptions) (sent : Request)
    (opened : StreamRequest) : Client where
  wrappedUnary := p.around fun _ w => (t.exchange sent, w)
  wrappedStream := fun _ w => (t.opening opened, w)
  options := options

/-- What the names stand for in the metadata that the transport receives: the codec if there is
one, else the value of the last header layer of the name, else what they stood for. -/
structure Received (config : ClientConfig) (headers : Headers) (m received : Metadata) : Prop where
  codec : config.compression ≠ "" →
    received.values encodingName = [.ofVisible config.compression]
  last : ∀ name value before after, name ≠ encodingName ∨ config.compression = "" →
    headers = before ++ (name, value) :: after → (∀ header ∈ after, header.1 ≠ name) →
    received.values name = [value]
  kept : ∀ name, name ≠ encodingName ∨ config.compression = "" →
    (∀ header ∈ headers, header.1 ≠ name) → received.values name = m.values name
  once : m.names.Nodup → received.names.Nodup

section Dialed

variable {config : ClientConfig} {provider : SecurityProvider} {keepalive : Keepalive}
  {o : DialOptions} {v w : World}

theorem received_stamped {options : CallOptions} (h : config.callOptions = .ok options)
    (headers : Headers) (m : Metadata) :
    Received config headers m (stampEncoding (m.given headers) options) := by
  obtain ⟨-, -, hcodec⟩ := ClientConfig.callOptions_eq_ok.mp h
  have hspared : ∀ {name}, name ≠ encodingName ∨ config.compression = "" →
      name ≠ encodingName ∨ options.compression = none := by
    intro name hname
    refine hname.imp_right fun hempty => ?_
    cases hc : options.compression with
    | none => rfl
    | some codec =>
      rw [hc, hempty] at hcodec
      cases codec <;> exact absurd hcodec (by decide)
  refine ⟨?codec, ?last, ?kept, fun hm => nodup_stampEncoding (Metadata.nodup_given hm)⟩
  case codec =>
    intro hne
    cases hc : options.compression with
    | none =>
      rw [hc] at hcodec
      exact absurd hcodec.symm hne
    | some codec =>
      rw [hc] at hcodec
      rw [values_stampEncoding_self hc, ← hcodec]
      rfl
  case last =>
    intro name value before after hname hheaders hafter
    rw [values_stampEncoding_of_ne (hspared hname), hheaders,
      Metadata.values_given_of_last hafter]
  case kept =>
    intro name hname hnone
    rw [values_stampEncoding_of_ne (hspared hname), Metadata.values_given_of_not_mem hnone]

/-- Through header layers every attempt of a call hands over one and the same request; what the
transport would do with any other does not matter. -/
theorem transport_receives
    (dialed : config.dial provider (headerLayers headers) (headerLayers headers) keepalive w =
      (.ok o, v)) :
    let received := fun m : Metadata => stampEncoding (m.given headers) o.callOptions
    let policies := (UnaryPolicies.ofConfig config (config.asked provider w)).1
    (∀ (t : Transport) (request : Request) (streamed : StreamRequest),
      let sent := { request with
        metadata := received request.metadata, options := o.callOptions }
      let opened := { streamed with
        metadata := received streamed.metadata, options := o.callOptions }
      let sending := Client.sending t policies o.callOptions sent opened
      (Client.ofTransport t o).unary request = sending.unary request ∧
        (Client.ofTransport t o).stream streamed = sending.stream streamed ∧
        (∀ t' : Transport, t'.unary sent = t.unary sent →
          (Client.ofTransport t' o).unary request = (Client.ofTransport t o).unary request) ∧
        ∀ t' : Transport, t'.stream opened = t.stream opened →
          (Client.ofTransport t' o).stream streamed = (Client.ofTransport t o).stream streamed) ∧
      (∀ m, Received config headers m (received m)) ∧
      ∀ s a s' a' header header', headerParts s a = .ok header → headerParts s' a' = .ok header' →
        (header.1 = header'.1 ↔ s.toLower = s'.toLower) := by
  intro received policies
  obtain ⟨security, options, -, hoptions, -, rfl, rfl⟩ := ClientConfig.dial_eq_ok_iff.mp dialed
  refine ⟨fun t request streamed => ?_, received_stamped hoptions headers,
    fun _ _ _ _ _ _ => headerParts_name⟩
  intro sent opened sending
  have hunary : ∀ t' : Transport, (policies.compose (headerLayers headers)).wrapUnary
      t'.innermostUnary { request with options } =
        policies.around (fun _ w => (t'.exchange sent, w)) { request with options } := by
    intro t'
    rw [UnaryPolicies.compose_eq]
    refine policies.around_congr (funext fun u => ?_)
    rw [wrapUnary_headers, Transport.innermostUnary_eq]
    rfl
  have hstream : ∀ t' : Transport, (Chain.mk (headerLayers headers)).wrapStream
      t'.innermostStream { streamed with options } = fun w => (t'.opening opened, w) := by
    intro t'
    funext u
    rw [wrapStream_headers, Transport.innermostStream_eq]
    rfl
  -- Another transport is met through the request that is sent, and through nothing else.
  refine ⟨Client.unary_congr rfl (hunary t), Client.stream_congr rfl (hstream t), ?_, ?_⟩
  · intro t' ht
    have hsame : t'.exchange sent = t.exchange sent := by
      unfold Transport.exchange Unary.deferred
      rw [ht]
    refine Client.unary_congr rfl ((hunary t').trans ?_)
    rw [hsame]
    exact (hunary t).symm
  · intro t' ht
    have hsame : t'.opening opened = t.opening opened := by
      unfold Transport.opening
      rw [ht]
    refine Client.stream_congr rfl ((hstream t').trans ?_)
    rw [hsame]
    exact (hstream t).symm

/-- A name with two header layers, one with none, and the name of the codec itself. -/
theorem transport_receives_repeated :
    let config : ClientConfig := { ClientConfig.standard with
      compression := "gzip", rate := 1, burst := 1, retryOnRateLimit := true }
    let headers : Headers :=
      [(⟨"x-a"⟩, .ofVisible "1"), (encodingName, .ofVisible "2"), (⟨"x-a"⟩, .ofVisible "3")]
    let m : Metadata := [(⟨"x-a"⟩, [.ofVisible "4", .ofVisible "5"]),
      (⟨"x-b"⟩, [.ofVisible "6", .ofVisible "7"])]
    ∃ o v, config.dial (.resolving fun _ => .ok .insecure) (headerLayers headers)
        (headerLayers headers) (.ofSeconds 20 10) .initial = (.ok o, v) ∧
      let received := stampEncoding (m.given headers) o.callOptions
      received.values ⟨"x-a"⟩ = [.ofVisible "3"] ∧
        received.values ⟨"x-b"⟩ = [.ofVisible "6", .ofVisible "7"] ∧
        received.values encodingName = [.ofVisible "gzip"] := by
  intro config headers m
  have hvalid : config.validate = .ok () :=
    ClientConfig.validate_of_isOk (by decide +kernel)
  obtain ⟨v, hdial⟩ : ∃ v, config.dial (.resolving fun _ => .ok .insecure) (headerLayers headers)
      (headerLayers headers) (.ofSeconds 20 10) .initial = (.ok _, v) :=
    ClientConfig.dial_of_valid hvalid rfl rfl
  obtain ⟨-, hreceived, -⟩ := transport_receives hdial
  have hm := hreceived m
  refine ⟨_, v, hdial, ?_, ?_, ?_⟩
  · exact hm.last ⟨"x-a"⟩ _ [(⟨"x-a"⟩, .ofVisible "1"), (encodingName, .ofVisible "2")] []
      (Or.inl (by decide)) rfl (List.forall_mem_nil _)
  · exact hm.kept ⟨"x-b"⟩ (Or.inl (by decide)) (by decide)
  · exact hm.codec (by decide)

end Dialed

end RpcPolicy
