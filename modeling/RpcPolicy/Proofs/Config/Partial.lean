import RpcPolicy.Proofs.Config.Fields
/-! Configurations in documents with some of their fields. Main statement: a document gives the
standard configuration with the values of its fields, whatever their order and whatever unknown
members there are, and nothing if it repeats a field. -/

namespace RpcPolicy

open Json.Setting (Interspersed)

variable {lib : Json.Library} {members : List (JsonText × Json)}

namespace BackoffPolicy

/-- The fields of a policy. -/
def knownFields (lib : Json.Library) : List (Json.Field BackoffPolicy) :=
  [⟨"min_period", Duration, Duration.ofJson?, minDelay, fun v p => { p with minDelay := v }⟩,
    ⟨"max_period", Duration, Duration.ofJson?, maxDelay, fun v p => { p with maxDelay := v }⟩,
    ⟨"max_retries", UInt32, Json.uint32?, maxRetries, fun v p => { p with maxRetries := v }⟩,
    ⟨"jitter", Binary64, Json.binary64? lib, jitter, fun v p => { p with jitter := v }⟩]

theorem keys_knownFields : Json.Field.keys (knownFields lib) =
    ["min_period", "max_period", "max_retries", "jitter"] := rfl

theorem knownFields_separate : Json.Field.Separate (knownFields lib) where
  keys := by
    rw [keys_knownFields]
    decide
  get_set := by simp [knownFields]
  get_set_other := by simp [knownFields]

/-- A policy is read field by field. -/
theorem ofJson?_object {p : BackoffPolicy} : ofJson? lib (.object members) = some p ↔
    Json.namesSound members = true ∧ ∀ f ∈ knownFields lib, f.Reads members standard p := by
  obtain ⟨minDelay, maxDelay, maxRetries, jitter⟩ := p
  cases hnames : Json.namesSound members with
  | false => simp [ofJson?, hnames]
  | true => simp [ofJson?, hnames, knownFields, Json.Field.Reads, Option.bind_eq_some_iff]

theorem readsPartially_knownFields :
    Json.ReadsPartially (knownFields lib) standard (fun _ => True) (ofJson? lib) :=
  Json.readsPartially_of_object knownFields_separate (fun _ _ => ofJson?_object)
    fun _ _ h => h.namesSound

end BackoffPolicy

namespace Json

variable {α : Type} {j : Json} {depth : Nat}

theorem isSound_of_text? {s : String} (h : j.text? = some s) : j.isSound lib depth = true := by
  cases j with
  | string t =>
    obtain rfl : t = some s := h
    rfl
  | _ => cases h

theorem isSound_of_bool? {b : Bool} (h : j.bool? = some b) : j.isSound lib depth = true := by
  cases j with
  | bool _ => rfl
  | _ => cases h

/-- At most two containers lie within each other in what is read as the name of a case. -/
theorem isSound_of_heldCase? {s : String} (h : j.heldCase? = some s) :
    j.isSound lib (depth + 2) = true := by
  unfold heldCase? case? at h
  split at h
  · subst h
    rfl
  · split at h
    · subst h
      rfl
    · subst h
      rfl
    · cases h

theorem isSound_of_optional? {read : Json → Option α} {a : Option α}
    (hread : ∀ j a, read j = some a → j.isSound lib depth = true) (h : optional? read j = some a) :
    j.isSound lib depth = true := by
  unfold optional? at h
  split at h
  · rfl
  · obtain ⟨b, hb, -⟩ := Option.map_eq_some_iff.mp h
    exact hread j b hb

end Json

namespace TlsMaterial

/-- The fields of the material as they stand in the document of a configuration. -/
def knownFields : List (Json.Field TlsMaterial) :=
  let path (key : String) (get : TlsMaterial → Option String)
      (set : Option String → TlsMaterial → TlsMaterial) : Json.Field TlsMaterial :=
    ⟨key, Option String, Json.optional? Json.text?, get, set⟩
  [path "tls_cert_path" certPath fun v t => { t with certPath := v },
    path "tls_key_path" keyPath fun v t => { t with keyPath := v },
    path "tls_ca_path" caPath fun v t => { t with caPath := v },
    path "tls_server_name" serverName fun v t => { t with serverName := v },
    ⟨"tls_insecure_skip_verify", Bool, Json.bool?, skipVerify,
      fun v t => { t with skipVerify := v }⟩,
    ⟨"tls_min_version", Option TlsVersion,
      Json.optional? fun j => j.heldCase?.bind TlsVersion.ofDocumentName?, minVersion,
      fun v t => { t with minVersion := v }⟩]

/-- The material is read field by field. -/
theorem ofMembers?_eq_some {t : TlsMaterial} : ofMembers? Json.heldCase? members = some t ↔
    ∀ f ∈ knownFields, f.Reads members empty t := by
  obtain ⟨certPath, keyPath, caPath, serverName, skipVerify, minVersion⟩ := t
  simp [ofMembers?, knownFields, Json.Field.Reads, empty, Option.bind_eq_some_iff,
    -Bool.exists_bool]

/-- What is read as a value of the material can be held. -/
theorem isSound_of_read {f : Json.Field TlsMaterial} (hf : f ∈ knownFields) {j : Json}
    {v : f.Value} (h : f.read j = some v) : j.isSound lib ClientConfig.heldDepth = true := by
  have hpath : ∀ j (a : Option String), Json.optional? Json.text? j = some a →
      j.isSound lib ClientConfig.heldDepth = true :=
    fun j a => Json.isSound_of_optional? fun j s => Json.isSound_of_text?
  simp only [knownFields, List.mem_cons, List.not_mem_nil, or_false] at hf
  rcases hf with rfl | rfl | rfl | rfl | rfl | rfl
  · exact hpath j v h
  · exact hpath j v h
  · exact hpath j v h
  · exact hpath j v h
  · exact Json.isSound_of_bool? h
  · refine Json.isSound_of_optional? (fun j s hs => ?_) h
    obtain ⟨name, hname, -⟩ := Option.bind_eq_some_iff.mp hs
    exact Json.isSound_of_heldCase? hname

end TlsMaterial

namespace ClientConfig

/-- A field of the material as one of the configuration. -/
def inlined (f : Json.Field TlsMaterial) : Json.Field ClientConfig where
  key := f.key
  Value := f.Value
  read := f.read
  get c := f.get c.tls
  set v c := { c with tls := f.set v c.tls }

/-- The fields that are the configuration's own. -/
def ownFields (lib : Json.Library) : List (Json.Field ClientConfig) :=
  [⟨"max_recv_msg_size", UInt64, Json.uint64?, maxReceive, fun v c => { c with maxReceive := v }⟩,
    ⟨"max_send_msg_size", UInt64, Json.uint64?, maxSend, fun v c => { c with maxSend := v }⟩,
    ⟨"grpc_compression", String, Json.text?, compression, fun v c => { c with compression := v }⟩,
    ⟨"rate_limit", Binary64, Json.binary64? lib, rate, fun v c => { c with rate := v }⟩,
    ⟨"rate_limit_burst", UInt32, Json.uint32?, burst, fun v c => { c with burst := v }⟩,
    ⟨"backoff_on_ratelimits", Bool, Json.bool?, retryOnRateLimit,
      fun v c => { c with retryOnRateLimit := v }⟩,
    ⟨"backoff_config", BackoffPolicy, BackoffPolicy.ofJson? lib, backoff,
      fun v c => { c with backoff := v }⟩,
    ⟨"tls_enabled", Bool, Json.bool?, tlsEnabled, fun v c => { c with tlsEnabled := v }⟩]

/-- The fields of a configuration, those of the transport security material among them. -/
def knownFields (lib : Json.Library) : List (Json.Field ClientConfig) :=
  ownFields lib ++ TlsMaterial.knownFields.map inlined

theorem keys_knownFields :
    Json.Field.keys (knownFields lib) = ownKeys ++ Json.Field.keys TlsMaterial.knownFields := rfl

theorem knownFields_separate : Json.Field.Separate (knownFields lib) where
  keys := by
    rw [keys_knownFields]
    decide
  get_set := by simp [knownFields, ownFields, TlsMaterial.knownFields, inlined]
  get_set_other := by simp [knownFields, ownFields, TlsMaterial.knownFields, inlined]

/-- The members that are held. -/
def held (members : List (JsonText × Json)) : List (JsonText × Json) :=
  members.filter fun m => !isOwn m

theorem isOwn_iff {m : JsonText × Json} : isOwn m = true ↔ ∃ key ∈ ownKeys, m.1 = some key := by
  simp [isOwn]

/-- Under a key that is not its own, a configuration holds everything. -/
theorem under_held {key : String} (h : key ∉ ownKeys) :
    Json.under (held members) key = Json.under members key := by
  unfold Json.under held
  rw [List.filter_filter]
  refine List.filter_congr fun m hm => ?_
  by_cases hkey : m.1 = some key
  · have hown : isOwn m = false := by
      rw [Bool.eq_false_iff, Ne, isOwn_iff]
      rintro ⟨own, hmem, heq⟩
      cases hkey.symm.trans heq
      exact h hmem
    simp [hkey, hown]
  · simp [hkey]

theorem key_not_mem_ownKeys : ∀ f ∈ TlsMaterial.knownFields, f.key ∉ ownKeys := by
  decide

/-- It does not show that a field of the material is read out of what is held. -/
theorem inlined_reads {f : Json.Field TlsMaterial} (hf : f ∈ TlsMaterial.knownFields)
    {c : ClientConfig} :
    (inlined f).Reads members standard c ↔ f.Reads (held members) .empty c.tls := by
  have hunder : Json.under (held members) f.key = Json.under members f.key :=
    under_held (key_not_mem_ownKeys f hf)
  unfold Json.Field.Reads
  rw [Json.field?_congr hunder]
  rfl

/-- The objects out of which configurations are read. -/
structure Admits (lib : Json.Library) (members : List (JsonText × Json)) : Prop where
  names : Json.namesSound members = true
  held : (held members).all (fun m => m.2.isSound lib heldDepth) = true

theorem admits_of_ofJson? {c : ClientConfig} (h : ofJson? lib (.object members) = some c) :
    Admits lib members := by
  cases hnames : Json.namesSound members with
  | false => simp [ofJson?, hnames] at h
  | true =>
    cases hheld : (members.filter fun m => !isOwn m).all fun m => m.2.isSound lib heldDepth with
    | false => simp [ofJson?, hnames, hheld] at h
    | true => exact ⟨hnames, hheld⟩

/-- A configuration is read field by field. -/
theorem ofJson?_object {c : ClientConfig} : ofJson? lib (.object members) = some c ↔
    Admits lib members ∧ ∀ f ∈ knownFields lib, f.Reads members standard c := by
  have hfields : (∀ f ∈ knownFields lib, f.Reads members standard c) ↔
      (∀ f ∈ ownFields lib, f.Reads members standard c) ∧
        TlsMaterial.ofMembers? Json.heldCase? (held members) = some c.tls := by
    rw [TlsMaterial.ofMembers?_eq_some, knownFields, List.forall_mem_append, List.forall_mem_map]
    exact and_congr_right fun _ => forall₂_congr fun f hf => inlined_reads hf
  rw [hfields]
  obtain ⟨maxReceive, maxSend, compression, rate, burst, retryOnRateLimit, backoff, tlsEnabled,
    tls⟩ := c
  by_cases hadmits : Admits lib members
  · have hheld := hadmits.held
    unfold held at hheld
    simp [hadmits, ofJson?, hadmits.names, hheld, held, ownFields, Json.Field.Reads,
      Option.bind_eq_some_iff, and_assoc, -Bool.exists_bool]
  · exact iff_of_false (fun h => hadmits (admits_of_ofJson? h)) fun h => hadmits h.1

theorem admits_of_interspersed {order : List (Json.Setting (knownFields lib))}
    (h : Interspersed (fun j => j.isSound lib heldDepth = true) order members) :
    Admits lib members := by
  refine ⟨h.namesSound, List.all_eq_true.mpr fun m hm => ?_⟩
  obtain ⟨hm, hnot⟩ := List.mem_filter.mp hm
  rcases h.mem_cases hm with ⟨⟨field, known, j, value, reads⟩, -, rfl⟩ | ⟨name, j, rfl, -, hsound⟩
  · rcases List.mem_append.mp known with hown | hinlined
    · have hkey : field.key ∈ ownKeys := List.mem_map_of_mem (f := Json.Field.key) hown
      have hisOwn : isOwn (Json.Setting.member ⟨field, known, j, value, reads⟩) = true :=
        isOwn_iff.mpr ⟨field.key, hkey, rfl⟩
      rw [hisOwn] at hnot
      cases hnot
    · obtain ⟨f, hf, rfl⟩ := List.mem_map.mp hinlined
      exact TlsMaterial.isSound_of_read hf reads
  · exact hsound

theorem readsPartially_knownFields :
    Json.ReadsPartially (knownFields lib) standard (fun j => j.isSound lib heldDepth = true)
      (ofJson? lib) :=
  Json.readsPartially_of_object knownFields_separate (fun _ _ => ofJson?_object)
    fun _ _ => admits_of_interspersed

/-- Configurations, and the policies in them, are read out of documents with some of their fields.
What is ignored in a configuration has to be sound, as it is held. -/
theorem reads_partially (lib : Json.Library) :
    Json.ReadsPartially (knownFields lib) standard (fun j => j.isSound lib heldDepth = true)
      (ofJson? lib) ∧
    Json.ReadsPartially (BackoffPolicy.knownFields lib) .standard (fun _ => True)
      (BackoffPolicy.ofJson? lib) ∧
    ∀ text members, lib.read? text = some (.object members) →
      decode? lib text = ofJson? lib (.object members) := by
  refine ⟨readsPartially_knownFields, BackoffPolicy.readsPartially_knownFields, ?_⟩
  intro text members htext
  rw [decode?, htext, Option.bind_some]

/-- A codec, the name of a server and a policy with one field, in another order and with unknown
members; and the same with the name of the server twice. -/
theorem reads_partially_mixed :
    let note : JsonText × Json := (some "note", .array [.null])
    let policy : List (JsonText × Json) := [(some "hint", .null), (some "max_retries", .nat 2)]
    let members : List (JsonText × Json) :=
      [note, (some "tls_server_name", .text "api"), (some "backoff_config", .object policy), note,
        (some "grpc_compression", .text "gzip")]
    let c : ClientConfig := { standard with
      compression := "gzip"
      backoff := { BackoffPolicy.standard with maxRetries := 2 }
      tls := { TlsMaterial.empty with serverName := some "api" } }
    ofJson? .exact (.object members) = some c ∧
      decode? .exact (Json.Library.exact.write (.object members)) = some c ∧
      ofJson? .exact (.object ((some "tls_server_name", .null) :: members)) = none := by
  intro note policy members c
  obtain ⟨hconfig, hpolicy, htext⟩ := reads_partially .exact
  let retries : Json.Setting (BackoffPolicy.knownFields .exact) :=
    { field := _, known := .tail _ (.tail _ (.head _)), json := .nat 2, value := 2, reads := rfl }
  have hretries := hpolicy.listed [retries] (by decide) [retries] policy (.refl _)
    (.unknown (by decide) trivial (.known retries .nil))
  let codec : Json.Setting (knownFields .exact) :=
    { field := _, known := .tail _ (.tail _ (.head _)), json := .text "gzip", value := "gzip",
      reads := rfl }
  let backoff : Json.Setting (knownFields .exact) :=
    { field := _, known := .tail _ (.tail _ (.tail _ (.tail _ (.tail _ (.tail _ (.head _)))))),
      json := .object policy, value := _, reads := hretries }
  let name : Json.Setting (knownFields .exact) :=
    { field := _, known := List.mem_append_right _ (.tail _ (.tail _ (.tail _ (.head _)))),
      json := .text "api", value := some "api", reads := rfl }
  have hkeys : ["grpc_compression", "tls_server_name", "backoff_config"].Nodup := by decide
  have hnote : "note" ∉ Json.Field.keys (knownFields .exact) := by
    rw [keys_knownFields]
    decide
  have hread : ofJson? .exact (.object members) = some c :=
    hconfig.listed [codec, name, backoff] hkeys ([name, backoff] ++ [codec]) members
      (List.perm_append_singleton codec [name, backoff])
      (.unknown hnote rfl (.known name (.known backoff (.unknown hnote rfl (.known codec .nil)))))
  have hnull : (Json.array [.null]).Written := .array (by simp [Json.Written.null])
  have htwo : (Json.nat 2).Written := .number fun c hc => nomatch hc
  have hpolicy : (Json.object policy).Written :=
    .object (by simp [policy]) (by simp [policy, Json.Written.null, htwo])
  have hwritten : ∀ s, (Json.text s).Written := .text
  have hmembers : (Json.object members).Written :=
    .object (by simp [members, note]) (by simp [members, note, hnull, hpolicy, hwritten])
  exact ⟨hread, (htext _ members (Json.Library.read?_write hmembers)).trans hread,
    hconfig.repeated _ "tls_server_name" (by decide) (by decide)⟩

end ClientConfig

end RpcPolicy
