import RpcPolicy.Config.Document
import RpcPolicy.Proofs.Json.RoundTrip
/-! Configurations and their documents. Main statement: the document of a configuration with finite
numbers reads back as the configuration, to the last bit of its numbers. -/

namespace RpcPolicy

namespace Json

variable {lib : Library} {α : Type} {members : List (JsonText × Json)} {key : String}
  {read : Json → Option α} {absent : α}

/-! ### Reading single values -/

theorem natBelow?_nat {bound n : Nat} (h : n < bound) : natBelow? bound (.nat n) = some n := by
  simp [natBelow?, nat, Numeral.ofNat, Numeral.toNat?, h]

theorem uint32?_nat (n : UInt32) : uint32? (.nat n.toNat) = some n := by
  simp [uint32?, natBelow?_nat n.toNat_lt]

theorem uint64?_nat (n : UInt64) : uint64? (.nat n.toNat) = some n := by
  simp [uint64?, natBelow?_nat n.toNat_lt]

/-- A double is read as whatever double its numeral is. -/
theorem binary64?_ofBinary64 {x y : Binary64} (h : x.isFinite = true)
    (hread : lib.double? (lib.numeral x) = some y) :
    binary64? lib (.ofBinary64 lib x) = some y := by
  rw [ofBinary64, if_pos h, binary64?, hread]

theorem writes_ofBinary64 {x : Binary64} (h : x.isFinite = true) :
    lib.Writes (.ofBinary64 lib x) := by
  rw [ofBinary64, if_pos h]
  exact .double h

/-! ### Reading members -/

/-- The members with the given key. -/
def under (members : List (JsonText × Json)) (key : String) : List (JsonText × Json) :=
  members.filter fun m => m.1 = some key

theorem under_append (ms ns : List (JsonText × Json)) (key : String) :
    under (ms ++ ns) key = under ms key ++ under ns key :=
  List.filter_append ..

theorem under_cons (name key : String) (j : Json) (ms : List (JsonText × Json)) :
    under ((some name, j) :: ms) key =
      if name = key then (some name, j) :: under ms key else under ms key := by
  simp [under, List.filter_cons]

/-- All members made from the same key are under it, and under no other. -/
theorem under_map (name key : String) (write : α → Json) (values : List α) :
    under (values.map fun a => (some name, write a)) key =
      if name = key then values.map fun a => (some key, write a) else [] := by
  induction values with
  | nil => simp [under]
  | cons a values ih =>
    rw [List.map_cons, under_cons, ih]
    by_cases h : name = key <;> simp [h]

/-- A key that stands once is read. -/
theorem field?_once {j : Json} (h : under members key = [(some key, j)]) :
    field? members key read absent = read j := by
  unfold under at h
  simp [field?, member?, h]

/-- What may be left out is read as it was written. -/
theorem field?_optional {value : Option α} {w : α → Json}
    (h : under members key = value.toList.map fun a => (some key, w a))
    (hread : ∀ a, optional? read (w a) = some (some a)) :
    field? members key (optional? read) none = some value := by
  unfold under at h
  cases value with
  | none => simp [field?, member?, h]
  | some a => simp [field?, member?, h, hread a]

theorem field?_text {value : Option String}
    (h : under members key = value.toList.map fun s => (some key, .text s)) :
    field? members key (optional? text?) none = some value :=
  field?_optional h fun _ => rfl

end Json

namespace Duration

variable (d : Duration)

theorem subsecond_lt_word : d.subsecond < 2 ^ 32 :=
  Nat.lt_trans d.subsecond_lt (by decide)

theorem writes_toJson {lib : Json.Library} : lib.Writes d.toJson := by
  have hsecs : lib.Writes (.nat d.seconds) := .nat d.seconds_lt
  have hnanos : lib.Writes (.nat d.subsecond) :=
    .nat (Nat.lt_trans d.subsecond_lt_word (by decide))
  refine .fields ?_
  simp [hsecs, hnanos]

/-- A length is the sum of its parts. -/
theorem ofParts?_parts :
    ofParts? (UInt64.ofNat d.seconds) (UInt32.ofNat d.subsecond) = some d := by
  have hsplit : d.seconds * nanosPerSecond + d.subsecond = d.nanos := Nat.div_add_mod' ..
  simp only [ofParts?, UInt64.toNat_ofNat_of_lt' d.seconds_lt,
    UInt32.toNat_ofNat_of_lt' d.subsecond_lt_word, hsplit, ofNanos?, d.nanos_lt, dite_true]

theorem ofJson?_parts (secs nanos : Json) :
    ofJson? (.object [(some "secs", secs), (some "nanos", nanos)]) =
      secs.uint64?.bind fun s => nanos.uint32?.bind fun n => ofParts? s n := by
  simp [ofJson?, Json.member?]

theorem ofJson?_toJson : ofJson? d.toJson = some d := by
  have hsecs : Json.uint64? (.nat d.seconds) = some (UInt64.ofNat d.seconds) := by
    rw [Json.uint64?, Json.natBelow?_nat d.seconds_lt, Option.map_some]
  have hnanos : Json.uint32? (.nat d.subsecond) = some (UInt32.ofNat d.subsecond) := by
    rw [Json.uint32?, Json.natBelow?_nat d.subsecond_lt_word, Option.map_some]
  have hfields : d.toJson =
      .object [(some "secs", .nat d.seconds), (some "nanos", .nat d.subsecond)] := rfl
  rw [hfields, ofJson?_parts, hsecs, hnanos, Option.bind_some, Option.bind_some, ofParts?_parts]

end Duration

namespace BackoffPolicy

variable {lib : Json.Library} {p : BackoffPolicy} {x : Binary64}

theorem writes_toJson (h : p.jitter.isFinite = true) : lib.Writes (p.toJson lib) := by
  have hretries : lib.Writes (.nat p.maxRetries.toNat) :=
    .nat (Nat.lt_trans p.maxRetries.toNat_lt (by decide))
  refine .fields ?_
  simp [hretries, Json.writes_ofBinary64 h, Duration.writes_toJson]

theorem ofJson?_toJson (h : p.jitter.isFinite = true)
    (hread : lib.double? (lib.numeral p.jitter) = some x) :
    ofJson? lib (p.toJson lib) = some { p with jitter := x } := by
  simp [toJson, Json.ofFields, ofJson?, Json.namesSound, Json.field?, Json.member?,
    Duration.ofJson?_toJson, Json.uint32?_nat, Json.binary64?_ofBinary64 h hread]

end BackoffPolicy

namespace TlsMaterial

variable (t : TlsMaterial)

/-- The members of a document that hold the material. -/
def members : List (JsonText × Json) := t.fields.map fun f => (some f.1, f.2)

theorem members_eq :
    t.members =
      (t.certPath.toList.map fun s => (some "tls_cert_path", .text s)) ++
      (t.keyPath.toList.map fun s => (some "tls_key_path", .text s)) ++
      (t.caPath.toList.map fun s => (some "tls_ca_path", .text s)) ++
      (t.serverName.toList.map fun s => (some "tls_server_name", .text s)) ++
      [(some "tls_insecure_skip_verify", .bool t.skipVerify)] ++
      (t.minVersion.toList.map fun v => (some "tls_min_version", .text v.documentName)) := by
  cases hv : t.minVersion <;> simp [members, fields, hv, Function.comp_def]

/-- The keys of the material. -/
def keys : List String :=
  ["tls_cert_path", "tls_key_path", "tls_ca_path", "tls_server_name", "tls_insecure_skip_verify",
    "tls_min_version"]

variable {t} {m : JsonText × Json}

/-- Every member of the material has one of its keys and is a text or a flag. -/
theorem mem_members (hm : m ∈ t.members) :
    (∃ key ∈ keys, m.1 = some key) ∧ ((∃ s, m.2 = .text s) ∨ ∃ b, m.2 = .bool b) := by
  simp only [members_eq, List.mem_append, List.mem_map, List.mem_singleton] at hm
  rcases hm with ((((⟨s, -, rfl⟩ | ⟨s, -, rfl⟩) | ⟨s, -, rfl⟩) | ⟨s, -, rfl⟩) | rfl) | ⟨v, -, rfl⟩
  · exact ⟨⟨_, by simp [keys], rfl⟩, Or.inl ⟨s, rfl⟩⟩
  · exact ⟨⟨_, by simp [keys], rfl⟩, Or.inl ⟨s, rfl⟩⟩
  · exact ⟨⟨_, by simp [keys], rfl⟩, Or.inl ⟨s, rfl⟩⟩
  · exact ⟨⟨_, by simp [keys], rfl⟩, Or.inl ⟨s, rfl⟩⟩
  · exact ⟨⟨_, by simp [keys], rfl⟩, Or.inr ⟨_, rfl⟩⟩
  · exact ⟨⟨_, by simp [keys], rfl⟩, Or.inl ⟨_, rfl⟩⟩

theorem writes_of_mem {lib : Json.Library} (hm : m ∈ t.members) : lib.Writes m.2 := by
  rcases (mem_members hm).2 with ⟨s, hs⟩ | ⟨b, hb⟩
  · rw [hs]
    exact .text s
  · rw [hb]
    exact .bool b

theorem isSound_of_mem (lib : Json.Library) (depth : Nat) (hm : m ∈ t.members) :
    m.2.isSound lib depth = true := by
  rcases (mem_members hm).2 with ⟨s, hs⟩ | ⟨b, hb⟩
  · rw [hs]
    rfl
  · rw [hb]
    rfl

variable (t)

theorem ofMembers?_members : ofMembers? Json.heldCase? t.members = some t := by
  have hcert : Json.field? t.members "tls_cert_path" (Json.optional? Json.text?) none =
      some t.certPath := by
    apply Json.field?_text
    simp [members_eq, Json.under_append, Json.under_map, Json.under_cons]
  have hkey : Json.field? t.members "tls_key_path" (Json.optional? Json.text?) none =
      some t.keyPath := by
    apply Json.field?_text
    simp [members_eq, Json.under_append, Json.under_map, Json.under_cons]
  have hca : Json.field? t.members "tls_ca_path" (Json.optional? Json.text?) none =
      some t.caPath := by
    apply Json.field?_text
    simp [members_eq, Json.under_append, Json.under_map, Json.under_cons]
  have hname : Json.field? t.members "tls_server_name" (Json.optional? Json.text?) none =
      some t.serverName := by
    apply Json.field?_text
    simp [members_eq, Json.under_append, Json.under_map, Json.under_cons]
  have hskip : Json.field? t.members "tls_insecure_skip_verify" Json.bool? false =
      some t.skipVerify := by
    refine Json.field?_once (j := .bool t.skipVerify) ?_
    simp [members_eq, Json.under_append, Json.under_map, Json.under_cons]
  have hversion : Json.field? t.members "tls_min_version"
      (Json.optional? fun j => (Json.heldCase? j).bind TlsVersion.ofDocumentName?) none =
        some t.minVersion := by
    refine Json.field?_optional (w := fun v => .text v.documentName) ?_ ?_
    · simp [members_eq, Json.under_append, Json.under_map, Json.under_cons]
    · intro v
      cases v <;> rfl
  simp [ofMembers?, hcert, hkey, hca, hname, hskip, hversion]

end TlsMaterial

namespace ClientConfig

variable (lib : Json.Library) (c : ClientConfig)

/-- The members of a document that are the configuration's own. -/
def ownMembers : List (JsonText × Json) :=
  [(some "max_recv_msg_size", .nat c.maxReceive.toNat),
    (some "max_send_msg_size", .nat c.maxSend.toNat),
    (some "grpc_compression", .text c.compression), (some "rate_limit", .ofBinary64 lib c.rate),
    (some "rate_limit_burst", .nat c.burst.toNat),
    (some "backoff_on_ratelimits", .bool c.retryOnRateLimit),
    (some "backoff_config", c.backoff.toJson lib), (some "tls_enabled", .bool c.tlsEnabled)]

/-- All members of a document of the configuration. -/
def members : List (JsonText × Json) := c.ownMembers lib ++ c.tls.members

theorem toJson_eq : c.toJson lib = .object (c.members lib) := by
  simp [toJson, Json.ofFields, members, ownMembers, TlsMaterial.members]

variable {lib c} {m : JsonText × Json} {key : String} {x y : Binary64}

theorem names_members (hm : m ∈ c.members lib) : m.1.isSome = true := by
  rcases List.mem_append.mp hm with hown | htls
  · simp only [ownMembers, List.mem_cons, List.not_mem_nil, or_false] at hown
    rcases hown with rfl | rfl | rfl | rfl | rfl | rfl | rfl | rfl <;> rfl
  · obtain ⟨⟨key, -, hkey⟩, -⟩ := TlsMaterial.mem_members htls
    rw [hkey]
    rfl

theorem writes_toJson (hrate : c.rate.isFinite = true)
    (hjitter : c.backoff.jitter.isFinite = true) : lib.Writes (c.toJson lib) := by
  have hburst : c.burst.toNat < 2 ^ 64 := Nat.lt_trans c.burst.toNat_lt (by decide)
  have htls : ∀ f ∈ c.tls.fields, lib.Writes f.2 := fun f hf =>
    TlsMaterial.writes_of_mem (m := (some f.1, f.2)) (List.mem_map_of_mem hf)
  refine .fields fun f hf => ?_
  rcases List.mem_append.mp hf with hown | hf
  · simp only [List.mem_cons, List.not_mem_nil, or_false] at hown
    rcases hown with rfl | rfl | rfl | rfl | rfl | rfl | rfl | rfl
    · exact .nat c.maxReceive.toNat_lt
    · exact .nat c.maxSend.toNat_lt
    · exact .text _
    · exact Json.writes_ofBinary64 hrate
    · exact .nat hburst
    · exact .bool _
    · exact BackoffPolicy.writes_toJson hjitter
    · exact .bool _
  · exact htls f hf

/-- The two groups of keys have nothing in common. -/
theorem not_mem_ownKeys : ∀ key ∈ TlsMaterial.keys, key ∉ ownKeys := by decide

/-- The members of the transport security material are held, the others are not. -/
theorem held_members : (c.members lib).filter (fun m => !isOwn m) = c.tls.members := by
  have hown : (c.ownMembers lib).filter (fun m => !isOwn m) = [] := by
    simp [ownMembers, isOwn, ownKeys]
  have htls : c.tls.members.filter (fun m => !isOwn m) = c.tls.members := by
    rw [List.filter_eq_self]
    intro m hm
    obtain ⟨⟨key, hkey, hname⟩, -⟩ := TlsMaterial.mem_members hm
    have hnot := not_mem_ownKeys key hkey
    simp only [isOwn, hname, Bool.not_eq_true', List.any_eq_false, decide_eq_true_eq,
      Option.some.injEq]
    rintro k hk rfl
    exact hnot hk
  rw [members, List.filter_append, hown, htls, List.nil_append]

/-- Under a key of its own a document has the configuration's own members only. -/
theorem under_members (hkey : key ∈ ownKeys) :
    Json.under (c.members lib) key = Json.under (c.ownMembers lib) key := by
  have htls : Json.under c.tls.members key = [] := by
    unfold Json.under
    rw [List.filter_eq_nil_iff]
    intro m hm
    obtain ⟨⟨k, hk, hname⟩, -⟩ := TlsMaterial.mem_members hm
    have hnot := not_mem_ownKeys k hk
    simp only [hname, decide_eq_true_eq, Option.some.injEq]
    rintro rfl
    exact hnot hkey
  rw [members, Json.under_append, htls, List.append_nil]

/-- A member of its own that is read as it was written. -/
theorem field?_own {α : Type} {read : Json → Option α} {absent a : α} {j : Json}
    (hkey : key ∈ ownKeys) (h : Json.under (c.ownMembers lib) key = [(some key, j)])
    (hread : read j = some a) : Json.field? (c.members lib) key read absent = some a := by
  rw [Json.field?_once (h ▸ under_members hkey), hread]

/-- All fields of a configuration are read as they were written, and its two doubles as whatever
doubles their numerals are. -/
theorem ofJson?_toJson (hrate : c.rate.isFinite = true) (hjitter : c.backoff.jitter.isFinite = true)
    (hx : lib.double? (lib.numeral c.rate) = some x)
    (hy : lib.double? (lib.numeral c.backoff.jitter) = some y) :
    ofJson? lib (c.toJson lib) =
      some { c with rate := x, backoff := { c.backoff with jitter := y } } := by
  have hnames : Json.namesSound (c.members lib) = true := by
    simp only [Json.namesSound, List.all_eq_true]
    intro m hm
    exact names_members hm
  have hsound : c.tls.members.all (fun m => m.2.isSound lib heldDepth) = true := by
    simp only [List.all_eq_true]
    intro m hm
    exact TlsMaterial.isSound_of_mem lib heldDepth hm
  have hreceive : Json.field? (c.members lib) "max_recv_msg_size" Json.uint64? standard.maxReceive =
      some c.maxReceive :=
    field?_own (by decide) (by simp [ownMembers, Json.under]) (Json.uint64?_nat _)
  have hsend : Json.field? (c.members lib) "max_send_msg_size" Json.uint64? standard.maxSend =
      some c.maxSend :=
    field?_own (by decide) (by simp [ownMembers, Json.under]) (Json.uint64?_nat _)
  have hcodec : Json.field? (c.members lib) "grpc_compression" Json.text? standard.compression =
      some c.compression :=
    field?_own (j := .text _) (by decide) (by simp [ownMembers, Json.under]) rfl
  have hlimit : Json.field? (c.members lib) "rate_limit" (Json.binary64? lib) standard.rate =
      some x :=
    field?_own (by decide) (by simp [ownMembers, Json.under]) (Json.binary64?_ofBinary64 hrate hx)
  have hburst : Json.field? (c.members lib) "rate_limit_burst" Json.uint32? standard.burst =
      some c.burst :=
    field?_own (by decide) (by simp [ownMembers, Json.under]) (Json.uint32?_nat _)
  have hretry : Json.field? (c.members lib) "backoff_on_ratelimits" Json.bool?
      standard.retryOnRateLimit = some c.retryOnRateLimit :=
    field?_own (j := .bool _) (by decide) (by simp [ownMembers, Json.under]) rfl
  have hbackoff : Json.field? (c.members lib) "backoff_config" (BackoffPolicy.ofJson? lib)
      standard.backoff = some { c.backoff with jitter := y } :=
    field?_own (by decide) (by simp [ownMembers, Json.under])
      (BackoffPolicy.ofJson?_toJson hjitter hy)
  have henabled : Json.field? (c.members lib) "tls_enabled" Json.bool? standard.tlsEnabled =
      some c.tlsEnabled :=
    field?_own (j := .bool _) (by decide) (by simp [ownMembers, Json.under]) rfl
  simp [toJson_eq, ofJson?, held_members, hnames, hsound, hreceive, hsend, hcodec, hlimit, hburst,
    hretry, hbackoff, henabled, TlsMaterial.ofMembers?_members]

end ClientConfig

end RpcPolicy
