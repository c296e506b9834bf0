import RpcPolicy.Security.Resolution
/-! Texts that show every part of the security of a connection, with the cryptography it uses. -/

namespace RpcPolicy

namespace Cryptography

/-- The cipher suites, the preferred ones first. -/
def cipherSuites : List String :=
  ["TLS13_AES_256_GCM_SHA384", "TLS13_AES_128_GCM_SHA256", "TLS13_CHACHA20_POLY1305_SHA256",
    "TLS_ECDHE_ECDSA_WITH_AES_256_GCM_SHA384", "TLS_ECDHE_ECDSA_WITH_AES_128_GCM_SHA256",
    "TLS_ECDHE_ECDSA_WITH_CHACHA20_POLY1305_SHA256", "TLS_ECDHE_RSA_WITH_AES_256_GCM_SHA384",
    "TLS_ECDHE_RSA_WITH_AES_128_GCM_SHA256", "TLS_ECDHE_RSA_WITH_CHACHA20_POLY1305_SHA256"]

/-- The groups in which keys are exchanged, the preferred ones first. -/
def keyGroups : List String :=
  ["X25519", "secp256r1", "secp384r1"]

/-- The schemes of signatures, the preferred ones first. -/
def signatureSchemes : List String :=
  ["ECDSA_NISTP384_SHA384", "ECDSA_NISTP256_SHA256", "ED25519", "RSA_PSS_SHA512",
    "RSA_PSS_SHA384", "RSA_PSS_SHA256", "RSA_PKCS1_SHA512", "RSA_PKCS1_SHA384",
    "RSA_PKCS1_SHA256"]

/-- The text that shows how signatures are checked. -/
def signatureText : String :=
  Text.record "WebPkiSupportedAlgorithms"
    [("all", "[ .. ]"), ("mapping", Text.bracketed signatureSchemes)] false

/-- The text that shows every part. -/
def structureText : String :=
  Text.record "CryptoProvider"
    [("cipher_suites", Text.bracketed cipherSuites), ("kx_groups", Text.bracketed keyGroups),
      ("signature_verification_algorithms", signatureText), ("secure_random", "Ring"),
      ("key_provider", "Ring")] false

end Cryptography

/-- The text that shows a check against some count of trusted certificates. -/
def rootsText (count : Nat) : String :=
  Text.record "WebPkiServerVerifier"
    [("roots",
        Text.record "RootCertStore"
          [("roots", Text.quoted ("(" ++ toString count ++ " roots)"))] false),
      ("crls", "[]"), ("revocation_check_depth", "Chain"), ("unknown_revocation_policy", "Allow"),
      ("revocation_expiration_policy", "Ignore"), ("supported", Cryptography.signatureText)] false

/-- The text that shows how a server is judged; the certificates of the platform do not count. -/
def Trust.structureText : Trust → String
  | anyone => Text.record "AcceptAnyServerCert" [("algorithms", Cryptography.signatureText)] false
  | roots certificates => rootsText certificates.length
  | platform => rootsText 0

/-- The text that shows every part, those that are always the same among them. -/
def TlsConfig.structureText (c : TlsConfig) : String :=
  let protocol (name : String) : String :=
    Text.bracketed (name.toUTF8.toList.map fun b => toString b.toNat)
  let resumption :=
    Text.record "Resumption"
      [("store", "ClientSessionMemoryCache"), ("tls12_resumption", "SessionIdOrTickets")] false
  let entries := Text.record "Mutex" [("data", "[]"), ("poisoned", "false")] true
  let cache := Text.record "CompressionCacheInner" [("size", "4"), ("entries", entries)] false
  Text.record "ClientConfig"
    [("alpn_protocols", Text.bracketed (c.protocols.map protocol)),
      ("check_selected_alpn", "true"), ("resumption", resumption), ("max_fragment_size", "None"),
      ("client_auth_cert_resolver",
        if c.identity.isSome then "SingleCertAndKey" else "FailResolveClientCert"),
      ("enable_sni", "true"), ("key_log", "NoKeyLog"), ("enable_secret_extraction", "false"),
      ("enable_early_data", "false"), ("require_ems", "false"),
      ("time_provider", "DefaultTimeProvider"), ("provider", Cryptography.structureText),
      ("versions", Text.bracketed (c.versions.map TlsVersion.wireName)),
      ("verifier", c.trust.structureText), ("cert_decompressors", "[]"),
      ("cert_compressors", "[]"), ("cert_compression_cache", Text.wrapped "Enabled" cache),
      ("ech_mode", "None"), ("send_ticket_request", "None")] false

/-- The text that shows every part. -/
def TransportSecurity.structureText : TransportSecurity → String
  | insecure => "Insecure"
  | tls config serverName =>
    Text.record "Tls"
      [("config", config.structureText),
        ("server_name", Text.optional (serverName.map Text.quoted))] false

end RpcPolicy
