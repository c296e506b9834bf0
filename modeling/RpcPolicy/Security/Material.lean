import RpcPolicy.Json.Fields
import RpcPolicy.Text.Quoted
/-! The transport security settings of a client. -/

namespace RpcPolicy

/-- The lowest protocol version a client offers. -/
inductive TlsVersion where
  | tls12
  | tls13
deriving DecidableEq, Inhabited

namespace TlsVersion

/-- The name in documents. -/
def documentName : TlsVersion → String
  | tls12 => "VersionTLS12"
  | tls13 => "VersionTLS13"

/-- The name of the case. -/
def caseName : TlsVersion → String
  | tls12 => "Tls12"
  | tls13 => "Tls13"

/-- The number of the version. -/
def number : TlsVersion → String
  | tls12 => "1.2"
  | tls13 => "1.3"

/-- The name in diagnostics of a connection. -/
def wireName : TlsVersion → String
  | tls12 => "TLSv1_2"
  | tls13 => "TLSv1_3"

/-- The version of a name in documents. -/
def ofDocumentName? (s : String) : Option TlsVersion :=
  [tls12, tls13].find? fun v => v.documentName = s

end TlsVersion

/-- Where the certificates and keys of a connection are, and how its server is checked. -/
structure TlsMaterial where
  certPath : Option String
  keyPath : Option String
  caPath : Option String
  serverName : Option String
  skipVerify : Bool
  minVersion : Option TlsVersion
deriving DecidableEq

namespace TlsMaterial

/-- No material at all. -/
def empty : TlsMaterial :=
  ⟨none, none, none, none, false, none⟩

instance : Inhabited TlsMaterial := ⟨empty⟩

/-- Reads the fields out of the members of an object; names of cases are read with `version?`. -/
def ofMembers? (version? : Json → Option String) (members : List (JsonText × Json)) :
    Option TlsMaterial := do
  let path := Json.optional? Json.text?
  let certPath ← Json.field? members "tls_cert_path" path none
  let keyPath ← Json.field? members "tls_key_path" path none
  let caPath ← Json.field? members "tls_ca_path" path none
  let serverName ← Json.field? members "tls_server_name" path none
  let skipVerify ← Json.field? members "tls_insecure_skip_verify" Json.bool? false
  let minVersion ← Json.field? members "tls_min_version"
    (Json.optional? fun j => (version? j).bind TlsVersion.ofDocumentName?) none
  return ⟨certPath, keyPath, caPath, serverName, skipVerify, minVersion⟩

/-- Reads the material: an object with any of its fields, or an array of the first of them. -/
def ofJson? : Json → Option TlsMaterial
  | .object members =>
    if Json.namesSound members then ofMembers? Json.case? members else none
  | .array items => do
    if 6 < items.length then none
    let path := Json.optional? Json.text?
    let certPath ← Json.item? items 0 path none
    let keyPath ← Json.item? items 1 path none
    let caPath ← Json.item? items 2 path none
    let serverName ← Json.item? items 3 path none
    let skipVerify ← Json.item? items 4 Json.bool? false
    let minVersion ← Json.item? items 5
      (Json.optional? fun j => j.case?.bind TlsVersion.ofDocumentName?) none
    return ⟨certPath, keyPath, caPath, serverName, skipVerify, minVersion⟩
  | _ => none

/-- The members of the material; what is not set is left out. -/
def fields (t : TlsMaterial) : List (String × Json) :=
  let path (key : String) (value : Option String) : List (String × Json) :=
    value.toList.map fun s => (key, .text s)
  path "tls_cert_path" t.certPath ++ path "tls_key_path" t.keyPath ++
    path "tls_ca_path" t.caPath ++ path "tls_server_name" t.serverName ++
    [("tls_insecure_skip_verify", .bool t.skipVerify)] ++
    path "tls_min_version" (t.minVersion.map TlsVersion.documentName)

/-- The document of the material. -/
def toJson (t : TlsMaterial) : Json :=
  .ofFields t.fields

/-- The text that shows every part. -/
def structureText (t : TlsMaterial) : String :=
  let path (value : Option String) : String := Text.optional (value.map Text.quoted)
  Text.record "TlsClientConfig"
    [("cert_path", path t.certPath), ("key_path", path t.keyPath), ("ca_path", path t.caPath),
      ("server_name", path t.serverName),
      ("insecure_skip_verify", toString t.skipVerify),
      ("min_version", Text.optional (t.minVersion.map TlsVersion.caseName))] false

end TlsMaterial

end RpcPolicy
