import RpcPolicy.Security.Error
import RpcPolicy.Security.Material
/-! How security material becomes the security of a connection: which files are opened, in which
order the checks come, and what is left when all of them pass. -/

namespace RpcPolicy

/-- What is noticed on the way. -/
inductive Notice where
  /-- A file was opened. -/
  | opened (path : String)
  /-- Any server certificate will pass. -/
  | unverified
deriving DecidableEq

/-- An outcome and what was noticed on the way to it. -/
structure Resolution (α : Type) where
  outcome : Except SecurityError α
  notices : List Notice

namespace Resolution

variable {α β : Type}

/-- A result without anything to notice. -/
def ok (a : α) : Resolution α := ⟨.ok a, []⟩

/-- A failure without anything to notice. -/
def fail (e : SecurityError) : Resolution α := ⟨.error e, []⟩

/-- Something to notice. -/
def notice (n : Notice) : Resolution Unit := ⟨.ok (), [n]⟩

/-- Goes on after a result; a failure is final. -/
def bind (r : Resolution α) (k : α → Resolution β) : Resolution β :=
  match r.outcome with
  | .error e => ⟨.error e, r.notices⟩
  | .ok a => ⟨(k a).outcome, r.notices ++ (k a).notices⟩

instance : Monad Resolution where
  pure := ok
  bind := bind

@[simp] theorem pure_eq (a : α) : (pure a : Resolution α) = ok a := rfl

@[simp] theorem bind_eq (r : Resolution α) (k : α → Resolution β) : (r >>= k) = r.bind k := rfl

@[simp] theorem ok_bind (a : α) (k : α → Resolution β) : (ok a).bind k = k a := by
  simp [ok, bind]

@[simp] theorem fail_bind (e : SecurityError) (k : α → Resolution β) :
    (fail e : Resolution α).bind k = fail e := rfl

end Resolution

/-- How the certificate of a server is judged. -/
inductive Trust where
  /-- Any certificate passes. -/
  | anyone
  /-- One of these certificates has to vouch for it. -/
  | roots (certificates : List (List UInt8))
  /-- The certificates of the platform have to vouch for it. -/
  | platform
deriving DecidableEq

/-- The certificates a client shows, its own first, and their key. -/
structure Identity where
  certificates : List (List UInt8)
  key : Pem.Item
deriving DecidableEq

/-- The settings of encrypted connections. -/
structure TlsConfig where
  trust : Trust
  identity : Option Identity
  /-- The protocol versions offered, the lowest first. -/
  versions : List TlsVersion
  /-- The application protocols offered. -/
  protocols : List String
deriving DecidableEq

/-- The security of a connection. -/
inductive TransportSecurity where
  | insecure
  | tls (config : TlsConfig) (serverName : Option String)
deriving DecidableEq, Inhabited

/-- Whether a connection is encrypted. -/
def TransportSecurity.isTls : TransportSecurity → Bool
  | insecure => false
  | tls .. => true

/-- What the resolution of material rests on: files and the judgement of what is in them. -/
structure Toolkit where
  disk : Disk
  /-- The certificates of a file. -/
  certificates : List UInt8 → Except Pem.Error (List (List UInt8))
  /-- The first private key of a file. -/
  firstKey : List UInt8 → Except Pem.Error (Option Pem.Item)
  isServerName : String → Bool
  /-- What is wrong with a certificate to be trusted. -/
  rootFault : List UInt8 → Option MaterialFault
  /-- What is wrong with certificates and their key. -/
  identityFault : Identity → Option MaterialFault

namespace Toolkit

variable (kit : Toolkit)

/-- The bytes of a file. -/
def read (role : FileRole) (path : String) : Resolution (List UInt8) := do
  Resolution.notice (.opened path)
  match kit.disk path with
  | .error e => .fail (.badFile role path (.unreadable e))
  | .ok bytes => .ok bytes

/-- The certificates of a file, at least one. -/
def loadCertificates (path : String) : Resolution (List (List UInt8)) := do
  let bytes ← kit.read .certificates path
  match kit.certificates bytes with
  | .error e => .fail (.badFile .certificates path (.malformed e))
  | .ok [] => .fail (.badFile .certificates path .noCertificates)
  | .ok certificates => .ok certificates

/-- The first private key of a file. -/
def loadKey (path : String) : Resolution Pem.Item := do
  let bytes ← kit.read .privateKey path
  match kit.firstKey bytes with
  | .error e => .fail (.badFile .privateKey path (.malformed e))
  | .ok none => .fail (.badFile .privateKey path .noKey)
  | .ok (some key) => .ok key

/-- Fails with the fault of material that has one. -/
def refuse : Option MaterialFault → Resolution Unit
  | none => .ok ()
  | some fault => .fail (.badMaterial fault)

/-- The certificates and the key to show, which have to be given together. -/
def loadIdentity (certPath keyPath : Option String) : Resolution (Option Identity) :=
  match certPath, keyPath with
  | some cert, some key => do
    let certificates ← kit.loadCertificates cert
    let key ← kit.loadKey key
    return some ⟨certificates, key⟩
  | none, none => .ok none
  | _, _ => .fail .incompleteIdentity

/-- The name to check the certificate of a server against. -/
def checkServerName : Option String → Resolution Unit
  | none => .ok ()
  | some name => if kit.isServerName name then .ok () else .fail (.invalidServerName name)

/-- The certificates to trust; those of a file each have to be one. -/
def loadTrust (skipVerify : Bool) (caPath : Option String) : Resolution Trust :=
  if skipVerify then do
    Resolution.notice .unverified
    return .anyone
  else
    match caPath with
    | none => .ok .platform
    | some path => do
      let certificates ← kit.loadCertificates path
      refuse (certificates.findSome? kit.rootFault)
      return .roots certificates

end Toolkit

namespace TlsMaterial

/-- The protocol versions from the lowest permitted one on. -/
def versions (t : TlsMaterial) : List TlsVersion :=
  match t.minVersion with
  | some .tls13 => [.tls13]
  | _ => [.tls12, .tls13]

/-- The settings the material stands for: the files to show, the name to check, the files to
trust and the key to the certificates are looked at in this order. -/
def config (t : TlsMaterial) (kit : Toolkit) : Resolution TlsConfig := do
  let identity ← kit.loadIdentity t.certPath t.keyPath
  kit.checkServerName t.serverName
  let trust ← kit.loadTrust t.skipVerify t.caPath
  Toolkit.refuse (identity.bind kit.identityFault)
  return ⟨trust, identity, t.versions, ["h2"]⟩

/-- The security of a connection; material that is not enabled is not looked at. -/
def transportSecurity (t : TlsMaterial) (kit : Toolkit) (enabled : Bool) :
    Resolution TransportSecurity :=
  if enabled then do
    let config ← t.config kit
    return .tls config t.serverName
  else .ok .insecure

end TlsMaterial

end RpcPolicy
