import RpcPolicy.Security.PrivateKey
import RpcPolicy.Security.Resolution
import RpcPolicy.Security.ServerName
/-! The judgement of certificates and keys, and what a client and a server agree on. -/

namespace RpcPolicy

namespace Identity

/-- What is wrong with certificates and their key: the key has to be of a known form and to belong
to the first certificate. -/
def fault (i : Identity) : Option MaterialFault :=
  match PrivateKey.info? i.key with
  | none => some .unknownKey
  | some info =>
    match Certificate.read (i.certificates.headD []) with
    | .error fault => some (.badCertificate fault)
    | .ok certificate => if certificate.keyInfo = info then none else some .mismatchedKey

end Identity

/-- What is wrong with a certificate to be trusted: it has to be one. -/
def Certificate.rootFault (bytes : List UInt8) : Option MaterialFault :=
  match Certificate.readRoot bytes with
  | .error fault => some (.badCertificate fault)
  | .ok _ => none

/-- The usual judgement of the files of a disk. -/
def Toolkit.ofDisk (disk : Disk) : Toolkit where
  disk
  certificates := Pem.certificates
  firstKey := Pem.firstKey?
  isServerName := ServerName.isSound
  rootFault := Certificate.rootFault
  identityFault := Identity.fault

/-- What a server brings to a handshake. -/
structure TlsServer where
  certificates : List (List UInt8)
  versions : List TlsVersion
  /-- The application protocols it knows; without any it does not choose one. -/
  protocols : List String
deriving DecidableEq

/-- Why a server ends a handshake. -/
inductive HandshakeFault where
  | noCommonVersion
  | noCommonProtocol
deriving DecidableEq

/-- The text for a reader. -/
def HandshakeFault.message : HandshakeFault → String
  | noCommonVersion => "received fatal alert: ProtocolVersion"
  | noCommonProtocol => "received fatal alert: NoApplicationProtocol"

/-- What both sides agree on. -/
structure Agreement where
  version : TlsVersion
  protocol : Option String
  /-- How many certificates the server showed. -/
  certificates : Nat
deriving DecidableEq

namespace TlsConfig

/-- A handshake in which the certificates of the server pass: the highest common version is taken,
and the first protocol of the server that is offered. -/
def handshake (c : TlsConfig) (server : TlsServer) : Except HandshakeFault Agreement :=
  let common := c.versions.filter server.versions.contains
  match [TlsVersion.tls13, .tls12].find? common.contains with
  | none => .error .noCommonVersion
  | some version =>
    match server.protocols.find? c.protocols.contains with
    | some protocol => .ok ⟨version, some protocol, server.certificates.length⟩
    | none =>
      if server.protocols.isEmpty then .ok ⟨version, none, server.certificates.length⟩
      else .error .noCommonProtocol

end TlsConfig

end RpcPolicy
