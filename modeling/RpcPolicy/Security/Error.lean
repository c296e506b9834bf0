import RpcPolicy.Security.Certificate
import RpcPolicy.Security.Disk
import RpcPolicy.Security.Pem
/-! Why the security of a connection cannot be resolved. -/

namespace RpcPolicy

/-- What a file is read for. -/
inductive FileRole where
  | certificates
  | privateKey
deriving DecidableEq

/-- The words for what a file is read for. -/
def FileRole.text : FileRole → String
  | certificates => "certificates"
  | privateKey => "private key"

/-- Why a file does not give what it is read for. -/
inductive FileFault where
  | unreadable (error : DiskError)
  | malformed (error : Pem.Error)
  | noCertificates
  | noKey
deriving DecidableEq

/-- The text of a fault in sections. -/
def Pem.Error.text : Pem.Error → String
  | illegalSectionStart line => "illegal section start: " ++ byteList line
  | missingSectionEnd label => "missing section end marker: " ++ byteList label
  | base64 e => "base64 decode error: " ++ e.text
where
  byteList (bytes : List UInt8) : String :=
    "[" ++ ", ".intercalate (bytes.map fun b => toString b.toNat) ++ "]"

/-- The text of a fault of a file. -/
def FileFault.text : FileFault → String
  | unreadable e => "I/O error: " ++ e.text
  | malformed e => e.text
  | noCertificates => "no certificates found"
  | noKey => "no items found"

/-- What is wrong with certificates and keys as such. -/
inductive MaterialFault where
  | badCertificate (fault : CertificateFault)
  /-- A private key is of no known form. -/
  | unknownKey
  /-- A private key does not belong to its certificate. -/
  | mismatchedKey
deriving DecidableEq

/-- The text of a fault of certificates and keys. -/
def MaterialFault.text : MaterialFault → String
  | badCertificate fault => "invalid peer certificate: " ++ fault.text
  | unknownKey => "unexpected error: failed to parse private key as RSA, ECDSA, or EdDSA"
  | mismatchedKey => "keys may not be consistent: KeyMismatch"

/-- Why the security of a connection cannot be resolved. -/
inductive SecurityError where
  | badFile (role : FileRole) (path : String) (fault : FileFault)
  /-- A certificate without its key, or a key without its certificate. -/
  | incompleteIdentity
  /-- There is no implementation of the cryptography. -/
  | noCryptography
  | invalidServerName (name : String)
  | badMaterial (fault : MaterialFault)
deriving DecidableEq

/-- The text for a reader. -/
def SecurityError.message : SecurityError → String
  | badFile role path fault =>
    "failed to load " ++ role.text ++ " from " ++ path ++ ": " ++ fault.text
  | incompleteIdentity => "client certificate and key must be configured together"
  | noCryptography =>
    "TLS requires a crypto provider: enable `tls-ring` or `tls-aws-lc`, " ++
      "or install one via `CryptoProvider::install_default()`"
  | invalidServerName name => "invalid TLS server name: " ++ name
  | badMaterial fault => "TLS configuration error: " ++ fault.text

end RpcPolicy
