import RpcPolicy.Security.Der
/-! The structure of certificates, as far as their public key. -/

namespace RpcPolicy

/-- What is wrong with the structure of a certificate. -/
inductive CertificateFault where
  | malformed
  /-- The version is not the third one. -/
  | unsupportedVersion
  /-- The signature is of another algorithm than its subject says. -/
  | algorithmMismatch
  | unknownCriticalExtension
  | repeatedExtension
deriving DecidableEq

/-- The text of a fault. -/
def CertificateFault.text : CertificateFault → String
  | malformed => "BadEncoding"
  | unsupportedVersion => "Other(OtherError(UnsupportedCertVersion))"
  | algorithmMismatch => "Other(OtherError(SignatureAlgorithmMismatch))"
  | unknownCriticalExtension => "Other(OtherError(UnsupportedCriticalExtension))"
  | repeatedExtension => "Other(OtherError(ExtensionValueInvalid))"

/-- A certificate, of which only the contents of the public key information matter. -/
structure Certificate where
  keyInfo : List UInt8
deriving DecidableEq

namespace Certificate

open Der

/-- A part that has to be there. -/
def part {α : Type} (found : Option α) : Except CertificateFault α :=
  found.elim (.error .malformed) .ok

/-! ### Extensions -/

/-- The mark that an extension is critical, which it is not without one, and what follows it. -/
def critical? (bytes : List UInt8) : Option (Bool × List UInt8) :=
  if bytes.head? = some tagBoolean then
    match expect? tagBoolean bytes with
    | some ([0xff], rest) => some (true, rest)
    | some ([0x00], rest) => some (false, rest)
    | _ => none
  else some (false, bytes)

/-- The extension that lists what a key is used for. -/
def keyUsage : UInt8 := 15

/-- The extensions that are understood: the uses of the key, alternative names, basic and name
constraints, places of revocation lists, and further uses of the key. -/
def understood : List UInt8 := [keyUsage, 17, 19, 30, 31, 37]

/-- Looks at an extension after those seen before it. What is understood comes once and holds a
sequence, the uses of the key apart; what is not understood must not be critical. -/
def extension (seen : List UInt8) (contents : List UInt8) :
    Except CertificateFault (List UInt8) := do
  let (identifier, rest) ← part (expect? tagObject contents)
  let (critical, rest) ← part (critical? rest)
  let (value, rest) ← part (expect? tagOctetString rest)
  let known := understood.find? fun n => identifier = [0x55, 0x1d, n]
  let seen ←
    match known with
    | none => if critical then .error .unknownCriticalExtension else .ok seen
    | some n =>
      if seen.contains n then .error .repeatedExtension
      else if n = keyUsage || (only? tagSequence value).isSome then .ok (n :: seen)
      else .error .malformed
  if rest.isEmpty then .ok seen else .error .malformed

/-- Looks at extensions one after another, at most `fuel` of them. -/
def extensions : Nat → List UInt8 → List UInt8 → Except CertificateFault Unit
  | _, _, [] => .ok ()
  | 0, _, _ :: _ => .error .malformed
  | fuel + 1, seen, bytes => do
    let (contents, rest) ← part (expect? tagSequence bytes)
    let seen ← extension seen contents
    extensions fuel seen rest

/-- Looks at the rest behind the public key: nothing, or a list of extensions. -/
def checkTail (rest : List UInt8) : Except CertificateFault Unit := do
  if !rest.isEmpty then
    let (tagged, rest) ← part (expect? (tagContext 3) rest)
    let (contents, more) ← part (expect? tagSequence tagged)
    extensions contents.length [] contents
    if !more.isEmpty || !rest.isEmpty then .error .malformed

/-! ### Certificates -/

/-- The body of a certificate and the algorithm of the signature on it. -/
structure Signed where
  body : List UInt8
  algorithm : List UInt8

/-- The contents of a certificate have fewer bytes than this. -/
def sizeLimit : Nat := 65535

/-- Takes a certificate apart, with nothing behind it. -/
def signed? (bytes : List UInt8) : Option Signed := do
  let contents ← only? tagSequence bytes
  if sizeLimit ≤ contents.length then none
  let (body, rest) ← expect? tagSequence contents
  let (algorithm, rest) ← expect? tagSequence rest
  let _ ← (only? tagBitString rest).bind wholeBits?
  return ⟨body, algorithm⟩

/-- What follows the mark of the third version. -/
def thirdVersion (body : List UInt8) : Except CertificateFault (List UInt8) :=
  match expect? (tagContext 0) body with
  | none => .error .unsupportedVersion
  | some (mark, rest) => do
    let (n, more) ← part (number? mark)
    if 255 < n then .error .malformed
    else if n != 2 || !more.isEmpty then .error .unsupportedVersion
    else .ok rest

/-- Reads a certificate of the third version: the serial number, the algorithm of the signature,
issuer, validity, subject, the public key, and extensions. -/
def read (bytes : List UInt8) : Except CertificateFault Certificate := do
  let signed ← part (signed? bytes)
  let body ← thirdVersion signed.body
  let (_, body) ← part (expect? tagInteger body)
  let (algorithm, body) ← part (expect? tagSequence body)
  if algorithm != signed.algorithm then throw .algorithmMismatch
  let (_, body) ← part (expect? tagSequence body)
  let (_, body) ← part (expect? tagSequence body)
  let (_, body) ← part (expect? tagSequence body)
  let (keyInfo, body) ← part (expect? tagSequence body)
  checkTail body
  return ⟨keyInfo⟩

/-- Reads a certificate of the first version, which has neither a mark nor extensions. -/
def readFirst? (bytes : List UInt8) : Option Certificate := do
  let signed ← signed? bytes
  let (_, body) ← expect? tagInteger signed.body
  let (_, body) ← expect? tagSequence body
  let (_, body) ← expect? tagSequence body
  let (_, body) ← expect? tagSequence body
  let (_, body) ← expect? tagSequence body
  let keyInfo ← only? tagSequence body
  return ⟨keyInfo⟩

/-- Reads a certificate to be trusted, which may be of the first version. -/
def readRoot (bytes : List UInt8) : Except CertificateFault Certificate :=
  match read bytes with
  | .error .unsupportedVersion => part (readFirst? bytes)
  | result => result

end Certificate

end RpcPolicy
