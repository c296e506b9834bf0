import RpcPolicy.Security.Ed25519
import RpcPolicy.Security.Pem
import RpcPolicy.Security.Weierstrass
/-! The public keys that belong to private ones. -/

namespace RpcPolicy.PrivateKey

open Der

/-- The identifier of RSA keys with its empty parameters. -/
def rsaAlgorithm : List UInt8 :=
  encode tagObject [0x2a, 0x86, 0x48, 0x86, 0xf7, 0x0d, 0x01, 0x01, 0x01] ++ encode tagNull []

/-- The identifier of keys on a prime curve. -/
def curveAlgorithm (c : Weierstrass.Curve) : List UInt8 :=
  encode tagObject [0x2a, 0x86, 0x48, 0xce, 0x3d, 0x02, 0x01] ++ encode tagObject c.identifier

/-- The identifier of Edwards keys. -/
def edwardsAlgorithm : List UInt8 :=
  encode tagObject [0x2b, 0x65, 0x70]

/-- The contents of public key information. -/
def keyInfo (algorithm key : List UInt8) : List UInt8 :=
  encode tagSequence algorithm ++ encode tagBitString (0 :: key)

/-- What a wrapping for any algorithm holds: a key, and in its second version a public key. -/
structure Wrapped where
  key : List UInt8
  publicKey : Option (List UInt8)

/-- What follows attributes, if there are any. -/
def skipAttributes? (bytes : List UInt8) : Option (List UInt8) :=
  if bytes.head? = some (tagContext 0) then (expect? (tagContext 0) bytes).map Prod.snd
  else some bytes

/-- The bits numbered one, in either of two forms. -/
def numberedBits? (bytes : List UInt8) : Option (List UInt8) :=
  (((only? (tagContext 1) bytes).bind (only? tagBitString)).or
    (only? (tagContextPrimitive 1) bytes)).bind wholeBits?

/-- The wrapping of a key of the given algorithm. -/
def unwrap? (algorithm bytes : List UInt8) : Option Wrapped := do
  let contents ← only? tagSequence bytes
  let (version, contents) ← number? contents
  let (found, contents) ← expect? tagSequence contents
  if found != algorithm then none
  let (key, contents) ← expect? tagOctetString contents
  let contents ← skipAttributes? contents
  match version with
  | 0 => if contents.isEmpty then return ⟨key, none⟩ else none
  | 1 => return ⟨key, some (← numberedBits? contents)⟩
  | _ => none

/-- The key of the given algorithm in a wrapping of the first version. -/
def unwrapFirst? (algorithm bytes : List UInt8) : Option (List UInt8) :=
  (unwrap? algorithm bytes).bind fun w => if w.publicKey.isNone then some w.key else none

/-- How many bits a number has. -/
def bitLength (n : Nat) : Nat :=
  if n = 0 then 0 else n.log2 + 1

/-- An RSA key with two primes. -/
structure RsaKey where
  modulus : Nat
  publicExponent : Nat
  privateExponent : Nat
  p : Nat
  q : Nat
  /-- The private exponent for each prime. -/
  exponentP : Nat
  exponentQ : Nat
  /-- The inverse of the second prime for the first. -/
  coefficient : Nat

namespace RsaKey

/-- How many bits each prime has. -/
def half (k : RsaKey) : Nat :=
  (bitLength k.modulus + 1) / 2

/-- Whether a prime and its exponent have the right size; both are odd. -/
def isHalf (k : RsaKey) (prime exponent : Nat) : Bool :=
  bitLength prime = k.half && prime % 2 = 1 && exponent % 2 = 1 && exponent < prime

/-- Whether the public part has a permitted size; both numbers are odd. -/
def isPublicSound (k : RsaKey) : Bool :=
  2040 < bitLength k.modulus && bitLength k.modulus ≤ 4096 && k.modulus % 2 = 1 &&
    65537 ≤ k.publicExponent && k.publicExponent < 2 ^ 33 && k.publicExponent % 2 = 1

/-- Whether the parts belong together as far as that is looked at: the primes make up the modulus,
the larger one first, the coefficient is an inverse, and the exponents have the right size. -/
def isSound (k : RsaKey) : Bool :=
  k.isPublicSound && k.half % 512 = 0 && k.isHalf k.p k.exponentP && k.isHalf k.q k.exponentQ &&
    k.p * k.q % k.modulus = 0 && k.q < k.p &&
    k.coefficient < k.p && k.coefficient * k.q % k.p = 1 &&
    k.half < bitLength k.privateExponent && k.privateExponent < k.modulus &&
    k.privateExponent % 2 = 1

/-- Reads a key without a wrapping. -/
def ofBytes? (bytes : List UInt8) : Option RsaKey := do
  let contents ← only? tagSequence bytes
  match ← numbers? 9 contents with
  | [0, n, e, d, p, q, dp, dq, inverse] => return ⟨n, e, d, p, q, dp, dq, inverse⟩
  | _ => none

end RsaKey

/-- The public key information of an RSA key. -/
def rsaInfo? (bytes : List UInt8) : Option (List UInt8) := do
  let k ← RsaKey.ofBytes? bytes
  if !k.isSound then none
  return keyInfo rsaAlgorithm
    (encode tagSequence (encodeNumber k.modulus ++ encodeNumber k.publicExponent))

/-- The public key information of a key on a prime curve, whose public point has to be there and
to belong to the secret. -/
def curveInfo? (c : Weierstrass.Curve) (bytes : List UInt8) : Option (List UInt8) := do
  let contents ← only? tagSequence bytes
  let (version, contents) ← number? contents
  if version != 1 then none
  let (secret, contents) ← expect? tagOctetString contents
  if secret.length != c.size then none
  let contents ←
    match expect? (tagContext 0) contents with
    | none => some contents
    | some (parameters, rest) =>
      if parameters = encode tagObject c.identifier then some rest else none
  let point ← ((only? (tagContext 1) contents).bind (only? tagBitString)).bind wholeBits?
  if !Weierstrass.isPublic c (bigEndian secret) point then none
  return keyInfo (curveAlgorithm c) point

/-- The public key information of a wrapped Edwards key; a public key beside it has to be its own. -/
def edwardsInfo? (w : Wrapped) : Option (List UInt8) := do
  let seed ← only? tagOctetString w.key
  if seed.length != 32 then none
  let key := Ed25519.publicKey seed
  if w.publicKey.any (· != key) then none
  return keyInfo edwardsAlgorithm key

/-- The public key information of a private key of the kind its section names: RSA keys and keys
on curves stand alone or wrapped, Edwards keys wrapped only. -/
def info? (item : Pem.Item) : Option (List UInt8) :=
  let curves := [Weierstrass.p256, Weierstrass.p384]
  match item.kind with
  | .rsaPrivateKey => rsaInfo? item.bytes
  | .ecPrivateKey => curves.findSome? fun c => curveInfo? c item.bytes
  | .privateKey =>
    ((unwrapFirst? rsaAlgorithm item.bytes).bind rsaInfo?).or
      ((curves.findSome? fun c =>
          (unwrapFirst? (curveAlgorithm c) item.bytes).bind (curveInfo? c)).or
        ((unwrap? edwardsAlgorithm item.bytes).bind edwardsInfo?))
  | _ => none

end RpcPolicy.PrivateKey
