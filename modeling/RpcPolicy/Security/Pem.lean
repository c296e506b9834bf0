import RpcPolicy.Security.Base64
/-! Sections of labelled base64 between BEGIN and END lines. -/

namespace RpcPolicy.Pem

/-- What a section holds, as its label says. -/
inductive Kind where
  | certificate
  | publicKey
  | rsaPrivateKey
  | privateKey
  | ecPrivateKey
  | revocationList
  | certificateRequest
  | echConfigList
deriving DecidableEq, Inhabited

namespace Kind

/-- Every kind. -/
def all : List Kind :=
  [certificate, publicKey, rsaPrivateKey, privateKey, ecPrivateKey, revocationList,
    certificateRequest, echConfigList]

/-- The label of a kind. -/
def label : Kind → String
  | certificate => "CERTIFICATE"
  | publicKey => "PUBLIC KEY"
  | rsaPrivateKey => "RSA PRIVATE KEY"
  | privateKey => "PRIVATE KEY"
  | ecPrivateKey => "EC PRIVATE KEY"
  | revocationList => "X509 CRL"
  | certificateRequest => "CERTIFICATE REQUEST"
  | echConfigList => "ECHCONFIG"

/-- The kind of a label. -/
def ofLabel? (label : List UInt8) : Option Kind :=
  all.find? fun k => k.label.toUTF8.toList = label

/-- Whether a section of this kind holds a private key. -/
def isPrivateKey : Kind → Bool
  | rsaPrivateKey | privateKey | ecPrivateKey => true
  | _ => false

end Kind

/-- Why sections cannot be read. -/
inductive Error where
  | illegalSectionStart (line : List UInt8)
  | missingSectionEnd (label : List UInt8)
  | base64 (error : Base64.Error)
deriving DecidableEq

/-- A section with a known label. -/
structure Item where
  kind : Kind
  bytes : List UInt8
deriving DecidableEq, Inhabited

/-- Whether a byte ends a line. -/
def isLineEnd (b : UInt8) : Bool :=
  b = 10 || b = 13

/-- The lines of a text, each with its end. -/
def lines : List UInt8 → List (List UInt8)
  | [] => []
  | b :: rest =>
    if isLineEnd b then [b] :: lines rest
    else
      match lines rest with
      | [] => [[b]]
      | line :: more =>
        (b :: line) :: more

/-- What a line that starts a section begins with. -/
def beginMark : List UInt8 := "-----BEGIN ".toUTF8.toList

/-- What a line that ends a section begins with. -/
def endMark : List UInt8 := "-----END ".toUTF8.toList

/-- Five dashes. -/
def dashes : List UInt8 := "-----".toUTF8.toList

/-- Whether a byte may stand among or behind the dashes that close a line. -/
def isTrailing (b : UInt8) : Bool :=
  b = 45 || b = 32 || isLineEnd b

/-- The label of a line that starts a section: what comes before the closing dashes, of which
there have to be five. -/
def startLabel? (line : List UInt8) : Option (List UInt8) :=
  let reversed := line.reverse
  let trailing := reversed.takeWhile isTrailing
  if trailing.count 45 = 5 then
    let beyond := (trailing.reverse.takeWhile (· != 45)).reverse ++ reversed.dropWhile isTrailing
    some (beyond.reverse.drop beginMark.length)
  else none

/-- Whether a line ends a section of a label. -/
def isEndOf (label line : List UInt8) : Bool :=
  (endMark ++ label ++ dashes).isPrefixOf line

/-- The sections with known labels, one after another, up to the first fault. Inside a section a
new start line changes the label and keeps what was collected. -/
def itemsFrom (label : Option (List UInt8)) (collected : List UInt8) :
    List (List UInt8) → List (Except Error Item)
  | [] =>
    match label with
    | none => []
    | some l => [.error (.missingSectionEnd l)]
  | line :: rest =>
    if beginMark.isPrefixOf line then
      match startLabel? line with
      | none => [.error (.illegalSectionStart line)]
      | some l => itemsFrom (some l) collected rest
    else
      match label with
      | none => itemsFrom none collected rest
      | some l =>
        if isEndOf l line then
          match Kind.ofLabel? l with
          | none => itemsFrom none [] rest
          | some kind =>
            match Base64.decode collected with
            | .error e => [.error (.base64 e)]
            | .ok bytes => .ok ⟨kind, bytes⟩ :: itemsFrom none [] rest
        else itemsFrom label (collected ++ line) rest

/-- The sections of a file up to the first fault. -/
def items (file : List UInt8) : List (Except Error Item) :=
  itemsFrom none [] (lines file)

/-- The certificates of a file, if none of its sections is at fault. -/
def certificates (file : List UInt8) : Except Error (List (List UInt8)) :=
  ((items file).mapM id).map fun items =>
    (items.filter fun i => i.kind = .certificate).map Item.bytes

/-- The first private key of a file, if no section before it is at fault. -/
def firstKey? (file : List UInt8) : Except Error (Option Item) :=
  go (items file)
where
  go : List (Except Error Item) → Except Error (Option Item)
    | [] => .ok none
    | .error e :: _ => .error e
    | .ok item :: rest => if item.kind.isPrivateKey then .ok (some item) else go rest

end RpcPolicy.Pem
