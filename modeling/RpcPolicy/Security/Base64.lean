/-! Bytes written in base64, with or without padding. -/

namespace RpcPolicy.Base64

/-- Why a text is not base64. -/
inductive Error where
  | invalidCharacter (byte : UInt8)
  /-- Padding before the last four symbols. -/
  | prematurePadding
  /-- A last group that no whole number of bytes gives. -/
  | invalidTrailingPadding
deriving DecidableEq

/-- The text of a fault. -/
def Error.text : Error → String
  | invalidCharacter b => "InvalidCharacter(" ++ toString b.toNat ++ ")"
  | prematurePadding => "PrematurePadding"
  | invalidTrailingPadding => "InvalidTrailingPadding"

/-- Six bits, or padding. -/
inductive Symbol where
  | bits (n : Nat)
  | pad
deriving DecidableEq

/-- The bytes that may stand anywhere and mean nothing. -/
def isBlank (b : UInt8) : Bool :=
  (9 ≤ b && b ≤ 13) || b = 32

/-- The symbol of a byte. -/
def symbol? (b : UInt8) : Option Symbol :=
  if 65 ≤ b && b ≤ 90 then some (.bits (b.toNat - 65))
  else if 97 ≤ b && b ≤ 122 then some (.bits (b.toNat - 71))
  else if 48 ≤ b && b ≤ 57 then some (.bits (b.toNat + 4))
  else if b = 43 then some (.bits 62)
  else if b = 47 then some (.bits 63)
  else if b = 61 then some .pad
  else none

/-- The three bytes of four groups of six bits. -/
def triple (a b c d : Nat) : List UInt8 :=
  let n := ((a * 64 + b) * 64 + c) * 64 + d
  [UInt8.ofNat (n / 65536), UInt8.ofNat (n / 256), UInt8.ofNat n]

/-- The bytes of four symbols that are not the last ones. -/
def innerGroup : List Symbol → Except Error (List UInt8)
  | [.bits a, .bits b, .bits c, .bits d] => .ok (triple a b c d)
  | _ => .error .prematurePadding

/-- The bytes of the last symbols, at most four of them. -/
def lastGroup : List Symbol → Except Error (List UInt8)
  | [] => .ok []
  | [.bits a, .bits b, .bits c, .bits d] => .ok (triple a b c d)
  | [.bits a, .bits b, .bits c] => .ok ((triple a b c 0).take 2)
  | [.bits a, .bits b, .bits c, .pad] => .ok ((triple a b c 0).take 2)
  | [.bits a, .bits b] => .ok ((triple a b 0 0).take 1)
  | [.bits a, .bits b, .pad, .pad] => .ok ((triple a b 0 0).take 1)
  | _ => .error .invalidTrailingPadding

/-- The bytes of eight symbols that are not the last ones. -/
def innerBlock (held : List Symbol) : Except Error (List UInt8) := do
  return (← innerGroup (held.take 4)) ++ (← innerGroup (held.drop 4))

/-- The bytes of the last symbols, at most eight of them. -/
def lastBlock (held : List Symbol) : Except Error (List UInt8) :=
  if 4 < held.length then do
    return (← innerGroup (held.take 4)) ++ (← lastGroup (held.drop 4))
  else lastGroup held

/-- Reads the rest of a text behind up to eight symbols that are held back; a full block is looked
at when the next symbol comes. -/
def decodeFrom (held : List Symbol) : List UInt8 → Except Error (List UInt8)
  | [] => lastBlock held
  | b :: rest =>
    if isBlank b then decodeFrom held rest
    else
      match symbol? b with
      | none => .error (.invalidCharacter b)
      | some s =>
        if held.length = 8 then do
          let bytes ← innerBlock held
          return bytes ++ (← decodeFrom [s] rest)
        else decodeFrom (held ++ [s]) rest

/-- The bytes a text stands for. -/
def decode (text : List UInt8) : Except Error (List UInt8) :=
  decodeFrom [] text

end RpcPolicy.Base64
