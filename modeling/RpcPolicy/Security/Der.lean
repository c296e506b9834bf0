import RpcPolicy.Number.Power
/-! Values with a tag and a definite length. -/

namespace RpcPolicy.Der

/-- A tag of one byte. -/
abbrev Tag := UInt8

def tagBoolean : Tag := 0x01
def tagInteger : Tag := 0x02
def tagBitString : Tag := 0x03
def tagOctetString : Tag := 0x04
def tagNull : Tag := 0x05
def tagObject : Tag := 0x06
def tagSequence : Tag := 0x30

/-- The tag of a constructed value numbered in its context. -/
def tagContext (n : UInt8) : Tag := 0xa0 ||| n

/-- The tag of a primitive value numbered in its context. -/
def tagContextPrimitive (n : UInt8) : Tag := 0x80 ||| n

/-- A number of bytes, the most significant first. -/
def bigEndian (bytes : List UInt8) : Nat :=
  bytes.foldl (fun n b => n * 256 + b.toNat) 0

/-- The length at the front, in the shortest form and of two bytes at most, and what follows it. -/
def length? : List UInt8 → Option (Nat × List UInt8)
  | [] => none
  | b :: rest =>
    if b < 128 then some (b.toNat, rest)
    else
      let count := b.toNat - 128
      let n := bigEndian (rest.take count)
      if count = 0 ∨ 2 < count ∨ rest.length < count then none
      else if n < 128 ∨ n < 256 ^ (count - 1) then none
      else some (n, rest.drop count)

/-- The value at the front and what follows it. -/
def value? : List UInt8 → Option (Tag × List UInt8 × List UInt8)
  | [] => none
  | tag :: rest =>
    if tag &&& 31 = 31 then none
    else
      (length? rest).bind fun (n, rest) =>
        if rest.length < n then none else some (tag, rest.take n, rest.drop n)

/-- The contents of a value of the given tag at the front, and what follows it. -/
def expect? (tag : Tag) (bytes : List UInt8) : Option (List UInt8 × List UInt8) :=
  (value? bytes).bind fun (t, contents, rest) => if t = tag then some (contents, rest) else none

/-- The contents of the one value of the given tag that makes up the bytes. -/
def only? (tag : Tag) (bytes : List UInt8) : Option (List UInt8) :=
  (expect? tag bytes).bind fun (contents, rest) => if rest.isEmpty then some contents else none

/-- The contents of a bit string of whole bytes. -/
def wholeBits? : List UInt8 → Option (List UInt8)
  | 0 :: bytes => some bytes
  | _ => none

/-- A number that is not negative, in the shortest form. -/
def unsigned? : List UInt8 → Option Nat
  | [] => none
  | [b] => if b < 128 then some b.toNat else none
  | b :: c :: rest =>
    if 128 ≤ b ∨ (b = 0 ∧ c < 128) then none else some (bigEndian (b :: c :: rest))

/-- The number at the front and what follows it. -/
def number? (bytes : List UInt8) : Option (Nat × List UInt8) :=
  (expect? tagInteger bytes).bind fun (contents, rest) =>
    (unsigned? contents).map (·, rest)

/-- The given count of numbers that makes up the bytes. -/
def numbers? : Nat → List UInt8 → Option (List Nat)
  | 0, bytes => if bytes.isEmpty then some [] else none
  | count + 1, bytes =>
    (number? bytes).bind fun (n, rest) => (numbers? count rest).map (n :: ·)

/-- The length of contents as it is written. -/
def encodeLength (n : Nat) : List UInt8 :=
  if n < 128 then [UInt8.ofNat n]
  else if n < 256 then [0x81, UInt8.ofNat n]
  else [0x82, UInt8.ofNat (n / 256), UInt8.ofNat n]

/-- A value as it is written. -/
def encode (tag : Tag) (contents : List UInt8) : List UInt8 :=
  tag :: encodeLength contents.length ++ contents

/-- The bytes of a number, the most significant first; the first one leaves the sign bit free. -/
def numberBytes (n : Nat) : List UInt8 :=
  ((List.range ((n.log2 + 1) / 8 + 1)).map fun k => UInt8.ofNat (n / 256 ^ k)).reverse

/-- A number as it is written. -/
def encodeNumber (n : Nat) : List UInt8 :=
  encode tagInteger (numberBytes n)

end RpcPolicy.Der
