import RpcPolicy.Number.Power
/-! The hash of 512 bits that spreads a signing seed. -/

namespace RpcPolicy.Sha512

/-- The greatest number whose power is at most `n`, searched bit by bit from the given bit down. -/
def root (power n : Nat) : Nat → Nat → Nat
  | 0, found => found
  | bit + 1, found =>
    let next := found + 2 ^ bit
    root power n bit (if next ^ power ≤ n then next else found)

/-- The first primes. -/
def primes : List Nat :=
  (List.range 410).filter fun n => 2 ≤ n && (List.range n).all fun d => d < 2 || n % d != 0

/-- The first 64 bits of the fraction of a root of a number. -/
def rootFraction (power n : Nat) : UInt64 :=
  UInt64.ofNat (root power (n * 2 ^ (64 * power)) 70 0)

/-- A constant for each round: cube roots of the first eighty primes. -/
def roundConstants : List UInt64 :=
  (primes.take 80).map (rootFraction 3)

/-- Eight words of state. -/
structure State where
  a : UInt64
  b : UInt64
  c : UInt64
  d : UInt64
  e : UInt64
  f : UInt64
  g : UInt64
  h : UInt64

/-- The state before any input: square roots of the first eight primes. -/
def initial : State :=
  match (primes.take 8).map (rootFraction 2) with
  | [a, b, c, d, e, f, g, h] => ⟨a, b, c, d, e, f, g, h⟩
  | _ => ⟨0, 0, 0, 0, 0, 0, 0, 0⟩

def rotate (x : UInt64) (n : UInt64) : UInt64 :=
  (x >>> n) ||| (x <<< (64 - n))

/-- The words of a block and those made from them, the last first. -/
def schedule (block : List UInt64) : List UInt64 :=
  (List.range 64).foldl (fun ws _ =>
    let ago (n : Nat) : UInt64 := ws[n - 1]?.getD 0
    let s0 := rotate (ago 15) 1 ^^^ rotate (ago 15) 8 ^^^ (ago 15 >>> 7)
    let s1 := rotate (ago 2) 19 ^^^ rotate (ago 2) 61 ^^^ (ago 2 >>> 6)
    (s1 + ago 7 + s0 + ago 16) :: ws) block.reverse

/-- One round with its constant and word. -/
def round (s : State) (kw : UInt64 × UInt64) : State :=
  let s1 := rotate s.e 14 ^^^ rotate s.e 18 ^^^ rotate s.e 41
  let ch := (s.e &&& s.f) ^^^ (~~~s.e &&& s.g)
  let t1 := s.h + s1 + ch + kw.1 + kw.2
  let s0 := rotate s.a 28 ^^^ rotate s.a 34 ^^^ rotate s.a 39
  let maj := (s.a &&& s.b) ^^^ (s.a &&& s.c) ^^^ (s.b &&& s.c)
  ⟨t1 + (s0 + maj), s.a, s.b, s.c, s.d + t1, s.e, s.f, s.g⟩

/-- Takes in one block of sixteen words. -/
def absorb (s : State) (block : List UInt64) : State :=
  let t := (roundConstants.zip (schedule block).reverse).foldl round s
  ⟨s.a + t.a, s.b + t.b, s.c + t.c, s.d + t.d, s.e + t.e, s.f + t.f, s.g + t.g, s.h + t.h⟩

/-- Eight bytes as a word, the most significant first. -/
def word (bytes : List UInt8) : UInt64 :=
  bytes.foldl (fun n b => (n <<< 8) ||| b.toUInt64) 0

/-- A word as eight bytes, the most significant first. -/
def bytesOf (w : UInt64) : List UInt8 :=
  (List.range 8).map fun n => (w >>> UInt64.ofNat (56 - 8 * n)).toUInt8

/-- The hash of a message short enough for one block: at most 111 bytes. -/
def hashShort (message : List UInt8) : List UInt8 :=
  let padded := message ++ [0x80] ++ List.replicate (111 - message.length) 0 ++
    List.replicate 8 0 ++ bytesOf (UInt64.ofNat (8 * message.length))
  let words := (List.range 16).map fun n => word ((padded.drop (8 * n)).take 8)
  let s := absorb initial words
  [s.a, s.b, s.c, s.d, s.e, s.f, s.g, s.h].flatMap bytesOf

end RpcPolicy.Sha512
