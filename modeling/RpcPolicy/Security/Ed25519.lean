import RpcPolicy.Security.Sha512
/-! The public key of a signing seed on the twisted Edwards curve over `2^255 - 19`. -/

namespace RpcPolicy.Ed25519

/-- The prime of the field. -/
def prime : Nat := 2 ^ 255 - 19

/-- A power in the field, over the bits of the exponent from the given one down. -/
def power (x e : Nat) : Nat → Nat → Nat
  | 0, acc => acc
  | bit + 1, acc =>
    let squared := acc * acc % prime
    power x e bit (if e.testBit bit then squared * x % prime else squared)

/-- The inverse in the field. -/
def inverse (x : Nat) : Nat :=
  power x (prime - 2) 255 1

/-- The constant of the curve. -/
def curve : Nat :=
  (prime - 121665) * inverse 121666 % prime

/-- A point in extended coordinates. -/
structure Point where
  x : Nat
  y : Nat
  z : Nat
  t : Nat

/-- The neutral point. -/
def Point.zero : Point := ⟨0, 1, 1, 0⟩

/-- The sum of two points. -/
def Point.add (p q : Point) : Point :=
  let a := (p.y + prime - p.x) * (q.y + prime - q.x) % prime
  let b := (p.y + p.x) * (q.y + q.x) % prime
  let c := 2 * p.t * q.t % prime * curve % prime
  let d := 2 * p.z * q.z % prime
  let e := b + prime - a
  let f := d + prime - c
  let g := d + c
  let h := b + a
  ⟨e * f % prime, g * h % prime, f * g % prime, e * h % prime⟩

/-- The base point. -/
def base : Point :=
  let x := 0x216936d3cd6e53fec0a4e231fdd6dc5c692cc7609525a7b2c9562d608f25d51a
  let y := 0x6666666666666666666666666666666666666666666666666666666666666658
  ⟨x, y, 1, x * y % prime⟩

/-- A multiple of a point, over the bits of the factor from the given one down. -/
def multiply (p : Point) (n : Nat) : Nat → Point → Point
  | 0, acc => acc
  | bit + 1, acc =>
    let doubled := acc.add acc
    multiply p n bit (if n.testBit bit then doubled.add p else doubled)

/-- Bytes as a number, the least significant first. -/
def littleEndian (bytes : List UInt8) : Nat :=
  bytes.foldr (fun b n => b.toNat + 256 * n) 0

/-- The secret factor of a seed of 32 bytes. -/
def secret (seed : List UInt8) : Nat :=
  let n := littleEndian ((Sha512.hashShort seed).take 32)
  n % 2 ^ 254 / 8 * 8 + 2 ^ 254

/-- The public key of a seed of 32 bytes. -/
def publicKey (seed : List UInt8) : List UInt8 :=
  let p := multiply base (secret seed) 255 .zero
  let z := inverse p.z
  let x := p.x * z % prime
  let y := p.y * z % prime
  let n := y + if x % 2 = 1 then 2 ^ 255 else 0
  (List.range 32).map fun k => UInt8.ofNat (n / 256 ^ k)

end RpcPolicy.Ed25519
