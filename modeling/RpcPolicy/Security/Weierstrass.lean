import RpcPolicy.Security.Der
/-! Multiples of the base points of two prime curves, for checking a public point against its
secret. -/

namespace RpcPolicy.Weierstrass

/-- A curve `y² = x³ - 3x + b` over a prime field, with its base point and the order of that. -/
structure Curve where
  /-- How many bytes a coordinate has. -/
  size : Nat
  prime : Nat
  order : Nat
  baseX : Nat
  baseY : Nat
  /-- The object identifier. -/
  identifier : List UInt8

/-- The curve of 256 bits. -/
def p256 : Curve where
  size := 32
  prime := 0xffffffff00000001000000000000000000000000ffffffffffffffffffffffff
  order := 0xffffffff00000000ffffffffffffffffbce6faada7179e84f3b9cac2fc632551
  baseX := 0x6b17d1f2e12c4247f8bce6e563a440f277037d812deb33a0f4a13945d898c296
  baseY := 0x4fe342e2fe1a7f9b8ee7eb4a7c0f9e162bce33576b315ececbb6406837bf51f5
  identifier := [0x2a, 0x86, 0x48, 0xce, 0x3d, 0x03, 0x01, 0x07]

/-- The curve of 384 bits. -/
def p384 : Curve where
  size := 48
  prime :=
    0xfffffffffffffffffffffffffffffffffffffffffffffffffffffffffffffffeffffffff0000000000000000ffffffff
  order :=
    0xffffffffffffffffffffffffffffffffffffffffffffffffc7634d81f4372ddf581a0db248b0a77aecec196accc52973
  baseX :=
    0xaa87ca22be8b05378eb1c71ef320ad746e1d3b628ba79b9859f741e082542a385502f25dbf55296c3a545e3872760ab7
  baseY :=
    0x3617de4a96262c6f5d9e98bf9292dc29f8f41dbd289a147ce9da3113b5f0b8c00a60b1ce1d7e819d7a431d7c90ea0e5f
  identifier := [0x2b, 0x81, 0x04, 0x00, 0x22]

/-- A point in Jacobian coordinates; `z = 0` is the point at infinity. -/
structure Point where
  x : Nat
  y : Nat
  z : Nat

/-- A point added to itself. -/
def double (p : Nat) (a : Point) : Point :=
  let zz := a.z * a.z % p
  let m := 3 * (a.x + zz) * (a.x + p - zz) % p
  let yy := a.y * a.y % p
  let s := 4 * a.x * yy % p
  let x := (m * m + 2 * p - 2 * s) % p
  let y := (m * (s + p - x) + 8 * (p - yy * yy % p)) % p
  ⟨x, y, 2 * a.y * a.z % p⟩

/-- The sum of two points. -/
def add (p : Nat) (a b : Point) : Point :=
  if a.z = 0 then b
  else if b.z = 0 then a
  else
    let aa := a.z * a.z % p
    let bb := b.z * b.z % p
    let u := a.x * bb % p
    let v := b.x * aa % p
    let s := a.y * bb % p * b.z % p
    let t := b.y * aa % p * a.z % p
    if u = v then
      if s = t then double p a else ⟨1, 1, 0⟩
    else
      let h := (v + p - u) % p
      let r := (t + p - s) % p
      let hh := h * h % p
      let hhh := hh * h % p
      let uhh := u * hh % p
      let x := (r * r + 3 * p - hhh - 2 * uhh) % p
      let y := (r * (uhh + p - x) + s * (p - hhh)) % p
      ⟨x, y, h * a.z % p * b.z % p⟩

/-- A multiple of a point, over the bits of the factor from the given one down. -/
def multiply (p : Nat) (a : Point) (n : Nat) : Nat → Point → Point
  | 0, acc => acc
  | bit + 1, acc =>
    let doubled := double p acc
    multiply p a n bit (if n.testBit bit then add p doubled a else doubled)

/-- Whether a point, written without compression, is the secret multiple of the base point. -/
def isPublic (c : Curve) (secret : Nat) (written : List UInt8) : Bool :=
  let x := Der.bigEndian ((written.drop 1).take c.size)
  let y := Der.bigEndian (written.drop (1 + c.size))
  let q := multiply c.prime ⟨c.baseX, c.baseY, 1⟩ secret (8 * c.size) ⟨1, 1, 0⟩
  let zz := q.z * q.z % c.prime
  0 < secret && secret < c.order && written.length = 1 + 2 * c.size && written.head? == some 4 &&
    x * zz % c.prime = q.x && y * zz % c.prime * q.z % c.prime = q.y

end RpcPolicy.Weierstrass
